import Accelerator.Kernel.Launch

/-!
# Executables

Kernels come to agents in two steps. A *code object* is a set of kernels for one instruction set;
it is checked once, when it is built. An *executable* collects code objects for particular agents,
and is then frozen: from there on it takes no more code, and each of its kernels has a number, the
*kernel object*, by which dispatch packets name it.

## Main definitions

* `CodeObject.build`: kernels that may be loaded together.
* `Executable`, `Executable.load`, `Executable.freeze`: collecting and freezing.
* `Executable.symbol?`, `Executable.symbols`: the kernels of an executable.
* `KernelTable`: kernels by their kernel objects.
-/

namespace Accelerator

/-! ### Code objects -/

/-- A checked set of kernels for one instruction set. -/
structure CodeObject where
  isa : String
  kernels : List Kernel
  deriving Inhabited

namespace CodeObject

/-- The largest alignment of an argument segment. -/
def maxKernargAlignment : UInt32 := 16

/-- The first fault of kernels in order, given the names before them: an alignment that is not a
power of two or too large, or a name that has been used. -/
def checkKernels (seen : List String) : List Kernel → Except CodeFault Unit
  | [] => .ok ()
  | k :: rest =>
    if ¬ k.kernargAlignment.toNat.isPowerOfTwo ∨ maxKernargAlignment < k.kernargAlignment then
      .error (.kernargAlignment k.name k.kernargAlignment)
    else if k.name ∈ seen then .error (.duplicateKernel k.name)
    else checkKernels (k.name :: seen) rest

/-- The code object of kernels, if they may be loaded together. -/
def build (isa : String) (kernels : List Kernel) : Except Fault CodeObject :=
  match checkKernels [] kernels with
  | .ok () => .ok ⟨isa, kernels⟩
  | .error cause => .error (.code cause)

end CodeObject

/-! ### Executables -/

/-- A kernel loaded for an agent. -/
structure Symbol where
  agent : Handle
  kernel : Kernel
  /-- The number by which packets name the kernel; 0 before the executable is frozen. -/
  kernelObject : UInt64
  deriving Inhabited

/-- Code objects loaded for agents. -/
structure Executable where
  handle : Handle
  frozen : Bool
  /-- The kernels in order of loading. -/
  symbols : List Symbol
  deriving Inhabited

/-- Kernels by the numbers by which packets name them. -/
abbrev KernelTable := List (UInt64 × Kernel)

namespace Executable

/-- An executable without code. -/
def ofHandle (h : Handle) : Executable :=
  ⟨h, false, []⟩

/-- The kernel of a name, loaded for an agent. -/
def symbol? (e : Executable) (name : String) (agent : Handle) : Option Symbol :=
  e.symbols.find? fun s => s.agent == agent && s.kernel.name == name

/-- Adds the kernels of a code object for an agent, all or none of them. -/
def load (e : Executable) (agent : Handle) (code : CodeObject) : Except Fault Executable :=
  if e.frozen then .error .frozenExecutable
  else match code.kernels.find? fun k => (e.symbol? k.name agent).isSome with
    | some k => .error (.code (.alreadyLoaded k.name agent))
    | none => .ok { e with symbols := e.symbols ++ code.kernels.map fun k => ⟨agent, k, 0⟩ }

/-- Distance between the numbers of two kernels. -/
def objectStride : UInt64 := 0x40

/-- Numbers kernels in order, from a first number on. -/
def number (first : UInt64) : List Symbol → List Symbol
  | [] => []
  | s :: rest => { s with kernelObject := first } :: number (first + objectStride) rest

/-- Numbers the kernels from a first number on and takes no more code. -/
def freeze (e : Executable) (first : UInt64) : Except Fault Executable :=
  if e.frozen then .error .frozenExecutable
  else .ok { e with frozen := true, symbols := number first e.symbols }

/-- The kernels by their numbers; there are none before the executable is frozen. -/
def table (e : Executable) : KernelTable :=
  if e.frozen then e.symbols.map fun s => (s.kernelObject, s.kernel) else []

/-- The executable as shown in messages. -/
def describe (e : Executable) : String :=
  Text.record "Executable"
    [("handle", e.handle.describe), ("frozen", if e.frozen then "true" else "false"),
      ("kernels", toString e.symbols.length)] false

end Executable

namespace KernelTable

/-- The kernel of a number. -/
def find? (t : KernelTable) (object : UInt64) : Option Kernel :=
  t.lookup object

/-- Adds kernels; a number that is added again names the kernel added last. -/
def add (t more : KernelTable) : KernelTable :=
  more.reverse ++ t

/-- Takes kernels out by their numbers. -/
def withdraw (t gone : KernelTable) : KernelTable :=
  t.filter fun entry => !(gone.any fun other => other.1 == entry.1)

end KernelTable

end Accelerator

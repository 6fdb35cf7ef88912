import Accelerator.Session.State

/-!
# Executables of a session

Loading code and making it known to dispatch packets. The kernel table of a session holds the
kernels of all frozen executables that have not been destroyed.

## Main definitions

* `Session.createExecutable`, `Session.destroyExecutable`, `Session.executable`.
* `Session.loadCode`, `Session.freezeExecutable`.
* `Session.symbol`, `Session.heldSymbol`: the kernels of an executable by name.
-/

namespace Accelerator

namespace Session

open Accelerator.Action

/-- The executable of a handle. -/
def executable (h : Handle) : Action Executable := do
  ensureOpen
  demand ((← session).executables.get? h) (.invalidExecutable h)

/-- The executable of a handle as whoever held on to it sees it, destroyed or not. -/
def heldExecutable? (s : Session) (h : Handle) : Option Executable :=
  s.executables.held? h

/-- Makes an executable. -/
def createExecutable : Action Handle := do
  ensureOpen
  let h := (← session).executables.nextHandle
  change fun s => { s with executables := s.executables.insert (.ofHandle h) }
  return h

/-- Loads a code object for an agent of the same instruction set. -/
def loadCode (h agentHandle : Handle) (code : CodeObject) : Action Unit := do
  let e ← executable h
  let a ← agent agentHandle
  require (!e.frozen) .frozenExecutable
  require (code.isa == a.info.isa) (.incompatibleIsa code.isa a.info.name a.info.isa)
  let e ← e.load a.handle code
  change fun s => s.modifyExecutable h fun _ => e

/-- Numbers the kernels of an executable and adds them to the kernel table. -/
def freezeExecutable (h : Handle) : Action Unit := do
  let e ← executable h
  let e ← e.freeze (← session).nextKernelObject
  change fun s =>
    { s with
      kernels := s.kernels.add e.table
      nextKernelObject :=
        s.nextKernelObject + Executable.objectStride * UInt64.ofNat e.symbols.length }
      |>.modifyExecutable h fun _ => e

/-- Destroys an executable and takes its kernels out of the kernel table. -/
def destroyExecutable (h : Handle) : Action Unit := do
  ensureOpen
  let (e, executables) ← demand ((← session).executables.remove h id) (.invalidExecutable h)
  change fun s => { s with executables, kernels := s.kernels.withdraw e.table }

/-- The kernel of a name in an executable, loaded for an agent. -/
def symbol (h : Handle) (name : String) (agentHandle : Handle) : Action Symbol := do
  let e ← executable h
  let a ← agent agentHandle
  demand (e.symbol? name a.handle) (.unknownSymbol name)

/-- The kernel of a name in an executable that somebody held on to. -/
def heldSymbol (h : Handle) (name : String) (agentHandle : Handle) : Action Symbol := do
  ensureOpen
  let e ← demand ((← session).heldExecutable? h) (.invalidExecutable h)
  demand (e.symbol? name agentHandle) (.unknownSymbol name)

/-- The kernels of an executable in order of loading. -/
def symbols (h : Handle) : Action (List Symbol) := do
  return (← executable h).symbols

end Session

end Accelerator

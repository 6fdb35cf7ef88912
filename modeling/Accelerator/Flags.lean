import Accelerator.Text.Blank
import Accelerator.Text.Numeral
import Accelerator.Word

/-!
# Flag masks

Two properties are sets of flags kept in a 32-bit mask: which packets an agent or queue takes, and
how a region of global memory behaves. A mask may carry bits that no flag stands for; they are
kept. As text, the flags stand by name between bars, and the bits without a name follow as one
hexadecimal number:

    KERNARG | FINE_GRAINED | 0x8

## Main definitions

* `Flags.Names`: the flags of a mask with their names.
* `Flags.text`, `Flags.ofText?`: a mask as text, and the mask that a text stands for.
* `Features`, `GlobalFlags`: the two masks.
-/

namespace Accelerator

namespace Flags

/-- The flags of a mask in order of declaration, each a name and its bits. -/
abbrev Names := List (String × UInt32)

/-- All bits that have a name. -/
def known (names : Names) : UInt32 :=
  names.foldl (fun bits flag => bits ||| flag.2) 0

/-- The flag is set: all its bits are. -/
def contains (bits flag : UInt32) : Bool :=
  bits &&& flag == flag

/-- The text of a mask: named flags first, then the bits without a name. -/
def text (names : Names) (bits : UInt32) : String :=
  let named := (names.filter fun flag => contains bits flag.2).map (·.1)
  let rest := bits &&& ~~~(known names)
  " | ".intercalate (named ++ if rest = 0 then [] else [Word.hex rest.toNat])

/-- The bits that one piece of text stands for: a hexadecimal number marked `0x`, or a name. -/
def ofPiece? (names : Names) : List Char → Option UInt32
  | '0' :: 'x' :: digits => (Numeral.read? 16 (UInt32.size - 1) digits).map UInt32.ofNat
  | name => (names.find? fun flag => flag.1.toList = name).map (·.2)

/-- The mask that a text stands for; blanks around names are skipped, and blanks alone are the
empty mask. -/
def ofText? (names : Names) (s : String) : Option UInt32 :=
  if (Text.trim s.toList).isEmpty then some 0
  else (Text.split '|' s.toList).foldlM
    (fun bits piece => (ofPiece? names (Text.trim piece)).map (bits ||| ·)) 0

end Flags

/-! ### The two masks -/

/-- The packets that an agent consumes or a queue may carry. -/
structure Features where
  bits : UInt32
  deriving DecidableEq, Repr, Inhabited

namespace Features

/-- Kernel dispatch packets. -/
def kernelDispatch : Features := ⟨1⟩

/-- Agent dispatch packets. -/
def agentDispatch : Features := ⟨2⟩

/-- The flags with their names. -/
def names : Flags.Names :=
  [("KERNEL_DISPATCH", kernelDispatch.bits), ("AGENT_DISPATCH", agentDispatch.bits)]

/-- No bit is set. -/
def isEmpty (f : Features) : Bool :=
  f.bits == 0

/-- All bits of the second mask are set in the first. -/
def contains (f flag : Features) : Bool :=
  Flags.contains f.bits flag.bits

/-- Some kind of dispatch packet is taken. -/
def canDispatch (f : Features) : Bool :=
  f.bits &&& (kernelDispatch.bits ||| agentDispatch.bits) != 0

end Features

/-- How a region of global memory behaves. -/
structure GlobalFlags where
  bits : UInt32
  deriving DecidableEq, Repr, Inhabited

namespace GlobalFlags

/-- The region can hold kernel arguments. -/
def kernarg : GlobalFlags := ⟨1⟩

/-- Agents see each other's accesses at once. -/
def fineGrained : GlobalFlags := ⟨2⟩

/-- Agents see each other's accesses at the ends of dispatches; each allocation has one owner. -/
def coarseGrained : GlobalFlags := ⟨4⟩

/-- The flags with their names. -/
def names : Flags.Names :=
  [("KERNARG", kernarg.bits), ("FINE_GRAINED", fineGrained.bits),
    ("COARSE_GRAINED", coarseGrained.bits)]

/-- No bit is set. -/
def isEmpty (f : GlobalFlags) : Bool :=
  f.bits == 0

/-- All bits of the second mask are set in the first. -/
def contains (f flag : GlobalFlags) : Bool :=
  Flags.contains f.bits flag.bits

end GlobalFlags

end Accelerator

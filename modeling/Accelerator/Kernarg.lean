import Accelerator.Dim3
import Accelerator.Enumerated
import Accelerator.Word

/-!
# Kernel arguments

The arguments of a kernel are packed into a segment: every value is stored little-endian at the
next multiple of its natural alignment, with zeros between. A builder packs values in order, and a
reader unpacks them in the same order; a value that does not fit the segment leaves the reader
where it was.

## Main definitions

* `Kernarg.Kind`, `Kernarg.Value`: the types of argument and their values.
* `Kernarg.Value.bytes`, `Kernarg.Kind.ofBytes`: the bytes of a value, and the value in bytes.
* `Kernarg.Builder`, `Kernarg.Reader`: packing and unpacking.
* `Kernarg.Reader.readAll`: reads values of given types in order, up to the first that does not fit.

## Main statements

* `Kernarg.Value.length_bytes`: a value takes the bytes of its type.
-/

namespace Accelerator

namespace Kernarg

/-! ### Types and values -/

/-- The types of kernel argument. Floating-point numbers are carried as their bit patterns. -/
inductive Kind where
  | u8
  | u16
  | u32
  | u64
  | i8
  | i16
  | i32
  | i64
  | f32
  | f64
  | u32x3
  | address
  deriving DecidableEq, Repr, Inhabited

instance : Enumerated Kind where
  members := [.u8, .u16, .u32, .u64, .i8, .i16, .i32, .i64, .f32, .f64, .u32x3, .address]
  name
    | .u8 => "u8"
    | .u16 => "u16"
    | .u32 => "u32"
    | .u64 => "u64"
    | .i8 => "i8"
    | .i16 => "i16"
    | .i32 => "i32"
    | .i64 => "i64"
    | .f32 => "f32"
    | .f64 => "f64"
    | .u32x3 => "u32x3"
    | .address => "addr"
  mem_members a := by cases a <;> decide
  name_injective a b := by cases a <;> cases b <;> decide

/-- Bytes of a value. -/
def Kind.size : Kind → Nat
  | u8 | i8 => 1
  | u16 | i16 => 2
  | u32 | i32 | f32 => 4
  | u64 | i64 | f64 | address => 8
  | u32x3 => 12

/-- Natural alignment of a value. -/
def Kind.alignment : Kind → Nat
  | u8 | i8 => 1
  | u16 | i16 => 2
  | u32 | i32 | f32 | u32x3 => 4
  | u64 | i64 | f64 | address => 8

/-- A value of one of the argument types. -/
inductive Value where
  | u8 (value : UInt8)
  | u16 (value : UInt16)
  | u32 (value : UInt32)
  | u64 (value : UInt64)
  | i8 (value : Int8)
  | i16 (value : Int16)
  | i32 (value : Int32)
  | i64 (value : Int64)
  | f32 (bits : UInt32)
  | f64 (bits : UInt64)
  | u32x3 (value : Dim3 UInt32)
  | address (value : UInt64)
  deriving DecidableEq, Repr, Inhabited

/-- The type of a value. -/
def Value.kind : Value → Kind
  | u8 _ => .u8
  | u16 _ => .u16
  | u32 _ => .u32
  | u64 _ => .u64
  | i8 _ => .i8
  | i16 _ => .i16
  | i32 _ => .i32
  | i64 _ => .i64
  | f32 _ => .f32
  | f64 _ => .f64
  | u32x3 _ => .u32x3
  | address _ => .address

/-- The bytes of a value. -/
def Value.bytes : Value → List UInt8
  | u8 v => Word.bytes 1 v.toNat
  | u16 v => Word.bytes 2 v.toNat
  | u32 v => Word.bytes 4 v.toNat
  | u64 v => Word.bytes 8 v.toNat
  | i8 v => Word.bytes 1 v.toUInt8.toNat
  | i16 v => Word.bytes 2 v.toUInt16.toNat
  | i32 v => Word.bytes 4 v.toUInt32.toNat
  | i64 v => Word.bytes 8 v.toUInt64.toNat
  | f32 v => Word.bytes 4 v.toNat
  | f64 v => Word.bytes 8 v.toNat
  | u32x3 v => Word.bytes 4 v.x.toNat ++ Word.bytes 4 v.y.toNat ++ Word.bytes 4 v.z.toNat
  | address v => Word.bytes 8 v.toNat

/-- The value of a type that bytes spell. -/
def Kind.ofBytes (t : Kind) (bs : List UInt8) : Value :=
  let n := Word.ofBytes bs
  match t with
  | u8 => .u8 (.ofNat n)
  | u16 => .u16 (.ofNat n)
  | u32 => .u32 (.ofNat n)
  | u64 => .u64 (.ofNat n)
  | i8 => .i8 (UInt8.ofNat n).toInt8
  | i16 => .i16 (UInt16.ofNat n).toInt16
  | i32 => .i32 (UInt32.ofNat n).toInt32
  | i64 => .i64 (UInt64.ofNat n).toInt64
  | f32 => .f32 (.ofNat n)
  | f64 => .f64 (.ofNat n)
  | u32x3 =>
    .u32x3 ⟨.ofNat (Word.ofBytes (bs.take 4)), .ofNat (Word.ofBytes ((bs.drop 4).take 4)),
      .ofNat (Word.ofBytes (bs.drop 8))⟩
  | address => .address (.ofNat n)

theorem Value.length_bytes (v : Value) : v.bytes.length = v.kind.size := by
  cases v <;> simp [Value.bytes, Value.kind, Kind.size]

/-! ### Packing -/

/-- A segment being packed, with the largest alignment packed so far. -/
structure Builder where
  bytes : List UInt8
  alignment : Nat
  deriving DecidableEq, Repr, Inhabited

namespace Builder

/-- An empty segment, aligned for anything of alignment 1. -/
def empty : Builder := ⟨[], 1⟩

/-- An empty segment that claims no alignment at all. -/
def unaligned : Builder := ⟨[], 0⟩

/-- The segment with a value packed behind what it holds. -/
def push (b : Builder) (v : Value) : Builder where
  bytes :=
    let start := Word.alignUp b.bytes.length v.kind.alignment
    b.bytes ++ List.replicate (start - b.bytes.length) 0 ++ v.bytes
  alignment := max b.alignment v.kind.alignment

/-- The bytes of values packed in order. -/
def pack (values : List Value) : List UInt8 :=
  (values.foldl push empty).bytes

end Builder

/-! ### Unpacking -/

/-- Why a value cannot be unpacked: it would reach past the end of the segment. -/
structure Truncated where
  offset : Nat
  needed : Nat
  length : Nat
  deriving DecidableEq, Repr, Inhabited

/-- The sentence that tells of a truncated segment. -/
def Truncated.message (t : Truncated) : String :=
  "kernarg segment too small: need " ++ toString t.needed ++ " bytes at offset " ++
    toString t.offset ++ ", segment is " ++ toString t.length ++ " bytes"

/-- A segment being unpacked, with the number of bytes unpacked so far. -/
structure Reader where
  segment : List UInt8
  position : Nat
  deriving DecidableEq, Repr, Inhabited

namespace Reader

/-- A reader at the start of a segment. -/
def ofSegment (segment : List UInt8) : Reader :=
  ⟨segment, 0⟩

/-- Unpacks the next value; the reader stays where it was when the value does not fit. -/
def read (r : Reader) (t : Kind) : Except Truncated Value × Reader :=
  let start := Word.alignUp r.position t.alignment
  if start + t.size > r.segment.length then
    (.error ⟨start, t.size, r.segment.length⟩, r)
  else
    (.ok (t.ofBytes ((r.segment.drop start).take t.size)), { r with position := start + t.size })

/-- Reads values of given types in order, up to the first that does not fit: the values, why the
next one could not be read, and where the reader stands then. -/
def readAll (r : Reader) : List Kind → List Value × Option Truncated × Reader
  | [] => ([], none, r)
  | t :: rest =>
    match r.read t with
    | (.error stop, r) => ([], some stop, r)
    | (.ok v, r) =>
      let (values, stop, r) := readAll r rest
      (v :: values, stop, r)

end Reader

end Kernarg

end Accelerator

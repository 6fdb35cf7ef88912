import Accelerator.Word

/-!
# The host

The host hands out blocks of addresses on request. Where a block lies is the host's own choice,
which may depend on all that was requested before; it may also have no block to give. So a host is
described by its choices and by the requests that it has served. Besides, the host starts threads,
or says why it cannot start one at the moment.

`Host.fresh` is a host that hands out ascending addresses: its blocks start at multiples of a page
or of the alignment asked for, lie apart from each other, and are never handed out twice. A request
of `2 ^ 36` bytes or more fails there, and so does an alignment that no block of signed size can
have. There is always a thread to be had.

## Main definitions

* `Host`: an allocator with the requests that it has served, and what it says of threads.
* `Host.allocate?`: a block for a request.
* `Host.ascending`, `Host.fresh`: blocks one behind the other.
-/

namespace Accelerator

/-- A request for a block of some bytes that starts at a multiple of an alignment. -/
structure BlockRequest where
  size : Nat
  alignment : Nat
  deriving DecidableEq, Repr

/-- The host of a session. -/
structure Host where
  /-- Where the block of the first of some requests lies, the other requests having been served
  before; nothing if it cannot be served. -/
  choose : List BlockRequest → Option UInt64
  /-- The requests that were served, the last in front. -/
  served : List BlockRequest
  /-- Why no thread can be started at the moment, if none can. -/
  threadFault : Option String

namespace Host

/-- A block of at least one byte. -/
def allocate? (h : Host) (size : Nat) (alignment : Nat) : Option (UInt64 × Host) :=
  let served := ⟨max size 1, alignment⟩ :: h.served
  (h.choose served).map fun start => (start, { h with served })

/-! ### Ascending blocks -/

/-- Bytes of a page. -/
def page : Nat := 4096

/-- Bytes that lie between two blocks at least. -/
def gap : Nat := 0x100000

/-- The first address that is handed out. -/
def base : Nat := 0x7f0000000000

/-- Where the block of a request starts if all below an address is taken. -/
def startFrom (frontier : Nat) (r : BlockRequest) : Nat :=
  Word.alignUp frontier (max r.alignment page)

/-- The first address behind all blocks of the requests. -/
def frontier : List BlockRequest → Nat
  | [] => base
  | r :: earlier => startFrom (frontier earlier) r + r.size + gap

/-- A block behind all others. -/
def ascending : List BlockRequest → Option UInt64
  | [] => none
  | r :: earlier =>
    let start := startFrom (frontier earlier) r
    if 0x1000000000 ≤ r.size ∨ 0x8000000000000000 ≤ r.alignment ∨
        UInt64.size ≤ start + r.size + gap then none
    else some (.ofNat start)

/-- The host with ascending blocks before anything has been handed out. -/
def fresh : Host := ⟨ascending, [], none⟩

instance : Inhabited Host := ⟨fresh⟩

end Host

end Accelerator

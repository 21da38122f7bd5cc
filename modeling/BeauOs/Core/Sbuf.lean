/-
The shared ring buffer (`core/sbuf.c`) and the bounded copy it uses (`lib/memory.c`).

The buffer lies in memory that another VM supplied and keeps writing: its header says where the
ring ends and where the next record goes.  A field of the header is read anew each time the code
names it, and the VM may have rewritten it in between, so a `HeaderView` says for each read of a
call, counted in the order of the source, what the header holds.  What a call does to memory is
the list of its writes.
-/
import Mathlib.Data.BitVec

namespace BeauOs.Core

def sbufHeadSize : Nat := 64

def overrunCntEn : BitVec 32 := 1#32 <<< 0

def overwriteEn : BitVec 32 := 1#32 <<< 1

/-- `UINT32_MAX` -/
def sbufCorrupted : BitVec 32 := 0xffffffff#32

/-- The fields of `struct shared_buf` that the producer reads. -/
structure SharedBuf where
  eleSize : BitVec 32
  head : BitVec 32
  tail : BitVec 32
  flags : BitVec 32
  overrunCnt : BitVec 32
  size : BitVec 32
  deriving DecidableEq

/-- The header as the reads of one call find it. -/
abbrev HeaderView := Nat → SharedBuf

/-- The header fields that belong to the producer. -/
inductive OwnField where
  | head
  | tail
  | overrunCnt
  deriving DecidableEq

def OwnField.offset : OwnField → Nat
  | .head => 16
  | .tail => 20
  | .overrunCnt => 32

inductive Write where
  | field (f : OwnField) (value : BitVec 32)
  | bytes (addr : Nat) (content : List (BitVec 8))
  deriving DecidableEq

/-- The caller's record: where it lies, and its bytes. -/
structure Source where
  addr : Nat
  byte : Nat → BitVec 8

/-- The pointer moved on by `n` bytes. -/
def Source.skip (s : Source) (n : Nat) : Source :=
  { addr := s.addr + n, byte := fun i => s.byte (n + i) }

/-- `memcpy_s`: a copy that does not fit, or overlaps, clears the destination instead. -/
def memcpyS (d dmax : Nat) (s : Source) (slen : Nat) : Int × List Write :=
  if d ≠ 0 ∧ s.addr ≠ 0 ∧ dmax ≥ slen ∧ (d > s.addr + slen ∨ s.addr > d + dmax) then
    (0, if slen ≠ 0 then [.bytes d ((List.range slen).map s.byte)] else [])
  else
    (-1, [.bytes d (List.replicate dmax 0#8)])

def sbufNextPtr (posArg span scope : BitVec 32) : BitVec 32 :=
  let pos := posArg + span
  if pos ≥ scope then pos - scope else pos

/--
`sbuf_put` on the buffer at `base`: the returned value and the writes in order.
-/
def sbufPut (base : Nat) (sbuf : HeaderView) (data : Source) (maxLen : BitVec 32) :
    BitVec 32 × List Write :=
  let eleSize := (sbuf 0).eleSize
  let nextTail := sbufNextPtr (sbuf 1).tail eleSize (sbuf 2).size
  if nextTail = (sbuf 3).head ∧ (sbuf 4).flags &&& overwriteEn = 0#32 then
    (0#32, [])
  else if eleSize ≤ maxLen then
    let triggerOverwrite := nextTail = (sbuf 5).head
    let overrun : List Write :=
      if triggerOverwrite then
        [.field .overrunCnt ((sbuf 6).overrunCnt + ((sbuf 7).flags &&& overrunCntEn))]
      else []
    -- the tail is read again here, after the check above
    let dst := base + sbufHeadSize + (sbuf 8).tail.toNat
    let copy := (memcpyS dst eleSize.toNat data maxLen.toNat).2
    let newHead : List Write :=
      if triggerOverwrite then
        [.field .head (sbufNextPtr (sbuf 9).head eleSize (sbuf 10).size)]
      else []
    (eleSize, overrun ++ copy ++ newHead ++ [.field .tail nextTail])
  else
    (sbufCorrupted, [])

/-- The buffer and the memory around it; no record goes where the header lies. -/
structure SbufMem where
  header : SharedBuf
  mem : Nat → BitVec 8

def SbufMem.write (s : SbufMem) : Write → SbufMem
  | .field .head value => { s with header.head := value }
  | .field .tail value => { s with header.tail := value }
  | .field .overrunCnt value => { s with header.overrunCnt := value }
  | .bytes addr content =>
    { s with mem := fun a => if addr ≤ a then content.getD (a - addr) (s.mem a) else s.mem a }

inductive SbufOp where
  | put (data : Source) (maxLen : BitVec 32)
  /-- the reader consumes the oldest record -/
  | get

/-- A call of `sbuf_put` that nothing comes between, or a step of the reader. -/
def SbufMem.step (base : Nat) (s : SbufMem) : SbufOp → SbufMem
  | .put data maxLen => (sbufPut base (fun _ => s.header) data maxLen).2.foldl SbufMem.write s
  | .get =>
    if s.header.head = s.header.tail then s
    else { s with header.head := sbufNextPtr s.header.head s.header.eleSize s.header.size }

/-- The loop of `sbuf_put_many` from element `i` on, `n` elements to go; `sbuf i` is what the
`i`-th call finds. -/
def putManyLoop (base : Nat) (sbuf : Nat → HeaderView) (elemSize : BitVec 32) (data : Source) :
    Nat → Nat → BitVec 32 → BitVec 32 × List Write
  | 0, _, sent => (sent, [])
  | n + 1, i, sent =>
    let put := sbufPut base (sbuf i) (data.skip (i * elemSize.toNat)) elemSize
    if put.1 = elemSize then
      let rest := putManyLoop base sbuf elemSize data n (i + 1) (sent + put.1)
      (rest.1, put.2 ++ rest.2)
    else
      (if put.1 = sbufCorrupted then sbufCorrupted else sent, put.2)

def sbufPutMany (base : Nat) (sbuf : Nat → HeaderView) (elemSize : BitVec 32) (data : Source)
    (dataSize : BitVec 32) : BitVec 32 × List Write :=
  putManyLoop base sbuf elemSize data (dataSize / elemSize).toNat 0 0#32

end BeauOs.Core

/-
The messages of the guests' IPC ring, `sdk/kbe/ipc-ring.c`.

The ring lies in memory that both VMs write.  A field of its header is read anew each time the code
names it, and the peer may have rewritten it in between, so a `HeaderView` says for each of these
reads, counted in the order of the source, what the header holds.  The positions `prod` and `cons`
are read once in a call.
-/
import Mathlib.Data.BitVec

namespace BeauOs.Kbe

def ipcRingMagic : BitVec 32 := 0x42495043#32

def ipcAbiVersion : BitVec 32 := 1#32

def ipcMessageMax : Nat := 1024

/-- `sizeof(struct beau_ipc_ring_header)` -/
def ringHeaderBytes : Nat := 192

/-- The fields of `struct beau_ipc_ring_header` that place a message. -/
structure RingHeader where
  magic : BitVec 32
  version : BitVec 32
  headerSize : BitVec 32
  ringSize : BitVec 32
  elemSize : BitVec 32
  elemCount : BitVec 32

abbrev HeaderView := Nat → RingHeader

structure IpcOutcome where
  ret : Int
  /-- the data bytes that are read or written, as offsets into the ring -/
  accesses : List Nat
  /-- bytes copied to the caller -/
  copied : Nat

def IpcOutcome.refused (ret : Int) : IpcOutcome := ⟨ret, [], 0⟩

namespace HeaderView

variable (ring : HeaderView)

def valid : Prop :=
  (ring 0).magic = ipcRingMagic ∧ (ring 1).version = ipcAbiVersion ∧
    ringHeaderBytes ≤ (ring 2).headerSize.toNat ∧ (ring 3).headerSize < (ring 4).ringSize ∧
    (ring 5).elemSize = 1#32 ∧ (ring 6).elemCount ≤ (ring 7).ringSize - (ring 8).headerSize

instance : Decidable ring.valid := inferInstanceAs (Decidable (_ ∧ _))

/-- `cap`, read after the validation -/
def cap : Nat := (ring 9).elemCount.toNat

/-- The header size that `beau_ipc_data` reads for byte `i` of a message. -/
def dataStart (i : Nat) : Nat := (ring (10 + i)).headerSize.toNat

/-- The bytes from a position on. -/
def dataOffsets (pos : BitVec 64) (count : Nat) : List Nat :=
  (List.range count).map fun i => ring.dataStart i + (pos + BitVec.ofNat 64 i).toNat % ring.cap

def writeMsg (prod cons : BitVec 64) (length : Nat) : IpcOutcome :=
  let used := (prod - cons).toNat
  if ¬ ring.valid ∨ length = 0 ∨ length > ipcMessageMax then .refused (-22)
  else if used > ring.cap then .refused (-5)
  else if ring.cap - used < length + 2 then .refused (-28)
  else ⟨0, ring.dataOffsets prod (length + 2), 0⟩

/-- `beau_ipc_read_msg` into a buffer of `capacity` bytes; the ring holds the length `length`. -/
def readMsg (prod cons : BitVec 64) (length : BitVec 16) (capacity : Nat) : IpcOutcome :=
  let available := (prod - cons).toNat
  if ¬ ring.valid then .refused (-5)
  else if available = 0 then .refused 0
  else if available > ring.cap ∨ available < 2 then .refused (-5)
  else if length.toNat = 0 ∨ length.toNat > capacity ∨ length.toNat + 2 > available then
    ⟨-90, ring.dataOffsets cons 2, 0⟩
  else ⟨length.toNat, ring.dataOffsets cons (length.toNat + 2), length.toNat⟩

end HeaderView

end BeauOs.Kbe

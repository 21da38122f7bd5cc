/-
Where the messages of the IPC ring are read and written.

The validation compares the number of elements with the room that the ring has.  The code then reads
that number again, and the header size once more for every byte, so a peer that raises one of them
after the validation moves the bytes outside the ring.  A message stays inside wherever the ring
stands exactly if the values that are read again would pass the check too (`ipc_confined_iff`).
-/
import BeauOs.Kbe.IpcRing

namespace BeauOs.Kbe

namespace HeaderView

variable (ring : HeaderView)

/-- The size of the ring; the validation reads it twice. -/
def validatedSize : Nat := min (ring 4).ringSize.toNat (ring 7).ringSize.toNat

/-- A call keeps to the header and the bytes of the ring, and to a buffer of `capacity` bytes. -/
structure Confines (capacity : Nat) (out : IpcOutcome) : Prop where
  header : ring.valid → ringHeaderBytes ≤ ring.validatedSize
  data : ∀ offset ∈ out.accesses, offset < ring.validatedSize
  copied : out.copied ≤ capacity
  divides : out.accesses ≠ [] → ring.cap ≠ 0

/-- The header sizes read for `count` bytes leave room for the elements that are counted last. -/
def Room (count : Nat) : Prop := ∀ i < count, ring.dataStart i + ring.cap ≤ ring.validatedSize

/-- A ring with `used` bytes takes a message of this length. -/
def Takes (used : BitVec 64) (length : Nat) : Prop :=
  ring.valid ∧ 0 < length ∧ length ≤ ipcMessageMax ∧ length + 2 + used.toNat ≤ ring.cap

/-- A ring with `available` bytes gives `count` of them. -/
def Gives (available : BitVec 64) (count : Nat) : Prop :=
  ring.valid ∧ count ≤ available.toNat ∧ available.toNat ≤ ring.cap

variable {ring} {capacity count copied : Nat} {ret : Int}

theorem confines_refused :
    ring.Confines capacity (.refused ret) ↔ (ring.valid → ringHeaderBytes ≤ ring.validatedSize) :=
  ⟨fun h => h.header, fun h => ⟨h, fun _ hmem => absurd hmem List.not_mem_nil, Nat.zero_le _,
    fun hne => absurd rfl hne⟩⟩

/-- Some position of the ring puts byte `i` at the end of the data. -/
theorem exists_last (i : Nat) (hcap : ring.cap ≠ 0) :
    ∃ pos : BitVec 64, (pos + BitVec.ofNat 64 i).toNat % ring.cap = ring.cap - 1 := by
  refine ⟨BitVec.ofNat 64 (ring.cap - 1) - BitVec.ofNat 64 i, ?_⟩
  have hlt : ring.cap < 2 ^ 32 := (ring 9).elemCount.isLt
  rw [BitVec.sub_add_cancel, BitVec.toNat_ofNat, Nat.mod_eq_of_lt (by omega),
    Nat.mod_eq_of_lt (by omega)]

theorem confines_offsets (hcap : ring.cap ≠ 0) (hcopied : copied ≤ capacity) :
    (∀ pos, ring.Confines capacity ⟨ret, ring.dataOffsets pos count, copied⟩) ↔
      (ring.valid → ringHeaderBytes ≤ ring.validatedSize) ∧ ring.Room count := by
  constructor
  · refine fun h => ⟨(h 0).header, fun i hi => ?_⟩
    obtain ⟨pos, hpos⟩ := ring.exists_last i hcap
    have hin := (h pos).data _ (List.mem_map_of_mem (List.mem_range.mpr hi))
    rw [hpos] at hin
    omega
  · rintro ⟨hheader, hroom⟩ pos
    refine ⟨hheader, fun offset hmem => ?_, hcopied, fun _ => hcap⟩
    obtain ⟨i, hi, rfl⟩ := List.mem_map.mp hmem
    have hmod := Nat.mod_lt (pos + BitVec.ofNat 64 i).toNat (Nat.pos_of_ne_zero hcap)
    have := hroom i (List.mem_range.mp hi)
    omega

theorem writeMsg_confines (used : BitVec 64) (length : Nat) :
    (∀ prod, ring.Confines capacity (ring.writeMsg prod (prod - used) length)) ↔
      (ring.valid → ringHeaderBytes ≤ ring.validatedSize) ∧
        (ring.Takes used length → ring.Room (length + 2)) := by
  have hused (prod : BitVec 64) : prod - (prod - used) = used := by bv_omega
  simp only [writeMsg, Takes, hused]
  split
  next hrefused =>
    rw [confines_refused, forall_const, and_iff_left]
    rintro ⟨hvalid, hpos, hmax, -⟩
    rcases hrefused with h | h | h
    · exact absurd hvalid h
    · omega
    · omega
  next htaken =>
  simp only [not_or, not_not] at htaken
  split
  next => rw [confines_refused, forall_const, and_iff_left]; omega
  next =>
  split
  next => rw [confines_refused, forall_const, and_iff_left]; omega
  next =>
  rw [confines_offsets (by omega) (Nat.zero_le _)]
  refine and_congr_right fun _ => ⟨fun h _ => h, fun h => h ⟨htaken.1, ?_⟩⟩
  omega

theorem readMsg_confines (available : BitVec 64) (length : BitVec 16) :
    (∀ cons, ring.Confines capacity (ring.readMsg (cons + available) cons length capacity)) ↔
      (ring.valid → ringHeaderBytes ≤ ring.validatedSize) ∧
        (ring.Gives available 2 → ring.Room 2) ∧
        (0 < length.toNat → length.toNat ≤ capacity → ring.Gives available (length.toNat + 2) →
          ring.Room (length.toNat + 2)) := by
  have havail (cons : BitVec 64) : cons + available - cons = available := by bv_omega
  simp only [readMsg, Gives, havail]
  split
  next hinvalid =>
    rw [confines_refused, forall_const, and_iff_left]
    exact ⟨fun h => absurd h.1 hinvalid, fun _ _ h => absurd h.1 hinvalid⟩
  next hvalid =>
  split
  next => rw [confines_refused, forall_const, and_iff_left]; omega
  next =>
  split
  next => rw [confines_refused, forall_const, and_iff_left]; omega
  next =>
  split
  next =>
    rw [confines_offsets (by omega) (Nat.zero_le _)]
    exact and_congr_right fun _ => ⟨fun h => ⟨fun _ => h, by omega⟩,
      fun h => h.1 ⟨not_not.mp hvalid, by omega⟩⟩
  next =>
    rw [confines_offsets (by omega) (by omega)]
    exact and_congr_right fun _ => ⟨fun h => ⟨fun _ i hi => h i (by omega), fun _ _ _ => h⟩,
      fun h => h.2 (by omega) (by omega) ⟨not_not.mp hvalid, by omega⟩⟩

end HeaderView

/--
**The IPC ring confines its messages exactly if its header keeps to what was validated.**  Whatever
the peer writes between two reads, a message that the ring takes or gives stays in the ring at every
position exactly if each header size read for one of its bytes leaves room for the elements.
-/
theorem ipc_confined_iff (ring : HeaderView) (used available : BitVec 64) (length capacity : Nat)
    (stored : BitVec 16) :
    ((∀ prod, ring.Confines capacity (ring.writeMsg prod (prod - used) length)) ↔
      (ring.valid → ringHeaderBytes ≤ ring.validatedSize) ∧
        (ring.Takes used length → ring.Room (length + 2))) ∧
    ((∀ cons, ring.Confines capacity (ring.readMsg (cons + available) cons stored capacity)) ↔
      (ring.valid → ringHeaderBytes ≤ ring.validatedSize) ∧
        (ring.Gives available 2 → ring.Room 2) ∧
        (0 < stored.toNat → stored.toNat ≤ capacity → ring.Gives available (stored.toNat + 2) →
          ring.Room (stored.toNat + 2))) :=
  ⟨HeaderView.writeMsg_confines used length, HeaderView.readMsg_confines available stored⟩

/-- A ring of one page whose peer raises the number of elements right after the validation. -/
def raisedCount : HeaderView := fun read =>
  ⟨ipcRingMagic, ipcAbiVersion, 192#32, 4096#32, 1#32, if read < 9 then 3904#32 else 0x10000#32⟩

/-- A message of one byte is written behind the page. -/
theorem ipc_count_raised :
    raisedCount.valid ∧ raisedCount.validatedSize = 4096 ∧
      (raisedCount.writeMsg 0x8000#64 0x8000#64 1).ret = 0 ∧
      32960 ∈ (raisedCount.writeMsg 0x8000#64 0x8000#64 1).accesses := by
  decide +kernel

end BeauOs.Kbe

/-
The records of a shared ring buffer, first in and first out.

From the head to the tail lie the records that were put last, oldest first.  A put adds its record
behind them, and the reader takes the first.  One slot stays free: a put into a buffer of
`ele_num - 1` records is refused, or pushes the oldest one out.

A record is whole only if the caller's limit is the element size.  `sbuf_put` passes the limit to
`memcpy_s` as the length of the copy, and one that is longer than the slot clears it
(`sbuf_record_cleared`).
-/
import BeauOs.Lib.Run
import BeauOs.Proofs.Core.SbufConfinement

namespace BeauOs.Core

abbrev Record := List (BitVec 8)

/-- A ring of `n` elements of `e` bytes, and what becomes of a put when it is full. -/
structure RingShape where
  e : Nat
  n : Nat
  overwrite : Bool

variable {shape : RingShape} {base h t k count : Nat} {b : SharedBuf} {mem : Nat → BitVec 8}

/-- The slot `k` behind slot `h`. -/
def RingShape.slot (shape : RingShape) (h k : Nat) : Nat :=
  if h + k < shape.n then h + k else h + k - shape.n

/-- What a put and a step of the reader are to do to the records. -/
def RingShape.fifo (shape : RingShape) (records : List Record) : SbufOp → List Record
  | .put data _ =>
    let put := records ++ [(List.range shape.e).map data.byte]
    if put.length < shape.n then put else if shape.overwrite then put.tail else records
  | .get => records.tail

theorem RingShape.slot_lt (hh : h < shape.n) (hk : k ≤ shape.n) : shape.slot h k < shape.n := by
  unfold slot
  split <;> omega

theorem RingShape.slot_succ (hh : h < shape.n) (hk : k < shape.n) :
    shape.slot (shape.slot h k) 1 = shape.slot h (k + 1) ∧
      shape.slot (shape.slot h 1) k = shape.slot h (k + 1) := by
  unfold slot
  constructor <;> split_ifs <;> omega

theorem RingShape.slot_ne (hk : k < count) (hcount : count < shape.n) :
    shape.slot h k ≠ shape.slot h count := by
  unfold slot
  split_ifs <;> omega

/-! ### The metadata -/

/-- The metadata is in order, with the head and the tail at slots `h` and `t`. -/
structure SharedBuf.At (b : SharedBuf) (shape : RingShape) (h t : Nat) : Prop where
  pos : 0 < shape.e
  ele : b.eleSize.toNat = shape.e
  size : b.size.toNat = shape.n * shape.e
  flags : b.flags &&& overwriteEn = 0#32 ↔ shape.overwrite = false
  head : b.head.toNat = h * shape.e
  tail : b.tail.toNat = t * shape.e
  head_lt : h < shape.n
  tail_lt : t < shape.n

namespace SharedBuf.At

variable (hat : b.At shape h t)

include hat

theorem next {p : BitVec 32} {i : Nat} (hp : p.toNat = i * shape.e) (hi : i < shape.n) :
    (sbufNextPtr p b.eleSize b.size).toNat = shape.slot i 1 * shape.e := by
  have hle : (i + 1) * shape.e ≤ shape.n * shape.e := Nat.mul_le_mul_right _ hi
  have hword := hat.size ▸ b.size.isLt
  have hsum : (p + b.eleSize).toNat = (i + 1) * shape.e := by
    rw [BitVec.toNat_add, hp, hat.ele, ← Nat.add_one_mul]
    exact Nat.mod_eq_of_lt (by omega)
  unfold sbufNextPtr RingShape.slot
  simp only [ge_iff_le, BitVec.le_def, hsum, hat.size]
  by_cases hend : i + 1 < shape.n
  · have hlt := Nat.mul_lt_mul_of_pos_right hend hat.pos
    rw [if_neg (Nat.not_le.mpr hlt), if_pos hend, hsum]
  · have hlast : i + 1 = shape.n := by omega
    have hsize : p + b.eleSize = b.size := BitVec.eq_of_toNat_eq (by rw [hsum, hat.size, hlast])
    rw [hlast, if_pos (Nat.le_refl _), if_neg (Nat.lt_irrefl _), hsize, BitVec.sub_self,
      Nat.sub_self, Nat.zero_mul]
    rfl

theorem full (hslot : t = shape.slot h count) (hcount : count < shape.n) :
    sbufNextPtr b.tail b.eleSize b.size = b.head ↔ count + 1 = shape.n := by
  have hh := hat.head_lt
  rw [← BitVec.toNat_inj, hat.next hat.tail hat.tail_lt, hat.head,
    Nat.mul_left_inj (Nat.ne_of_gt hat.pos), hslot, (RingShape.slot_succ hh hcount).1]
  unfold RingShape.slot
  split <;> omega

end SharedBuf.At

/-! ### The records -/

/-- The `count` records from slot `h` on, in the buffer at `base`. -/
def recordsAt (base : Nat) (shape : RingShape) (mem : Nat → BitVec 8) (h count : Nat) : List Record :=
  (List.range count).map fun k => (List.range shape.e).map fun i =>
    mem (base + sbufHeadSize + shape.slot h k * shape.e + i)

theorem recordsAt_tail (hh : h < shape.n) (hcount : count ≤ shape.n) :
    recordsAt base shape mem (shape.slot h 1) count =
      (recordsAt base shape mem h (count + 1)).tail := by
  unfold recordsAt
  rw [List.range_succ_eq_map, List.map_cons, List.tail_cons, List.map_map]
  refine List.map_congr_left fun k hk => ?_
  have hk := List.mem_range.mp hk
  rw [(RingShape.slot_succ hh (by omega)).2]
  rfl

/-- The slot at the tail takes a record, and no other slot changes. -/
theorem recordsAt_write (hcount : count < shape.n) (header : SharedBuf) (data : Source) :
    recordsAt base shape ((⟨header, mem⟩ : SbufMem).write (.bytes (base + sbufHeadSize +
        shape.slot h count * shape.e) ((List.range shape.e).map data.byte))).mem h (count + 1) =
      recordsAt base shape mem h count ++ [(List.range shape.e).map data.byte] := by
  unfold recordsAt SbufMem.write
  dsimp only
  rw [List.range_succ, List.map_append, List.map_singleton]
  congr 1
  · refine List.map_congr_left fun k hk => List.map_congr_left fun i hi => ?_
    have hi := List.mem_range.mp hi
    rcases Nat.lt_or_gt_of_ne (RingShape.slot_ne (h := h) (List.mem_range.mp hk) hcount) with hlt | hlt
    · have hle := Nat.mul_le_mul_right shape.e hlt
      rw [Nat.succ_mul] at hle
      exact if_neg (by omega)
    · have hle := Nat.mul_le_mul_right shape.e hlt
      rw [Nat.succ_mul] at hle
      rw [if_pos (by omega), List.getD_eq_getElem?_getD, List.getElem?_eq_none (by simp; omega)]
      rfl
  · refine congrArg (fun record => [record]) (List.map_congr_left fun i hi => ?_)
    rw [if_pos (Nat.le_add_right _ _), Nat.add_sub_cancel_left]
    simp [List.mem_range.mp hi]

namespace SbufMem

variable {s : SbufMem} {records : List Record}

/-- The records from the head to the tail, oldest first. -/
def Holds (base : Nat) (shape : RingShape) (s : SbufMem) (records : List Record) : Prop :=
  ∃ h count, count < shape.n ∧ s.header.At shape h (shape.slot h count) ∧
    records = recordsAt base shape s.mem h count

/-- The put is refused, or its record has the size of an element and lies apart from the slot. -/
def Copies (base : Nat) (s : SbufMem) : SbufOp → Prop
  | .put data maxLen =>
    PutRefused (fun _ => s.header) ∨ maxLen = s.header.eleSize ∧ data.addr ≠ 0 ∧
      (base + sbufHeadSize + s.header.tail.toNat > data.addr + maxLen.toNat ∨
        data.addr > base + sbufHeadSize + s.header.tail.toNat + maxLen.toNat)
  | .get => True

instance (base : Nat) (s : SbufMem) : ∀ op, Decidable (s.Copies base op)
  | .put _ _ => inferInstanceAs (Decidable ((_ ∧ _) ∨ _))
  | .get => inferInstanceAs (Decidable True)

theorem holds_of_at (base : Nat) (hat : s.header.At shape h t) : ∃ records, s.Holds base shape records := by
  have hh := hat.head_lt
  have ht := hat.tail_lt
  have hslot : shape.slot h (if h ≤ t then t - h else t + shape.n - h) = t := by
    unfold RingShape.slot
    split_ifs <;> omega
  refine ⟨_, h, if h ≤ t then t - h else t + shape.n - h, ?_, hslot.symm ▸ hat, rfl⟩
  split <;> omega

theorem Holds.put (hs : s.Holds base shape records) {data : Source} {maxLen : BitVec 32}
    (hcopy : s.Copies base (.put data maxLen)) :
    (s.step base (.put data maxLen)).Holds base shape (shape.fifo records (.put data maxLen)) := by
  obtain ⟨h, count, hcount, hat, rfl⟩ := hs
  have hh := hat.head_lt
  have hfull := hat.full rfl hcount
  have hlen : (recordsAt base shape s.mem h count ++
      [(List.range shape.e).map data.byte]).length = count + 1 := by simp [recordsAt]
  show Holds base shape ((sbufPut base (fun _ => s.header) data maxLen).2.foldl write s)
    (if _ < shape.n then _ else if shape.overwrite then _ else _)
  rw [hlen]
  by_cases hrefused : PutRefused fun _ => s.header
  · have hcount' := hfull.mp hrefused.1
    rw [if_neg (by omega), hat.flags.mp hrefused.2, sbufPut_refused hrefused]
    exact ⟨h, count, hcount, hat, rfl⟩
  obtain ⟨rfl, haddr, hapart⟩ := hcopy.resolve_left hrefused
  have hbytes : (memcpyS (base + sbufHeadSize + s.header.tail.toNat) s.header.eleSize.toNat data
      s.header.eleSize.toNat).2 = [.bytes (base + sbufHeadSize + shape.slot h count * shape.e)
        ((List.range shape.e).map data.byte)] := by
    unfold memcpyS
    rw [if_pos ⟨by unfold sbufHeadSize; omega, haddr, Nat.le_refl _, hapart⟩, hat.ele, hat.tail]
    exact if_pos (Nat.ne_of_gt hat.pos)
  obtain ⟨htail, hhead⟩ := RingShape.slot_succ hh hcount
  have hnext := htail ▸ hat.next hat.tail hat.tail_lt
  rw [sbufPut_written hrefused (BitVec.le_refl _)]
  simp only [hbytes]
  by_cases hover : count + 1 = shape.n
  · -- the oldest record makes room
    have hmode : shape.overwrite = true := by
      by_contra hoff
      exact hrefused ⟨hfull.mpr hover, hat.flags.mpr (Bool.eq_false_iff.mpr hoff)⟩
    rw [if_pos (hfull.mpr hover), if_pos (hfull.mpr hover), if_neg (by omega), if_pos hmode]
    refine ⟨shape.slot h 1, count, hcount, ⟨hat.pos, hat.ele, hat.size, hat.flags,
      hat.next hat.head hh, hhead ▸ hnext, RingShape.slot_lt hh (by omega),
      hhead ▸ RingShape.slot_lt hh (by omega)⟩, ?_⟩
    rw [recordsAt_tail hh (by omega)]
    exact congrArg List.tail (recordsAt_write hcount s.header data).symm
  · have hroom := mt hfull.mp hover
    rw [if_neg hroom, if_neg hroom, if_pos (by omega)]
    exact ⟨h, count + 1, by omega, ⟨hat.pos, hat.ele, hat.size, hat.flags, hat.head, hnext, hh,
      RingShape.slot_lt hh (by omega)⟩, (recordsAt_write hcount s.header data).symm⟩

theorem Holds.get (hs : s.Holds base shape records) :
    (s.step base .get).Holds base shape records.tail := by
  obtain ⟨h, count, hcount, hat, rfl⟩ := hs
  have hh := hat.head_lt
  have hempty : s.header.head = s.header.tail ↔ count = 0 := by
    rw [← BitVec.toNat_inj, hat.head, hat.tail, Nat.mul_left_inj (Nat.ne_of_gt hat.pos)]
    unfold RingShape.slot
    split <;> omega
  show Holds base shape (if _ then _ else _) _
  cases count with
  | zero =>
    rw [if_pos (hempty.mpr rfl)]
    exact ⟨h, 0, hcount, hat, rfl⟩
  | succ count =>
    have hslot := (RingShape.slot_succ hh (k := count) (by omega)).2
    rw [if_neg (fun heq => nomatch hempty.mp heq), ← recordsAt_tail hh (by omega)]
    exact ⟨shape.slot h 1, count, by omega, ⟨hat.pos, hat.ele, hat.size, hat.flags,
      hat.next hat.head hh, hslot ▸ hat.tail, RingShape.slot_lt hh (by omega),
      hslot ▸ hat.tail_lt⟩, rfl⟩

theorem Holds.exec : ∀ {ops : List SbufOp} {s : SbufMem} {records : List Record},
    s.Holds base shape records → Run.Along (step base) (Copies base) s ops →
    (Run.exec (step base) s ops).Holds base shape (Run.exec shape.fifo records ops) := by
  intro ops
  induction ops with
  | nil => exact fun hs _ => hs
  | cons op ops ih =>
    intro s records hs hops
    refine ih ?_ hops.2
    cases op with
    | put data maxLen => exact hs.put hops.1
    | get => exact hs.get

end SbufMem

/--
**The records from the head to the tail are those that were put last, in order**, in every run
whose puts have a record of the element size.  A buffer that is full refuses a put, or drops its
oldest record for it.
-/
theorem sbuf_records_fifo (base : Nat) (shape : RingShape) (s : SbufMem) {h t : Nat}
    (hat : s.header.At shape h t) (ops : List SbufOp)
    (hops : Run.Along (SbufMem.step base) (SbufMem.Copies base) s ops) :
    let s' := Run.exec (SbufMem.step base) s ops
    ∃ records, s.Holds base shape records ∧
      s'.Holds base shape (Run.exec shape.fifo records ops) ∧
      (Run.exec shape.fifo records ops).length < shape.n ∧
      ((Run.exec shape.fifo records ops).length + 1 = shape.n → shape.overwrite = false →
        ∀ data maxLen, sbufPut base (fun _ => s'.header) data maxLen = (0#32, [])) := by
  obtain ⟨records, hs⟩ := SbufMem.holds_of_at base hat
  have hend := hs.exec hops
  refine ⟨records, hs, hend, ?_⟩
  obtain ⟨h, count, hcount, hat, hrecords⟩ := hend
  rw [hrecords]
  simp only [recordsAt, List.length_map, List.length_range]
  exact ⟨hcount, fun hfull hmode data maxLen => sbufPut_refused
    ⟨(hat.full rfl hcount).mpr hfull, hat.flags.mpr hmode⟩ base data maxLen⟩

/-- Three elements of two bytes, none of them used. -/
def smallRing (flags : BitVec 32) : SbufMem := ⟨⟨2#32, 0#32, 0#32, flags, 0#32, 6#32⟩, fun _ => 0#8⟩

def putByte (byte : BitVec 8) (maxLen : BitVec 32) : SbufOp := .put ⟨0x1000, fun _ => byte⟩ maxLen

/-- The third record pushes the first one out, and the second is read. -/
theorem sbuf_records_fifo_overwrite :
    let s := smallRing overwriteEn
    let ops := [putByte 1#8 2#32, putByte 2#8 2#32, putByte 3#8 2#32, .get]
    ∃ records, s.Holds 0x2000 ⟨2, 3, true⟩ records ∧
      (Run.exec (SbufMem.step 0x2000) s ops).Holds 0x2000 ⟨2, 3, true⟩
        (Run.exec (RingShape.fifo ⟨2, 3, true⟩) records ops) := by
  obtain ⟨records, hs, hend, -⟩ := sbuf_records_fifo 0x2000 ⟨2, 3, true⟩ (smallRing overwriteEn)
    (h := 0) (t := 0) ⟨by decide, rfl, rfl, by decide, rfl, rfl, by decide, by decide⟩
    [putByte 1#8 2#32, putByte 2#8 2#32, putByte 3#8 2#32, .get] (by decide)
  exact ⟨records, hs, hend⟩

/-- A caller that allows more than an element finds its record stored as zeros. -/
theorem sbuf_record_cleared :
    let s := (smallRing 0#32).step 0x2000 (putByte 7#8 4#32)
    s.header.At ⟨2, 3, false⟩ 0 1 ∧ recordsAt 0x2000 ⟨2, 3, false⟩ s.mem 0 1 = [[0#8, 0#8]] := by
  exact ⟨⟨by decide, rfl, rfl, by decide, rfl, rfl, by decide, by decide⟩, by decide⟩

end BeauOs.Core

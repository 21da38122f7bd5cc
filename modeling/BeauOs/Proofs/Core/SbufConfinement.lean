/-
Where the shared ring buffer is written.

A call may write the three header fields the producer owns and the data area that was registered
with the buffer; everything else belongs to someone else.  `sbuf_put` compares the element size
with the length of the caller's record, and it compares the next tail with the head.  It never
compares the tail itself with anything, so the record goes wherever the tail points, up to four
gigabytes past the header.  The calls that stay inside are therefore exactly those whose tail,
as it is read for the copy, leaves room for one element (`PutSafe`).
-/
import BeauOs.Core.Sbuf

namespace BeauOs.Core

/-! ### What a write covers -/

def Write.Covers (base : Nat) : Write → Nat → Prop
  | .field f _, a => base + f.offset ≤ a ∧ a < base + f.offset + 4
  | .bytes addr content, a => addr ≤ a ∧ a < addr + content.length

/-- The bytes a producer may write: its header fields and the registered data area. -/
def Permitted (base area a : Nat) : Prop :=
  (∃ f : OwnField, base + f.offset ≤ a ∧ a < base + f.offset + 4) ∨
    (base + sbufHeadSize ≤ a ∧ a < base + sbufHeadSize + area)

/-- Every write stays within what the producer may write. -/
def Confined (base area : Nat) (ws : List Write) : Prop :=
  ∀ w ∈ ws, ∀ a, w.Covers base a → Permitted base area a

theorem confined_nil (base area : Nat) : Confined base area [] := by
  intro w hw
  cases hw

theorem confined_append {base area : Nat} {ws ws' : List Write} :
    Confined base area (ws ++ ws') ↔ Confined base area ws ∧ Confined base area ws' := by
  unfold Confined
  constructor
  · intro h
    exact ⟨fun w hw => h w (List.mem_append_left _ hw),
      fun w hw => h w (List.mem_append_right _ hw)⟩
  · intro h w hw
    rcases List.mem_append.mp hw with hw | hw
    · exact h.1 w hw
    · exact h.2 w hw

theorem confined_field (base area : Nat) (f : OwnField) (value : BitVec 32) :
    Confined base area [.field f value] := by
  intro w hw a ha
  rw [List.mem_singleton.mp hw] at ha
  exact .inl ⟨f, ha⟩

theorem confined_ite_field {base area : Nat} {p : Prop} [Decidable p] (f : OwnField)
    (value : BitVec 32) : Confined base area (if p then [.field f value] else []) := by
  split
  · exact confined_field base area f value
  · exact confined_nil base area

/-- No header field reaches the data area. -/
theorem OwnField.offset_lt (f : OwnField) : f.offset + 4 ≤ sbufHeadSize := by
  cases f <;> decide

/-- Bytes written past the header are permitted exactly if they end within the area. -/
theorem confined_bytes {base area off : Nat} {content : List (BitVec 8)} :
    Confined base area [.bytes (base + sbufHeadSize + off) content] ↔
      content.length = 0 ∨ off + content.length ≤ area := by
  constructor
  · intro h
    by_cases hlen : content.length = 0
    · exact .inl hlen
    -- the last byte of the write decides
    have hcover : (Write.bytes (base + sbufHeadSize + off) content).Covers base
        (base + sbufHeadSize + off + content.length - 1) :=
      ⟨by omega, by omega⟩
    rcases h _ (List.mem_singleton.mpr rfl) _ hcover with ⟨f, -, hlt⟩ | ⟨-, hlt⟩
    · have hoff := f.offset_lt
      omega
    · exact .inr (by omega)
  · intro h w hw a ha
    rw [List.mem_singleton.mp hw] at ha
    obtain ⟨hle, hlt⟩ := ha
    refine .inr ⟨by omega, ?_⟩
    rcases h with hzero | hfit <;> omega

/-! ### The copy -/

/-- Whether it copies or clears, `memcpy_s` writes the whole destination when the record is at
least as long. -/
theorem confined_memcpyS {base area off dmax slen : Nat} {s : Source} (h : dmax ≤ slen) :
    Confined base area (memcpyS (base + sbufHeadSize + off) dmax s slen).2 ↔
      dmax = 0 ∨ off + dmax ≤ area := by
  unfold memcpyS
  split
  next hcopy =>
    have hlen : slen = dmax := by omega
    by_cases hzero : slen = 0
    · rw [if_neg (by omega)]
      exact ⟨fun _ => .inl (by omega), fun _ => confined_nil base area⟩
    · rw [if_pos hzero, confined_bytes, List.length_map, List.length_range, hlen]
  next =>
    rw [confined_bytes, List.length_replicate]

/-! ### One record -/

/-- The ring is full and may not overwrite. -/
def PutRefused (sbuf : HeaderView) : Prop :=
  sbufNextPtr (sbuf 1).tail (sbuf 0).eleSize (sbuf 2).size = (sbuf 3).head ∧
    (sbuf 4).flags &&& overwriteEn = 0#32

/--
The put is refused, the element is longer than the record or empty, or the tail as it is read for
the copy leaves room for one element in the data area.
-/
def PutSafe (area : Nat) (sbuf : HeaderView) (maxLen : BitVec 32) : Prop :=
  PutRefused sbuf ∨ maxLen < (sbuf 0).eleSize ∨ (sbuf 0).eleSize.toNat = 0 ∨
    (sbuf 8).tail.toNat + (sbuf 0).eleSize.toNat ≤ area

variable {sbuf : HeaderView}

theorem sbufPut_refused (hfull : PutRefused sbuf) (base : Nat) (data : Source)
    (maxLen : BitVec 32) : sbufPut base sbuf data maxLen = (0#32, []) :=
  if_pos hfull

theorem sbufPut_long {maxLen : BitVec 32} (hfull : ¬ PutRefused sbuf)
    (hle : ¬ (sbuf 0).eleSize ≤ maxLen) (base : Nat) (data : Source) :
    sbufPut base sbuf data maxLen = (sbufCorrupted, []) :=
  (if_neg hfull).trans (if_neg hle)

/-- A put that writes copies one element to where the tail points. -/
theorem sbufPut_written {maxLen : BitVec 32} (hfull : ¬ PutRefused sbuf)
    (hle : (sbuf 0).eleSize ≤ maxLen) (base : Nat) (data : Source) :
    let nextTail := sbufNextPtr (sbuf 1).tail (sbuf 0).eleSize (sbuf 2).size
    sbufPut base sbuf data maxLen = ((sbuf 0).eleSize,
      (if nextTail = (sbuf 5).head then
        [.field .overrunCnt ((sbuf 6).overrunCnt + ((sbuf 7).flags &&& overrunCntEn))] else []) ++
      (memcpyS (base + sbufHeadSize + (sbuf 8).tail.toNat) (sbuf 0).eleSize.toNat data
        maxLen.toNat).2 ++
      (if nextTail = (sbuf 5).head then
        [.field .head (sbufNextPtr (sbuf 9).head (sbuf 0).eleSize (sbuf 10).size)] else []) ++
      [.field .tail nextTail]) :=
  (if_neg hfull).trans (if_pos hle)

theorem confined_sbufPut (base area : Nat) (sbuf : HeaderView) (data : Source)
    (maxLen : BitVec 32) :
    Confined base area (sbufPut base sbuf data maxLen).2 ↔ PutSafe area sbuf maxLen := by
  by_cases hfull : PutRefused sbuf
  · rw [sbufPut_refused hfull]
    exact ⟨fun _ => .inl hfull, fun _ => confined_nil base area⟩
  by_cases hle : (sbuf 0).eleSize ≤ maxLen
  · rw [sbufPut_written hfull hle]
    simp only [confined_append, confined_ite_field, confined_field, true_and, and_true]
    rw [confined_memcpyS (BitVec.le_def.mp hle)]
    constructor
    · exact fun h => .inr (.inr h)
    · rintro (h | h | h)
      · exact absurd h hfull
      · exact absurd hle (BitVec.not_le.mpr h)
      · exact h
  · rw [sbufPut_long hfull hle]
    exact ⟨fun _ => .inr (.inl (BitVec.not_le.mp hle)), fun _ => confined_nil base area⟩

/-! ### A batch of records -/

/-- The put takes a whole element, and the batch goes on. -/
def PutTakes (sbuf : HeaderView) (elemSize : BitVec 32) : Prop :=
  ¬ PutRefused sbuf ∧ (sbuf 0).eleSize = elemSize

theorem sbufPut_eq_elemSize {base : Nat} {data : Source}
    {elemSize : BitVec 32} (hpos : elemSize ≠ 0#32) :
    (sbufPut base sbuf data elemSize).1 = elemSize ↔ PutTakes sbuf elemSize := by
  by_cases hfull : PutRefused sbuf
  · rw [sbufPut_refused hfull]
    exact ⟨fun h => absurd h.symm hpos, fun h => absurd hfull h.1⟩
  by_cases hle : (sbuf 0).eleSize ≤ elemSize
  · rw [sbufPut_written hfull hle]
    exact ⟨fun h => ⟨hfull, h⟩, fun h => h.2⟩
  rw [sbufPut_long hfull hle]
  constructor
  · -- no element is longer than the largest word
    intro h
    have hlt := BitVec.lt_def.mp (BitVec.not_le.mp hle)
    have hmax : elemSize.toNat = 4294967295 := by
      rw [← show sbufCorrupted = elemSize from h]
      rfl
    have := (sbuf 0).eleSize.isLt
    omega
  · intro h
    rw [h.2] at hle
    exact absurd (BitVec.le_refl elemSize) hle

/-- Every element the batch comes to is put safely. -/
theorem confined_putManyLoop {base area : Nat} {sbuf : Nat → HeaderView} {elemSize : BitVec 32}
    {data : Source} (hpos : elemSize ≠ 0#32) :
    ∀ (n i : Nat) (sent : BitVec 32),
      Confined base area (putManyLoop base sbuf elemSize data n i sent).2 ↔
        ∀ k < n, (∀ j < k, PutTakes (sbuf (i + j)) elemSize) →
          PutSafe area (sbuf (i + k)) elemSize := by
  intro n
  induction n with
  | zero =>
    intro i sent
    exact ⟨fun _ k hk => absurd hk (by omega), fun _ => confined_nil base area⟩
  | succ n ih =>
    intro i sent
    unfold putManyLoop
    by_cases htakes : PutTakes (sbuf i) elemSize
    · rw [if_pos ((sbufPut_eq_elemSize hpos).mpr htakes), confined_append, confined_sbufPut, ih]
      constructor
      · rintro ⟨hfirst, hrest⟩ k hk hall
        cases k with
        | zero => exact hfirst
        | succ k =>
          have h := hrest k (by omega) (fun j hj => by
            have := hall (j + 1) (by omega)
            rwa [← Nat.add_assoc, Nat.add_right_comm] at this)
          rwa [Nat.add_right_comm, Nat.add_assoc] at h
      · intro h
        refine ⟨h 0 (by omega) (fun j hj => absurd hj (by omega)), fun k hk hall => ?_⟩
        have hnext := h (k + 1) (by omega) (fun j hj => by
          cases j with
          | zero => exact htakes
          | succ j =>
            have := hall j (by omega)
            rwa [Nat.add_right_comm, Nat.add_assoc] at this)
        rwa [← Nat.add_assoc, Nat.add_right_comm] at hnext
    · rw [if_neg (fun h => htakes ((sbufPut_eq_elemSize hpos).mp h)), confined_sbufPut]
      constructor
      · intro h k hk hall
        cases k with
        | zero => exact h
        | succ k => exact absurd (hall 0 (by omega)) htakes
      · intro h
        exact h 0 (by omega) (fun j hj => absurd hj (by omega))

/--
**A put, and a batch of puts, stays within the header fields it owns and the registered data area
exactly if the tail leaves room for the element whenever one is written.**
-/
theorem sbuf_confined_iff (base area : Nat) (data : Source) (sbuf : HeaderView)
    (maxLen : BitVec 32) (sbufs : Nat → HeaderView) (elemSize dataSize : BitVec 32) :
    (Confined base area (sbufPut base sbuf data maxLen).2 ↔ PutSafe area sbuf maxLen) ∧
    (Confined base area (sbufPutMany base sbufs elemSize data dataSize).2 ↔
      ∀ k < (dataSize / elemSize).toNat, (∀ j < k, PutTakes (sbufs j) elemSize) →
        PutSafe area (sbufs k) elemSize) := by
  refine ⟨confined_sbufPut base area sbuf data maxLen, ?_⟩
  unfold sbufPutMany
  by_cases hpos : elemSize = 0#32
  · -- nothing to divide by: the division gives zero and no element is put
    subst hpos
    rw [show (dataSize / 0#32).toNat = 0 by simp]
    exact ⟨fun _ k hk => absurd hk (by omega), fun _ => confined_nil base area⟩
  · rw [confined_putManyLoop hpos]
    simp only [Nat.zero_add]

/-- A header that says 4096 bytes of ring, with the tail far outside it. -/
def strayTail : SharedBuf :=
  { eleSize := 8#32, head := 0#32, tail := 0xffff0000#32, flags := 0#32, overrunCnt := 0#32,
    size := 4096#32 }

/-- The record of eight bytes lands four gigabytes past a data area of 4096 bytes. -/
theorem sbuf_stray_tail :
    (sbufPut 0x100000 (fun _ => strayTail) ⟨0x1000, fun _ => 7#8⟩ 8#32).1 = 8#32 ∧
      ¬ Confined 0x100000 4096 (sbufPut 0x100000 (fun _ => strayTail) ⟨0x1000, fun _ => 7#8⟩ 8#32).2 ∧
      ¬ Confined 0x100000 4096
        (sbufPutMany 0x100000 (fun _ _ => strayTail) 8#32 ⟨0x1000, fun _ => 7#8⟩ 8#32).2 := by
  have hunsafe : ¬ PutSafe 4096 (fun _ => strayTail) 8#32 := by
    unfold PutSafe PutRefused
    decide
  refine ⟨by decide, ?_, ?_⟩
  · rw [confined_sbufPut]
    exact hunsafe
  · intro h
    have hall := (confined_putManyLoop (by decide) 1 0 0#32).mp h
    exact hunsafe (hall 0 (by omega) (fun j hj => absurd hj (by omega)))

end BeauOs.Core

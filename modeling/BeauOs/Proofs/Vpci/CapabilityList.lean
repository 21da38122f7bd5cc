/-
The capability list of an emulated PCI device.

A capability is added behind the last one, and the pointer that ended the list is set to it, so the
list grows at its end and nothing below the new capability changes but that pointer.  This needs an
offset for the capability.  The next free offset has eight bits and is 0 once the space is full to
the last byte, and a length above 252 is rounded up to 0, so the space is full without being
refused (`capability_past_end`).
-/
import BeauOs.Lib.Run
import BeauOs.Vpci.Capability

namespace BeauOs.Vpci

/-! ### Lists of capabilities -/

variable {cfg cfg' : Nat → BitVec 8} {caps : List (Nat × Nat)} {place low off len : Nat}

/--
The pointers from `place` on lead through capabilities with these offsets and lengths and then end:
each one is aligned, behind the one before it and inside the configuration space.
-/
def ListsFrom (cfg : Nat → BitVec 8) : Nat → Nat → List (Nat × Nat) → Prop
  | place, _, [] => cfg place = 0#8
  | place, low, (off, len) :: rest =>
    (cfg place).toNat = off ∧ low ≤ off ∧ off % 4 = 0 ∧ 2 ≤ len ∧ off + len ≤ 0x100 ∧
      ListsFrom cfg (off + 1) (off + len) rest

/-- Where a list ends: its last pointer, and the end of its last capability. -/
def listEnd : Nat → Nat → List (Nat × Nat) → Nat × Nat
  | place, low, [] => (place, low)
  | _, _, (off, len) :: rest => listEnd (off + 1) (off + len) rest

theorem listEnd_snoc : listEnd place low (caps ++ [(off, len)]) = (off + 1, off + len) := by
  induction caps generalizing place low with
  | nil => rfl
  | cons cap rest ih => exact ih

theorem ListsFrom.bounds (h : ListsFrom cfg place low caps) (hlt : place < low) :
    place ≤ (listEnd place low caps).1 ∧ (listEnd place low caps).1 < (listEnd place low caps).2 ∧
      low ≤ (listEnd place low caps).2 := by
  induction caps generalizing place low with
  | nil => exact ⟨Nat.le_refl _, hlt, Nat.le_refl _⟩
  | cons cap rest ih =>
    obtain ⟨-, hlow, -, hlen, -, hrest⟩ := h
    have := ih hrest (by omega)
    unfold listEnd
    omega

/-- A capability behind the last one, with the last pointer set to it. -/
theorem ListsFrom.snoc (h : ListsFrom cfg place low caps) (hlt : place < low)
    (hoff : (listEnd place low caps).2 ≤ off) (halign : off % 4 = 0) (hlen : 2 ≤ len)
    (hin : off + len ≤ 0x100) (hlast : (cfg' (listEnd place low caps).1).toNat = off)
    (hnext : cfg' (off + 1) = 0#8) (hsame : ∀ i, place ≤ i → i < off →
      i ≠ (listEnd place low caps).1 → cfg' i = cfg i) :
    ListsFrom cfg' place low (caps ++ [(off, len)]) := by
  induction caps generalizing place low with
  | nil => exact ⟨hlast, hoff, halign, hlen, hin, hnext⟩
  | cons cap rest ih =>
    obtain ⟨hcap, hlow, halign', hlen', hin', hrest⟩ := h
    have hbounds := hrest.bounds (by omega)
    unfold listEnd at hoff hlast hsame
    refine ⟨?_, hlow, halign', hlen', hin', ih hrest (by omega) hoff hlast fun i hi => ?_⟩
    · rw [hsame place (Nat.le_refl _) (by omega) (by omega)]
      exact hcap
    · exact hsame i (by omega)

/-! ### Adding a capability -/

namespace CapSpace

variable {v : CapSpace}

theorem linked_of_ge {i : Nat} (hi : 0x34 ≤ i) :
    v.linked i = if i = v.place then v.capoff else v.cfg i := by
  have hne : i ≠ 0x06 := by omega
  unfold linked
  split <;> simp [Function.update_apply, hne]

variable {capdata : List (BitVec 8)}

theorem inserted_below {i : Nat} (hi : i < v.capoff.toNat) :
    v.inserted capdata i = v.linked i := by
  unfold inserted
  rw [Function.update_of_ne (by omega), if_neg (by omega)]

theorem inserted_present (hplace : 0x34 ≤ v.place) (hoff : v.place < v.capoff.toNat) :
    decide (v.inserted capdata 0x06 &&& 0x10#8 ≠ 0#8) = true := by
  have hne : 0x06 ≠ v.place := by omega
  rw [inserted_below (by omega), decide_eq_true_eq]
  unfold linked
  split
  next hpresent =>
    rw [Function.update_of_ne hne]
    exact of_decide_eq_true hpresent
  next =>
    rw [Function.update_self]
    generalize v.cfg 0x06 = status
    revert status
    decide

end CapSpace

/-- A device with the capabilities that were added to it. -/
structure CapRun where
  space : CapSpace
  caps : List (Nat × Nat)

namespace CapRun

variable {x : CapRun} {capdata : List (BitVec 8)}

def step (x : CapRun) (capdata : List (BitVec 8)) : CapRun :=
  let out := x.space.addCapability capdata
  ⟨out.2, if out.1 = 0 then x.caps else x.caps ++ [(out.1, capdata.length)]⟩

/-- A length that is not rounded up to 256, for a space that is not full. -/
def Fits (x : CapRun) (capdata : List (BitVec 8)) : Prop :=
  2 ≤ capdata.length ∧ capdata.length ≤ 252 ∧
    ¬ (x.space.present = true ∧ x.space.freeCapoff = 0#8)

instance (x : CapRun) (capdata : List (BitVec 8)) : Decidable (x.Fits capdata) :=
  inferInstanceAs (Decidable (_ ∧ _))

theorem Fits.capoff_ne_zero (h : x.Fits capdata) : x.space.capoff.toNat ≠ 0 := by
  unfold CapSpace.capoff
  split
  next hpresent => exact fun hzero => h.2.2 ⟨hpresent, BitVec.eq_of_toNat_eq hzero⟩
  next => decide

/-- A call that returns 0 changes nothing. -/
theorem Fits.refused (h : x.Fits capdata) (hret : (x.space.addCapability capdata).1 = 0) :
    (x.space.addCapability capdata).2 = x.space := by
  unfold CapSpace.addCapability at hret ⊢
  dsimp only at hret ⊢
  split at hret
  next => exact absurd hret h.capoff_ne_zero
  next hfull => rw [if_neg hfull]

structure Inv (x : CapRun) : Prop where
  lists : ListsFrom x.space.cfg 0x34 0x40 x.caps
  place : x.space.place = (listEnd 0x34 0x40 x.caps).1
  aligned : x.space.capoff.toNat % 4 = 0
  free : x.space.capoff.toNat = 0 ∨ (listEnd 0x34 0x40 x.caps).2 ≤ x.space.capoff.toNat

theorem Inv.listsInserted (hinv : x.Inv) (hfits : x.Fits capdata)
    (hin : x.space.capoff.toNat + capdata.length ≤ 0x100) :
    ListsFrom (x.space.inserted capdata) 0x34 0x40
      (x.caps ++ [(x.space.capoff.toNat, capdata.length)]) := by
  have hoff := hinv.free.resolve_left hfits.capoff_ne_zero
  have hbounds := hinv.lists.bounds (by decide)
  refine hinv.lists.snoc (by decide) hoff hinv.aligned hfits.1 hin ?_ ?_
    fun i hi hlt hne => ?_
  · rw [CapSpace.inserted_below (by omega), CapSpace.linked_of_ge hbounds.1, if_pos hinv.place.symm]
  · unfold CapSpace.inserted
    rw [Function.update_self]
  · rw [CapSpace.inserted_below hlt, CapSpace.linked_of_ge hi, if_neg (hinv.place ▸ hne)]

theorem Inv.step (hinv : x.Inv) (hfits : x.Fits capdata) : (x.step capdata).Inv := by
  have hnot := hfits.capoff_ne_zero
  have hoff := hinv.free.resolve_left hnot
  have hbounds := hinv.lists.bounds (by decide)
  rw [← hinv.place] at hbounds
  have hlen := hfits.2.1
  have hreal : (CapSpace.reallen capdata.length).toNat = (capdata.length + 3) / 4 * 4 := by
    rw [CapSpace.reallen, BitVec.toNat_ofNat]
    exact Nat.mod_eq_of_lt (by omega)
  have hpresent : CapSpace.present ⟨x.space.inserted capdata, x.space.capoff,
      x.space.capoff + CapSpace.reallen capdata.length⟩ = true :=
    CapSpace.inserted_present hbounds.1 (by omega)
  have haligned := hinv.aligned
  unfold CapRun.step CapSpace.addCapability
  by_cases hroom : x.space.capoff.toNat + (CapSpace.reallen capdata.length).toNat ≤ 0x100
  · simp only [if_pos hroom, if_neg hnot]
    refine ⟨hinv.listsInserted hfits (by omega), ?_, ?_, ?_⟩
    · rw [listEnd_snoc, CapSpace.place, if_pos hpresent]
    · rw [CapSpace.capoff, if_pos hpresent, BitVec.toNat_add]
      omega
    · rw [CapSpace.capoff, if_pos hpresent, BitVec.toNat_add, listEnd_snoc]
      dsimp only
      omega
  · simp only [if_neg hroom, if_true]
    exact hinv

def boot (cfg : Nat → BitVec 8) (prevCapoff freeCapoff : BitVec 8) : CapRun :=
  ⟨⟨cfg, prevCapoff, freeCapoff⟩, []⟩

end CapRun

/--
**The capability list is well formed** after any calls that fit, on a device that had none, and a
call that returns 0 changes nothing.
-/
theorem capability_list_wellFormed (cfg : Nat → BitVec 8) (prevCapoff freeCapoff : BitVec 8)
    (hnone : cfg 0x06 &&& 0x10#8 = 0#8) (hptr : cfg 0x34 = 0#8) (calls : List (List (BitVec 8)))
    (hcalls : Run.Along CapRun.step CapRun.Fits (.boot cfg prevCapoff freeCapoff) calls) :
    let x := Run.exec CapRun.step (.boot cfg prevCapoff freeCapoff) calls
    ListsFrom x.space.cfg 0x34 0x40 x.caps ∧
      ∀ capdata, x.Fits capdata → (x.space.addCapability capdata).1 = 0 →
        (x.space.addCapability capdata).2 = x.space := by
  have hpresent : ¬ (CapRun.boot cfg prevCapoff freeCapoff).space.present = true :=
    fun h => of_decide_eq_true h hnone
  have hoff : (CapRun.boot cfg prevCapoff freeCapoff).space.capoff = 0x40#8 := if_neg hpresent
  have hboot : (CapRun.boot cfg prevCapoff freeCapoff).Inv :=
    ⟨hptr, if_neg hpresent, by rw [hoff]; rfl, .inr (by rw [hoff]; exact Nat.le_refl _)⟩
  exact ⟨(Run.inv_exec (fun _ _ hx hfits => hx.step hfits) hboot hcalls).lists,
    fun _ hfits => hfits.refused⟩

/-- A device without capabilities gets two of them, and has no room for a third one. -/
theorem capability_list_two :
    let x := Run.exec CapRun.step (.boot (fun _ => 0#8) 0#8 0#8) [[0x11#8, 0xff#8, 0#8], [0x05#8, 0xff#8]]
    ListsFrom x.space.cfg 0x34 0x40 [(0x40, 3), (0x44, 2)] ∧
      (x.space.addCapability (List.replicate 190 1#8)).2 = x.space := by
  obtain ⟨hlists, hrefused⟩ := capability_list_wellFormed (fun _ => 0#8) 0#8 0#8 rfl rfl
    [[0x11#8, 0xff#8, 0#8], [0x05#8, 0xff#8]] (by decide +kernel)
  exact ⟨hlists, hrefused _ (by decide +kernel) (by decide +kernel)⟩

/-- The space is filled to the last byte; the next call returns 0 and writes over its beginning. -/
theorem capability_past_end :
    let x := Run.exec CapRun.step (.boot (fun _ => 0#8) 0#8 0#8) [List.replicate 192 1#8]
    x.caps = [(0x40, 192)] ∧ (x.space.addCapability [5#8, 0#8]).1 = 0 ∧
      (x.space.addCapability [5#8, 0#8]).2.cfg 0 = 5#8 ∧ x.space.cfg 0 = 0#8 := by
  decide +kernel

end BeauOs.Vpci

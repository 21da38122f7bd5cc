/-
The guest virtual copy functions are the architectural translation, a page at a time.

`gvaTranslate` walks as the architecture does, but only for the first byte of a chunk.  The bytes
of a page are translated together: the walk for another byte of the page goes through the same
descriptors, at both stages, and ends the same distance further on (`Stage1Walk.add`,
`Stage2Maps.add`).
-/
import BeauOs.Guest.ArmTranslation
import Mathlib.Tactic.SplitIfs

namespace BeauOs.Guest

open Arm GuestVm
open BitVec (ofNat ofNat_add toNat_and toNat_ofNat eq_of_toNat_eq getLsbD_ushiftRight)

/-! ### Offsets in a page -/

/-- The address `k` bytes further on is in the same page. -/
def SamePage (va : BitVec 64) (k : Nat) : Prop := va.toNat % 4096 + k < 4096

namespace SamePage

variable {va : BitVec 64} {k : Nat}

theorem toNat_add (h : SamePage va k) : (va + ofNat 64 k).toNat = va.toNat + k := by
  unfold SamePage at h
  have hlt := va.isLt
  rw [BitVec.toNat_add, toNat_ofNat, Nat.mod_eq_of_lt (show k < 2 ^ 64 by omega)]
  exact Nat.mod_eq_of_lt (by omega)

theorem div_eq (h : SamePage va k) {shift : Nat} (hshift : 12 ≤ shift) :
    (va.toNat + k) / 2 ^ shift = va.toNat / 2 ^ shift := by
  obtain ⟨m, rfl⟩ := Nat.exists_eq_add_of_le hshift
  unfold SamePage at h
  rw [Nat.pow_add, ← Nat.div_div_eq_div_mul, ← Nat.div_div_eq_div_mul]
  congr 1
  omega

theorem index_eq (h : SamePage va k) {shift : Nat} (hshift : 12 ≤ shift) :
    (va + ofNat 64 k) >>> shift = va >>> shift := by
  apply eq_of_toNat_eq
  rw [BitVec.toNat_ushiftRight, BitVec.toNat_ushiftRight, Nat.shiftRight_eq_div_pow,
    Nat.shiftRight_eq_div_pow, h.toNat_add, h.div_eq hshift]

theorem getLsbD_eq (hpage : SamePage va k) {i : Nat} (hi : 12 ≤ i) :
    (va + ofNat 64 k).getLsbD i = va.getLsbD i := by
  have h := congrArg (BitVec.getLsbD · (i - 12)) (hpage.index_eq (Nat.le_refl 12))
  simp only [getLsbD_ushiftRight] at h
  rwa [show 12 + (i - 12) = i by omega] at h

end SamePage

variable {va va' : BitVec 64} {shift i : Nat}

theorem toNat_lowBits (va : BitVec 64) (hshift : shift < 64) :
    (va &&& ((1#64 <<< shift) - 1#64)).toNat = va.toNat % 2 ^ shift := by
  have hpow : 2 ^ shift < 2 ^ 64 := Nat.pow_lt_pow_right (by decide) hshift
  have hone : (1#64 <<< shift).toNat = 2 ^ shift := by
    rw [BitVec.toNat_shiftLeft, Nat.shiftLeft_eq, show (1#64).toNat = 1 from rfl, Nat.one_mul]
    exact Nat.mod_eq_of_lt hpow
  have hpos := Nat.two_pow_pos shift
  have hmask : ((1#64 <<< shift) - 1#64).toNat = 2 ^ shift - 1 := by
    have hle : 1#64 ≤ 1#64 <<< shift := by
      rw [BitVec.le_def, hone]
      exact hpos
    rw [BitVec.toNat_sub_of_le hle, hone]
    rfl
  rw [toNat_and, hmask, Nat.and_two_pow_sub_one_eq_mod]

theorem SamePage.lowBits_eq {k : Nat} (h : SamePage va k) (hshift : 12 ≤ shift) (hle : shift ≤ 39) :
    (va + ofNat 64 k) &&& ((1#64 <<< shift) - 1#64) =
      (va &&& ((1#64 <<< shift) - 1#64)) + ofNat 64 k := by
  have hk : k < 2 ^ 64 := by
    unfold SamePage at h
    omega
  have hlt : shift < 64 := by omega
  have hpow : 2 ^ shift < 2 ^ 64 := Nat.pow_lt_pow_right (by decide) hlt
  -- the quotient is the same, so the remainder moves by `k`
  have hrem : (va.toNat + k) % 2 ^ shift = va.toNat % 2 ^ shift + k := by
    have hn := Nat.div_add_mod (va.toNat + k) (2 ^ shift)
    have hm := Nat.div_add_mod va.toNat (2 ^ shift)
    rw [h.div_eq hshift] at hn
    omega
  have hsum : va.toNat % 2 ^ shift + k < 2 ^ 64 := by
    have := Nat.mod_lt (va.toNat + k) (Nat.two_pow_pos shift)
    omega
  apply eq_of_toNat_eq
  rw [toNat_lowBits _ hlt, h.toNat_add, BitVec.toNat_add, toNat_lowBits _ hlt, toNat_ofNat,
    Nat.mod_eq_of_lt hk, hrem, Nat.mod_eq_of_lt hsum]

/-! ### The other bytes of a page -/

namespace Arm

variable {vm : GuestVm} {mem : BitVec 64 → BitVec 8} {write : Bool} {va gpa hpa : BitVec 64}
  {k : Nat}

def LevelsOk (shifts : List Nat) : Prop := ∀ shift ∈ shifts, 12 ≤ shift ∧ shift ≤ 39

theorem levelsOk_levels : LevelsOk levels := by
  unfold LevelsOk
  decide

variable {shift : Nat} {table : BitVec 64}

theorem LevelsOk.tail {lower : List Nat} (h : LevelsOk (shift :: lower)) :
    LevelsOk lower := fun s hs => h s (List.mem_cons_of_mem shift hs)

theorem Stage2Leaf.add {s2 : Stage2Tables} {ipa descriptor : BitVec 64} {leaf : Nat}
    {shifts : List Nat} (h : Stage2Leaf s2 ipa shifts table descriptor leaf)
    (hlevels : LevelsOk shifts) (hpage : SamePage ipa k) :
    Stage2Leaf s2 (ipa + ofNat 64 k) shifts table descriptor leaf ∧
      12 ≤ leaf ∧ leaf ≤ 39 := by
  induction h with
  | page _ htype =>
    exact ⟨.page (by rwa [hpage.index_eq (by decide)]) htype, by decide, by decide⟩
  | @block shift _ _ _ _ htype hshift hlast =>
    have hle := hlevels shift List.mem_cons_self
    exact ⟨.block (by rwa [hpage.index_eq hle.1]) htype hshift hlast, hle⟩
  | @table shift _ _ _ _ _ _ htype hlast _ ih =>
    have hle := hlevels shift List.mem_cons_self
    obtain ⟨hlower, hleaf⟩ := ih hlevels.tail
    exact ⟨.table (by rwa [hpage.index_eq hle.1]) htype hlast hlower, hleaf⟩

theorem Stage2Maps.add (h : Stage2Maps vm write gpa hpa) (hpage : SamePage gpa k) :
    Stage2Maps vm write (gpa + ofNat 64 k) (hpa + ofNat 64 k) := by
  obtain ⟨descriptor, leaf, hleaf, hattr, hread, hwrite, rfl⟩ := h
  obtain ⟨hleaf', hle, hlt⟩ := hleaf.add levelsOk_levels hpage
  refine ⟨descriptor, leaf, hleaf', hattr, hread, hwrite, ?_⟩
  rw [hpage.lowBits_eq hle hlt, BitVec.add_assoc]

/-- A walk for an address that has the same entries ends where its leaves say. -/
theorem Stage1Walk.transport {va' : BitVec 64} {shifts : List Nat} (f : BitVec 64 → BitVec 64)
    (hentry : ∀ (table : BitVec 64) {shift : Nat}, 12 ≤ shift → shift ≤ 39 →
      entryGpa table va' shift = entryGpa table va shift)
    (hleaf : ∀ (descriptor : BitVec 64) {shift : Nat}, 12 ≤ shift → shift ≤ 39 →
      leafOutput shift descriptor va' = f (leafOutput shift descriptor va))
    (h : Stage1Walk vm mem write va shifts table gpa) (hlevels : LevelsOk shifts) :
    Stage1Walk vm mem write va' shifts table (f gpa) := by
  induction h with
  | page _ htype hallows =>
    rw [← hleaf _ (by decide) (by decide)]
    exact .page (by rwa [hentry _ (by decide) (by decide)]) htype hallows
  | @block shift _ _ _ _ htype hshift hlast hallows =>
    obtain ⟨hle, hlt⟩ := hlevels shift List.mem_cons_self
    rw [← hleaf _ hle hlt]
    exact .block (by rwa [hentry _ hle hlt]) htype hshift hlast hallows
  | @table shift _ _ _ _ _ htype hlast haptable _ ih =>
    obtain ⟨hle, hlt⟩ := hlevels shift List.mem_cons_self
    exact .table (by rwa [hentry _ hle hlt]) htype hlast haptable (ih hlevels.tail)

/-- The walk for another byte of the page ends the same distance further on. -/
theorem Stage1Walk.add {shifts : List Nat} (h : Stage1Walk vm mem write va shifts table gpa)
    (hlevels : LevelsOk shifts) (hpage : SamePage va k) :
    Stage1Walk vm mem write (va + ofNat 64 k) shifts table (gpa + ofNat 64 k) := by
  refine h.transport (· + ofNat 64 k) (fun table shift hle _ => ?_)
    (fun descriptor shift hle hlt => ?_) hlevels
  · unfold entryGpa
    rw [hpage.index_eq hle]
  · unfold leafOutput
    rw [hpage.lowBits_eq hle hlt, BitVec.add_assoc]

theorem Selects.add {context : GvaContext} {ttbr : BitVec 64} (h : Selects context va ttbr)
    (hpage : SamePage va k) : Selects context (va + ofNat 64 k) ttbr := by
  have hcanonical (tbi : Bool) (hc : Canonical tbi va) :
      Canonical tbi (va + ofNat 64 k) := by
    intro i hi hlt htbi
    rw [hpage.getLsbD_eq (by omega), hpage.getLsbD_eq (by decide)]
    exact hc i hi hlt htbi
  unfold Selects at h ⊢
  rw [hpage.getLsbD_eq (by decide)]
  split at h
  next hhigh =>
    rw [if_pos hhigh]
    exact ⟨hcanonical _ h.1, h.2⟩
  next hlow =>
    rw [if_neg hlow]
    exact ⟨hcanonical _ h.1, h.2⟩

theorem Stage1Maps.add {context : GvaContext} (h : Stage1Maps vm mem context write va gpa)
    (hpage : SamePage va k) :
    Stage1Maps vm mem context write (va + ofNat 64 k) (gpa + ofNat 64 k) := by
  unfold Stage1Maps at h ⊢
  split at h
  next hon =>
    rw [if_pos hon]
    obtain ⟨ttbr, hselects, hwalk⟩ := h
    exact ⟨ttbr, hselects.add hpage, hwalk.add levelsOk_levels hpage⟩
  next hoff =>
    rw [if_neg hoff, h]

end Arm

/-! ### The RAM window -/

namespace GuestVm

variable {vm : GuestVm} {mem : BitVec 64 → BitVec 8} {write : Bool} {gpa hpa : BitVec 64}

variable {size k i : Nat} {x : BitVec 64}

theorem inRam_of_rangeValid (hsize : size < 2 ^ 64)
    (h : vm.ram.rangeValid gpa (ofNat 64 size) = true) (hk : k < size) :
    InRam vm (gpa + ofNat 64 k) := by
  unfold GuestRam.rangeValid at h
  simp only [Bool.and_eq_true, Bool.not_eq_true', decide_eq_true_eq, decide_eq_false_iff_not] at h
  obtain ⟨⟨⟨⟨⟨-, -⟩, hwindow⟩, hwrap⟩, hstart⟩, hend⟩ := h
  have hsz : (ofNat 64 size).toNat = size := by
    rw [toNat_ofNat]
    exact Nat.mod_eq_of_lt hsize
  have hkn : (ofNat 64 k).toNat = k := by
    rw [toNat_ofNat]
    exact Nat.mod_eq_of_lt (by omega)
  unfold InRam
  generalize ofNat 64 size = sz at *
  generalize ofNat 64 k = kk at *
  have h1 : (vm.ram.start + vm.ram.size).toNat = vm.ram.start.toNat + vm.ram.size.toNat := by
    bv_omega
  have h2 : (gpa + sz).toNat = gpa.toNat + sz.toNat := by bv_omega
  have h3 : (gpa + kk).toNat = gpa.toNat + kk.toNat := by
    rw [BitVec.toNat_add]
    have := (gpa + sz).isLt
    exact Nat.mod_eq_of_lt (by omega)
  have h4 : vm.ram.start.toNat ≤ gpa.toNat := hstart
  have h5 : (gpa + sz).toNat ≤ (vm.ram.start + vm.ram.size).toNat := hend
  omega

theorem gpa2hpa_eq (h : vm.ram.rangeValid gpa 1#64 = true) :
    vm.gpa2hpa gpa = vm.ramHpa + (gpa - vm.ram.start) := if_pos h

/-! ### Results -/

/-- A result is as `P` says, and an error is not zero. -/
def Returns {α : Type} (P : α → Prop) : Except Int α → Prop
  | .ok a => P a
  | .error ret => ret ≠ 0

theorem Returns.imp {α : Type} {P Q : α → Prop} {result : Except Int α} (h : Returns P result)
    (himp : ∀ a, P a → Q a) : Returns Q result := by
  cases result with
  | ok a => exact himp a h
  | error ret => exact h

/-! ### Stage 2 -/

theorem setLeaf_spec {shift : Nat} {ipa descriptor : BitVec 64} {steps : List (BitVec 64)}
    (h : (setLeaf shift ipa descriptor steps).result = .mapped) :
    (setLeaf shift ipa descriptor steps).steps = steps ∧
      (setLeaf shift ipa descriptor steps).hpa =
        (descriptor &&& pfnMask) + (ipa &&& ((1#64 <<< shift) - 1#64)) := by
  unfold setLeaf at h ⊢
  simp only at h ⊢
  split at h
  next => cases h
  next hok =>
    rw [if_neg hok]
    exact ⟨rfl, rfl⟩

/-- A walk that ends mapped has found a leaf as the architecture does. -/
theorem stage2Loop_spec (s2 : Stage2Tables) (ipa : BitVec 64) :
    ∀ (shifts : List Nat) (table : BitVec 64) (steps : List (BitVec 64)),
      (stage2Loop s2 ipa shifts table steps).result = .mapped →
      ∃ descriptor leaf, Stage2Leaf s2 ipa shifts table descriptor leaf ∧
        (stage2Loop s2 ipa shifts table steps).steps.getLast? = some descriptor ∧
        (stage2Loop s2 ipa shifts table steps).hpa =
          (descriptor &&& pfnMask) + (ipa &&& ((1#64 <<< leaf) - 1#64)) := by
  intro shifts
  induction shifts with
  | nil =>
    intro table steps h
    cases h
  | cons shift lower ih =>
    intro table steps h
    unfold stage2Loop at h ⊢
    simp only at h ⊢
    generalize hread : s2.descriptor table ((ipa >>> shift) &&& 511#64) = descriptor at h ⊢
    have hlast : (steps ++ [descriptor]).getLast? = some descriptor := List.getLast?_concat ..
    split at h
    next => cases h
    next hvalid =>
    rw [if_neg hvalid]
    split at h
    next h12 =>
      subst h12
      rw [if_pos rfl]
      split at h
      next => cases h
      next htype =>
      rw [if_neg htype]
      obtain ⟨hsteps, hhpa⟩ := setLeaf_spec h
      exact ⟨descriptor, 12, .page hread (not_not.mp htype), by rw [hsteps]; exact hlast,
        hhpa⟩
    next h12 =>
    rw [if_neg h12]
    split at h
    next htype =>
      rw [if_pos htype]
      split at h
      next => cases h
      next h39 =>
      rw [if_neg h39]
      obtain ⟨hsteps, hhpa⟩ := setLeaf_spec h
      exact ⟨descriptor, shift, .block hread htype h39 h12,
        by rw [hsteps]; exact hlast, hhpa⟩
    next htype =>
    rw [if_neg htype]
    split at h
    next => cases h
    next htable =>
    rw [if_neg htable]
    obtain ⟨final, leaf, hleaf, hrest⟩ := ih _ _ h
    rw [not_or, not_not] at htable
    exact ⟨final, leaf, .table hread htable.1 h12 hleaf, hrest⟩

theorem stage2Walk_returns (vm : GuestVm) (ipa : BitVec 64) :
    Returns (· = stage2Loop vm.s2 ipa levels vm.s2.root []) (vm.stage2Walk ipa) := by
  unfold stage2Walk
  split_ifs
  case neg => rfl
  all_goals
    simp only [Returns]
    decide

theorem validateGpa_spec (h : vm.validateGpa gpa write = 0) :
    vm.ram.rangeValid gpa 1#64 = true ∧ Stage2Maps vm write gpa (vm.gpa2hpa gpa) := by
  have hreturns := stage2Walk_returns vm gpa
  unfold validateGpa at h
  split at h
  next => exact absurd h (show -Pm.eFault ≠ 0 by decide)
  next hrange =>
  refine ⟨(Bool.not_eq_false _).mp hrange, ?_⟩
  split at h
  next ret hwalk =>
    rw [hwalk] at hreturns
    exact absurd h hreturns
  next walk hwalk =>
  rw [hwalk] at hreturns
  obtain rfl : walk = _ := hreturns
  split at h
  next => exact absurd h (show -Pm.eFault ≠ 0 by decide)
  next descriptor hlast =>
  split at h
  next => exact absurd h (show -Pm.eFault ≠ 0 by decide)
  next hmapped =>
  split at h
  next => exact absurd h (show -Pm.eAcces ≠ 0 by decide)
  next hok =>
  simp only [not_or, not_and, not_not] at hok
  obtain ⟨hattr, hread, hwrite, -, hhpa⟩ := hok
  obtain ⟨d, leaf, hleaf, hlast', hhpa'⟩ :=
    stage2Loop_spec vm.s2 gpa levels vm.s2.root [] (not_not.mp hmapped)
  obtain rfl : descriptor = d := Option.some.inj (hlast.symm.trans hlast')
  exact ⟨descriptor, leaf, hleaf, hattr, hread, hwrite, hhpa.symm.trans hhpa'⟩

/-! ### Bytes in the window -/

/-- A host address that belongs to the VM's RAM. -/
def InWindow (vm : GuestVm) (hpa : BitVec 64) : Prop :=
  ∃ gpa, InRam vm gpa ∧ hpa = vm.ramHpa + (gpa - vm.ram.start)

theorem gpaRange_spec (h : vm.gpaRange gpa size = .ok hpa) :
    vm.ram.rangeValid gpa (ofNat 64 size) = true ∧ hpa = vm.gpa2hpa gpa ∧
      vm.ram.rangeValid gpa 1#64 = true := by
  unfold gpaRange at h
  split at h
  next hok =>
    refine ⟨hok.1, (Except.ok.inj h).symm, ?_⟩
    by_contra hrange
    exact hok.2.1 (if_neg hrange)
  next => cases h

theorem gpaRange_hpa (h : vm.gpaRange gpa size = .ok hpa) (k : Nat) :
    hpa + ofNat 64 k = vm.ramHpa + (gpa + ofNat 64 k - vm.ram.start) := by
  obtain ⟨-, rfl, hrange⟩ := gpaRange_spec h
  rw [gpa2hpa_eq hrange]
  generalize ofNat 64 k = kk
  bv_omega

theorem inWindow_of_gpaRange (hsize : size < 2 ^ 64) (h : vm.gpaRange gpa size = .ok hpa)
    (hk : k < size) : InWindow vm (hpa + ofNat 64 k) :=
  ⟨gpa + ofNat 64 k, inRam_of_rangeValid hsize (gpaRange_spec h).1 hk, gpaRange_hpa h k⟩

/-- A checked address and a checked range give every byte of the range that is in the same page. -/
theorem byteAt_of_valid (hsize : size < 2 ^ 64) (hvalid : vm.validateGpa gpa write = 0)
    (h : vm.gpaRange gpa size = .ok hpa) (hk : k < size) (hpage : SamePage gpa k) :
    ByteAt vm write (gpa + ofNat 64 k) (hpa + ofNat 64 k) := by
  refine ⟨inRam_of_rangeValid hsize (gpaRange_spec h).1 hk, gpaRange_hpa h k, ?_⟩
  rw [(gpaRange_spec h).2.1]
  exact (validateGpa_spec hvalid).2.add hpage

theorem wordAt_byte (hk : k < 8) :
    (wordAt mem hpa >>> (8 * k)).setWidth 8 = mem (hpa + ofNat 64 k) := by
  have hcases : k = 0 ∨ k = 1 ∨ k = 2 ∨ k = 3 ∨ k = 4 ∨ k = 5 ∨ k = 6 ∨ k = 7 := by omega
  unfold wordAt
  rcases hcases with rfl | rfl | rfl | rfl | rfl | rfl | rfl | rfl
  all_goals
    apply BitVec.eq_of_getLsbD_eq
    intro i hi
    simp (disch := omega) only [BitVec.getLsbD_setWidth, getLsbD_ushiftRight,
      BitVec.getLsbD_append, hi, decide_true, Bool.true_and, if_pos, if_neg]
    congr 1
    omega

/-- A walk returns what `P` says, and has touched the VM's RAM only. -/
structure Walks (vm : GuestVm) (P : BitVec 64 → Prop)
    (out : Except Int (BitVec 64) × List (BitVec 64)) : Prop where
  result : Returns P out.1
  touched : ∀ a ∈ out.2, InWindow vm a

theorem Walks.nil {P : BitVec 64 → Prop} {result : Except Int (BitVec 64)}
    (h : Returns P result) : Walks vm P (result, []) :=
  ⟨h, fun _ ha => absurd ha List.not_mem_nil⟩

theorem gpaRange_error {ret : Int} (h : vm.gpaRange gpa size = .error ret) : ret ≠ 0 := by
  unfold gpaRange at h
  split at h
  · cases h
  · cases h
    decide

theorem readPte_walks (hpage : SamePage gpa 7) :
    Walks vm (ReadsWord vm mem gpa) (vm.readPte mem gpa) := by
  unfold readPte
  split
  next hvalid => exact .nil hvalid
  next hvalid =>
  split
  next hrange => exact .nil (gpaRange_error hrange)
  next hpa hrange =>
  refine ⟨fun k hk => ⟨hpa + ofNat 64 k, ?_, (wordAt_byte hk).symm⟩, fun a ha => ?_⟩
  · refine byteAt_of_valid (by decide) (not_not.mp hvalid) hrange hk ?_
    unfold SamePage at hpage ⊢
    omega
  · obtain ⟨k, hk, rfl⟩ := List.mem_map.mp ha
    exact inWindow_of_gpaRange (by decide) hrange (List.mem_range.mp hk)

/-! ### Single bits -/

theorem and_bit (x : BitVec 64) (i : Nat) :
    x &&& (1#64 <<< i) = if x.getLsbD i then 1#64 <<< i else 0#64 := BitVec.and_twoPow x i

theorem bit_of_and_ne_zero (h : x &&& (1#64 <<< i) ≠ 0#64) : x.getLsbD i = true := by
  rw [and_bit] at h
  split at h
  next hbit => exact hbit
  next => exact absurd rfl h

theorem bit_of_and_eq_zero (hi : 1#64 <<< i ≠ 0#64) (h : x &&& (1#64 <<< i) = 0#64) :
    x.getLsbD i = false := by
  rw [and_bit] at h
  split at h
  next => exact absurd h hi
  next hbit => exact (Bool.not_eq_true _).mp hbit

theorem lowTwo (x : BitVec 64) : x &&& 3#64 = (x &&& 2#64) ||| (x &&& 1#64) := by
  rw [← BitVec.and_or_distrib_left]
  rfl

theorem type_table (hvalid : x &&& 1#64 ≠ 0#64) (htable : x &&& 2#64 ≠ 0#64) :
    x &&& 3#64 = 3#64 := by
  have h0 : x &&& (1#64 <<< 0) ≠ 0#64 := hvalid
  have h1 : x &&& (1#64 <<< 1) ≠ 0#64 := htable
  rw [lowTwo, show x &&& 2#64 = 1#64 <<< 1 from (and_bit x 1).trans (if_pos (bit_of_and_ne_zero h1)),
    show x &&& 1#64 = 1#64 <<< 0 from (and_bit x 0).trans (if_pos (bit_of_and_ne_zero h0))]
  rfl

theorem type_block (hvalid : x &&& 1#64 ≠ 0#64) (htable : x &&& 2#64 = 0#64) :
    x &&& 3#64 = 1#64 := by
  have h0 : x &&& (1#64 <<< 0) ≠ 0#64 := hvalid
  rw [lowTwo, htable,
    show x &&& 1#64 = 1#64 <<< 0 from (and_bit x 0).trans (if_pos (bit_of_and_ne_zero h0))]
  rfl

theorem upperBit_of_field (h : ¬ (x >>> i) &&& 3#64 ≥ 2#64) : x.getLsbD (i + 1) = false := by
  have hlt : ((x >>> i) &&& 3#64).toNat < 2 := Nat.not_le.mp h
  have hmod : ((x >>> i) &&& 3#64).toNat = (x >>> i).toNat % 4 := by
    rw [toNat_and]
    exact Nat.and_two_pow_sub_one_eq_mod _ 2
  have hbit : x.getLsbD (i + 1) = (x >>> i).toNat.testBit 1 := by
    rw [← getLsbD_ushiftRight]
    rfl
  rw [hbit, Nat.testBit_eq_decide_div_mod_eq, decide_eq_false_iff_not]
  omega

/-! ### Stage 1 -/

theorem gvaLeaf_returns (vm : GuestVm) (gva : BitVec 64) (write : Bool) (shift : Nat)
    (descriptor : BitVec 64) :
    Returns (fun gpa => LeafAllows write descriptor ∧ gpa = leafOutput shift descriptor gva ∧
      vm.validateGpa gpa write = 0) (vm.gvaLeaf gva write shift descriptor) := by
  unfold gvaLeaf
  simp only
  split
  next => exact (show -Pm.eAcces ≠ 0 by decide)
  next hallows =>
  split
  next => exact (show -Pm.eFault ≠ 0 by decide)
  next =>
  split
  next hvalid => exact hvalid
  next hvalid =>
    rw [not_or, not_and] at hallows
    exact ⟨⟨bit_of_and_ne_zero hallows.1, fun hw => upperBit_of_field (hallows.2 hw)⟩, rfl,
      not_not.mp hvalid⟩

/-- A table address, as the walk masks it. -/
def Aligned (table : BitVec 64) : Prop := table.toNat % 4096 = 0 ∧ table.toNat < 2 ^ 48

theorem aligned_pfnMask (x : BitVec 64) : Aligned (x &&& pfnMask) := by
  constructor
  · have hzero : (x &&& pfnMask) &&& ((1#64 <<< 12) - 1#64) = 0#64 := by
      rw [BitVec.and_assoc, show pfnMask &&& ((1#64 <<< 12) - 1#64) = 0#64 by decide,
        BitVec.and_zero]
    have hmod := toNat_lowBits (x &&& pfnMask) (show 12 < 64 by decide)
    rw [hzero] at hmod
    exact hmod.symm
  · rw [toNat_and]
    exact Nat.lt_of_le_of_lt Nat.and_le_right (show pfnMask.toNat < 2 ^ 48 by decide)

theorem Aligned.entry_samePage {table va : BitVec 64} (h : Aligned table) (shift : Nat) :
    SamePage (entryGpa table va shift) 7 := by
  have hindex : ((va >>> shift) &&& 511#64).toNat < 512 := by
    have h511 : ((va >>> shift) &&& 511#64).toNat = (va >>> shift).toNat % 512 := by
      rw [toNat_and]
      exact Nat.and_two_pow_sub_one_eq_mod _ 9
    omega
  unfold SamePage entryGpa
  generalize (va >>> shift) &&& 511#64 = index at hindex
  have hmul : (index * 8#64).toNat = index.toNat * 8 := by
    rw [BitVec.toNat_mul]
    exact Nat.mod_eq_of_lt (by simp; omega)
  have hadd : (table + index * 8#64).toNat = table.toNat + index.toNat * 8 := by
    rw [BitVec.toNat_add, hmul]
    exact Nat.mod_eq_of_lt (by have := h.2; omega)
  rw [hadd]
  have := h.1
  omega

theorem gvaLoop_walks {gva : BitVec 64} :
    ∀ (shifts : List Nat) (table : BitVec 64), Aligned table →
      Walks vm (fun gpa => Stage1Walk vm mem write gva shifts table gpa ∧
        vm.validateGpa gpa write = 0) (vm.gvaLoop mem gva write shifts table) := by
  have hfault : -Pm.eFault ≠ 0 := by decide
  intro shifts
  induction shifts with
  | nil => exact fun _ _ => .nil hfault
  | cons shift lower ih =>
    intro table haligned
    have hpte : Walks vm (ReadsWord vm mem (entryGpa table gva shift))
        (vm.readPte mem (entryGpa table gva shift)) :=
      readPte_walks (haligned.entry_samePage shift)
    unfold gvaLoop
    simp only
    split
    next => exact .nil hfault
    next =>
    unfold entryGpa at hpte
    split
    next ret touched hread =>
      rw [hread] at hpte
      exact ⟨hpte.result, hpte.touched⟩
    next descriptor touched hread =>
    rw [hread] at hpte
    have hword : ReadsWord vm mem _ descriptor := hpte.result
    split
    next => exact ⟨hfault, hpte.touched⟩
    next hvalid =>
    split
    next h12 =>
      subst h12
      split
      next => exact ⟨hfault, hpte.touched⟩
      next htable =>
        refine ⟨(gvaLeaf_returns vm gva write 12 descriptor).imp ?_, hpte.touched⟩
        rintro _ ⟨hallows, rfl, hvalidGpa⟩
        exact ⟨.page hword (type_table hvalid htable) hallows, hvalidGpa⟩
    next h12 =>
    split
    next hblock =>
      split
      next => exact ⟨hfault, hpte.touched⟩
      next h39 =>
        refine ⟨(gvaLeaf_returns vm gva write shift descriptor).imp ?_, hpte.touched⟩
        rintro _ ⟨hallows, rfl, hvalidGpa⟩
        exact ⟨.block hword (type_block hvalid hblock) h39 h12 hallows, hvalidGpa⟩
    next htable =>
    split
    next => exact ⟨show -Pm.eAcces ≠ 0 by decide, hpte.touched⟩
    next hap =>
    rw [not_and] at hap
    have hrest := ih _ (aligned_pfnMask descriptor)
    refine ⟨hrest.result.imp fun _ hwalk => ⟨.table hword
      (type_table hvalid htable) h12 (fun hw => upperBit_of_field (hap hw)) hwalk.1,
      hwalk.2⟩, fun a ha => ?_⟩
    rcases List.mem_append.mp ha with ha | ha
    · exact hpte.touched a ha
    · exact hrest.touched a ha

end GuestVm

/-! ### The address that is walked -/

/-- The walk looks at the low 48 bits of the address only. -/
def SameLow (va va' : BitVec 64) : Prop := ∀ i < 48, va.getLsbD i = va'.getLsbD i

theorem SameLow.index_eq (h : SameLow va va') (hle : shift ≤ 39) :
    (va >>> shift) &&& 511#64 = (va' >>> shift) &&& 511#64 := by
  have hmask : ∀ i < 64, 9 ≤ i → (511#64).getLsbD i = false := by decide
  apply BitVec.eq_of_getLsbD_eq
  intro i hi
  rw [BitVec.getLsbD_and, BitVec.getLsbD_and, getLsbD_ushiftRight,
    getLsbD_ushiftRight]
  by_cases h9 : 9 ≤ i
  · rw [hmask i hi h9, Bool.and_false, Bool.and_false]
  · rw [h (shift + i) (by omega)]

theorem SameLow.lowBits_eq (h : SameLow va va') (hle : shift ≤ 39) :
    va &&& ((1#64 <<< shift) - 1#64) = va' &&& ((1#64 <<< shift) - 1#64) := by
  have hwidth : va.setWidth 48 = va'.setWidth 48 := by
    apply BitVec.eq_of_getLsbD_eq
    intro i hi
    rw [BitVec.getLsbD_setWidth, BitVec.getLsbD_setWidth, h i hi]
  have h48 : va.toNat % 2 ^ 48 = va'.toNat % 2 ^ 48 := by
    rw [← BitVec.toNat_setWidth, ← BitVec.toNat_setWidth, hwidth]
  have hdvd : 2 ^ shift ∣ 2 ^ 48 := Nat.pow_dvd_pow 2 (by omega)
  apply eq_of_toNat_eq
  rw [toNat_lowBits va (by omega), toNat_lowBits va' (by omega), ← Nat.mod_mod_of_dvd _ hdvd, h48,
    Nat.mod_mod_of_dvd _ hdvd]

variable {mem : BitVec 64 → BitVec 8}

theorem Arm.Stage1Walk.sameLow {vm : GuestVm} {write : Bool}
    {gpa table : BitVec 64} {shifts : List Nat}
    (hwalk : Stage1Walk vm mem write va shifts table gpa) (hlevels : LevelsOk shifts)
    (h : SameLow va va') : Stage1Walk vm mem write va' shifts table gpa := by
  refine hwalk.transport id (fun table shift _ hle => ?_) (fun descriptor shift _ hle => ?_) hlevels
  · unfold entryGpa
    rw [h.index_eq hle]
  · unfold leafOutput
    rw [h.lowBits_eq hle]
    rfl

/-! ### Choosing the table -/

theorem bits_of_isLow (h : gvaIsLow va 16 = true) (hi : 48 ≤ i) : va.getLsbD i = false := by
  unfold gvaIsLow at h
  simp only [Bool.and_eq_true, decide_eq_true_eq] at h
  have hbit := congrArg (BitVec.getLsbD · (i - 48)) h.2
  simp only [getLsbD_ushiftRight, BitVec.getLsbD_zero] at hbit
  rwa [show 64 - 16 + (i - 48) = i by omega] at hbit

theorem bits_of_isHigh (h : gvaIsHigh va 16 = true) (hi : 48 ≤ i) (hlt : i < 64) :
    va.getLsbD i = true := by
  unfold gvaIsHigh at h
  simp only [Bool.and_eq_true, decide_eq_true_eq] at h
  have hones : ∀ j < 16, ((1#64 <<< 16) - 1#64).getLsbD j = true := by decide
  have hbit := congrArg (BitVec.getLsbD · (i - 48)) h.2
  simp only [getLsbD_ushiftRight, hones (i - 48) (by omega)] at hbit
  rwa [show 64 - 16 + (i - 48) = i by omega] at hbit

/-- An address without its top byte, and one with the top byte set, is the same below it. -/
theorem getLsbD_untagged (va : BitVec 64) (hi : i < 56) :
    (va &&& 0x00ffffffffffffff#64).getLsbD i = va.getLsbD i := by
  have hmask : ∀ j < 56, (0x00ffffffffffffff#64).getLsbD j = true := by decide
  rw [BitVec.getLsbD_and, hmask i hi, Bool.and_true]

theorem getLsbD_tagged (va : BitVec 64) (hi : i < 56) :
    ((va &&& 0x00ffffffffffffff#64) ||| 0xff00000000000000#64).getLsbD i = va.getLsbD i := by
  have hmask : ∀ j < 56, (0xff00000000000000#64).getLsbD j = false := by decide
  rw [BitVec.getLsbD_or, hmask i hi, Bool.or_false, getLsbD_untagged va hi]

theorem ttbrUnless_returns {epd : BitVec 64} (hi : 1#64 <<< i ≠ 0#64) (va ttbr : BitVec 64) :
    Returns (fun r => epd.getLsbD i = false ∧ r = (va, ttbr))
      (ttbrUnless (decide (epd &&& (1#64 <<< i) ≠ 0#64)) va ttbr) := by
  unfold ttbrUnless
  split
  next => exact (show -Pm.eFault ≠ 0 by decide)
  next hoff =>
    refine ⟨bit_of_and_eq_zero hi ?_, rfl⟩
    by_contra hne
    exact hoff (decide_eq_true hne)

/-- An address in the lower range selects the first table, one in the upper range the second. -/
theorem selects_of_bits {context : GvaContext} (high : Bool)
    (hbits : ∀ i, 48 ≤ i → i < 64 →
      (context.tcr.getLsbD (if high then 38 else 37) = true → i < 56) → va.getLsbD i = high)
    (hepd : context.tcr.getLsbD (if high then 23 else 7) = false) :
    Selects context va (if high then context.ttbr1 else context.ttbr0) := by
  have h55 : va.getLsbD 55 = high := hbits 55 (by decide) (by decide) (fun _ => by decide)
  unfold Selects Canonical
  rw [h55]
  cases high
  · exact ⟨hbits, hepd, rfl⟩
  · exact ⟨hbits, hepd, rfl⟩

theorem selectTtbr_returns (context : GvaContext) (va : BitVec 64) :
    Returns (fun r => Selects context va r.2 ∧ SameLow r.1 va) (selectTtbr context va) := by
  unfold selectTtbr
  simp only
  split
  next => exact (show -Pm.eNotSup ≠ 0 by decide)
  next hregs =>
  simp only [not_or, not_not] at hregs
  obtain ⟨-, -, ht0, ht1⟩ := hregs
  rw [ht0, ht1]
  split
  next htagged =>
    refine (ttbrUnless_returns (by decide) _ _).imp ?_
    rintro _ ⟨hepd, rfl⟩
    have htbi := bit_of_and_ne_zero htagged.1
    refine ⟨selects_of_bits false (fun i hi _ hlt => ?_) hepd, fun i hi => getLsbD_untagged va (by omega)⟩
    rw [← getLsbD_untagged va (hlt htbi)]
    exact bits_of_isLow htagged.2 hi
  next =>
  split
  next htagged =>
    refine (ttbrUnless_returns (by decide) _ _).imp ?_
    rintro _ ⟨hepd, rfl⟩
    have htbi := bit_of_and_ne_zero htagged.1
    refine ⟨selects_of_bits true (fun i hi hlt64 hlt => ?_) hepd,
      fun i hi => getLsbD_tagged va (by omega)⟩
    rw [← getLsbD_tagged va (hlt htbi)]
    exact bits_of_isHigh htagged.2 hi hlt64
  next =>
  split
  next hlow =>
    refine (ttbrUnless_returns (by decide) _ _).imp ?_
    rintro _ ⟨hepd, rfl⟩
    exact ⟨selects_of_bits false (fun i hi _ _ => bits_of_isLow hlow hi) hepd, fun _ _ => rfl⟩
  next =>
  split
  next hhigh =>
    refine (ttbrUnless_returns (by decide) _ _).imp ?_
    rintro _ ⟨hepd, rfl⟩
    exact ⟨selects_of_bits true (fun i hi hlt _ => bits_of_isHigh hhigh hi hlt) hepd,
      fun _ _ => rfl⟩
  next => exact (show -Pm.eFault ≠ 0 by decide)

/-! ### The whole translation -/

section Translate

variable {vm : GuestVm} {mem : BitVec 64 → BitVec 8} {write : Bool} {context : GvaContext}
  {gva gpa hpa : BitVec 64}

theorem gvaTranslate_walks (vm : GuestVm) (mem : BitVec 64 → BitVec 8) (context : GvaContext)
    (gva : BitVec 64) (write : Bool) :
    Walks vm (fun gpa => Stage1Maps vm mem context write gva gpa ∧ vm.validateGpa gpa write = 0)
      (vm.gvaTranslate mem context gva write) := by
  unfold gvaTranslate Stage1Maps
  by_cases hoff : context.sctlr &&& 1#64 = 0#64
  · have hbit : context.sctlr.getLsbD 0 = false := bit_of_and_eq_zero (by decide) hoff
    simp only [if_pos hoff, hbit, Bool.false_eq_true, if_false]
    split
    next => exact .nil (show -Pm.eFault ≠ 0 by decide)
    next =>
      split
      next hvalid => exact .nil hvalid
      next hvalid => exact .nil ⟨rfl, not_not.mp hvalid⟩
  · have hbit : context.sctlr.getLsbD 0 = true := bit_of_and_ne_zero hoff
    simp only [if_neg hoff, hbit, if_true]
    have hselect := selectTtbr_returns context gva
    split
    next hresult =>
      rw [hresult] at hselect
      exact .nil hselect
    next walkGva ttbr hresult =>
    rw [hresult] at hselect
    obtain ⟨hselects, hlow⟩ := hselect
    have hloop := @gvaLoop_walks vm mem write walkGva levels (ttbr &&& pfnMask) (aligned_pfnMask ttbr)
    exact ⟨hloop.result.imp fun _ hwalk =>
      ⟨⟨ttbr, hselects, hwalk.1.sameLow levelsOk_levels hlow⟩, hwalk.2⟩, hloop.touched⟩

/-- The offset in a page is not translated. -/
theorem leafOutput_mod {shift : Nat} {descriptor va : BitVec 64} (hle : 12 ≤ shift)
    (hlt : shift ≤ 39) : (leafOutput shift descriptor va).toNat % 4096 = va.toNat % 4096 := by
  have hbase : ((descriptor &&& pfnMask) &&& ~~~((1#64 <<< shift) - 1#64)).toNat % 4096 = 0 := by
    rw [BitVec.and_comm, ← BitVec.and_assoc]
    exact (aligned_pfnMask _).1
  have hlow : (va &&& ((1#64 <<< shift) - 1#64)).toNat % 4096 = va.toNat % 4096 := by
    rw [toNat_lowBits va (by omega)]
    exact Nat.mod_mod_of_dvd _ (Nat.pow_dvd_pow 2 hle)
  unfold leafOutput
  rw [BitVec.toNat_add]
  omega

theorem Arm.Stage1Walk.mod_eq {va table : BitVec 64} {shifts : List Nat}
    (h : Stage1Walk vm mem write va shifts table gpa) (hlevels : LevelsOk shifts) :
    gpa.toNat % 4096 = va.toNat % 4096 := by
  induction h with
  | page => exact leafOutput_mod (by decide) (by decide)
  | @block shift =>
    have hle := hlevels shift List.mem_cons_self
    exact leafOutput_mod hle.1 hle.2
  | table _ _ _ _ _ ih => exact ih hlevels.tail

theorem Arm.Stage1Maps.mod_eq (h : Stage1Maps vm mem context write gva gpa) :
    gpa.toNat % 4096 = gva.toNat % 4096 := by
  unfold Stage1Maps at h
  split at h
  next =>
    obtain ⟨ttbr, -, hwalk⟩ := h
    exact hwalk.mod_eq levelsOk_levels
  next => rw [h]

/-- **A chunk is translated byte by byte**: what holds for its first byte holds for all. -/
theorem maps_of_translate {size k : Nat} (hsize : size < 2 ^ 64)
    (h : (vm.gvaTranslate mem context gva write).1 = .ok gpa)
    (hrange : vm.gpaRange gpa size = .ok hpa) (hk : k < size) (hpage : SamePage gva k) :
    Maps vm mem context write (gva + ofNat 64 k) (hpa + ofNat 64 k) := by
  have hresult := (gvaTranslate_walks vm mem context gva write).result
  rw [h] at hresult
  obtain ⟨hmaps, hvalid⟩ := hresult
  refine ⟨gpa + ofNat 64 k, hmaps.add hpage, byteAt_of_valid hsize hvalid hrange hk ?_⟩
  unfold SamePage at hpage ⊢
  rw [hmaps.mod_eq]
  exact hpage

end Translate

/-! ### One chunk -/

section Chunk

variable {vm : GuestVm} {context : GvaContext} {generation : Nat → BitVec 64} {write : Bool}
  {move : BitVec 64 → Nat → Nat → CopyState → CopyState} {gva : BitVec 64} {size copied : Nat}
  {s : CopyState}

/-- A chunk begins at the first byte, and then at each page. -/
def ChunkStart (gva : BitVec 64) (copied : Nat) : Prop :=
  copied = 0 ∨ (gva + ofNat 64 copied).toNat % 4096 = 0

variable (va : BitVec 64)

theorem pageRemaining_eq : pageRemaining va = 4096 - va.toNat % 4096 := by
  unfold pageRemaining
  rw [show (0xfff#64 : BitVec 64) = (1#64 <<< 12) - 1#64 by decide, toNat_lowBits va (by decide)]
  rfl

theorem chunkSize_pos {remaining : Nat} (h : 0 < remaining) : 0 < chunkSize va remaining := by
  unfold chunkSize
  rw [pageRemaining_eq]
  omega

theorem chunkSize_le (remaining : Nat) : chunkSize va remaining ≤ remaining :=
  Nat.min_le_left _ _

theorem samePage_of_chunk {va : BitVec 64} {remaining k : Nat} (h : k < chunkSize va remaining) :
    SamePage va k := by
  unfold chunkSize at h
  rw [pageRemaining_eq] at h
  unfold SamePage
  omega

/-- What one pass of the loop does: it fails and copies nothing, or moves a translated chunk, and
then fails only if the tables have changed meanwhile. -/
inductive ChunkStep (vm : GuestVm) (context : GvaContext) (generation : Nat → BitVec 64)
    (write : Bool) (move : BitVec 64 → Nat → Nat → CopyState → CopyState) (gva : BitVec 64)
    (size copied : Nat) (s : CopyState) : Int × CopyState → Prop
  | failed {ret : Int} {walked : List (BitVec 64)} (hret : ret ≠ 0)
      (hwalked : ∀ a ∈ walked, InWindow vm a) :
      ChunkStep vm context generation write move gva size copied s
        (ret, { s with touched := s.touched ++ walked })
  | moved {ret : Int} {walked : List (BitVec 64)} {hpa : BitVec 64}
      (hret : ret ≠ 0 → ret = -Pm.eAgain ∧ generation copied ≠ context.generation)
      (hwalked : ∀ a ∈ walked, InWindow vm a)
      (hmaps : ∀ k < chunkSize (gva + ofNat 64 copied) (size - copied),
        Maps vm s.mem context write (gva + ofNat 64 copied + ofNat 64 k)
          (hpa + ofNat 64 k)) :
      ChunkStep vm context generation write move gva size copied s
        (ret, move hpa copied (chunkSize (gva + ofNat 64 copied) (size - copied))
          { s with touched := s.touched ++ walked })

theorem copyChunk_step (vm : GuestVm) (context : GvaContext) (generation : Nat → BitVec 64)
    (write : Bool) (move : BitVec 64 → Nat → Nat → CopyState → CopyState) (gva : BitVec 64)
    {size : Nat} (copied : Nat) (s : CopyState) (hsize : size < 2 ^ 32) :
    ChunkStep vm context generation write move gva size copied s
      (vm.copyChunk context generation write move gva size copied s) := by
  have hlt : chunkSize (gva + ofNat 64 copied) (size - copied) < 2 ^ 64 := by
    have := chunkSize_le (gva + ofNat 64 copied) (size - copied)
    omega
  have hwalk := gvaTranslate_walks vm s.mem context (gva + ofNat 64 copied) write
  unfold copyChunk
  simp only
  split
  next ret htranslate =>
    have hresult := hwalk.result
    rw [htranslate] at hresult
    exact .failed hresult hwalk.touched
  next gpa htranslate =>
  split
  next ret hrange => exact .failed (gpaRange_error hrange) hwalk.touched
  next hpa hrange =>
    refine .moved (fun hret => ?_) hwalk.touched
      (fun k hk => maps_of_translate hlt htranslate hrange hk (samePage_of_chunk hk))
    split at hret
    next hchanged => exact ⟨if_pos hchanged, hchanged⟩
    next => exact absurd rfl hret

theorem chunkStart_next (gva : BitVec 64) {size copied : Nat} (hlt : copied < size)
    (hmore : copied + chunkSize (gva + ofNat 64 copied) (size - copied) < size) :
    ChunkStart gva (copied + chunkSize (gva + ofNat 64 copied) (size - copied)) := by
  right
  unfold chunkSize at hmore ⊢
  rw [pageRemaining_eq] at hmore ⊢
  have hmod := Nat.mod_lt (gva + ofNat 64 copied).toNat (show 0 < 4096 by decide)
  -- the chunk is not the last one, so it goes up to the end of the page
  rw [Nat.min_eq_right (by omega), ofNat_add, ← BitVec.add_assoc]
  generalize gva + ofNat 64 copied = va at hmod
  rw [BitVec.toNat_add, toNat_ofNat]
  omega

/-! ### The loop -/

/--
Where the loop ends, with a property `P` of the bytes moved so far: at the end, or at the start of
the chunk that failed, of which nothing has been moved, or everything if the tables have changed.
-/
structure LoopEnd (context : GvaContext) (generation : Nat → BitVec 64) (gva : BitVec 64)
    (size : Nat) (P : Nat → CopyState → Prop) (out : Int × Nat × CopyState) : Prop where
  done : out.1 = 0 → out.2.1 = size ∧ P size out.2.2
  failed : out.1 ≠ 0 → out.2.1 < size ∧ ChunkStart gva out.2.1 ∧
    (P out.2.1 out.2.2 ∨
      (out.1 = -Pm.eAgain ∧ generation out.2.1 ≠ context.generation) ∧
        P (out.2.1 + chunkSize (gva + ofNat 64 out.2.1) (size - out.2.1)) out.2.2)

/-- A property kept by each translated chunk is kept by the loop. -/
theorem copyLoop_end {P : Nat → CopyState → Prop} (hsize : size < 2 ^ 32)
    (hwalk : ∀ m s walked, (∀ a ∈ walked, InWindow vm a) → P m s →
      P m { s with touched := s.touched ++ walked })
    (hmove : ∀ m s hpa, m < size → ChunkStart gva m → P m s →
      (∀ k < chunkSize (gva + ofNat 64 m) (size - m),
        Maps vm s.mem context write (gva + ofNat 64 m + ofNat 64 k)
          (hpa + ofNat 64 k)) →
      P (m + chunkSize (gva + ofNat 64 m) (size - m))
        (move hpa m (chunkSize (gva + ofNat 64 m) (size - m)) s)) :
    ∀ n copied s, size - copied ≤ n → copied ≤ size → (copied < size → ChunkStart gva copied) →
      P copied s →
      LoopEnd context generation gva size P
        (vm.copyLoop context generation write move gva size n copied s) := by
  intro n
  induction n with
  | zero =>
    intro copied s hn hle _ hP
    obtain rfl : copied = size := by omega
    exact ⟨fun _ => ⟨rfl, hP⟩, fun h => absurd rfl h⟩
  | succ n ih =>
    intro copied s hn hle hstart hP
    unfold copyLoop
    split
    next hlt =>
      have hpos := chunkSize_pos (gva + ofNat 64 copied) (show 0 < size - copied by omega)
      have hchunk := chunkSize_le (gva + ofNat 64 copied) (size - copied)
      have hstep := copyChunk_step vm context generation write move gva copied s hsize
      simp only
      generalize vm.copyChunk context generation write move gva size copied s = out at hstep ⊢
      cases hstep with
      | @failed _ _ hret hwalked =>
        rw [if_neg hret]
        exact ⟨fun h => absurd h hret, fun _ => ⟨hlt, hstart hlt, .inl (hwalk _ _ _ hwalked hP)⟩⟩
      | @moved _ _ hpa hchanged hwalked hmaps =>
        have hP' := hmove copied _ hpa hlt (hstart hlt) (hwalk _ _ _ hwalked hP) hmaps
        split
        next =>
          exact ih _ _ (by omega) (by omega) (chunkStart_next gva hlt) hP'
        next hret =>
          exact ⟨fun h => absurd h hret, fun _ => ⟨hlt, hstart hlt, .inr ⟨hchanged hret, hP'⟩⟩⟩
    next hge =>
      obtain rfl : copied = size := by omega
      exact ⟨fun _ => ⟨rfl, hP⟩, fun h => absurd rfl h⟩

end Chunk

/-! ### The two directions -/

section Directions

variable {vm : GuestVm} {context : GvaContext} {gva hpa : BitVec 64} {s s' : CopyState}
  {size m : Nat}

theorem inWindow_of_maps {write : Bool}
    (h : Maps vm mem context write gva hpa) : InWindow vm hpa := by
  obtain ⟨gpa, -, hram, rfl, -⟩ := h
  exact ⟨gpa, hram, rfl⟩

/-- Every access after `s` was to the VM's RAM. -/
def StaysInVm (vm : GuestVm) (s s' : CopyState) : Prop :=
  ∀ a ∈ s'.touched, a ∈ s.touched ∨ InWindow vm a

theorem StaysInVm.append {t : CopyState} {walked : List (BitVec 64)} (h : StaysInVm vm s s')
    (ht : t.touched = s'.touched ++ walked) (hwalked : ∀ a ∈ walked, InWindow vm a) :
    StaysInVm vm s t := by
  intro a ha
  rw [ht] at ha
  rcases List.mem_append.mp ha with ha | ha
  · exact h a ha
  · exact .inr (hwalked a ha)

theorem inWindow_of_span {size : Nat} (h : ∀ k < size, InWindow vm (hpa + ofNat 64 k)) :
    ∀ a ∈ span hpa size, InWindow vm a := by
  intro a ha
  obtain ⟨k, hk, rfl⟩ := List.mem_map.mp ha
  exact h k (List.mem_range.mp hk)

/-- A move that takes one byte after the other touches all of the range. -/
theorem touched_span (move : Nat → CopyState)
    (h : ∀ n, (move (n + 1)).touched = (move n).touched ++ [hpa + ofNat 64 n]) (n : Nat) :
    (move n).touched = (move 0).touched ++ span hpa n := by
  unfold span
  induction n with
  | zero => exact (List.append_nil _).symm
  | succ n ih => rw [h, ih, List.range_succ, List.map_append, List.append_assoc, List.map_singleton]

/-! ### From the guest -/

theorem moveFrom_mem (hpa : BitVec 64) (copied : Nat) (s : CopyState) :
    ∀ n, (moveFrom hpa copied n s).mem = s.mem
  | 0 => rfl
  | n + 1 => moveFrom_mem hpa copied s n

theorem moveFrom_buffer (hpa : BitVec 64) (copied : Nat) (s : CopyState) (i : Nat) :
    ∀ n, (moveFrom hpa copied n s).buffer i =
      if copied ≤ i ∧ i < copied + n then s.mem (hpa + ofNat 64 (i - copied))
      else s.buffer i
  | 0 => (if_neg (by omega)).symm
  | n + 1 => by
    have ih := moveFrom_buffer hpa copied s i n
    unfold moveFrom
    simp only [Function.update_apply, moveFrom_mem]
    by_cases hi : i = copied + n
    · rw [if_pos hi, if_pos (by omega), hi, Nat.add_sub_cancel_left]
    rw [if_neg hi, ih]
    by_cases hin : copied ≤ i ∧ i < copied + n
    · rw [if_pos hin, if_pos (by omega)]
    · rw [if_neg hin, if_neg (by omega)]

/-- The first `m` bytes have come from where the architecture says, and nothing else has changed. -/
structure CopiedFrom (vm : GuestVm) (gva : BitVec 64) (s : CopyState) (context : GvaContext)
    (m : Nat) (s' : CopyState) : Prop where
  mem : s'.mem = s.mem
  bytes : ∀ k < m, ∃ hpa, Maps vm s.mem context false (gva + ofNat 64 k) hpa ∧
    s'.buffer k = s.mem hpa
  rest : ∀ k, m ≤ k → s'.buffer k = s.buffer k

theorem CopiedFrom.move {n : Nat} (h : CopiedFrom vm gva s context m s')
    (hmaps : ∀ k < n, Maps vm s'.mem context false (gva + ofNat 64 m + ofNat 64 k)
      (hpa + ofNat 64 k)) :
    CopiedFrom vm gva s context (m + n) (moveFrom hpa m n s') := by
  refine ⟨(moveFrom_mem _ _ _ _).trans h.mem, fun k hk => ?_, fun k hk => ?_⟩
  · rw [moveFrom_buffer]
    by_cases hold : k < m
    · rw [if_neg (by omega)]
      exact h.bytes k hold
    rw [if_pos (by omega), h.mem]
    have hmap := hmaps (k - m) (by omega)
    rw [h.mem, BitVec.add_assoc, ← ofNat_add, Nat.add_sub_of_le (by omega)] at hmap
    exact ⟨_, hmap, rfl⟩
  · rw [moveFrom_buffer, if_neg (by omega)]
    exact h.rest k (by omega)

/-! ### To the guest -/

/-- The first `n` bytes of the buffer written in order, each to its host address. -/
def writeBytes (mem : BitVec 64 → BitVec 8) (hpas : Nat → BitVec 64) (buffer : Nat → BitVec 8) :
    Nat → BitVec 64 → BitVec 8
  | 0 => mem
  | n + 1 => Function.update (writeBytes mem hpas buffer n) (hpas n) (buffer n)

theorem writeBytes_congr (mem : BitVec 64 → BitVec 8) {hpas hpas' : Nat → BitVec 64}
    (buffer : Nat → BitVec 8) :
    ∀ n, (∀ k < n, hpas k = hpas' k) →
      writeBytes mem hpas buffer n = writeBytes mem hpas' buffer n
  | 0, _ => rfl
  | n + 1, h => by
    unfold writeBytes
    rw [writeBytes_congr mem buffer n (fun k hk => h k (by omega)), h n (Nat.lt_succ_self n)]

theorem moveTo_buffer (hpa : BitVec 64) (copied : Nat) (s : CopyState) :
    ∀ n, (moveTo hpa copied n s).buffer = s.buffer
  | 0 => rfl
  | n + 1 => moveTo_buffer hpa copied s n

theorem moveTo_mem {hpas : Nat → BitVec 64} {copied : Nat}
    (h : s.mem = writeBytes mem hpas s.buffer copied) :
    ∀ n, (∀ k < n, hpas (copied + k) = hpa + ofNat 64 k) →
      (moveTo hpa copied n s).mem = writeBytes mem hpas s.buffer (copied + n)
  | 0, _ => h
  | n + 1, hhpas => by
    have ih := moveTo_mem h n (fun k hk => hhpas k (by omega))
    unfold moveTo
    simp only [moveTo_buffer]
    rw [ih, ← hhpas n (Nat.lt_succ_self n)]
    rfl

/-- The first byte of the chunk that a byte is in. -/
def chunkStart (gva : BitVec 64) (k : Nat) : Nat := k - (gva + ofNat 64 k).toNat % 4096

theorem chunkStart_eq {k : Nat} (hstart : ChunkStart gva m)
    (hpage : SamePage (gva + ofNat 64 m) k) : chunkStart gva (m + k) = m := by
  have hadd := hpage.toNat_add
  unfold chunkStart
  rw [ofNat_add, ← BitVec.add_assoc, hadd]
  unfold SamePage at hpage
  rcases hstart with rfl | hzero
  · omega
  · omega

/--
The first `m` bytes have gone where the architecture says, in order.  The guest's own tables may be
among the bytes written, so the memory that is meant is the one before the byte's chunk.
-/
structure CopiedTo (vm : GuestVm) (gva : BitVec 64) (s : CopyState) (context : GvaContext)
    (m : Nat) (s' : CopyState) : Prop where
  buffer : s'.buffer = s.buffer
  bytes : ∃ hpas, s'.mem = writeBytes s.mem hpas s.buffer m ∧
    ∀ k < m, Maps vm (writeBytes s.mem hpas s.buffer (chunkStart gva k)) context true
      (gva + ofNat 64 k) (hpas k)

theorem CopiedTo.move {n : Nat} (h : CopiedTo vm gva s context m s') (hstart : ChunkStart gva m)
    (hpage : ∀ k < n, SamePage (gva + ofNat 64 m) k)
    (hmaps : ∀ k < n, Maps vm s'.mem context true (gva + ofNat 64 m + ofNat 64 k)
      (hpa + ofNat 64 k)) :
    CopiedTo vm gva s context (m + n) (moveTo hpa m n s') := by
  obtain ⟨hbuffer, hpas, hmem, hbytes⟩ := h
  -- the addresses so far, then those of the chunk
  let next : Nat → BitVec 64 := fun k => if k < m then hpas k else hpa + ofNat 64 (k - m)
  have hold : ∀ k ≤ m, writeBytes s.mem hpas s.buffer k = writeBytes s.mem next s.buffer k :=
    fun k hk => writeBytes_congr _ _ _ (fun i hi => (if_pos (by omega)).symm)
  have hnew (k : Nat) : next (m + k) = hpa + ofNat 64 k := by
    rw [show next (m + k) = hpa + ofNat 64 (m + k - m) from if_neg (by omega),
      Nat.add_sub_cancel_left]
  rw [hold m (Nat.le_refl m)] at hmem
  refine ⟨(moveTo_buffer _ _ _ _).trans hbuffer, next, ?_, fun k hk => ?_⟩
  · rw [← hbuffer] at hmem ⊢
    exact moveTo_mem hmem n (fun k _ => hnew k)
  · by_cases hlt : k < m
    · have hle : chunkStart gva k ≤ m := by
        unfold chunkStart
        omega
      rw [← hold _ hle, show next k = hpas k from if_pos hlt]
      exact hbytes k hlt
    · obtain ⟨i, rfl⟩ := Nat.exists_eq_add_of_le (Nat.le_of_not_lt hlt)
      have hmap := hmaps i (by omega)
      rw [hmem, BitVec.add_assoc, ← ofNat_add] at hmap
      rw [chunkStart_eq hstart (hpage i (by omega)), hnew]
      exact hmap

/-! ### The copy functions -/

/-- `n` bytes have been copied, as the registers of the vCPU say. -/
def Copied (vcpu : VcpuView) (s : CopyState) (copied : GvaContext → Nat → CopyState → Prop)
    (n : Nat) (s' : CopyState) : Prop :=
  (n = 0 ∧ s'.mem = s.mem ∧ s'.buffer = s.buffer) ∨
    ∃ context, contextSnapshot vcpu = .ok context ∧ copied context n s'

/--
What a guest virtual copy is to do.  After an error the fault address is the first byte of the chunk
that failed: exactly the bytes before it have been copied, and the chunk itself only if the error is
that the tables have changed while it was copied.
-/
structure CopySpec (vm : GuestVm) (vcpu : VcpuView) (generation : Nat → BitVec 64) (gva : BitVec 64)
    (size : BitVec 32) (s : CopyState) (copied : GvaContext → Nat → CopyState → Prop)
    (out : CopyOutcome) : Prop where
  success : out.ret = 0 → Copied vcpu s copied size.toNat out.state
  failure : out.ret ≠ 0 → ∃ j < size.toNat, ChunkStart gva j ∧
    out.faultAddr = gva + ofNat 64 j ∧
    (Copied vcpu s copied j out.state ∨
      ∃ context, contextSnapshot vcpu = .ok context ∧ out.ret = -Pm.eAgain ∧
        generation j ≠ context.generation ∧
        copied context (j + chunkSize (gva + ofNat 64 j) (size.toNat - j)) out.state)
  window : StaysInVm vm s out.state

theorem gvaError_ne_none (ret : Int) : gvaError ret ≠ .none := by
  unfold gvaError
  split_ifs <;> decide

theorem contextSnapshot_error {vcpu : VcpuView} {ret : Int}
    (h : contextSnapshot vcpu = .error ret) : ret ≠ 0 := by
  unfold contextSnapshot at h
  split_ifs at h <;> cases h <;> decide

theorem copyGva_spec {vcpu : VcpuView} {generation : Nat → BitVec 64} {write hasBuffer : Bool}
    {move : BitVec 64 → Nat → Nat → CopyState → CopyState} {size : BitVec 32}
    {copied : GvaContext → Nat → CopyState → Prop}
    (hloop : ∀ context, LoopEnd context generation gva size.toNat
      (fun m s' => copied context m s' ∧ StaysInVm vm s s')
      (vm.copyLoop context generation write move gva size.toNat size.toNat 0 s)) :
    CopySpec vm vcpu generation gva size s copied
      (vm.copyGva vcpu generation write move hasBuffer gva size s) := by
  have hstay : StaysInVm vm s s := fun a ha => .inl ha
  have hnone : Copied vcpu s copied 0 s := .inl ⟨rfl, rfl, rfl⟩
  -- an error before the loop is reported at the first byte
  have hearly {ret : Int} {error : GuestMemoryError} (hret : ret ≠ 0) (herror : error ≠ .none)
      (hsize : size ≠ 0#32) :
      CopySpec vm vcpu generation gva size s copied (report ret error gva s) := by
    refine ⟨fun h => absurd h hret, fun _ => ⟨0, ?_, .inl rfl, ?_, .inl hnone⟩, hstay⟩
    · exact Nat.pos_of_ne_zero fun h => hsize (eq_of_toNat_eq h)
    · exact (if_neg herror).trans (BitVec.add_zero gva).symm
  unfold copyGva
  split
  next hargs => exact hearly (by decide) (by decide) hargs.1
  next =>
  split
  next hzero =>
    subst hzero
    exact ⟨fun _ => hnone, fun h => absurd rfl h, hstay⟩
  next hsize =>
  split
  next ret hsnapshot =>
    exact hearly (contextSnapshot_error hsnapshot) (gvaError_ne_none ret) hsize
  next context hsnapshot =>
  have hend := hloop context
  simp only
  generalize vm.copyLoop context generation write move gva size.toNat size.toNat 0 s = out
    at hend ⊢
  refine ⟨fun h => .inr ⟨context, hsnapshot, (hend.done h).2.1⟩, fun h => ?_, ?_⟩
  · obtain ⟨hlt, hstart, hcopied⟩ := hend.failed h
    refine ⟨out.2.1, hlt, hstart, ?_, hcopied.imp (fun hP => .inr ⟨context, hsnapshot, hP.1⟩)
      fun ⟨hchanged, hP⟩ => ⟨context, hsnapshot, hchanged.1, hchanged.2, hP.1⟩⟩
    have hret : out.1 ≠ 0 := h
    unfold report
    simp only
    rw [if_neg hret, if_neg (gvaError_ne_none _)]
  · by_cases h : out.1 = 0
    · exact (hend.done h).2.2
    · rcases (hend.failed h).2.2 with hP | ⟨-, hP⟩
      · exact hP.2
      · exact hP.2

/--
**A guest virtual copy is the architectural translation**, byte by byte, and never leaves the RAM
of its VM.
-/
theorem gva_copy_translates (vm : GuestVm) (vcpu : VcpuView) (generation : Nat → BitVec 64)
    (hasBuffer : Bool) (gva : BitVec 64) (size : BitVec 32) (s : CopyState) :
    CopySpec vm vcpu generation gva size s (CopiedFrom vm gva s)
        (vm.copyFromGva vcpu generation hasBuffer gva size s) ∧
      CopySpec vm vcpu generation gva size s (CopiedTo vm gva s)
        (vm.copyToGva vcpu generation hasBuffer gva size s) := by
  have hsize : size.toNat < 2 ^ 32 := size.isLt
  have hstay : StaysInVm vm s s := fun a ha => .inl ha
  constructor
  · refine copyGva_spec fun context => copyLoop_end hsize ?_ ?_ _ _ _ (Nat.le_refl _)
      (Nat.zero_le _) (fun _ => .inl rfl) ⟨⟨rfl, fun k hk => absurd hk (Nat.not_lt_zero k),
        fun k _ => rfl⟩, hstay⟩
    · intro m s' walked hwalked hP
      exact ⟨⟨hP.1.mem, hP.1.bytes, hP.1.rest⟩, hP.2.append rfl hwalked⟩
    · intro m s' hpa _ _ hP hmaps
      exact ⟨hP.1.move hmaps, hP.2.append (touched_span (moveFrom hpa m · s') (fun _ => rfl) _)
        (inWindow_of_span fun k hk => inWindow_of_maps (hmaps k hk))⟩
  · refine copyGva_spec fun context => copyLoop_end hsize ?_ ?_ _ _ _ (Nat.le_refl _)
      (Nat.zero_le _) (fun _ => .inl rfl) ⟨⟨rfl, fun _ => 0#64, rfl,
        fun k hk => absurd hk (Nat.not_lt_zero k)⟩, hstay⟩
    · intro m s' walked hwalked hP
      exact ⟨⟨hP.1.buffer, hP.1.bytes⟩, hP.2.append rfl hwalked⟩
    · intro m s' hpa _ hstart hP hmaps
      exact ⟨hP.1.move hstart (fun k => samePage_of_chunk) hmaps,
        hP.2.append (touched_span (moveTo hpa m · s') (fun _ => rfl) _)
          (inWindow_of_span fun k hk => inWindow_of_maps (hmaps k hk))⟩

-- Without the MMU, two bytes across a page boundary, in a VM whose RAM is a 1G block.
example :
    let s2 : Stage2Tables :=
      { root := 0x1000#64, updating := false, allocated := fun _ => true,
        descriptor := fun table _ => if table = 0x1000#64 then 0x2003#64 else 0x800000fd#64 }
    let vm : GuestVm := { ram := ⟨0x40000000#64, 0x10000#64⟩, ramHpa := 0x80000000#64, s2 }
    let registers : GvaContext := ⟨0#64, 0#64, 0#64, 0#64, 1#64⟩
    let out := vm.copyFromGva ⟨true, false, registers, registers, 1#64⟩ (fun _ => 1#64) true
      0x40000fff#64 2#32 ⟨fun hpa => hpa.setWidth 8, fun _ => 0#8, []⟩
    out.ret = 0 ∧ out.state.buffer 0 = 0xff#8 ∧ out.state.buffer 1 = 0#8 ∧
      out.state.touched = [0x80000fff#64, 0x80001000#64] := by
  decide +kernel

end Directions

end BeauOs.Guest

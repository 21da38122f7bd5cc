/-
The number of bits that are set in a word.

`bitmapWeight` clears the lowest set bit until the word is zero and counts the rounds.  Each round
drops one index from the set bits (`length_bitIndices_clearLowest`), so the count is their number,
and a word whose set bits are a list without repetition has the length of the list as its weight.
-/
import Mathlib.Data.Nat.BitIndices
import BeauOs.Lib.Word

/-- The rounds of the loop; a word has at most 64 of them. -/
def bitmapWeightFrom : Nat → BitVec 64 → Nat → Nat
  | 0, _, weight => weight
  | fuel + 1, bits, weight =>
    if bits = 0#64 then weight else bitmapWeightFrom fuel (bits &&& (bits - 1#64)) (weight + 1)

def bitmapWeight (bits : BitVec 64) : Nat := bitmapWeightFrom 64 bits 0

/-- Clearing the lowest set bit of an even number leaves the half to be cleared. -/
theorem and_pred_two_mul {m : Nat} (hm : 0 < m) :
    2 * m &&& (2 * m - 1) = 2 * (m &&& (m - 1)) := by
  apply Nat.eq_of_testBit_eq
  intro i
  cases i with
  | zero => simp
  | succ i =>
    have hpred : (2 * m - 1) / 2 = m - 1 := by omega
    rw [Nat.testBit_and, Nat.testBit_succ, Nat.testBit_succ, Nat.testBit_succ, hpred,
      Nat.mul_div_cancel_left _ (by decide), Nat.mul_div_cancel_left _ (by decide),
      Nat.testBit_and]

/-- Clearing the lowest set bit of an odd number. -/
theorem and_pred_two_mul_add_one (m : Nat) : (2 * m + 1) &&& (2 * m + 1 - 1) = 2 * m := by
  apply Nat.eq_of_testBit_eq
  intro i
  cases i with
  | zero => simp
  | succ i =>
    have hodd : (2 * m + 1) / 2 = m := by omega
    rw [Nat.add_sub_cancel, Nat.testBit_and, Nat.testBit_succ, Nat.testBit_succ, hodd,
      Nat.mul_div_cancel_left _ (by decide), Bool.and_self]

theorem length_bitIndices_clearLowest {n : Nat} (hn : 0 < n) :
    (n &&& (n - 1)).bitIndices.length + 1 = n.bitIndices.length := by
  induction n using Nat.strongRecOn with
  | _ n ih =>
    obtain ⟨m, hm⟩ : ∃ m, n = 2 * m ∨ n = 2 * m + 1 := ⟨n / 2, by omega⟩
    rcases hm with rfl | rfl
    · rw [and_pred_two_mul (by omega), Nat.bitIndices_two_mul, Nat.bitIndices_two_mul,
        List.length_map, List.length_map]
      exact ih m (by omega) (by omega)
    · rw [and_pred_two_mul_add_one, Nat.bitIndices_two_mul, Nat.bitIndices_two_mul_add_one,
        List.length_cons]

variable {bits : BitVec 64}

theorem toNat_clearLowest (h : bits ≠ 0#64) :
    (bits &&& (bits - 1#64)).toNat = bits.toNat &&& (bits.toNat - 1) := by
  have hpos : bits.toNat ≠ 0 := fun hzero => h (BitVec.eq_of_toNat_eq hzero)
  have hlt := bits.isLt
  rw [BitVec.toNat_and, BitVec.toNat_sub, show (1#64).toNat = 1 from rfl,
    show 2 ^ 64 - 1 + bits.toNat = bits.toNat - 1 + 2 ^ 64 by omega, Nat.add_mod_right,
    Nat.mod_eq_of_lt (by omega)]

theorem bitmapWeightFrom_eq :
    ∀ {fuel : Nat} {bits : BitVec 64} (weight : Nat), bits.toNat.bitIndices.length ≤ fuel →
      bitmapWeightFrom fuel bits weight = weight + bits.toNat.bitIndices.length := by
  intro fuel
  induction fuel with
  | zero =>
    intro bits weight hfuel
    rw [Nat.le_zero.mp hfuel]
    rfl
  | succ fuel ih =>
    intro bits weight hfuel
    rw [bitmapWeightFrom]
    split
    next hzero => simp [hzero]
    next hne =>
      have hpos : 0 < bits.toNat :=
        Nat.pos_of_ne_zero fun hzero => hne (BitVec.eq_of_toNat_eq hzero)
      have hlen := length_bitIndices_clearLowest hpos
      rw [← toNat_clearLowest hne] at hlen
      rw [ih (weight + 1) (by omega)]
      omega

theorem bitmapTest_iff_mem_bitIndices {nr : Nat} (hnr : nr < 64) :
    bitmapTest nr bits = true ↔ nr ∈ bits.toNat.bitIndices := by
  rw [Nat.mem_bitIndices, bitmapTest, Nat.mod_eq_of_lt hnr]
  rfl

/-- An index of a set bit is below the word size. -/
theorem lt_of_mem_bitIndices {nr : Nat} (h : nr ∈ bits.toNat.bitIndices) :
    nr < 64 := by
  have hle := Nat.two_pow_le_of_mem_bitIndices h
  exact (Nat.pow_lt_pow_iff_right (by decide)).mp (Nat.lt_of_le_of_lt hle bits.isLt)

theorem bitmapWeight_eq (bits : BitVec 64) :
    bitmapWeight bits = bits.toNat.bitIndices.length := by
  have hsub : bits.toNat.bitIndices ⊆ List.range 64 :=
    fun nr hnr => List.mem_range.mpr (lt_of_mem_bitIndices hnr)
  have hlen := (List.subperm_of_subset Nat.bitIndices_nodup hsub).length_le
  rw [List.length_range] at hlen
  rw [bitmapWeight, bitmapWeightFrom_eq 0 hlen, Nat.zero_add]

/-- **Weight of a set.**  A word whose set bits are a list without repetition. -/
theorem bitmapWeight_of_nodup {indices : List Nat} (hnodup : indices.Nodup)
    (hmem : ∀ nr, nr ∈ indices ↔ nr < 64 ∧ bitmapTest nr bits = true) :
    bitmapWeight bits = indices.length := by
  rw [bitmapWeight_eq]
  refine List.Perm.length_eq ?_
  refine (List.perm_ext_iff_of_nodup Nat.bitIndices_nodup hnodup).mpr fun nr => ?_
  rw [hmem]
  constructor
  · intro h
    have hlt := lt_of_mem_bitIndices h
    exact ⟨hlt, (bitmapTest_iff_mem_bitIndices hlt).mpr h⟩
  · rintro ⟨hlt, h⟩
    exact (bitmapTest_iff_mem_bitIndices hlt).mp h

/-
Unsigned 64-bit arithmetic on natural numbers.

A machine word is a natural number below `2 ^ 64`.  Addition and subtraction wrap
(`add64`, `sub64`); code that guards against the wrap compares with `uint64Max` first,
and the guard is then written out where it stands.  A bitmap word is a `BitVec 64`, and
a bit number is reduced modulo the word size before it selects a bit.
-/
import Mathlib.Algebra.Ring.Nat

def uint64Max : Nat := 2 ^ 64 - 1

def add64 (a b : Nat) : Nat := (a + b) % 2 ^ 64

def sub64 (a b : Nat) : Nat := (a + 2 ^ 64 - b) % 2 ^ 64

def mul64 (a b : Nat) : Nat := a * b % 2 ^ 64

/-- An integer wrapped to a signed 64-bit word. -/
def wrapInt64 (a : Int) : Int := Int.bmod a (2 ^ 64)

/-- A signed value read as an unsigned word. -/
def toWord64 (a : Int) : Nat := (a % (2 ^ 64 : Nat)).toNat

theorem add64_eq {a b : Nat} (h : a + b ≤ uint64Max) : add64 a b = a + b := by
  unfold uint64Max at h
  exact Nat.mod_eq_of_lt (by omega)

theorem sub64_eq {a b : Nat} (hb : b ≤ a) (ha : a ≤ uint64Max) : sub64 a b = a - b := by
  unfold uint64Max at ha
  unfold sub64
  rw [show a + 2 ^ 64 - b = a - b + 2 ^ 64 by omega, Nat.add_mod_right]
  exact Nat.mod_eq_of_lt (by omega)

/-- A counter that stops at the largest word. -/
def countEvent (counter : Nat) : Nat :=
  if counter ≠ uint64Max then counter + 1 else counter

/-- Addition to a counter that stops at the largest word. -/
def counterAdd (counter value : Nat) : Nat :=
  if counter > uint64Max - value then uint64Max else counter + value

/-! ### Bitmap words -/

/-- Set a bit of one word; the bit number is taken modulo the word size. -/
def bitmapSet (nr : Nat) (word : BitVec 64) : BitVec 64 := word ||| (1#64 <<< (nr % 64))

def bitmapClear (nr : Nat) (word : BitVec 64) : BitVec 64 := word &&& ~~~(1#64 <<< (nr % 64))

def bitmapTest (nr : Nat) (word : BitVec 64) : Bool := word.getLsbD (nr % 64)

theorem bitmapTest_clear (nr : Nat) (word : BitVec 64) :
    bitmapTest nr (bitmapClear nr word) = false := by
  have hlt : nr % 64 < 64 := Nat.mod_lt _ (by decide)
  simp [bitmapTest, bitmapClear, hlt]

theorem bitmapTest_clear_of_ne {nr nr' : Nat} (h : nr' % 64 ≠ nr % 64) (word : BitVec 64) :
    bitmapTest nr' (bitmapClear nr word) = bitmapTest nr' word := by
  have hlt : nr' % 64 < 64 := Nat.mod_lt _ (by decide)
  simp only [bitmapTest, bitmapClear, BitVec.getLsbD_and, BitVec.getLsbD_not,
    BitVec.getLsbD_shiftLeft, BitVec.getLsbD_one]
  by_cases hle : nr' % 64 < nr % 64
  · simp [hle, hlt]
  · have hsub : nr' % 64 - nr % 64 ≠ 0 := by omega
    simp [hlt, hsub]

theorem bitmapTest_of_clear {nr k : Nat} {word : BitVec 64}
    (h : bitmapTest k (bitmapClear nr word) = true) : bitmapTest k word = true := by
  by_cases heq : k % 64 = nr % 64
  · have hclear : bitmapTest k (bitmapClear nr word) = false := by
      unfold bitmapTest
      rw [heq]
      exact bitmapTest_clear nr word
    exact absurd (hclear.symm.trans h) (by decide)
  · rwa [bitmapTest_clear_of_ne heq] at h

theorem bitmapTest_set (nr : Nat) (word : BitVec 64) : bitmapTest nr (bitmapSet nr word) = true := by
  have hlt : nr % 64 < 64 := Nat.mod_lt _ (by decide)
  simp [bitmapTest, bitmapSet, hlt]

theorem bitmapTest_set_of_test {nr' : Nat} {word : BitVec 64} (h : bitmapTest nr' word = true)
    (nr : Nat) : bitmapTest nr' (bitmapSet nr word) = true := by
  simp only [bitmapTest] at h
  simp [bitmapTest, bitmapSet, h]

theorem bitmapTest_set_of_ne {nr nr' : Nat} (h : nr' % 64 ≠ nr % 64) (word : BitVec 64) :
    bitmapTest nr' (bitmapSet nr word) = bitmapTest nr' word := by
  have hlt : nr' % 64 < 64 := Nat.mod_lt _ (by decide)
  simp only [bitmapTest, bitmapSet, BitVec.getLsbD_or, BitVec.getLsbD_shiftLeft,
    BitVec.getLsbD_one]
  by_cases hle : nr' % 64 < nr % 64
  · simp [hle]
  · have hsub : nr' % 64 - nr % 64 ≠ 0 := by omega
    simp [hsub]

theorem bitmapTest_zero (nr : Nat) : bitmapTest nr 0#64 = false := by
  simp [bitmapTest]

theorem bitmapClear_zero (nr : Nat) : bitmapClear nr 0#64 = 0#64 := by
  simp [bitmapClear]

/-- The word with the bits below `n` that satisfy `p`. -/
def bitmapOf (n : Nat) (p : Nat → Bool) : BitVec 64 :=
  (List.range n).foldl (fun word nr => if p nr then bitmapSet nr word else word) 0#64

theorem bitmapTest_bitmapOf {n nr : Nat} (hn : n ≤ 64) (hnr : nr < 64) (p : Nat → Bool) :
    bitmapTest nr (bitmapOf n p) = (decide (nr < n) && p nr) := by
  induction n with
  | zero => simp [bitmapOf, bitmapTest_zero]
  | succ n ih =>
    have hfold : bitmapOf (n + 1) p =
        if p n then bitmapSet n (bitmapOf n p) else bitmapOf n p := by
      simp only [bitmapOf, List.range_succ, List.foldl_append, List.foldl_cons, List.foldl_nil]
    have ih := ih (by omega)
    rw [hfold]
    by_cases heq : nr = n
    · subst heq
      by_cases hp : p nr = true
      · rw [if_pos hp, bitmapTest_set]
        simp [hp]
      · rw [if_neg hp, ih]
        simp [hp]
    · have hlt : nr < n + 1 ↔ nr < n := by omega
      simp only [hlt]
      by_cases hp : p n = true
      · rw [if_pos hp, bitmapTest_set_of_ne (by omega), ih]
      · rw [if_neg hp, ih]

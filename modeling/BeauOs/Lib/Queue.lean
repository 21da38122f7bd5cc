/-
Intrusive queues as lists.

A kernel queue links each object at most once, through a node embedded in the object.
Here a queue is the list of the identities linked in it, front first.  Three operations
are needed: unlinking an object (`List.erase`), linking it in front of the first object
that satisfies a test (`insertBefore`), and the walk that fetches the next node before
it runs its body (`forEachSafe`), so that the body may unlink or move the node it is
given.

`Links q m` says that a queue holds exactly the objects that satisfy `m`, each once; it is how
a queue is compared with a tag kept in the objects themselves.

`forEachSafe_inv` is the rule for the walk.  What makes it work is that the body
disturbs the node under the cursor only: the node fetched in advance is then still
linked when the walk gets there.
-/
import Mathlib.Data.List.Basic
import Mathlib.Data.List.Nodup
import Mathlib.Order.Lattice

namespace Queue

variable {α σ : Type*} [DecidableEq α]

/-- Link `x` in front of the first element that satisfies `p`, at the tail if none does. -/
def insertBefore (p : α → Bool) (x : α) : List α → List α
  | [] => [x]
  | y :: rest => if p y then x :: y :: rest else y :: insertBefore p x rest

/-- The element linked right behind `x`. -/
def next (x : α) : List α → Option α
  | [] => none
  | y :: rest => if y = x then rest.head? else next x rest

/--
The walk that survives removal: the successor of the node under the cursor is read
before the body runs.  The fuel bounds the number of nodes visited.
-/
def forEachSafe (queue : σ → List α) (body : α → σ → σ) : Nat → Option α → σ → σ
  | 0, _, s => s
  | _ + 1, none, s => s
  | fuel + 1, some x, s => forEachSafe queue body fuel (next x (queue s)) (body x s)

/-! ### Linking -/

@[simp] theorem count_insertBefore (p : α → Bool) (x y : α) (q : List α) :
    (insertBefore p x q).count y = q.count y + if x = y then 1 else 0 := by
  induction q with
  | nil => by_cases h : x = y <;> simp [insertBefore, h]
  | cons z rest ih =>
    unfold insertBefore
    by_cases hp : p z = true
    · rw [if_pos hp]
      by_cases h : x = y <;> simp [List.count_cons, h]
    · rw [if_neg hp, List.count_cons, ih, List.count_cons]
      omega

@[simp] theorem mem_insertBefore (p : α → Bool) (x y : α) (q : List α) :
    y ∈ insertBefore p x q ↔ y = x ∨ y ∈ q := by
  rw [← List.count_pos_iff, count_insertBefore, ← List.count_pos_iff]
  by_cases h : x = y
  · simp [h]
  · have h' : ¬y = x := fun e => h e.symm
    simp [h, h']

variable {q : List α}

theorem nodup_insertBefore {p : α → Bool} {x : α} (hq : q.Nodup) (hx : x ∉ q) :
    (insertBefore p x q).Nodup := by
  rw [List.nodup_iff_count_le_one] at hq ⊢
  intro y
  have hy := hq y
  rw [count_insertBefore]
  by_cases h : x = y
  · subst h
    simp [List.count_eq_zero_of_not_mem hx]
  · simpa [h] using hy

theorem perm_insertBefore (p : α → Bool) (x : α) (q : List α) :
    (insertBefore p x q).Perm (x :: q) := by
  rw [List.perm_iff_count]
  intro y
  rw [count_insertBefore, List.count_cons]
  by_cases h : x = y <;> simp [h]

/-- A queue ordered by a key stays so: equals keep the order they came in. -/
theorem pairwise_insertBefore {β : Type*} [LinearOrder β] (key : α → β) (x : α)
    {before : α → Bool} (hbefore : ∀ y, before y = true ↔ key x < key y)
    (h : q.Pairwise fun y z => key y ≤ key z) :
    (insertBefore before x q).Pairwise fun y z => key y ≤ key z := by
  induction q with
  | nil => exact List.pairwise_singleton _ x
  | cons y rest ih =>
    obtain ⟨hy, hrest⟩ := List.pairwise_cons.mp h
    unfold insertBefore
    by_cases hlt : key x < key y
    · rw [if_pos ((hbefore y).mpr hlt)]
      refine List.pairwise_cons.mpr ⟨?_, h⟩
      intro z hz
      rcases List.mem_cons.mp hz with rfl | hz
      · exact le_of_lt hlt
      · exact le_trans (le_of_lt hlt) (hy z hz)
    · rw [if_neg fun hb => hlt ((hbefore y).mp hb)]
      refine List.pairwise_cons.mpr ⟨?_, ih hrest⟩
      intro z hz
      rcases (mem_insertBefore _ _ _ _).mp hz with rfl | hz
      · exact not_lt.mp hlt
      · exact hy z hz

/-! ### Queues that agree with a tag -/

/-- The queue holds exactly the elements that satisfy `m`, each once. -/
structure Links (q : List α) (m : α → Prop) : Prop where
  nodup : q.Nodup
  mem_iff : ∀ x, x ∈ q ↔ m x

namespace Links

variable {q : List α} {m m' : α → Prop}

omit [DecidableEq α] in
theorem congr (h : Links q m) (hm : ∀ x, m x ↔ m' x) : Links q m' :=
  ⟨h.nodup, fun x => (h.mem_iff x).trans (hm x)⟩

omit [DecidableEq α] in
theorem empty (hm : ∀ x, ¬m x) : Links [] m :=
  ⟨List.nodup_nil, fun x => iff_of_false List.not_mem_nil (hm x)⟩

theorem erase (h : Links q m) (x : α) : Links (q.erase x) fun y => y ≠ x ∧ m y :=
  ⟨h.nodup.erase x, fun y => by rw [h.nodup.mem_erase_iff, h.mem_iff]⟩

theorem insertBefore (h : Links q m) (p : α → Bool) {x : α} (hx : ¬m x) :
    Links (insertBefore p x q) fun y => y = x ∨ m y :=
  ⟨nodup_insertBefore h.nodup fun hmem => hx ((h.mem_iff x).mp hmem),
    fun y => by rw [mem_insertBefore, h.mem_iff]⟩

omit [DecidableEq α] in
theorem append (h : Links q m) {x : α} (hx : ¬m x) : Links (q ++ [x]) fun y => y = x ∨ m y := by
  refine ⟨?_, ?_⟩
  · rw [List.nodup_append]
    refine ⟨h.nodup, List.nodup_singleton x, ?_⟩
    intro y hy z hz
    rw [List.mem_singleton] at hz
    rintro rfl
    exact hx ((h.mem_iff x).mp (hz ▸ hy))
  · intro y
    rw [List.mem_append, List.mem_singleton, h.mem_iff, or_comm]

theorem count_eq_zero (h : Links q m) {x : α} (hx : ¬m x) : q.count x = 0 :=
  List.count_eq_zero.mpr fun hmem => hx ((h.mem_iff x).mp hmem)

theorem count_eq_one (h : Links q m) {x : α} (hx : m x) : q.count x = 1 :=
  List.count_eq_one_of_mem h.nodup ((h.mem_iff x).mpr hx)

end Links

/-! ### Walking -/

theorem next_mem {x y : α} (h : next x q = some y) : y ∈ q := by
  induction q with
  | nil => simp [next] at h
  | cons z rest ih =>
    unfold next at h
    by_cases hz : z = x
    · rw [if_pos hz] at h
      exact List.mem_cons_of_mem _ (List.mem_of_mem_head? h)
    · rw [if_neg hz] at h
      exact List.mem_cons_of_mem _ (ih h)

theorem next_ne {x y : α} (hq : q.Nodup) (h : next x q = some y) : y ≠ x := by
  induction q with
  | nil => simp [next] at h
  | cons z rest ih =>
    obtain ⟨hz, hrest⟩ := List.nodup_cons.mp hq
    unfold next at h
    by_cases hzx : z = x
    · rw [if_pos hzx] at h
      rintro rfl
      exact hz (hzx ▸ List.mem_of_mem_head? h)
    · rw [if_neg hzx] at h
      exact ih hrest h

/--
**The rule for the walk.**  An invariant is kept if the body keeps it at every linked
node and unlinks no other node.
-/
theorem forEachSafe_inv {queue : σ → List α} {body : α → σ → σ} {Inv : σ → Prop}
    (hnodup : ∀ s, Inv s → (queue s).Nodup)
    (hbody : ∀ x s, Inv s → x ∈ queue s → Inv (body x s))
    (hkeep : ∀ x s, Inv s → x ∈ queue s → ∀ y ∈ queue s, y ≠ x → y ∈ queue (body x s)) :
    ∀ (fuel : Nat) (cursor : Option α) (s : σ), Inv s → (∀ x ∈ cursor, x ∈ queue s) →
      Inv (forEachSafe queue body fuel cursor s) := by
  intro fuel
  induction fuel with
  | zero => intro cursor s hs _; exact hs
  | succ fuel ih =>
    intro cursor s hs hcur
    cases cursor with
    | none => exact hs
    | some x =>
      have hx : x ∈ queue s := hcur x rfl
      refine ih _ _ (hbody x s hs hx) ?_
      intro y hy
      exact hkeep x s hs hx y (next_mem hy) (next_ne (hnodup s hs) hy)

/-- What the body keeps at every node, linked or not, the walk keeps. -/
theorem forEachSafe_keeps {queue : σ → List α} {body : α → σ → σ} {Inv : σ → Prop}
    (hbody : ∀ x s, Inv s → Inv (body x s)) :
    ∀ (fuel : Nat) (cursor : Option α) (s : σ), Inv s →
      Inv (forEachSafe queue body fuel cursor s) := by
  intro fuel
  induction fuel with
  | zero => intro cursor s hs; exact hs
  | succ fuel ih =>
    intro cursor s hs
    cases cursor with
    | none => exact hs
    | some x => exact ih _ _ (hbody x s hs)

end Queue

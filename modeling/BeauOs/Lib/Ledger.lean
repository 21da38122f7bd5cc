/-
Requests that wait in slots.

Requests are taken one after another, and each is known by its number in that order.  A taken
request is kept in a slot, may be handed to someone who works on it, and is settled when its slot
is emptied.  The ledger holds this history for requests of any kind; which slots exist and when
they are used is up to the program that keeps it.

`Balanced` is conservation: every request taken is in exactly one slot or has been settled exactly
once, as what it was taken for.  `InOrder` is the order law for requests with a key: those of one
key are handed out in the order in which they were taken, and none that waits is overtaken.
-/
import Mathlib.Data.List.Nodup
import Mathlib.Data.List.Pairwise

universe u v

/-- The history of requests of kind `κ`. -/
structure Ledger (κ : Type u) where
  /-- every request, in the order taken -/
  taken : List κ
  /-- the number of the request in a slot -/
  slot : Nat → Option Nat
  /-- the numbers handed out, in order -/
  handed : List Nat
  /-- the numbers settled, with what each was settled as -/
  settled : List (Nat × κ)

namespace Ledger

variable {κ : Type u} {l : Ledger κ} {s s' i : Nat} {k : κ}

def empty : Ledger κ := ⟨[], fun _ => none, [], []⟩

def take (k : κ) (l : Ledger κ) : Ledger κ := { l with taken := l.taken ++ [k] }

/-- Keep the request taken last in a slot. -/
def keep (s : Nat) (l : Ledger κ) : Ledger κ :=
  { l with slot := fun s' => if s' = s then some (l.taken.length - 1) else l.slot s' }

def hand (s : Nat) (l : Ledger κ) : Ledger κ :=
  { l with handed := l.handed ++ (l.slot s).toList }

def settle (s : Nat) (k : κ) (l : Ledger κ) : Ledger κ :=
  { l with
    slot := fun s' => if s' = s then none else l.slot s'
    settled := l.settled ++ (l.slot s).toList.map fun i => (i, k) }

/-- The number of a request that is taken and kept at once. -/
theorem slot_take_keep_self (l : Ledger κ) (k : κ) (s : Nat) :
    ((l.take k).keep s).slot s = some l.taken.length := by
  simp [take, keep]

theorem slot_take_keep_of_ne (l : Ledger κ) (k : κ) (h : s' ≠ s) :
    ((l.take k).keep s).slot s' = l.slot s' := by
  simp [take, keep, h]

theorem taken_take_of_lt (k : κ) (h : i < l.taken.length) :
    (l.take k).taken[i]? = l.taken[i]? :=
  List.getElem?_append_left h

theorem taken_take_self (l : Ledger κ) (k : κ) :
    (l.take k).taken[l.taken.length]? = some k := by
  simp [take]

theorem slot_settle_self (l : Ledger κ) (k : κ) (s : Nat) : (l.settle s k).slot s = none := by
  simp [settle]

theorem slot_settle_of_ne (l : Ledger κ) (k : κ) (h : s' ≠ s) :
    (l.settle s k).slot s' = l.slot s' := by
  simp [settle, h]

/-! ### Conservation -/

/-- No request is lost, kept twice or settled twice. -/
structure Balanced (l : Ledger κ) : Prop where
  taken_of_slot : ∀ {s i}, l.slot s = some i → i < l.taken.length
  slot_inj : ∀ {s s' i}, l.slot s = some i → l.slot s' = some i → s = s'
  settled_nodup : (l.settled.map Prod.fst).Nodup
  not_settled_of_slot : ∀ {s i}, l.slot s = some i → i ∉ l.settled.map Prod.fst
  settled_as : ∀ {i k}, (i, k) ∈ l.settled → l.taken[i]? = some k
  accounted : ∀ {i}, i < l.taken.length → (∃ s, l.slot s = some i) ∨ i ∈ l.settled.map Prod.fst

namespace Balanced

theorem empty : Balanced (Ledger.empty : Ledger κ) where
  taken_of_slot h := by simp [Ledger.empty] at h
  slot_inj h := by simp [Ledger.empty] at h
  settled_nodup := List.nodup_nil
  not_settled_of_slot h := by simp [Ledger.empty] at h
  settled_as h := by simp [Ledger.empty] at h
  accounted h := by simp [Ledger.empty] at h

theorem settled_lt (h : Balanced l) (hi : i ∈ l.settled.map Prod.fst) : i < l.taken.length := by
  obtain ⟨⟨j, k⟩, hmem, rfl⟩ := List.mem_map.mp hi
  exact (List.getElem?_eq_some_iff.mp (h.settled_as hmem)).1

theorem hand (h : Balanced l) (s : Nat) : Balanced (l.hand s) :=
  ⟨h.taken_of_slot, h.slot_inj, h.settled_nodup, h.not_settled_of_slot, h.settled_as, h.accounted⟩

/-- A new request goes into an empty slot. -/
theorem take_keep (h : Balanced l) (k : κ) (hempty : l.slot s = none) :
    Balanced ((l.take k).keep s) := by
  have hlen : ((l.take k).keep s).taken.length = l.taken.length + 1 := List.length_append
  -- a slot holds what it held before, or the new number
  have hslot : ∀ {t i}, ((l.take k).keep s).slot t = some i →
      (t ≠ s ∧ l.slot t = some i) ∨ (t = s ∧ i = l.taken.length) := by
    intro t i ht
    by_cases hts : t = s
    · rw [hts, slot_take_keep_self] at ht
      exact .inr ⟨hts, (Option.some.inj ht).symm⟩
    · rw [slot_take_keep_of_ne l k hts] at ht
      exact .inl ⟨hts, ht⟩
  refine ⟨fun ht => ?_, fun {t t' i} ht ht' => ?_, h.settled_nodup, fun {t i} ht => ?_,
    fun {i k'} hmem => ?_, fun {i} hi => ?_⟩
  · rw [hlen]
    rcases hslot ht with ⟨-, ht⟩ | ⟨-, rfl⟩
    · exact Nat.lt_succ_of_lt (h.taken_of_slot ht)
    · exact Nat.lt_succ_self _
  · rcases hslot ht with ⟨-, hold⟩ | ⟨hts, hi⟩ <;> rcases hslot ht' with ⟨-, hold'⟩ | ⟨hts', hi'⟩
    · exact h.slot_inj hold hold'
    · exact absurd (h.taken_of_slot hold) (by omega)
    · exact absurd (h.taken_of_slot hold') (by omega)
    · exact hts.trans hts'.symm
  · rcases hslot ht with ⟨-, ht⟩ | ⟨-, rfl⟩
    · exact h.not_settled_of_slot ht
    · exact fun hmem => absurd (h.settled_lt hmem) (Nat.lt_irrefl _)
  · have hlt := h.settled_lt (List.mem_map_of_mem hmem)
    exact (taken_take_of_lt k hlt).trans (h.settled_as hmem)
  · rw [hlen] at hi
    rcases Nat.lt_succ_iff_lt_or_eq.mp hi with hlt | rfl
    · rcases h.accounted hlt with ⟨t, ht⟩ | hmem
      · have hts : t ≠ s := fun hts => by rw [hts, hempty] at ht; cases ht
        exact .inl ⟨t, (slot_take_keep_of_ne l k hts).trans ht⟩
      · exact .inr hmem
    · exact .inl ⟨s, slot_take_keep_self l k s⟩

/-- A request is settled as what it was taken for. -/
theorem settle (h : Balanced l) (hs : l.slot s = some i) (hk : l.taken[i]? = some k) :
    Balanced (l.settle s k) := by
  have hsettled : (l.settle s k).settled = l.settled ++ [(i, k)] := by
    simp [Ledger.settle, hs]
  have hfst : (l.settle s k).settled.map Prod.fst = l.settled.map Prod.fst ++ [i] := by
    rw [hsettled, List.map_append, List.map_singleton]
  have hslot : ∀ {t j}, (l.settle s k).slot t = some j → t ≠ s ∧ l.slot t = some j := by
    intro t j ht
    by_cases hts : t = s
    · rw [hts, slot_settle_self] at ht
      cases ht
    · exact ⟨hts, (slot_settle_of_ne l k hts).symm.trans ht⟩
  refine ⟨fun ht => h.taken_of_slot (hslot ht).2,
    fun ht ht' => h.slot_inj (hslot ht).2 (hslot ht').2, ?_, fun {t j} ht => ?_,
    fun {j k'} hmem => ?_, fun {j} hj => ?_⟩
  · rw [hfst]
    exact h.settled_nodup.append (List.nodup_singleton i)
      (List.disjoint_singleton.mpr (h.not_settled_of_slot hs))
  · obtain ⟨hts, ht⟩ := hslot ht
    rw [hfst, List.mem_append, List.mem_singleton]
    rintro (hmem | rfl)
    · exact h.not_settled_of_slot ht hmem
    · exact hts (h.slot_inj ht hs)
  · rw [hsettled, List.mem_append, List.mem_singleton] at hmem
    rcases hmem with hmem | heq
    · exact h.settled_as hmem
    · obtain ⟨rfl, rfl⟩ := Prod.mk.inj heq
      exact hk
  · rw [hfst, List.mem_append, List.mem_singleton]
    rcases h.accounted hj with ⟨t, ht⟩ | hmem
    · by_cases hts : t = s
      · rw [hts, hs] at ht
        exact .inr (.inr (Option.some.inj ht).symm)
      · exact .inl ⟨t, (slot_settle_of_ne l k hts).trans ht⟩
    · exact .inr (.inl hmem)

theorem settled_once (h : Balanced l) (hmem : (i, k) ∈ l.settled) :
    l.settled.countP (fun e => decide (e.1 = i)) = 1 := by
  have hcount : (l.settled.map Prod.fst).count i = 1 :=
    List.count_eq_one_of_mem h.settled_nodup (List.mem_map_of_mem hmem)
  rw [List.count_eq_countP, List.countP_map] at hcount
  rw [← hcount]
  exact List.countP_congr fun e _ => by simp

end Balanced

/-! ### Order -/

section Order

variable {ι : Type v} {key : κ → ι} {waits : Nat → Prop}

/-- Two numbers of requests with one key. -/
def SameKey (key : κ → ι) (l : Ledger κ) (i j : Nat) : Prop :=
  (l.taken[i]?).map key = (l.taken[j]?).map key

/-- Requests of one key are handed out as they were taken, before all that `waits`. -/
structure InOrder (key : κ → ι) (l : Ledger κ) (waits : Nat → Prop) : Prop where
  handed : l.handed.Pairwise fun i j => SameKey key l i j → i < j
  waiting : ∀ i, waits i → ∀ j ∈ l.handed, SameKey key l j i → j < i

theorem sameKey_take (k : κ) {j : Nat} (hi : i < l.taken.length) (hj : j < l.taken.length) :
    SameKey key (l.take k) i j ↔ SameKey key l i j := by
  unfold SameKey
  rw [taken_take_of_lt k hi, taken_take_of_lt k hj]

namespace InOrder

theorem empty (key : κ → ι) : InOrder key (Ledger.empty : Ledger κ) fun _ => False :=
  ⟨.nil, fun _ h => h.elim⟩

theorem mono (h : InOrder key l waits) {waits' : Nat → Prop} (hw : ∀ i, waits' i → waits i) :
    InOrder key l waits' :=
  ⟨h.handed, fun i hi => h.waiting i (hw i hi)⟩

/-- A new request waits behind all that were handed out. -/
theorem take (h : InOrder key l waits) (k : κ) (hhanded : ∀ j ∈ l.handed, j < l.taken.length)
    (hwaits : ∀ i, waits i → i < l.taken.length) :
    InOrder key (l.take k) fun i => waits i ∨ i = l.taken.length := by
  refine ⟨h.handed.imp_of_mem fun hi hj hlt hsame => ?_, fun i hi j hj hsame => ?_⟩
  · exact hlt ((sameKey_take k (hhanded _ hi) (hhanded _ hj)).mp hsame)
  · rcases hi with hi | rfl
    · exact h.waiting i hi j hj ((sameKey_take k (hhanded j hj) (hwaits i hi)).mp hsame)
    · exact hhanded j hj

/-- The first of its key among those that wait is handed out. -/
theorem hand (h : InOrder key l waits) (hs : l.slot s = some i) (hi : waits i)
    (hfirst : ∀ j, waits j → SameKey key l i j → i ≤ j) :
    InOrder key (l.hand s) fun j => waits j ∧ j ≠ i := by
  have hlist : (l.hand s).handed = l.handed ++ [i] := by simp [Ledger.hand, hs]
  refine ⟨?_, fun j hj m hm hsame => ?_⟩
  · rw [hlist, List.pairwise_append]
    refine ⟨h.handed, List.pairwise_singleton _ _, fun j hj m hm hsame => ?_⟩
    obtain rfl := List.mem_singleton.mp hm
    exact h.waiting m hi j hj hsame
  · rw [hlist, List.mem_append, List.mem_singleton] at hm
    rcases hm with hm | rfl
    · exact h.waiting j hj.1 m hm hsame
    · exact Nat.lt_of_le_of_ne (hfirst j hj.1 hsame) hj.2.symm

end InOrder

end Order

end Ledger

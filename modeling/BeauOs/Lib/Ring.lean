/-
Circular doubly linked lists.

Every node has a link to the next node and one to the previous node, and a node that is on
no list links to itself.  The operations below only write links, so they can be applied to
any node at any time, whether or not what they are applied to is a list.

`IsRing` says when it is one: following the links from the anchor visits exactly the given
nodes, once each, and comes back to the anchor, and no other node is linked to anything.
Insertion and removal keep this, under the conditions stated with them, and a walk over a
ring sees the represented list.
-/
import Mathlib.Data.List.Chain
import Mathlib.Data.List.Nodup
import Mathlib.Logic.Function.Basic

namespace Ring

variable {ν : Type*}

structure Links (ν : Type*) where
  next : ν → ν
  prev : ν → ν

namespace Links

variable [DecidableEq ν]

section

variable (l : Links ν)

def detach (x : ν) : Links ν :=
  ⟨Function.update l.next x x, Function.update l.prev x x⟩

def insertBetween (new p q : ν) : Links ν :=
  ⟨Function.update (Function.update l.next new q) p new,
    Function.update (Function.update l.prev q new) new p⟩

def insertAfter (new p : ν) : Links ν := l.insertBetween new p (l.next p)

def join (p q : ν) : Links ν :=
  ⟨Function.update l.next p q, Function.update l.prev q p⟩

def remove (x : ν) : Links ν := (l.join (l.prev x) (l.next x)).detach x

/-- The node is on no list, or is the anchor of an empty one. -/
def isAlone (x : ν) : Bool := l.next x = x

end

/--
Walk from `pos` while `p` holds, up to the anchor.  The result is the last node `p` held of,
`last` if there is none, and `none` if the walk did not end within `fuel` nodes.
-/
def lastWhile (l : Links ν) (anchor : ν) (p : ν → Bool) : Nat → ν → ν → Option ν
  | 0, _, _ => none
  | fuel + 1, pos, last =>
    if pos = anchor then some last
    else if p pos then lastWhile l anchor p fuel (l.next pos) pos
    else some last

end Links

/-- Two nodes that link to each other. -/
def Links.Adjacent (l : Links ν) (x y : ν) : Prop := l.next x = y ∧ l.prev y = x

/-- The links form a ring through `anchor` and `xs`, and nothing else. -/
structure IsRing (l : Links ν) (anchor : ν) (xs : List ν) : Prop where
  cycle : (anchor :: (xs ++ [anchor])).IsChain l.Adjacent
  nodup : (anchor :: xs).Nodup
  alone : ∀ x, x ≠ anchor → x ∉ xs → l.next x = x

section Chains

variable {l l' : Links ν}

/-- A stretch of a ring is kept if no link inside it is written. -/
theorem isChain_adjacent_of_eq :
    ∀ {xs : List ν}, xs.IsChain l.Adjacent → (∀ x ∈ xs.dropLast, l'.next x = l.next x) →
      (∀ x ∈ xs.tail, l'.prev x = l.prev x) → xs.IsChain l'.Adjacent := by
  intro xs
  induction xs with
  | nil => exact fun _ _ _ => .nil
  | cons x rest ih =>
    cases rest with
    | nil => exact fun _ _ _ => .singleton x
    | cons y rest =>
      intro h hnext hprev
      obtain ⟨hxy, hrest⟩ := List.isChain_cons_cons.mp h
      refine List.isChain_cons_cons.mpr ⟨⟨?_, ?_⟩, ih hrest ?_ ?_⟩
      · exact (hnext x (by simp)).trans hxy.1
      · exact (hprev y (by simp)).trans hxy.2
      · exact fun z hz => hnext z (by simp [List.dropLast_cons_of_ne_nil, hz])
      · exact fun z hz => hprev z (List.mem_cons_of_mem _ hz)

end Chains

namespace IsRing

variable {l l' : Links ν} {anchor : ν} {xs ys : List ν}

theorem anchor_notMem (h : IsRing l anchor xs) : anchor ∉ xs := (List.nodup_cons.mp h.nodup).1

/-- Nodes that all link to themselves are an empty list, for every anchor. -/
theorem empty (anchor : ν) : IsRing ⟨id, id⟩ anchor [] :=
  ⟨List.isChain_pair.mpr ⟨rfl, rfl⟩, List.nodup_singleton anchor, fun _ _ _ => rfl⟩

/-- The first node is the one the anchor links to. -/
theorem next_anchor (h : IsRing l anchor xs) : l.next anchor = xs.headD anchor := by
  have hcycle := h.cycle
  cases xs with
  | nil | cons x rest => exact (List.isChain_cons_cons.mp hcycle).1.1

/-- A node of the ring links to what follows it. -/
theorem next_of_mem {x : ν} (h : IsRing l anchor (xs ++ x :: ys)) :
    l.next x = ys.headD anchor := by
  have hcycle := h.cycle
  rw [List.append_assoc, List.cons_append, ← List.cons_append] at hcycle
  have hrest := (List.isChain_split.mp hcycle).2
  cases ys with
  | nil | cons y rest => exact (List.isChain_cons_cons.mp hrest).1.1

/--
The ring left of a place and right of it: `p` is the last node before the place and `q` the
first one behind it.  Every node is the source of one link and the target of one.
-/
structure Parts (l : Links ν) (pre : List ν) (p q : ν) (post : List ν) : Prop where
  left : (pre ++ [p]).IsChain l.Adjacent
  right : (q :: post).IsChain l.Adjacent
  sources : (pre ++ p :: (q :: post).dropLast).Nodup
  targets : ((pre ++ [p]).tail ++ q :: post).Nodup

/-- Both parts are kept if only links at the place and of one other node are written. -/
theorem Parts.keep {pre post : List ν} {p q z : ν} (h : Parts l pre p q post)
    (hzl : z ∉ pre ++ [p]) (hzr : z ∉ q :: post)
    (hnext : ∀ x, x ≠ p → x ≠ z → l'.next x = l.next x)
    (hprev : ∀ x, x ≠ q → x ≠ z → l'.prev x = l.prev x) : Parts l' pre p q post := by
  refine ⟨isChain_adjacent_of_eq h.left ?_ ?_, isChain_adjacent_of_eq h.right ?_ ?_, h.sources,
    h.targets⟩
  · intro x hx
    rw [List.dropLast_concat] at hx
    refine hnext x ?_ ?_
    · rintro rfl
      exact (List.nodup_append.mp h.sources).2.2 _ hx _ List.mem_cons_self rfl
    · rintro rfl
      exact hzl (List.mem_append_left _ hx)
  · intro x hx
    refine hprev x ?_ ?_
    · rintro rfl
      exact (List.nodup_append.mp h.targets).2.2 _ hx _ List.mem_cons_self rfl
    · rintro rfl
      exact hzl (List.mem_of_mem_tail hx)
  · intro x hx
    refine hnext x ?_ ?_
    · rintro rfl
      exact (List.nodup_cons.mp (List.nodup_append.mp h.sources).2.1).1 hx
    · rintro rfl
      exact hzr (List.dropLast_subset _ hx)
  · intro x hx
    refine hprev x ?_ ?_
    · rintro rfl
      exact (List.nodup_cons.mp (List.nodup_append.mp h.targets).2.1).1 hx
    · rintro rfl
      exact hzr (List.mem_cons_of_mem _ hx)

/-- Every place of a ring has a node before it and one behind it, which are neighbours. -/
theorem parts (h : IsRing l anchor (xs ++ ys)) :
    ∃ pre p q post, anchor :: xs = pre ++ [p] ∧ ys ++ [anchor] = q :: post ∧ l.Adjacent p q ∧
      Parts l pre p q post := by
  obtain ⟨pre, p, hpre⟩ : ∃ pre p, anchor :: xs = pre ++ [p] :=
    ⟨_, _, (List.dropLast_append_getLast (List.cons_ne_nil anchor xs)).symm⟩
  obtain ⟨q, post, hpost⟩ : ∃ q post, ys ++ [anchor] = q :: post :=
    List.exists_cons_of_ne_nil (by simp)
  have hcycle := h.cycle
  rw [List.append_assoc, ← List.cons_append, hpre, hpost, List.append_assoc, List.singleton_append,
    List.isChain_append_cons_cons] at hcycle
  refine ⟨pre, p, q, post, hpre, hpost, hcycle.2.1, hcycle.1, hcycle.2.2, ?_, ?_⟩
  · have hnodup := h.nodup
    rw [← List.cons_append, hpre] at hnodup
    rw [← hpost, List.dropLast_concat, List.append_cons]
    exact hnodup
  · have hnodup := List.nodup_cons.mp h.nodup
    rw [← hpre, ← hpost, List.tail_cons, ← List.append_assoc]
    exact List.nodup_append_comm.mp (List.nodup_cons.mpr hnodup)

section Writes

variable [DecidableEq ν]

/-- **Insertion.**  A node that is on no list goes behind the last of `xs`. -/
theorem insertAfter {new p : ν} (h : IsRing l anchor (xs ++ ys)) (hne : new ≠ anchor)
    (hnew : new ∉ xs ++ ys) (hp : (anchor :: xs).getLast? = some p) :
    IsRing (l.insertAfter new p) anchor (xs ++ new :: ys) := by
  obtain ⟨pre, p', q, post, hpre, hpost, hpq, hparts⟩ := h.parts
  obtain rfl : p' = p := by
    rw [hpre, List.getLast?_concat] at hp
    exact Option.some.inj hp
  have hall : new ∉ anchor :: (xs ++ ys) := fun hmem => (List.mem_cons.mp hmem).elim hne hnew
  have hnewl : new ∉ pre ++ [p'] := by
    rw [← hpre]
    exact fun hmem => hall (List.mem_append_left ys hmem)
  have hnewr : new ∉ q :: post := by
    rw [← hpost]
    intro hmem
    rcases List.mem_append.mp hmem with hmem | hmem
    · exact hnew (List.mem_append_right _ hmem)
    · exact hne (List.mem_singleton.mp hmem)
  have hnp : new ≠ p' := fun e => hnewl (e ▸ List.mem_append_right _ List.mem_cons_self)
  have hnq : new ≠ q := fun e => hnewr (e ▸ List.mem_cons_self)
  have hnext : ∀ x, x ≠ p' → x ≠ new → (l.insertAfter new p').next x = l.next x := by
    intro x hxp hxn
    simp [Links.insertAfter, Links.insertBetween, hxp, hxn]
  have hparts' : Parts (l.insertAfter new p') pre p' q post := by
    refine hparts.keep hnewl hnewr hnext fun x hxq hxn => ?_
    simp [Links.insertAfter, Links.insertBetween, hpq.1, hxq, hxn]
  have hpnew : (l.insertAfter new p').Adjacent p' new := by
    simp [Links.Adjacent, Links.insertAfter, Links.insertBetween]
  have hnewq : (l.insertAfter new p').Adjacent new q := by
    simp [Links.Adjacent, Links.insertAfter, Links.insertBetween, hpq.1, hnp, hnq.symm]
  refine ⟨?_, ?_, fun x hx hmem => ?_⟩
  · rw [List.append_assoc, ← List.cons_append, hpre, List.cons_append, hpost, List.append_assoc,
      List.singleton_append, List.isChain_append_cons_cons, List.isChain_cons_cons]
    exact ⟨hparts'.left, hpnew, hnewq, hparts'.right⟩
  · rw [← List.cons_append, List.nodup_middle, List.cons_append]
    exact List.nodup_cons.mpr ⟨hall, h.nodup⟩
  · have hold : x ∉ anchor :: (xs ++ ys) := by
      rw [List.mem_cons, List.mem_append]
      rw [List.mem_append, List.mem_cons] at hmem
      tauto
    rw [hnext x ?_ ?_]
    · exact h.alone x hx fun hmem => hold (List.mem_cons_of_mem _ hmem)
    · rintro rfl
      refine hold (List.mem_append_left ys (?_ : x ∈ anchor :: xs))
      rw [hpre]
      exact List.mem_append_right _ List.mem_cons_self
    · rintro rfl
      exact hmem (List.mem_append_right _ List.mem_cons_self)

theorem remove {x : ν} (h : IsRing l anchor (xs ++ x :: ys)) :
    IsRing (l.remove x) anchor (xs ++ ys) := by
  obtain ⟨pre, p, x', rest, hpre, hrest, hpx, hparts⟩ := h.parts
  obtain ⟨rfl, htail⟩ : x = x' ∧ ys ++ [anchor] = rest := List.cons.inj hrest
  obtain ⟨q, post, hpost⟩ : ∃ q post, ys ++ [anchor] = q :: post :=
    List.exists_cons_of_ne_nil (by simp)
  obtain rfl : rest = q :: post := htail.symm.trans hpost
  obtain ⟨hxq, hright⟩ := List.isChain_cons_cons.mp hparts.right
  have hmid : x ∉ anchor :: (xs ++ ys) := by
    have hnodup := h.nodup
    rw [← List.cons_append, List.nodup_middle, List.cons_append] at hnodup
    exact (List.nodup_cons.mp hnodup).1
  have hxl : x ∉ pre ++ [p] := by
    rw [← hpre]
    exact fun hmem => hmid (List.mem_append_left ys hmem)
  have hxr : x ∉ q :: post := by
    rw [← hpost]
    intro hmem
    rcases List.mem_append.mp hmem with hmem | hmem
    · exact hmid (List.mem_cons_of_mem _ (List.mem_append_right _ hmem))
    · exact hmid (List.mem_singleton.mp hmem ▸ List.mem_cons_self)
  have hxp : p ≠ x := fun e => hxl (e ▸ List.mem_append_right _ List.mem_cons_self)
  have hqx : q ≠ x := fun e => hxr (e ▸ List.mem_cons_self)
  have hnext : ∀ y, y ≠ p → y ≠ x → (l.remove x).next y = l.next y := by
    intro y hyp hyx
    simp [Links.remove, Links.join, Links.detach, hpx.2, hyp, hyx]
  have hnew : Parts (l.remove x) pre p q post := by
    have hold : Parts l pre p q post := by
      refine ⟨hparts.left, hright, ?_, ?_⟩
      · refine hparts.sources.sublist (List.Sublist.append_left (List.Sublist.cons_cons _ ?_) _)
        rw [List.dropLast_cons_of_ne_nil (List.cons_ne_nil q post)]
        exact List.sublist_cons_self _ _
      · exact hparts.targets.sublist (List.Sublist.append_left (List.sublist_cons_self _ _) _)
    refine hold.keep hxl hxr hnext fun y hyq hyx => ?_
    simp [Links.remove, Links.join, Links.detach, hxq.1, hyq, hyx]
  have hpq : (l.remove x).Adjacent p q := by
    simp [Links.Adjacent, Links.remove, Links.join, Links.detach, hpx.2, hxq.1, hxp, hqx]
  refine ⟨?_, ?_, fun y hy hmem => ?_⟩
  · rw [List.append_assoc, ← List.cons_append, hpre, hpost, List.append_assoc,
      List.singleton_append, List.isChain_append_cons_cons]
    exact ⟨hnew.left, hpq, hnew.right⟩
  · have hnodup := h.nodup
    rw [← List.cons_append, List.nodup_middle, List.cons_append] at hnodup
    exact (List.nodup_cons.mp hnodup).2
  · by_cases hyx : y = x
    · subst hyx
      simp [Links.remove, Links.detach]
    · rw [hnext y ?_ hyx]
      · refine h.alone y hy ?_
        rw [List.mem_append, List.mem_cons]
        rw [List.mem_append] at hmem
        tauto
      · rintro rfl
        have hin : y ∈ anchor :: xs := hpre ▸ List.mem_append_right _ List.mem_cons_self
        rcases List.mem_cons.mp hin with e | hin
        · exact hy e
        · exact hmem (List.mem_append_left _ hin)

/-- A node other than the anchor is alone exactly if it is not on the ring. -/
theorem isAlone_iff {x : ν} (h : IsRing l anchor xs) (hx : x ≠ anchor) :
    l.isAlone x = true ↔ x ∉ xs := by
  refine decide_eq_true_iff.trans ⟨fun he hmem => ?_, h.alone x hx⟩
  obtain ⟨us, vs, rfl⟩ := List.append_of_mem hmem
  rw [h.next_of_mem] at he
  cases vs with
  | nil => exact hx he.symm
  | cons v vs =>
    have hnodup := (List.nodup_cons.mp h.nodup).2
    have hxv := (List.nodup_cons.mp (List.nodup_append.mp hnodup).2.1).1
    exact hxv ((show v = x from he) ▸ List.mem_cons_self)

/-- **A walk sees the represented list.** -/
theorem lastWhile_eq (h : IsRing l anchor xs) (p : ν → Bool) {fuel : Nat}
    (hfuel : xs.length < fuel) :
    l.lastWhile anchor p fuel (l.next anchor) anchor =
      (anchor :: xs.takeWhile p).getLast? := by
  -- the walk is at the first of `zs`, and `last` is the node before it
  have hwalk : ∀ (zs : List ν) (last : ν) (fuel : Nat), anchor ∉ zs → zs.length < fuel →
      (last :: (zs ++ [anchor])).IsChain l.Adjacent →
      l.lastWhile anchor p fuel (l.next last) last = (last :: zs.takeWhile p).getLast? := by
    intro zs
    induction zs with
    | nil =>
      intro last fuel _ hlt hchain
      obtain ⟨fuel, rfl⟩ := Nat.exists_eq_add_of_lt hlt
      have hend : l.next last = anchor := (List.isChain_cons_cons.mp hchain).1.1
      simp [Links.lastWhile, hend]
    | cons z zs ih =>
      intro last fuel hnot hlt hchain
      obtain ⟨⟨hnext, -⟩, hrest⟩ := List.isChain_cons_cons.mp hchain
      obtain ⟨fuel, rfl⟩ := Nat.exists_eq_add_of_lt hlt
      have hz : z ≠ anchor := fun e => hnot (e ▸ List.mem_cons_self)
      rw [hnext, Links.lastWhile, if_neg hz]
      by_cases hp : p z = true
      · rw [if_pos hp, List.takeWhile_cons_of_pos hp, List.getLast?_cons_cons]
        exact ih z _ (fun hmem => hnot (List.mem_cons_of_mem _ hmem))
          (by simp only [List.length_cons]; omega) hrest
      · rw [if_neg hp, List.takeWhile_cons_of_neg hp]
        rfl
  exact hwalk xs anchor fuel h.anchor_notMem hfuel h.cycle

end Writes

end IsRing

end Ring

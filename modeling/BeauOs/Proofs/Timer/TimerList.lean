/-
The timer list as a list.

`TimerListOk` says that the links of a pCPU's timers form a ring through the head and that
the timers on it are sorted by deadline.  What is proved of the list operations is what a
caller sees: which timers are started afterwards, and that the list is still in order.  The
links themselves are not mentioned any more after this file, except that the node that
follows a started timer is the head or a started timer.
-/
import BeauOs.Timer.Softirq
import Mathlib.Data.Fintype.Card
import Mathlib.Data.List.Sort

namespace BeauOs.Timer

variable {n : Nat}

/-- The timers on the list, in order of their deadlines. -/
structure TimerListOk (s : PcpuTimers n) (xs : List (Fin n)) : Prop where
  ring : Ring.IsRing s.links none (xs.map some)
  sorted : xs.Pairwise fun t u => (s.timer t).timeout ≤ (s.timer u).timeout

def PcpuTimers.Ordered (s : PcpuTimers n) : Prop := ∃ xs, TimerListOk s xs

namespace TimerListOk

variable {s : PcpuTimers n} {xs : List (Fin n)} {t u : Fin n}

variable (h : TimerListOk s xs)

include h

theorem nodup : xs.Nodup :=
  (List.nodup_cons.mp h.ring.nodup).2.of_map some

theorem started_iff : timerIsStarted s t = true ↔ t ∈ xs := by
  unfold timerIsStarted
  rw [Bool.not_eq_true', ← Bool.not_eq_true, h.ring.isAlone_iff (by simp), not_not]
  simp

/-- Changing a timer that is not on the list, or not its deadline, keeps the order. -/
theorem updTimer {f : HvTimer → HvTimer}
    (hf : timerIsStarted s t = true → (f (s.timer t)).timeout = (s.timer t).timeout) :
    TimerListOk (s.updTimer t f) xs := by
  refine ⟨h.ring, h.sorted.imp_of_mem fun {a b} ha hb hab => ?_⟩
  have htimeout : ∀ a ∈ xs, ((s.updTimer t f).timer a).timeout = (s.timer a).timeout := by
    intro a ha
    by_cases hat : a = t
    · subst hat
      rw [PcpuTimers.updTimer_self]
      exact hf (h.started_iff.mpr ha)
    · rw [PcpuTimers.updTimer_of_ne _ _ hat]
  rw [htimeout a ha, htimeout b hb]
  exact hab

theorem delTimer (t : Fin n) : TimerListOk (delTimer s t) (xs.erase t) := by
  unfold Timer.delTimer
  split_ifs with hstarted
  · obtain ⟨us, vs, rfl⟩ := List.append_of_mem (h.started_iff.mp hstarted)
    have hnot : t ∉ us := fun hmem =>
      (List.nodup_append.mp h.nodup).2.2 _ hmem _ List.mem_cons_self rfl
    rw [List.erase_append_right _ hnot, List.erase_cons_head]
    refine ⟨?_, ?_⟩
    · have hring := h.ring
      rw [List.map_append, List.map_cons] at hring
      rw [List.map_append]
      exact hring.remove
    · exact h.sorted.sublist (List.Sublist.append_left (List.sublist_cons_self _ _) _)
  · rw [List.erase_of_not_mem fun hmem => hstarted (h.started_iff.mpr hmem)]
    exact h

/-- The walk of `local_add_timer` ends, and the timer goes where its deadline belongs. -/
theorem localAddTimer (hnew : timerIsStarted s t = false) :
    ∃ links head, localAddTimer s t = some ({ s with links := links }, head) ∧
      TimerListOk { s with links := links }
        (xs.orderedInsert (fun a b => (s.timer a).timeout ≤ (s.timer b).timeout) t) := by
  have hmem : t ∉ xs := fun hmem => by
    rw [h.started_iff.mpr hmem] at hnew
    cases hnew
  have hlen : (xs.map some).length < n + 1 := by
    have hcard := h.nodup.length_le_card
    rw [Fintype.card_fin] at hcard
    rw [List.length_map]
    omega
  -- the walk stops before the first timer that does not expire earlier
  have hwhile : expiresBefore s (s.timer t).timeout ∘ some =
      fun u => decide ¬(s.timer t).timeout ≤ (s.timer u).timeout := by
    funext u
    simp [expiresBefore]
  obtain ⟨prev, hprev⟩ : ∃ prev,
      (none :: (xs.map some).takeWhile (expiresBefore s (s.timer t).timeout)).getLast? =
        some prev := ⟨_, List.getLast?_cons⟩
  have hwalk := h.ring.lastWhile_eq (expiresBefore s (s.timer t).timeout) hlen
  rw [hprev] at hwalk
  refine ⟨s.links.insertAfter (some t) prev, prev.isNone, ?_, ?_, ?_⟩
  · unfold Timer.localAddTimer
    rw [hwalk]
    rfl
  · rw [List.takeWhile_map, hwhile] at hprev
    have hsplit : xs.map some =
        (xs.takeWhile fun u => ¬(s.timer t).timeout ≤ (s.timer u).timeout).map some ++
          (xs.dropWhile fun u => ¬(s.timer t).timeout ≤ (s.timer u).timeout).map some := by
      rw [← List.map_append, List.takeWhile_append_dropWhile]
    have hring := h.ring
    rw [hsplit] at hring
    rw [List.orderedInsert_eq_take_drop, List.map_append, List.map_cons]
    refine hring.insertAfter (by simp) ?_ ?_
    · rw [← hsplit]
      simpa using hmem
    · exact hprev
  · have htotal : Std.Total fun a b => (s.timer a).timeout ≤ (s.timer b).timeout :=
      ⟨fun _ _ => Nat.le_total _ _⟩
    have htrans : IsTrans (Fin n) fun a b => (s.timer a).timeout ≤ (s.timer b).timeout :=
      ⟨fun _ _ _ => Nat.le_trans⟩
    exact h.sorted.orderedInsert t xs

theorem next_started (ht : timerIsStarted s t = true)
    (hnext : s.links.next (some t) = some u) : timerIsStarted s u = true ∧ u ≠ t := by
  obtain ⟨us, vs, rfl⟩ := List.append_of_mem (h.started_iff.mp ht)
  have hring := h.ring
  rw [List.map_append, List.map_cons] at hring
  rw [hring.next_of_mem] at hnext
  cases vs with
  | nil => cases hnext
  | cons v vs =>
    obtain rfl : v = u := Option.some.inj hnext
    refine ⟨h.started_iff.mpr (by simp), ?_⟩
    rintro rfl
    exact (List.nodup_cons.mp (List.nodup_append.mp h.nodup).2.1).1 List.mem_cons_self

theorem first_started (hnext : s.links.next none = some u) : timerIsStarted s u = true := by
  rw [h.ring.next_anchor] at hnext
  cases xs with
  | nil => cases hnext
  | cons x rest =>
    obtain rfl : x = u := Option.some.inj hnext
    exact h.started_iff.mpr List.mem_cons_self

end TimerListOk

/-! ### What a caller sees -/

theorem delTimer_timer (s : PcpuTimers n) (t : Fin n) : (delTimer s t).timer = s.timer := by
  unfold delTimer
  split <;> rfl

theorem updateArchitectureTimer_timer (s : PcpuTimers n) :
    (updateArchitectureTimer s).timer = s.timer ∧
      (updateArchitectureTimer s).links = s.links := by
  unfold updateArchitectureTimer
  split <;> exact ⟨rfl, rfl⟩

namespace PcpuTimers.Ordered

variable {s s' : PcpuTimers n} {t u : Fin n}

/-- Whether the list is in order depends on links and deadlines only. -/
theorem congr (h : s.Ordered) (htimer : s'.timer = s.timer) (hlinks : s'.links = s.links) :
    s'.Ordered := by
  obtain ⟨xs, hring, hsorted⟩ := h
  exact ⟨xs, hlinks ▸ hring, htimer ▸ hsorted⟩

theorem updTimer (h : s.Ordered) {f : HvTimer → HvTimer}
    (hf : timerIsStarted s t = true → (f (s.timer t)).timeout = (s.timer t).timeout) :
    (s.updTimer t f).Ordered := by
  obtain ⟨xs, hxs⟩ := h
  exact ⟨xs, hxs.updTimer hf⟩

theorem delTimer (h : s.Ordered) (t : Fin n) :
    (Timer.delTimer s t).Ordered ∧
      ∀ u, timerIsStarted (Timer.delTimer s t) u = (timerIsStarted s u && decide (u ≠ t)) := by
  obtain ⟨xs, hxs⟩ := h
  refine ⟨⟨_, hxs.delTimer t⟩, fun u => ?_⟩
  rw [Bool.eq_iff_iff, (hxs.delTimer t).started_iff, hxs.nodup.mem_erase_iff, Bool.and_eq_true,
    hxs.started_iff, decide_eq_true_iff, and_comm]

theorem localAddTimer (h : s.Ordered) (hnew : timerIsStarted s t = false) :
    ∃ s' head, Timer.localAddTimer s t = some (s', head) ∧ s'.Ordered ∧ s'.timer = s.timer ∧
      ∀ u, timerIsStarted s' u = (timerIsStarted s u || decide (u = t)) := by
  obtain ⟨xs, hxs⟩ := h
  obtain ⟨links, head, hadd, hok⟩ := hxs.localAddTimer hnew
  refine ⟨_, head, hadd, ⟨_, hok⟩, rfl, fun u => ?_⟩
  rw [Bool.eq_iff_iff, hok.started_iff, List.mem_orderedInsert, Bool.or_eq_true, hxs.started_iff,
    decide_eq_true_iff, or_comm]

/-- `add_timer` for a timer that is not started. -/
theorem addTimer (h : s.Ordered) (hnew : accepts s t = true → timerIsStarted s t = false) :
    ∃ s' ret, Timer.addTimer s t = some (s', ret) ∧ s'.Ordered ∧
      decide (ret = 0) = accepts s t ∧
      (∀ u, (s'.timer u).mode = (s.timer u).mode) ∧
      ∀ u, timerIsStarted s' u = (timerIsStarted s u || (accepts s t && decide (u = t))) := by
  unfold Timer.addTimer
  by_cases haccept : accepts s t = true
  swap
  · rw [if_neg haccept]
    refine ⟨s, -22, rfl, h, ?_, fun _ => rfl, fun u => ?_⟩
    · rw [Bool.eq_false_iff.mpr haccept]
      rfl
    · rw [Bool.eq_false_iff.mpr haccept, Bool.false_and, Bool.or_false]
  rw [if_pos haccept]
  dsimp only
  generalize hs' : s.updTimer t _ = s'
  have hord : s'.Ordered := by
    rw [← hs']
    refine h.updTimer fun _ => ?_
    split <;> rfl
  have hstarted : ∀ u, timerIsStarted s' u = timerIsStarted s u := by
    intro u
    rw [← hs']
    rfl
  have hmode : ∀ u, (s'.timer u).mode = (s.timer u).mode := by
    intro u
    rw [← hs']
    by_cases hu : u = t
    · subst hu
      rw [PcpuTimers.updTimer_self]
      split <;> rfl
    · rw [PcpuTimers.updTimer_of_ne _ _ hu]
  obtain ⟨s'', head, hadd, hord', htimer, hstarted'⟩ :=
    hord.localAddTimer ((hstarted t).trans (hnew haccept))
  rw [hadd]
  have harch := updateArchitectureTimer_timer s''
  refine ⟨if head = true then updateArchitectureTimer s'' else s'', 0, rfl, ?_, haccept.symm,
    fun u => ?_, fun u => ?_⟩
  · split
    · exact hord'.congr harch.1 harch.2
    · exact hord'
  · rw [← hmode u, ← htimer]
    split
    · rw [harch.1]
    · rfl
  · rw [haccept, Bool.true_and, ← hstarted u, ← hstarted' u]
    unfold timerIsStarted
    split
    · rw [harch.2]
    · rfl

/-- `update_timer` for a timer that is not started, or with the deadline it has. -/
theorem updateTimer (h : s.Ordered) {timeout period : Nat}
    (hsame : timerIsStarted s t = true → timeout = (s.timer t).timeout) :
    (updateTimer s t timeout period).Ordered := by
  refine h.updTimer fun hstarted => ?_
  rw [← hsame hstarted]
  unfold HvTimer.set
  split <;> rfl

theorem next_started (h : s.Ordered) (ht : timerIsStarted s t = true)
    (hnext : s.links.next (some t) = some u) : timerIsStarted s u = true ∧ u ≠ t := by
  obtain ⟨xs, hxs⟩ := h
  exact hxs.next_started ht hnext

theorem first_started (h : s.Ordered) (hnext : s.links.next none = some u) :
    timerIsStarted s u = true := by
  obtain ⟨xs, hxs⟩ := h
  exact hxs.first_started hnext

end PcpuTimers.Ordered

end BeauOs.Timer

/-
The CBS run queue under the hooks of the policy.

One fact about each function, in terms of who is linked in the run queue afterwards; the
hooks are then compositions of them.  Budgets and deadlines play no role: a refreshed
server is put back wherever its deadline belongs, and all that counts is that it is put
back.
-/
import BeauOs.Sched.Cbs
import BeauOs.Proofs.Sched.Linkage

namespace BeauOs.Sched

def cbsLinks (priv : CbsControl) (t : Tid) : Nat := priv.runqueue.count t

def CbsQueueWf (_ : Tid → CbsData) (priv : CbsControl) : Prop := priv.runqueue.Nodup

theorem cbsLinks_ne_zero {priv : CbsControl} {t : Tid} :
    cbsLinks priv t ≠ 0 ↔ t ∈ priv.runqueue := by
  unfold cbsLinks
  rw [Ne, List.count_eq_zero, not_not]

theorem cbsLinks_eq_zero {priv : CbsControl} {t : Tid} :
    cbsLinks priv t = 0 ↔ t ∉ priv.runqueue := List.count_eq_zero

/-! ### Linking and unlinking -/

variable {p : CbsState} {u : Tid} (env : Env) (now : Nat) (ctl : SchedControl) (t : Tid)

theorem cbsQueueRemove_runqueue (p : CbsState) :
    (cbsQueueRemove t p).priv.runqueue = p.priv.runqueue.erase t := by
  unfold cbsQueueRemove cbsIsQueued
  by_cases h : t ∈ p.priv.runqueue
  · rw [if_pos (decide_eq_true h)]
  · rw [if_neg (by simpa using h), List.erase_of_not_mem h]

/-- Whether or not the thread was linked before, it is linked once in front of a later deadline. -/
theorem cbsQueueInsert_runqueue (p : CbsState) :
    (cbsQueueInsert t p).priv.runqueue =
      Queue.insertBefore (fun u => (p.data t).deadlineTicks < (p.data u).deadlineTicks) t
        (p.priv.runqueue.erase t) := by
  have hdata : (cbsQueueRemove t p).data = p.data := by
    unfold cbsQueueRemove
    split <;> rfl
  unfold cbsQueueInsert
  by_cases h : cbsIsQueued p t = true
  · simp only [h, if_true]
    rw [cbsQueueRemove_runqueue, hdata]
  · have hn : t ∉ p.priv.runqueue := by simpa [cbsIsQueued] using h
    simp only [h, List.erase_of_not_mem hn]
    rfl

theorem cbsQueueInsert_nodup (h : p.priv.runqueue.Nodup) :
    (cbsQueueInsert t p).priv.runqueue.Nodup := by
  rw [cbsQueueInsert_runqueue]
  exact Queue.nodup_insertBefore (h.erase t) (List.Nodup.not_mem_erase h)

theorem mem_cbsQueueInsert {t : Tid} :
    u ∈ (cbsQueueInsert t p).priv.runqueue ↔ u = t ∨ u ∈ p.priv.runqueue := by
  rw [cbsQueueInsert_runqueue, Queue.mem_insertBefore]
  by_cases h : u = t
  · simp [h]
  · simp [h, List.mem_erase_of_ne h]

theorem mem_cbsQueueRemove {t : Tid} (h : p.priv.runqueue.Nodup) :
    u ∈ (cbsQueueRemove t p).priv.runqueue ↔ u ≠ t ∧ u ∈ p.priv.runqueue := by
  rw [cbsQueueRemove_runqueue, h.mem_erase_iff]

/-! ### Functions that leave the run queue alone -/

@[simp] theorem cbsAccountRuntime_priv (now : Nat) (t : Tid) (p : CbsState) :
    (cbsAccountRuntime ctl now t p).priv = p.priv := by
  unfold cbsAccountRuntime
  split <;> rfl

@[simp] theorem cbsProgramLocalTimer_runqueue (now : Nat) (running : Option Tid) (p : CbsState) :
    (cbsProgramLocalTimer ctl now running p).priv.runqueue = p.priv.runqueue := by
  unfold cbsProgramLocalTimer
  dsimp only
  split
  · rfl
  · split <;> split <;> rfl

@[simp] theorem cbsProgramTimer_runqueue (running : Option Tid) (p : CbsState) :
    (cbsProgramTimer env ctl running p).priv.runqueue = p.priv.runqueue := by
  unfold cbsProgramTimer
  split
  · exact cbsProgramLocalTimer_runqueue ..
  · rfl

/-! ### Refreshing -/

/-- An active thread is linked by a refresh; nobody else is touched. -/
theorem cbsRefreshThread_runqueue (now : Nat) (t : Tid) (h : p.priv.runqueue.Nodup) :
    (cbsRefreshThread ctl now t p).priv.runqueue.Nodup ∧
      ∀ u, u ∈ (cbsRefreshThread ctl now t p).priv.runqueue ↔
        (u = t ∧ ctl.isActive t = true) ∨ u ∈ p.priv.runqueue := by
  unfold cbsRefreshThread cbsIsActive
  by_cases hact : ctl.isActive t = true
  · rw [if_pos hact]
    refine ⟨cbsQueueInsert_nodup t h, ?_⟩
    intro u
    rw [mem_cbsQueueInsert]
    simp [hact]
  · rw [if_neg hact]
    refine ⟨h, ?_⟩
    intro u
    simp [hact]

section

variable (h : p.priv.runqueue.Nodup)

include h

/-- The body of the walk keeps every active thread linked. -/
theorem cbsRefreshQueued_runqueue {ctl : SchedControl} {now : Nat} {t : Tid}
    (hmem : t ∈ p.priv.runqueue) (hact : ctl.isActive t = true) :
    (cbsRefreshQueued ctl now t p).priv.runqueue.Nodup ∧
      ∀ u, u ∈ (cbsRefreshQueued ctl now t p).priv.runqueue ↔ u ∈ p.priv.runqueue := by
  unfold cbsRefreshQueued
  by_cases hstale : cbsIsStale now (p.data t) = true
  · rw [if_pos hstale]
    have hnd : (cbsQueueRemove t p).priv.runqueue.Nodup := by
      rw [cbsQueueRemove_runqueue]
      exact h.erase t
    obtain ⟨hnd', hiff⟩ := cbsRefreshThread_runqueue ctl now t hnd
    refine ⟨hnd', ?_⟩
    intro u
    rw [hiff u, mem_cbsQueueRemove h]
    by_cases hu : u = t
    · simp [hu, hmem, hact]
    · simp [hu]
  · rw [if_neg hstale]
    exact ⟨h, fun _ => Iff.rfl⟩

/-- The walk keeps every linked thread linked, if they are all active. -/
theorem cbsRefreshQueues_runqueue {ctl : SchedControl}
    (hact : ∀ u ∈ p.priv.runqueue, ctl.isActive u = true) :
    (cbsRefreshQueues ctl now p).priv.runqueue.Nodup ∧
      ∀ u, u ∈ (cbsRefreshQueues ctl now p).priv.runqueue ↔ u ∈ p.priv.runqueue := by
  unfold cbsRefreshQueues
  have hbody : ∀ t q, (q.priv.runqueue.Nodup ∧ ∀ u, u ∈ q.priv.runqueue ↔ u ∈ p.priv.runqueue) →
      t ∈ q.priv.runqueue →
      (cbsRefreshQueued ctl now t q).priv.runqueue.Nodup ∧
        ∀ u, u ∈ (cbsRefreshQueued ctl now t q).priv.runqueue ↔ u ∈ q.priv.runqueue :=
    fun t q hq ht => cbsRefreshQueued_runqueue hq.1 ht (hact t ((hq.2 t).mp ht))
  refine Queue.forEachSafe_inv
    (fun (q : CbsState) (hq : q.priv.runqueue.Nodup ∧
      ∀ u, u ∈ q.priv.runqueue ↔ u ∈ p.priv.runqueue) => hq.1) ?_ ?_ _ _ p
    ⟨h, fun _ => Iff.rfl⟩ (fun x hx => List.mem_of_mem_head? hx)
  · intro t q hq ht
    exact ⟨(hbody t q hq ht).1, fun u => ((hbody t q hq ht).2 u).trans (hq.2 u)⟩
  · intro t q hq ht u hu _
    exact ((hbody t q hq ht).2 u).mpr hu

/-- The accounting shared by the timer and `pick_next`: an active current thread is linked too. -/
theorem cbsRefreshAll_runqueue {ctl : SchedControl}
    (hact : ∀ u ∈ p.priv.runqueue, ctl.isActive u = true) :
    (cbsRefreshAll ctl now p).priv.runqueue.Nodup ∧
      ∀ u, u ∈ (cbsRefreshAll ctl now p).priv.runqueue ↔
        u ∈ p.priv.runqueue ∨ (u = ctl.currObj ∧ ctl.isActive u = true) := by
  unfold cbsRefreshAll
  dsimp only
  by_cases hidle : ctl.isIdleThread ctl.currObj = true
  · rw [if_pos hidle]
    obtain ⟨hnd, hiff⟩ := cbsRefreshQueues_runqueue now h hact
    refine ⟨hnd, fun u => (hiff u).trans ⟨.inl, ?_⟩⟩
    rintro (hu | ⟨rfl, hua⟩)
    · exact hu
    · exact absurd (of_decide_eq_true hidle) (SchedControl.isActive_iff.mp hua).1
  · rw [if_neg hidle]
    obtain ⟨hnd₁, hiff₁⟩ := cbsRefreshThread_runqueue ctl now ctl.currObj
      (p := cbsAccountRuntime ctl now ctl.currObj p) (by simpa using h)
    simp only [cbsAccountRuntime_priv] at hiff₁
    obtain ⟨hnd, hiff⟩ := cbsRefreshQueues_runqueue now hnd₁ (by
      intro u hu
      rcases (hiff₁ u).mp hu with ⟨rfl, hua⟩ | hu
      · exact hua
      · exact hact u hu)
    refine ⟨hnd, fun u => (hiff u).trans ((hiff₁ u).trans ?_)⟩
    constructor
    · rintro (⟨rfl, hua⟩ | hu)
      · exact .inr ⟨rfl, hua⟩
      · exact .inl hu
    · rintro (hu | ⟨rfl, hua⟩)
      · exact .inr hu
      · exact .inl ⟨rfl, hua⟩

end

/-! ### The hooks -/

theorem cbsLinks_congr {q q' : CbsControl} (h : q.runqueue.Nodup) (h' : q'.runqueue.Nodup)
    {u : Tid} (hiff : u ∈ q'.runqueue ↔ u ∈ q.runqueue) : cbsLinks q' u = cbsLinks q u := by
  unfold cbsLinks
  rw [h'.count, h.count]
  simp only [hiff]

theorem schedCbsSleep_runqueue (p : CbsState) :
    (schedCbsSleep env ctl t p).priv.runqueue = p.priv.runqueue.erase t := by
  unfold schedCbsSleep
  dsimp only
  rw [cbsProgramTimer_runqueue, PolicyState.updData_priv, cbsQueueRemove_runqueue]
  split
  · rw [cbsAccountRuntime_priv]
  · rfl

theorem schedCbsWake_runqueue (h : p.priv.runqueue.Nodup) :
    (schedCbsWake env ctl t p).priv.runqueue.Nodup ∧
      ∀ u, u ∈ (schedCbsWake env ctl t p).priv.runqueue ↔ u = t ∨ u ∈ p.priv.runqueue := by
  unfold schedCbsWake
  dsimp only
  rw [cbsProgramTimer_runqueue]
  exact ⟨cbsQueueInsert_nodup t h, fun _ => mem_cbsQueueInsert⟩

theorem schedCbsPrioritize_runqueue (h : p.priv.runqueue.Nodup) :
    (schedCbsPrioritize now ctl t p).priv.runqueue.Nodup ∧
      ∀ u, u ∈ (schedCbsPrioritize now ctl t p).priv.runqueue ↔
        (u = t ∧ t ≠ ctl.currObj) ∨ u ∈ p.priv.runqueue := by
  unfold schedCbsPrioritize cbsIsCurrent SchedControl.isCurrent
  dsimp only
  by_cases hcur : ctl.currObj = t
  · rw [if_pos (decide_eq_true hcur)]
    exact ⟨h, fun u => by simp [hcur]⟩
  rw [if_neg (by simpa using hcur)]
  refine ⟨cbsQueueInsert_nodup t h, fun u => ?_⟩
  rw [mem_cbsQueueInsert]
  simp [Ne.symm hcur]

theorem cbsTakeFirst_cons {ctl : SchedControl} {first : Tid} {rest : List Tid}
    (h : p.priv.runqueue = first :: rest) :
    cbsTakeFirst ctl p = (first, cbsQueueRemove first p) := by
  unfold cbsTakeFirst
  rw [h]

theorem cbsTakeFirst_nil {ctl : SchedControl} (h : p.priv.runqueue = []) :
    cbsTakeFirst ctl p = (ctl.idle, p) := by
  unfold cbsTakeFirst
  rw [h]

theorem schedCbsPickNext_runqueue (p : CbsState) :
    (schedCbsPickNext now ctl p).2.priv.runqueue =
      (cbsTakeFirst ctl (cbsRefreshAll ctl now p)).2.priv.runqueue := by
  unfold schedCbsPickNext
  dsimp only
  rw [cbsProgramLocalTimer_runqueue]
  split <;> rfl

/-- The selected thread is the head of the refreshed run queue, and it is unlinked. -/
theorem schedCbsPickNext_cases (p : CbsState) :
    (∃ first rest, (cbsRefreshAll ctl now p).priv.runqueue = first :: rest ∧
        (schedCbsPickNext now ctl p).1 = first ∧
        (schedCbsPickNext now ctl p).2.priv.runqueue = rest) ∨
      ((cbsRefreshAll ctl now p).priv.runqueue = [] ∧
        (schedCbsPickNext now ctl p).1 = ctl.idle ∧
        (schedCbsPickNext now ctl p).2.priv.runqueue = []) := by
  have hnext : (schedCbsPickNext now ctl p).1 = (cbsTakeFirst ctl (cbsRefreshAll ctl now p)).1 := rfl
  rw [schedCbsPickNext_runqueue, hnext]
  cases hq : (cbsRefreshAll ctl now p).priv.runqueue with
  | nil =>
    rw [cbsTakeFirst_nil hq]
    exact .inr ⟨rfl, rfl, hq⟩
  | cons first rest =>
    rw [cbsTakeFirst_cons hq]
    refine .inl ⟨first, rest, rfl, rfl, ?_⟩
    rw [cbsQueueRemove_runqueue, hq, List.erase_cons_head]

/-- **CBS keeps its run queue the way the framework needs it, unconditionally.** -/
theorem cbsLinkSpec : LinkSpec schedCbs cbsLinks CbsQueueWf (fun _ _ _ => True) where
  le_one h t := List.nodup_iff_count_le_one.mp h t
  wake env ctl t p h _ := by
    obtain ⟨hnd, hiff⟩ := schedCbsWake_runqueue env ctl t h
    refine ⟨hnd, List.count_eq_one_of_mem hnd ((hiff t).mpr (.inl rfl)), ?_⟩
    intro u hu
    exact cbsLinks_congr h hnd ((hiff u).trans (by simp [hu]))
  sleep env ctl t p h := by
    have hq := schedCbsSleep_runqueue env ctl t p
    have hnd : (schedCbsSleep env ctl t p).priv.runqueue.Nodup := by
      rw [hq]
      exact h.erase t
    refine ⟨hnd, ?_, ?_⟩
    · refine cbsLinks_eq_zero.mpr ?_
      show t ∉ (schedCbsSleep env ctl t p).priv.runqueue
      rw [hq]
      exact List.Nodup.not_mem_erase h
    · intro u hu
      refine cbsLinks_congr h hnd ?_
      rw [hq, List.mem_erase_of_ne hu]
  prioritize now ctl t p h := by
    obtain ⟨hnd, hiff⟩ := schedCbsPrioritize_runqueue now ctl t h
    refine ⟨hnd, ?_, ?_, ?_⟩
    · intro u hu
      exact cbsLinks_congr h hnd ((hiff u).trans (by simp [hu]))
    · intro hlink
      exact cbsLinks_ne_zero.mpr ((hiff t).mpr (.inr (cbsLinks_ne_zero.mp hlink)))
    · intro hcur
      exact cbsLinks_congr h hnd ((hiff t).trans (by simp [hcur]))
  prioritize_relinks _ _ _ _ h := h
  timer now ctl p h hact _ := by
    have hact' : ∀ u ∈ p.priv.runqueue, ctl.isActive u = true :=
      fun u hu => hact u (cbsLinks_ne_zero.mpr hu)
    obtain ⟨hnd, hiff⟩ := cbsRefreshAll_runqueue now
      (p := { p with priv := { p.priv with timerDeadlineTicks := 0 } }) h hact'
    have hq : (cbsTimerHandler now ctl p).1.priv.runqueue = (cbsRefreshAll ctl now
        { p with priv := { p.priv with timerDeadlineTicks := 0 } }).priv.runqueue :=
      cbsProgramLocalTimer_runqueue ..
    refine ⟨?_, ?_, ?_⟩
    · show (cbsTimerHandler now ctl p).1.priv.runqueue.Nodup
      rw [hq]
      exact hnd
    · intro u hu
      have hu' : u ∈ (cbsTimerHandler now ctl p).1.priv.runqueue := cbsLinks_ne_zero.mp hu
      rw [hq] at hu'
      exact ((hiff u).mp hu').imp_left cbsLinks_ne_zero.mpr
    · intro _ u hu
      refine cbsLinks_ne_zero.mpr ?_
      show u ∈ (cbsTimerHandler now ctl p).1.priv.runqueue
      rw [hq]
      exact (hiff u).mpr (.inl (cbsLinks_ne_zero.mp hu))
  pickNext now ctl p h hact _ := by
    have hact' : ∀ u ∈ p.priv.runqueue, ctl.isActive u = true :=
      fun u hu => hact u (cbsLinks_ne_zero.mpr hu)
    obtain ⟨hnd, hiff⟩ := cbsRefreshAll_runqueue now h hact'
    -- who may be linked before the selection, in the words of the specification
    have hback : ∀ u, u ∈ (cbsRefreshAll ctl now p).priv.runqueue →
        cbsLinks p.priv u ≠ 0 ∨ (u = ctl.currObj ∧ ctl.isActive u = true) :=
      fun u hu => ((hiff u).mp hu).imp_left cbsLinks_ne_zero.mpr
    have hforth : ∀ u, (cbsLinks p.priv u ≠ 0 ∨ (u = ctl.currObj ∧ ctl.isActive u = true)) →
        u ∈ (cbsRefreshAll ctl now p).priv.runqueue :=
      fun u hu => (hiff u).mpr (hu.imp_left cbsLinks_ne_zero.mp)
    rcases schedCbsPickNext_cases now ctl p with
      ⟨first, rest, hq, hnext, hrest⟩ | ⟨hq, hnext, hrest⟩
    · rw [hq] at hnd
      obtain ⟨-, hnd'⟩ := List.nodup_cons.mp hnd
      simp only [schedCbs, hnext]
      refine ⟨by simpa only [CbsQueueWf, hrest] using hnd', ?_, ?_, ?_⟩
      · intro _
        exact hback first (by rw [hq]; exact List.mem_cons_self)
      · intro u hu
        rw [cbsLinks_ne_zero, hrest] at hu
        exact hback u (by rw [hq]; exact List.mem_cons_of_mem _ hu)
      · intro _ u hne hu
        have hmem := hforth u hu
        rw [hq] at hmem
        rw [cbsLinks_ne_zero, hrest]
        exact (List.mem_cons.mp hmem).resolve_left hne
    · simp only [schedCbs, hnext]
      refine ⟨by simp only [CbsQueueWf, hrest, List.nodup_nil], fun e => absurd rfl e, ?_, ?_⟩
      · intro u hu
        rw [cbsLinks_ne_zero, hrest] at hu
        exact absurd hu List.not_mem_nil
      · intro _ u _ hu
        have hmem := hforth u hu
        rw [hq] at hmem
        exact absurd hmem List.not_mem_nil

end BeauOs.Sched

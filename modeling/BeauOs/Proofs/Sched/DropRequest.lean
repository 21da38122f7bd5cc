/-
When dropping a reschedule request is a no-op.

`sched_clear_reschedule_if_current_only` decides from the thread registry whether
`schedule()` would keep the current thread, and drops the request if so.  Two things come
between the decision and the truth.

  * The loop over the registry leaves `obj` at the thread it visited last, and the final
    test compares that thread, not the one it counted, with the current thread.  So the
    request is dropped only if the current thread comes last in the registry
    (`schedCurrentIsOnlyRunnable_iff`).
  * Being the only runnable thread does not make the policy select it.  BVT, CBS and RTDS
    always do; BFP does if budget is left, ARINC 653 if the window is the thread's own.
-/
import BeauOs.Proofs.Sched.NoLostThread
import BeauOs.Proofs.Sched.BvtLinkage
import BeauOs.Proofs.Sched.ArincWindows

namespace BeauOs.Sched

open SchedControl

variable {D P : Type}

/-! ### What the helper decides -/

/-- The current thread may go on running and no other thread of the pCPU is RUNNABLE. -/
structure OnlyRunnable (ctl : SchedControl) : Prop where
  not_idle : ctl.currObj ≠ ctl.idle
  not_blocking : (ctl.thread ctl.currObj).beBlocking = false
  alone : ∀ t, ctl.Local t → t ≠ ctl.idle → t ≠ ctl.currObj → (ctl.thread t).status ≠ .runnable

def CurrentIsLast (ctl : SchedControl) : Prop := ctl.threadList.getLast? = some ctl.currObj

instance (ctl : SchedControl) : Decidable (CurrentIsLast ctl) :=
  inferInstanceAs (Decidable (_ = some ctl.currObj))

/-- The scan ends with a count of one at the current thread. -/
theorem scanRunnable_eq_iff (ctl : SchedControl) :
    ∀ (l : List Tid) (n : Nat) (obj : Option Tid), n ≤ 1 →
      (scanRunnable ctl l n obj = (1, some ctl.currObj) ↔
        (∀ t ∈ l, countsAsRunnable ctl t = true → t = ctl.currObj) ∧
          n + l.countP (countsAsRunnable ctl) = 1 ∧
          l.getLast?.or obj = some ctl.currObj) := by
  intro l
  induction l with
  | nil =>
    intro n obj _
    simp [scanRunnable]
  | cons t rest ih =>
    intro n obj hn
    have hlast : ((t :: rest).getLast?).or obj = rest.getLast?.or (some t) := by
      cases rest with
      | nil => rfl
      | cons u rest =>
        rw [List.getLast?_cons_cons, List.getLast?_eq_some_getLast (List.cons_ne_nil u rest)]
        rfl
    unfold scanRunnable
    by_cases hc : countsAsRunnable ctl t = true
    · rw [if_pos hc, List.countP_cons_of_pos hc, hlast]
      by_cases hbreak : n + 1 > 1 ∨ t ≠ ctl.currObj
      · rw [if_pos hbreak]
        refine iff_of_false ?_ ?_
        · rintro he
          rw [Prod.mk.injEq, Option.some.injEq] at he
          rcases hbreak with hlt | hne
          · omega
          · exact hne he.2
        · rintro ⟨hall, hcount, -⟩
          rcases hbreak with hlt | hne
          · omega
          · exact hne (hall t List.mem_cons_self hc)
      · rw [if_neg hbreak, ih _ _ (by omega)]
        rw [not_or, not_not] at hbreak
        obtain ⟨hn0, rfl⟩ := hbreak
        simp only [List.mem_cons, forall_eq_or_imp, implies_true, true_and]
        refine and_congr_right fun _ => and_congr_left fun _ => ?_
        omega
    · rw [if_neg hc, ih n (some t) hn, List.countP_cons_of_neg hc, hlast]
      simp [hc]

variable {ctl : SchedControl} {now : Nat} {p : RtdsState}

/-- Whether a thread is alone can be read off the registry. -/
theorem onlyRunnable_of_registry (h : CtlInv ctl) (hidle : ctl.currObj ≠ ctl.idle)
    (hblock : (ctl.thread ctl.currObj).beBlocking = false)
    (halone : ∀ t ∈ ctl.threadList, t ≠ ctl.idle → t ≠ ctl.currObj → (ctl.thread t).status ≠ .runnable) :
    OnlyRunnable ctl where
  not_idle := hidle
  not_blocking := hblock
  alone t hlocal hidle hne hst :=
    halone t (h.registered t hlocal (by simp [hst])) hidle hne hst

theorem countsAsRunnable_iff {t : Tid} :
    countsAsRunnable ctl t = true ↔ ctl.Local t ∧ t ≠ ctl.idle ∧
      (ctl.thread t).beBlocking = false ∧ (ctl.thread t).status ≠ .blocked := by
  unfold countsAsRunnable ThreadObject.isRunnableOrRunning isIdleThread
    SchedControl.Local
  cases hst : (ctl.thread t).status <;> simp [hst, and_assoc]

/-- **The helper wants the current thread to be alone and to come last.** -/
theorem schedCurrentIsOnlyRunnable_iff (h : CtlInv ctl) :
    schedCurrentIsOnlyRunnable ctl = true ↔ OnlyRunnable ctl ∧ CurrentIsLast ctl := by
  have hcurr : ctl.currObj ∈ ctl.threadList :=
    h.registered _ h.curr_local (by simp [h.curr_running])
  unfold schedCurrentIsOnlyRunnable
  dsimp only
  by_cases hrun : ctl.currObj ≠ ctl.idle ∧ (ctl.thread ctl.currObj).beBlocking = false
  swap
  · rw [if_pos]
    · exact iff_of_false Bool.false_ne_true fun ho => hrun ⟨ho.1.not_idle, ho.1.not_blocking⟩
    · rw [not_and_or, not_not, Bool.not_eq_false] at hrun
      rcases hrun with hidle | hb
      · simp [isIdleThread, hidle]
      · simp [hb]
  rw [if_neg (by
    simp [isIdleThread, hrun.1, hrun.2, ThreadObject.isRunnableOrRunning,
      h.curr_running])]
  have hcount : countsAsRunnable ctl ctl.currObj = true :=
    countsAsRunnable_iff.mpr ⟨h.curr_local, hrun.1, hrun.2, by simp [h.curr_running]⟩
  have hscan : (decide ((scanRunnable ctl ctl.threadList 0 none).1 = 1) &&
      decide ((scanRunnable ctl ctl.threadList 0 none).2 = some ctl.currObj)) = true ↔
      scanRunnable ctl ctl.threadList 0 none = (1, some ctl.currObj) := by
    rw [Bool.and_eq_true, decide_eq_true_iff, decide_eq_true_iff, Prod.ext_iff]
  rw [hscan, scanRunnable_eq_iff ctl _ 0 none (Nat.zero_le _)]
  have halone : (∀ t ∈ ctl.threadList, countsAsRunnable ctl t = true → t = ctl.currObj) ↔
      OnlyRunnable ctl := by
    refine ⟨fun hall => ⟨hrun.1, hrun.2, fun t hlocal hidle hne hst => hne ?_⟩, fun ho t _ hc => ?_⟩
    · refine hall t (h.registered t hlocal (by simp [hst])) (countsAsRunnable_iff.mpr
        ⟨hlocal, hidle, ?_, by simp [hst]⟩)
      rw [Bool.eq_false_iff]
      exact fun hb => hne (h.blocking t hlocal hb)
    · obtain ⟨hlocal, hidle, -, hst⟩ := countsAsRunnable_iff.mp hc
      by_contra hne
      exact ho.alone t hlocal hidle hne (h.runnable_of_ne hlocal hne hst)
  rw [halone]
  unfold CurrentIsLast
  refine and_congr_right fun ho => ?_
  -- only the current thread counts, and it is registered once
  have hone : ctl.threadList.countP (countsAsRunnable ctl) = 1 := by
    have heq : ctl.threadList.countP (countsAsRunnable ctl) = ctl.threadList.count ctl.currObj := by
      refine List.countP_congr fun t ht => ?_
      refine ⟨fun hc => beq_iff_eq.mpr (halone.mpr ho t ht hc), fun he => ?_⟩
      rw [beq_iff_eq.mp he]
      exact hcount
    rw [heq, List.count_eq_one_of_mem h.registry_nodup hcurr]
  simp [hone]

/-! ### What `schedule()` would do -/

/-- `schedule()` at `now` keeps the current thread. -/
def KeepsCurrent (sch : AcrnScheduler D P) (now : Nat) (suspend reset : Bool) (s : Pcpu D P) : Prop :=
  (schedule sch now suspend reset s).ctl.currObj = s.ctl.currObj

instance (sch : AcrnScheduler D P) (now : Nat) (suspend reset : Bool) (s : Pcpu D P) :
    Decidable (KeepsCurrent sch now suspend reset s) :=
  inferInstanceAs (Decidable (_ = s.ctl.currObj))

/-- A reschedule request is pending, and no management work. -/
structure RequestPending (ctl : SchedControl) (suspend reset : Bool) : Prop where
  request : ctl.needReschedule = true
  no_work : schedIdleWorkPending ctl suspend reset = false

/--
Dropping the request changes nothing: it is dropped only if `schedule()` would keep the
current thread, and whenever the current thread is alone and would be kept.
-/
def DropIsNoOp (sch : AcrnScheduler D P) (now : Nat) (suspend reset : Bool) (s : Pcpu D P) : Prop :=
  ((schedClearRescheduleIfCurrentOnly suspend reset s.ctl).2 = true →
    KeepsCurrent sch now suspend reset s) ∧
  (OnlyRunnable s.ctl → KeepsCurrent sch now suspend reset s →
    (schedClearRescheduleIfCurrentOnly suspend reset s.ctl).2 = true)

section Policies

variable {sch : AcrnScheduler D P} {s : Pcpu D P} {now : Nat} {suspend reset : Bool}

theorem cleared_iff (h : CtlInv s.ctl) (hreq : RequestPending s.ctl suspend reset) :
    (schedClearRescheduleIfCurrentOnly suspend reset s.ctl).2 = true ↔
      OnlyRunnable s.ctl ∧ CurrentIsLast s.ctl := by
  rw [← schedCurrentIsOnlyRunnable_iff h]
  unfold schedClearRescheduleIfCurrentOnly
  rw [hreq.no_work, hreq.request]
  cases schedCurrentIsOnlyRunnable s.ctl <;> simp

/-- What is left to show of a policy: when it keeps a thread that is alone. -/
theorem dropIsNoOp_iff {Keeps : Prop} (h : CtlInv s.ctl) (hreq : RequestPending s.ctl suspend reset)
    (hkeeps : OnlyRunnable s.ctl → (KeepsCurrent sch now suspend reset s ↔ Keeps)) :
    DropIsNoOp sch now suspend reset s ↔
      (OnlyRunnable s.ctl → (CurrentIsLast s.ctl ↔ Keeps)) := by
  unfold DropIsNoOp
  rw [cleared_iff h hreq]
  constructor
  · rintro ⟨hdrop, hclear⟩ ho
    rw [← hkeeps ho]
    exact ⟨fun hl => hdrop ⟨ho, hl⟩, fun hk => (hclear ho hk).2⟩
  · intro hiff
    refine ⟨fun hc => (hkeeps hc.1).mpr ((hiff hc.1).mp hc.2), fun ho hk => ⟨ho, ?_⟩⟩
    exact (hiff ho).mpr ((hkeeps ho).mp hk)

/-- A policy that always keeps a thread that is alone leaves only the registry order. -/
theorem dropIsNoOp_iff_last (h : CtlInv s.ctl) (hreq : RequestPending s.ctl suspend reset)
    (hkeeps : OnlyRunnable s.ctl → KeepsCurrent sch now suspend reset s) :
    DropIsNoOp sch now suspend reset s ↔ (OnlyRunnable s.ctl → CurrentIsLast s.ctl) := by
  rw [dropIsNoOp_iff h hreq fun ho => iff_true_intro (hkeeps ho)]
  simp only [iff_true]

theorem schedule_currObj (hwork : schedIdleWorkPending s.ctl suspend reset = false) :
    (schedule sch now suspend reset s).ctl.currObj =
      (sch.pickNext now (consumePriorities sch now s).ctl (consumePriorities sch now s).pol).1 := by
  unfold schedule selectNext
  dsimp only
  rw [switchTo_currObj, schedIdleWorkPending_consume, hwork, if_neg Bool.false_ne_true]

variable {ctl : SchedControl}

theorem OnlyRunnable.eq_of_active (ho : OnlyRunnable ctl) {t : Tid} (hlocal : ctl.Local t)
    (hact : ctl.isActive t = true) : t = ctl.currObj := by
  obtain ⟨hidle, ⟨hcur, -⟩ | hst⟩ := isActive_iff.mp hact
  · exact hcur
  · by_contra hne
    exact ho.alone t hlocal hidle hne hst

theorem OnlyRunnable.active (ho : OnlyRunnable ctl) : ctl.isActive ctl.currObj = true :=
  isActive_iff.mpr ⟨ho.not_idle, .inl ⟨rfl, ho.not_blocking⟩⟩

theorem OnlyRunnable.sameView {ctl' : SchedControl} (ho : OnlyRunnable ctl)
    (hview : SameView ctl ctl') : OnlyRunnable ctl' where
  not_idle := by rw [hview.currObj, hview.idle]; exact ho.not_idle
  not_blocking := by rw [hview.currObj, hview.beBlocking]; exact ho.not_blocking
  alone t hlocal hidle hne := by
    rw [hview.status]
    rw [hview.idle] at hidle
    rw [hview.currObj] at hne
    exact ho.alone t (hview.local_iff.mp hlocal) hidle hne

variable {links : P → Tid → Nat} {Wf : (Tid → D) → P → Prop}
  {Relinks : Nat → (Tid → D) → P → Prop}

/-- A policy that idles only if the current thread is not active keeps a thread that is alone. -/
theorem keepsCurrent_of_alone (spec : LinkSpec sch links Wf Relinks) (h : LinkInv links Wf s)
    (hwork : schedIdleWorkPending s.ctl suspend reset = false) (ho : OnlyRunnable s.ctl)
    (hidle : (sch.pickNext now (consumePriorities sch now s).ctl
        (consumePriorities sch now s).pol).1 = (consumePriorities sch now s).ctl.idle →
      (consumePriorities sch now s).ctl.isActive (consumePriorities sch now s).ctl.currObj = false) :
    KeepsCurrent sch now suspend reset s := by
  obtain ⟨h', -, -⟩ := consumePriorities_inv spec h now
  obtain ⟨hview, -⟩ := consumePriorities_view sch now s
  have ho' := ho.sameView hview
  unfold KeepsCurrent
  rw [schedule_currObj hwork, ← hview.currObj]
  obtain ⟨-, hnext, -, -⟩ := spec.pickNext now _ _ h'.wf (fun u hu => (h'.linked u hu).1)
    h'.activeNotBlocking
  by_cases hne : (sch.pickNext now (consumePriorities sch now s).ctl
      (consumePriorities sch now s).pol).1 = (consumePriorities sch now s).ctl.idle
  · have hinact := hidle hne
    rw [ho'.active] at hinact
    cases hinact
  · rcases hnext hne with hl | ⟨hcur, -⟩
    · exact ho'.eq_of_active (h'.linked _ hl).2 (h'.linked _ hl).1
    · exact hcur

end Policies

/-! ### CBS, RTDS and BVT always keep it -/

theorem schedCbsPickNext_idle {p : CbsState} (h : p.priv.runqueue.Nodup)
    (hact : ∀ u ∈ p.priv.runqueue, ctl.isActive u = true)
    (hidle : (schedCbsPickNext now ctl p).1 = ctl.idle) : ctl.isActive ctl.currObj = false := by
  obtain ⟨-, hiff⟩ := cbsRefreshAll_runqueue now h hact
  rcases schedCbsPickNext_cases now ctl p with ⟨first, rest, hq, hnext, -⟩ | ⟨hq, -, -⟩
  · -- idle is not active, so it is not what heads the queue
    have hmem : ctl.idle ∈ (cbsRefreshAll ctl now p).priv.runqueue := by
      rw [hq, ← hidle, hnext]
      exact List.mem_cons_self
    have hact' : ctl.isActive ctl.idle = true := by
      rcases (hiff _).mp hmem with hold | ⟨-, hcur⟩
      · exact hact _ hold
      · exact hcur
    exact absurd rfl (isActive_iff.mp hact').1
  · rw [Bool.eq_false_iff]
    intro hcur
    have hmem := (hiff ctl.currObj).mpr (.inr ⟨rfl, hcur⟩)
    rw [hq] at hmem
    cases hmem

theorem rtdsBestSlack_eq_none (h : rtdsBestSlack p = none) : p.priv.depletedQueue = [] := by
  have hsome : ∀ (l : List Tid) (b : Tid), ∃ b', l.foldl (rtdsBetterSlack p) (some b) = some b' := by
    intro l
    induction l with
    | nil => exact fun b => ⟨b, rfl⟩
    | cons t rest ih =>
      intro b
      rw [List.foldl_cons]
      unfold rtdsBetterSlack
      dsimp only
      split
      · exact ih t
      · exact ih b
  unfold rtdsBestSlack at h
  cases hq : p.priv.depletedQueue with
  | nil => rfl
  | cons t rest =>
    rw [hq] at h
    obtain ⟨b', hb⟩ := hsome rest t
    rw [List.foldl_cons, show rtdsBetterSlack p none t = some t from rfl, hb] at h
    cases h

theorem rtdsTakeFirst_idle (h : rtdsView.Wf p) (hfree : rtdsView.tag p ctl.idle = .none)
    (hidle : (rtdsTakeFirst ctl p).1 = ctl.idle) (u : Tid) : rtdsView.tag p u = .none := by
  have hlinked : ∀ t, t ∈ p.priv.readyQueue ∨ t ∈ p.priv.depletedQueue → t ≠ ctl.idle := by
    rintro t (ht | ht) rfl
    · rw [show rtdsView.tag p ctl.idle = .ready from (h.ready.mem_iff _).mp ht] at hfree
      cases hfree
    · rw [show rtdsView.tag p ctl.idle = .depleted from (h.depleted.mem_iff _).mp ht] at hfree
      cases hfree
  unfold rtdsTakeFirst at hidle
  split at hidle
  · rename_i first rest hq
    exact absurd hidle (hlinked first (.inl (hq ▸ List.mem_cons_self)))
  rename_i hready
  split at hidle
  · rename_i best hbest
    exact absurd hidle (hlinked best (.inr (RtdsState.bestSlack_mem hbest)))
  rename_i hnone
  have hdep := rtdsBestSlack_eq_none hnone
  cases htag : rtdsView.tag p u with
  | none => rfl
  | ready =>
    have hmem := (h.ready.mem_iff u).mpr htag
    rw [show rtdsView.ready p.priv = [] from hready] at hmem
    cases hmem
  | depleted =>
    have hmem := (h.depleted.mem_iff u).mpr htag
    rw [show rtdsView.depleted p.priv = [] from hdep] at hmem
    cases hmem

theorem schedRtdsPickNext_idle (h : rtdsView.Wf p) (hfit : rtdsView.LinkedFit ctl p)
    (hcurr : TagView.CurrFit ctl) (hidle : (schedRtdsPickNext now ctl p).1 = ctl.idle) :
    ctl.isActive ctl.currObj = false := by
  obtain ⟨hwf, hiff⟩ := RtdsState.refreshAll h hfit hcurr now
  have hfit' : rtdsView.LinkedFit ctl (rtdsRefreshAll ctl now p) :=
    hfit.eligible hcurr fun u hu => (hiff u).mp hu
  unfold schedRtdsPickNext at hidle
  have hnone := rtdsTakeFirst_idle hwf hfit'.idle hidle ctl.currObj
  rw [Bool.eq_false_iff]
  intro hact
  exact (hiff ctl.currObj).mpr (.inr ⟨rfl, hact⟩) hnone

theorem schedBvtPickNext_idle {p : BvtState} (h : p.priv.runqueue.Nodup)
    (hact : ∀ u ∈ p.priv.runqueue, ctl.isActive u = true)
    (hlinked : ctl.isActive ctl.currObj = true → ctl.currObj ∈ p.priv.runqueue)
    (hidle : (schedBvtPickNext now ctl p).1 = ctl.idle) : ctl.isActive ctl.currObj = false := by
  have hperm := bvtCharged_perm now h ctl
  rw [(schedBvtPickNext_queue now ctl p).2] at hidle
  cases hq : (bvtCharged now ctl p).priv.runqueue with
  | nil =>
    rw [Bool.eq_false_iff]
    intro hcur
    have hmem := hperm.mem_iff.mpr (hlinked hcur)
    rw [hq] at hmem
    cases hmem
  | cons first rest =>
    rw [hq] at hidle hperm
    obtain rfl : first = ctl.idle := hidle
    have hmem : ctl.idle ∈ p.priv.runqueue := hperm.mem_iff.mp List.mem_cons_self
    exact absurd rfl (isActive_iff.mp (hact _ hmem)).1

/-! ### BFP keeps it while budget is left -/

namespace BfpData

/--
The running server has budget at `now`: what is left of the current period's budget when it
was last charged covers the time since; or the period has ended, the new one could still be
recorded, and its budget covers the time since it began.
-/
def HasBudgetAt (d : BfpData) (now : Nat) : Prop :=
  if d.lastStartTicks = 0 ∨ now ≤ d.lastStartTicks then
    if d.periodEnded now then d.replenishSaturates now = false else d.remainingTicks ≠ 0
  else if d.nextReplenishTicks = uint64Max ∨ now < d.nextReplenishTicks then
    now - d.lastStartTicks < d.remainingTicks
  else
    d.replenishSaturates now = false ∧
      (now - d.nextReplenishTicks) % d.periodTicks < d.budgetTicks

instance (d : BfpData) (now : Nat) : Decidable (d.HasBudgetAt now) := by
  unfold HasBudgetAt
  infer_instance

variable {d : BfpData} {now : Nat}

theorem advance_remaining_ne_zero :
    (d.advanceInactivePeriod now).remainingTicks ≠ 0 ↔
      if d.periodEnded now then d.replenishSaturates now = false else d.remainingTicks ≠ 0 := by
  by_cases hend : d.periodEnded now = true
  · rw [if_pos hend]
    by_cases hsat : d.replenishSaturates now = true
    · have hzero : (d.advanceInactivePeriod now).remainingTicks = 0 := by
        unfold advanceInactivePeriod
        simp only [hend, hsat, if_true]
      simp [hzero, hsat]
    · rw [Bool.not_eq_true] at hsat
      rw [advance_remaining hend hsat]
      exact iff_of_true d.budget_pos.ne' hsat
  · rw [if_neg hend, advance_of_not_ended (by simpa using hend)]

theorem chargeCurrentPeriod_ne_zero {delta : Nat} :
    (d.chargeCurrentPeriod delta).remainingTicks ≠ 0 ↔ delta < d.remainingTicks := by
  unfold chargeCurrentPeriod
  split
  · rename_i hover
    exact iff_of_false (fun e => e rfl) (by omega)
  · dsimp only
    omega

theorem chargeCrossed_ne_zero {boundary : Nat} (hb : d.nextReplenishTicks = boundary) :
    (d.chargeCrossed boundary now).remainingTicks ≠ 0 ↔
      d.replenishSaturates now = false ∧ (now - boundary) % d.periodTicks < d.budgetTicks := by
  subst hb
  unfold chargeCrossed
  dsimp only
  have hsat : (d.replenishSaturates now = false) ↔
      ¬(now - d.nextReplenishTicks) / d.periodTicks + 1 >
        (uint64Max - d.nextReplenishTicks) / d.periodTicks := by
    unfold replenishSaturates periodsDue
    rw [decide_eq_false_iff_not]
  rw [hsat]
  split_ifs with hs hfull hphase hphase
  · simp [hs]
  all_goals dsimp only; omega

theorem chargeCurrentPeriod_saturates (d : BfpData) (delta now : Nat) :
    (d.chargeCurrentPeriod delta).replenishSaturates now = d.replenishSaturates now ∧
      (d.chargeCurrentPeriod delta).periodTicks = d.periodTicks ∧
      (d.chargeCurrentPeriod delta).budgetTicks = d.budgetTicks := by
  unfold chargeCurrentPeriod
  split <;> exact ⟨rfl, rfl, rfl⟩

theorem account_ne_zero :
    (d.account now).remainingTicks ≠ 0 ↔
      if d.nextReplenishTicks = uint64Max ∨ now < d.nextReplenishTicks then
        now - d.lastStartTicks < d.remainingTicks
      else
        d.replenishSaturates now = false ∧
          (now - d.nextReplenishTicks) % d.periodTicks < d.budgetTicks := by
  unfold account
  dsimp only
  split
  · exact chargeCurrentPeriod_ne_zero
  split
  · obtain ⟨hsat, hperiod, hbudget⟩ := chargeCurrentPeriod_saturates
      { d with lastStartTicks := now } (d.nextReplenishTicks - d.lastStartTicks) now
    rw [chargeCrossed_ne_zero (chargeCurrentPeriod_next _ _), hsat, hperiod, hbudget]
    rfl
  · exact chargeCrossed_ne_zero rfl

end BfpData

namespace BfpState

variable {p : BfpState} {ctl : SchedControl} {now : Nat} {t : Tid}

/-- The walks do not touch a server that is not due. -/
theorem refreshQueues_data (ctl : SchedControl) (hend : (p.data t).periodEnded now = false) :
    (bfpRefreshQueues ctl now p).data t = p.data t := by
  unfold bfpRefreshQueues
  refine Queue.forEachSafe_keeps (fun u (q : BfpState) (hq : q.data t = p.data t) => ?_) _ _ _ ?_
  · by_cases hut : t = u
    · subst hut
      unfold bfpRefreshDepleted
      rw [hq, hend, if_neg Bool.false_ne_true, hq]
    · exact (refreshDepleted_other q ctl now hut).trans hq
  · refine advanceReady_inv (P := fun q => q.data t = p.data t) (fun q u hq => ?_) rfl
    by_cases hut : t = u
    · subst hut
      rw [PolicyState.updData_self, hq, BfpData.advance_of_not_ended hend]
    · rw [PolicyState.updData_of_ne _ _ hut, hq]

/-- Charged and advanced, the running thread has budget left exactly if it had it at `now`. -/
theorem charged_ne_zero (hidle : t ≠ ctl.idle) (hrun : (ctl.thread t).status = .running) :
    (((bfpAccountRuntime ctl now t p).data t).advanceInactivePeriod now).remainingTicks ≠ 0 ↔
      (p.data t).HasBudgetAt now := by
  unfold bfpAccountRuntime BfpData.HasBudgetAt
  by_cases hstart : (p.data t).lastStartTicks = 0 ∨ now ≤ (p.data t).lastStartTicks
  · rw [if_pos hstart, if_pos, BfpData.advance_remaining_ne_zero]
    rcases hstart with hz | hle
    · simp [hz]
    · simp [hle]
  · rw [if_neg hstart, if_neg, PolicyState.updData_self,
      BfpData.advance_of_not_ended (BfpData.account_not_ended _ now), BfpData.account_ne_zero]
    rw [not_or, Nat.not_le] at hstart
    simp [isIdleThread, hidle, ThreadObject.isRunning, hrun, hstart]

variable (h : bfpView.Wf p)

include h

/-- Where a refresh puts an active thread. -/
theorem refreshThread_ready (hact : ctl.isActive t = true) (keepTurn : Bool) :
    bfpView.tag (bfpRefreshThread ctl now t keepTurn p) t = .ready ↔
      ((p.data t).advanceInactivePeriod now).remainingTicks ≠ 0 := by
  have hwf := TagView.wf_updData (t := t) h (advance_queue now)
  unfold bfpRefreshThread bfpIsActive
  dsimp only
  rw [if_neg (by simp [hact]), PolicyState.updData_self]
  split
  · rename_i hne
    rw [(readyInsert hwf t keepTurn).2, if_pos rfl]
    exact iff_of_true rfl hne
  · rename_i hzero
    rw [(depletedInsert hwf t).2, if_pos rfl]
    exact iff_of_false nofun hzero

/-- The current thread is found in the ready queue exactly if it has budget. -/
theorem refreshAll_ready (hctl : CtlInv ctl) (hact : ctl.isActive ctl.currObj = true) :
    bfpView.tag (bfpRefreshAll ctl now p) ctl.currObj = .ready ↔
      (p.data ctl.currObj).HasBudgetAt now := by
  have hidle := (isActive_iff.mp hact).1
  have hrun : (ctl.thread ctl.currObj).status = .running := hctl.curr_running
  rw [← charged_ne_zero hidle hrun,
    ← refreshThread_ready (accountRuntime h ctl now ctl.currObj).1 hact true]
  have hkept := refreshQueues_data ctl (refreshThread_not_ended
    (bfpAccountRuntime ctl now ctl.currObj p) ctl now ctl.currObj true)
  unfold bfpRefreshAll
  dsimp only
  rw [if_neg (by simp [isIdleThread, hidle])]
  exact Eq.congr_left (congrArg bfpView.queue hkept)

/-- Alone on its pCPU, the current thread is selected exactly if it has budget. -/
theorem pickNext_curr (hctl : CtlInv ctl) (hfit : bfpView.LinkedFit ctl p)
    (hcurr : TagView.CurrFit ctl) (hact : ctl.isActive ctl.currObj = true)
    (halone : ∀ u, bfpView.tag p u ≠ .none → u = ctl.currObj) :
    (schedBfpPickNext now ctl p).1 = ctl.currObj ↔ (p.data ctl.currObj).HasBudgetAt now := by
  obtain ⟨hwf, hfrom, -⟩ := refreshAll h hfit hcurr now
  rw [← refreshAll_ready h hctl hact]
  have honly : ∀ u ∈ (bfpRefreshAll ctl now p).priv.readyQueue, u = ctl.currObj := by
    intro u hu
    have htag : bfpView.tag (bfpRefreshAll ctl now p) u = .ready := (hwf.ready.mem_iff u).mp hu
    rcases hfrom u (by rw [htag]; nofun) with hold | ⟨hcur, -⟩
    · exact halone u hold
    · exact hcur
  have hready : ctl.currObj ∈ (bfpRefreshAll ctl now p).priv.readyQueue ↔
      bfpView.tag (bfpRefreshAll ctl now p) ctl.currObj = .ready := hwf.ready.mem_iff _
  show (bfpTakeFirst ctl now (bfpRefreshAll ctl now p)).1 = ctl.currObj ↔ _
  rw [← hready]
  unfold bfpTakeFirst
  split
  · rename_i first rest hq
    rw [hq] at honly ⊢
    have hfirst := honly first List.mem_cons_self
    exact iff_of_true hfirst (hfirst ▸ List.mem_cons_self)
  · rename_i hq
    rw [hq]
    exact iff_of_false (Ne.symm (isActive_iff.mp hact).1) List.not_mem_nil

end BfpState

/-! ### Keeping the current thread -/

section Keeps

variable {now : Nat} {suspend reset : Bool}

theorem cbs_keepsCurrent {s : Pcpu CbsData CbsControl} (h : LinkInv cbsLinks CbsQueueWf s)
    (hwork : schedIdleWorkPending s.ctl suspend reset = false) (ho : OnlyRunnable s.ctl) :
    KeepsCurrent schedCbs now suspend reset s := by
  obtain ⟨h', -, -⟩ := consumePriorities_inv cbsLinkSpec h now
  refine keepsCurrent_of_alone cbsLinkSpec h hwork ho fun hidle => ?_
  exact schedCbsPickNext_idle h'.wf (fun u hu => (h'.linked u (cbsLinks_ne_zero.mpr hu)).1) hidle

theorem rtds_keepsCurrent {s : Pcpu RtdsData RtdsControl}
    (h : LinkInv rtdsView.links rtdsView.QueueWf s)
    (hwork : schedIdleWorkPending s.ctl suspend reset = false) (ho : OnlyRunnable s.ctl) :
    KeepsCurrent schedRtds now suspend reset s := by
  obtain ⟨h', -, -⟩ := consumePriorities_inv rtdsTagSpec.linkSpec h now
  refine keepsCurrent_of_alone rtdsTagSpec.linkSpec h hwork ho fun hidle => ?_
  exact schedRtdsPickNext_idle h'.wf
    (TagView.linkedFit h'.wf (fun u hu => (h'.linked u hu).1) h'.activeNotBlocking)
    (h'.activeNotBlocking _ (.inr rfl)) hidle

theorem bvt_keepsCurrent {s : Pcpu BvtData BvtControl} (h : LinkInv bvtLinks BvtQueueWf s)
    (hal : ActiveLinked bvtLinks s)
    (hwork : schedIdleWorkPending s.ctl suspend reset = false) (ho : OnlyRunnable s.ctl) :
    KeepsCurrent schedBvt now suspend reset s := by
  obtain ⟨h', hlinks, -⟩ := consumePriorities_inv bvtLinkSpec h now
  obtain ⟨hview, -⟩ := consumePriorities_view schedBvt now s
  refine keepsCurrent_of_alone bvtLinkSpec h hwork ho fun hidle => ?_
  refine schedBvtPickNext_idle h'.wf (fun u hu => (h'.linked u (bvtLinks_ne_zero.mpr hu)).1)
    (fun hact => bvtLinks_ne_zero.mp (hlinks _ ?_)) hidle
  exact hal _ (hview.local_iff.mp h'.ctl.curr_local) ((hview.isActive _).symm.trans hact)

theorem bfp_keepsCurrent_iff {s : Pcpu BfpData BfpControl}
    (h : LinkInv bfpView.links bfpView.QueueWf s)
    (hwork : schedIdleWorkPending s.ctl suspend reset = false) (ho : OnlyRunnable s.ctl) :
    KeepsCurrent schedBfp now suspend reset s ↔
      (s.pol.data s.ctl.currObj).HasBudgetAt now := by
  obtain ⟨h', -, -⟩ := consumePriorities_inv bfpTagSpec.linkSpec h now
  obtain ⟨hview, -⟩ := consumePriorities_view schedBfp now s
  have ho' := ho.sameView hview
  unfold KeepsCurrent
  rw [schedule_currObj hwork, ← hview.currObj,
    ← consumePriorities_pol (rfl : schedBfp.prioritize = none) now s]
  refine BfpState.pickNext_curr h'.wf h'.ctl
    (TagView.linkedFit h'.wf (fun u hu => (h'.linked u hu).1) h'.activeNotBlocking)
    (h'.activeNotBlocking _ (.inr rfl)) ho'.active fun u hu => ?_
  have hlink := h'.linked u ((TagView.links_ne_zero h'.wf u).mpr hu)
  exact ho'.eq_of_active hlink.2 hlink.1

/-- The window at `now` belongs to the current thread, which is a vCPU. -/
structure OwnsWindow (s : Pcpu Unit ArincControl) (now : Nat) : Prop where
  not_suspended : s.pol.priv.suspended = false
  owner : s.pol.priv.ownerAt now = some s.ctl.currObj
  vcpu : (s.ctl.thread s.ctl.currObj).isVcpu = true

theorem ownerOrIdle_eq_curr {ctl : SchedControl} (h : CtlInv ctl) (ho : OnlyRunnable ctl)
    (owner : Option Tid) :
    ownerOrIdle ctl owner = ctl.currObj ↔
      owner = some ctl.currObj ∧ (ctl.thread ctl.currObj).isVcpu = true := by
  have hrun : arincMayRun ctl ctl.currObj = (ctl.thread ctl.currObj).isVcpu := by
    have hlocal : (ctl.thread ctl.currObj).pcpuId = ctl.pcpuId := h.curr_local
    simp [arincMayRun, hlocal, ho.not_blocking, ThreadObject.isRunnableOrRunning, h.curr_running]
  unfold ownerOrIdle
  cases owner with
  | none => exact iff_of_false (Ne.symm ho.not_idle) (by simp)
  | some t =>
    dsimp only
    rw [← hrun]
    split
    · rename_i hmay
      refine ⟨?_, fun h => Option.some.inj h.1⟩
      rintro rfl
      exact ⟨rfl, hmay⟩
    · rename_i hmay
      refine iff_of_false (Ne.symm ho.not_idle) ?_
      rintro ⟨he, hcur⟩
      rw [Option.some.inj he] at hmay
      exact hmay hcur

theorem arinc_keepsCurrent_iff {s : Pcpu Unit ArincControl} {τ : Nat} (h : ArincInv (τ, s))
    (hle : τ ≤ now) (hwork : schedIdleWorkPending s.ctl suspend reset = false)
    (ho : OnlyRunnable s.ctl) :
    KeepsCurrent schedArinc653 now suspend reset s ↔ OwnsWindow s now := by
  obtain ⟨hview, -⟩ := consumePriorities_view schedArinc653 now s
  obtain ⟨pending, hthread⟩ := consumePriorities_thread schedArinc653 now s s.ctl.currObj
  have hpick := schedArincPickNext_owner h.frame hle (consumePriorities schedArinc653 now s).ctl
  unfold KeepsCurrent
  rw [schedule_currObj hwork, consumePriorities_pol (rfl : schedArinc653.prioritize = none)]
  show (schedArincPickNext now _ s.pol).1 = _ ↔ _
  rw [hpick, ← hview.currObj, ownerOrIdle_eq_curr (hview.ctlInv h.ctl) (ho.sameView hview),
    hview.currObj, hthread]
  constructor
  · rintro ⟨howner, hvcpu⟩
    by_cases hsus : s.pol.priv.suspended = true
    · rw [if_pos hsus] at howner
      cases howner
    · rw [if_neg hsus] at howner
      exact ⟨by simpa using hsus, howner, hvcpu⟩
  · intro hown
    rw [if_neg (by rw [hown.not_suspended]; exact Bool.false_ne_true)]
    exact ⟨hown.owner, hown.vcpu⟩

end Keeps

/-! ### Runs -/

def reached (sch : AcrnScheduler D P) (cfg : BootConfig D) (priv : P) (calls : List (Env × Op)) :
    Pcpu D P := Run.exec (step sch) (cfg.boot priv) calls

def Admitted (sch : AcrnScheduler D P) (cfg : BootConfig D) (priv : P) (calls : List (Env × Op)) :
    Prop := Run.Along (step sch) (fun s c => c.2.Valid s.ctl) (cfg.boot priv) calls

instance (sch : AcrnScheduler D P) (cfg : BootConfig D) (priv : P) (calls : List (Env × Op)) :
    Decidable (Admitted sch cfg priv calls) :=
  inferInstanceAs (Decidable (Run.Along _ _ _ calls))

/-- The clock and the state of a pCPU under ARINC 653 after `calls`. -/
def arincReached (maxVcpus : Nat) (cfg : BootConfig Unit) (threads : List Tid)
    (calls : List (Env × ArincOp)) : Nat × Pcpu Unit ArincControl :=
  Run.exec (Run.clocked callTime (arincStep maxVcpus)) (0, cfg.boot (ArincControl.init threads)) calls

/-- Every call is admitted and the clock does not run backwards. -/
def ArincAdmitted (maxVcpus : Nat) (cfg : BootConfig Unit) (threads : List Tid)
    (calls : List (Env × ArincOp)) : Prop :=
  Run.Along (Run.clocked callTime (arincStep maxVcpus)) ArincForward
    (0, cfg.boot (ArincControl.init threads)) calls

instance (maxVcpus : Nat) (cfg : BootConfig Unit) (threads : List Tid)
    (calls : List (Env × ArincOp)) : Decidable (ArincAdmitted maxVcpus cfg threads calls) :=
  inferInstanceAs (Decidable (Run.Along _ _ _ calls))

section Reached

variable {calls : List (Env × Op)}

theorem reached_linkInv {sch : AcrnScheduler D P} {links : P → Tid → Nat}
    {Wf : (Tid → D) → P → Prop} {Relinks : Nat → (Tid → D) → P → Prop} {cfg : BootConfig D}
    {priv : P} (spec : LinkSpec sch links Wf Relinks) (hwf : Wf (cfg.boot priv).pol.data priv)
    (hempty : ∀ t, links priv t = 0) (hrun : Admitted sch cfg priv calls) :
    LinkInv links Wf (reached sch cfg priv calls) :=
  Run.inv_exec (fun s c (hs : LinkInv links Wf s) hc => (step_linked spec hs c hc).1)
    (cfg.linkInv_boot hwf hempty).1 hrun

theorem cbs_reached {cfg : BootConfig CbsData}
    (hrun : Admitted schedCbs cfg CbsControl.init calls) :
    LinkInv cbsLinks CbsQueueWf (reached schedCbs cfg CbsControl.init calls) :=
  reached_linkInv cbsLinkSpec List.nodup_nil (fun _ => rfl) hrun

theorem rtds_reached {cfg : BootConfig RtdsData} (hfresh : cfg.Fresh RtdsData.IsInit)
    (hrun : Admitted schedRtds cfg RtdsControl.init calls) :
    LinkInv rtdsView.links rtdsView.QueueWf (reached schedRtds cfg RtdsControl.init calls) := by
  refine reached_linkInv rtdsTagSpec.linkSpec (TagWf.empty fun t => ?_) (fun _ => rfl) hrun
  obtain ⟨res, now, hd⟩ := cfg.boot_data hfresh RtdsControl.init t
  rw [hd]
  rfl

theorem bfp_reached {cfg : BootConfig BfpData} (hfresh : cfg.Fresh BfpData.IsInit)
    (hrun : Admitted schedBfp cfg BfpControl.init calls) :
    LinkInv bfpView.links bfpView.QueueWf (reached schedBfp cfg BfpControl.init calls) := by
  refine reached_linkInv bfpTagSpec.linkSpec (TagWf.empty fun t => ?_) (fun _ => rfl) hrun
  obtain ⟨res, priority, now, hd⟩ := cfg.boot_data hfresh BfpControl.init t
  rw [hd]
  rfl

theorem bvt_reached {cfg : BootConfig BvtData}
    (hrun : Admitted schedBvt cfg BvtControl.init calls) :
    LinkInv bvtLinks BvtQueueWf (reached schedBvt cfg BvtControl.init calls) ∧
      ActiveLinked bvtLinks (reached schedBvt cfg BvtControl.init calls) := by
  have hboot : LinkInv bvtLinks BvtQueueWf (cfg.boot BvtControl.init) :=
    (cfg.linkInv_boot List.nodup_nil fun _ => rfl).1
  refine Run.inv_exec (fun s c (hs : LinkInv bvtLinks BvtQueueWf s ∧ ActiveLinked bvtLinks s) hc =>
    ⟨(step_linked bvtLinkSpec hs.1 c hc).1, hs.2.step bvtLinkSpec bvtStaysLinked hs.1 c hc⟩)
    ⟨hboot, fun t hlocal hact => ?_⟩ hrun
  -- at boot only idle runs and everybody else is blocked
  obtain ⟨hidle, ⟨hcur, -⟩ | hst⟩ := isActive_iff.mp hact
  · exact absurd hcur hidle
  · rw [show ((cfg.boot BvtControl.init).ctl.thread t).status = .blocked from
      (cfg.thread_of_ne hidle hlocal).1] at hst
    cases hst

theorem arinc_reached {cfg : BootConfig Unit} {maxVcpus : Nat} {threads : List Tid}
    {calls : List (Env × ArincOp)} (hrun : ArincAdmitted maxVcpus cfg threads calls) :
    ArincInv (arincReached maxVcpus cfg threads calls) :=
  Run.inv_exec (fun x c (hx : ArincInv x) hc => hx.step maxVcpus c hc)
    ⟨cfg.ctlInv_boot _, .inl rfl⟩ hrun

end Reached

/--
**When dropping a reschedule request is a no-op.**  In every reachable state with a request
and no management work pending it is one exactly if a current thread that is alone comes
last in the registry, under BVT, CBS and RTDS; if it comes last exactly when it has budget
left, under BFP; and if it comes last exactly when the window is its own, under ARINC 653.
-/
theorem drop_request_noop_iff (bvt : BootConfig BvtData) (cbs : BootConfig CbsData)
    (rtds : BootConfig RtdsData) (bfp : BootConfig BfpData) (arinc : BootConfig Unit)
    (threads : List Tid) (maxVcpus : Nat) (calls : List (Env × Op))
    (arincCalls : List (Env × ArincOp)) (now : Nat) (suspend reset : Bool) :
    (Admitted schedBvt bvt BvtControl.init calls →
      RequestPending (reached schedBvt bvt BvtControl.init calls).ctl suspend reset →
      (DropIsNoOp schedBvt now suspend reset (reached schedBvt bvt BvtControl.init calls) ↔
        (OnlyRunnable (reached schedBvt bvt BvtControl.init calls).ctl →
          CurrentIsLast (reached schedBvt bvt BvtControl.init calls).ctl))) ∧
    (Admitted schedCbs cbs CbsControl.init calls →
      RequestPending (reached schedCbs cbs CbsControl.init calls).ctl suspend reset →
      (DropIsNoOp schedCbs now suspend reset (reached schedCbs cbs CbsControl.init calls) ↔
        (OnlyRunnable (reached schedCbs cbs CbsControl.init calls).ctl →
          CurrentIsLast (reached schedCbs cbs CbsControl.init calls).ctl))) ∧
    (rtds.Fresh RtdsData.IsInit → Admitted schedRtds rtds RtdsControl.init calls →
      RequestPending (reached schedRtds rtds RtdsControl.init calls).ctl suspend reset →
      (DropIsNoOp schedRtds now suspend reset (reached schedRtds rtds RtdsControl.init calls) ↔
        (OnlyRunnable (reached schedRtds rtds RtdsControl.init calls).ctl →
          CurrentIsLast (reached schedRtds rtds RtdsControl.init calls).ctl))) ∧
    (bfp.Fresh BfpData.IsInit → Admitted schedBfp bfp BfpControl.init calls →
      RequestPending (reached schedBfp bfp BfpControl.init calls).ctl suspend reset →
      (DropIsNoOp schedBfp now suspend reset (reached schedBfp bfp BfpControl.init calls) ↔
        (OnlyRunnable (reached schedBfp bfp BfpControl.init calls).ctl →
          (CurrentIsLast (reached schedBfp bfp BfpControl.init calls).ctl ↔
            ((reached schedBfp bfp BfpControl.init calls).pol.data
              (reached schedBfp bfp BfpControl.init calls).ctl.currObj).HasBudgetAt now)))) ∧
    (ArincAdmitted maxVcpus arinc threads arincCalls →
      (arincReached maxVcpus arinc threads arincCalls).1 ≤ now →
      RequestPending (arincReached maxVcpus arinc threads arincCalls).2.ctl suspend reset →
      (DropIsNoOp schedArinc653 now suspend reset
          (arincReached maxVcpus arinc threads arincCalls).2 ↔
        (OnlyRunnable (arincReached maxVcpus arinc threads arincCalls).2.ctl →
          (CurrentIsLast (arincReached maxVcpus arinc threads arincCalls).2.ctl ↔
            OwnsWindow (arincReached maxVcpus arinc threads arincCalls).2 now)))) := by
  refine ⟨fun hrun hreq => ?_, fun hrun hreq => ?_, fun hfresh hrun hreq => ?_,
    fun hfresh hrun hreq => ?_, fun hrun hle hreq => ?_⟩
  · obtain ⟨h, hal⟩ := bvt_reached hrun
    exact dropIsNoOp_iff_last h.ctl hreq (bvt_keepsCurrent h hal hreq.no_work)
  · have h := cbs_reached hrun
    exact dropIsNoOp_iff_last h.ctl hreq (cbs_keepsCurrent h hreq.no_work)
  · have h := rtds_reached hfresh hrun
    exact dropIsNoOp_iff_last h.ctl hreq (rtds_keepsCurrent h hreq.no_work)
  · have h := bfp_reached hfresh hrun
    exact dropIsNoOp_iff h.ctl hreq (bfp_keepsCurrent_iff h hreq.no_work)
  · have h := arinc_reached hrun
    exact dropIsNoOp_iff h.ctl hreq (arinc_keepsCurrent_iff h hle hreq.no_work)

/-- A BVT thread of the default weight that never warps, on a machine with 1000 ticks a millisecond. -/
def plainBvt : BvtData := BvtData.init ⟨0, 0, false, 0, 0, 0, 0, 0, 0, 0, 0, 0⟩ 1000 1 0 0 0

/-- A vCPU is woken, selected and asked to reschedule. -/
def wokenAndAsked : List (Env × Op) :=
  [(⟨1, true⟩, .wake 1), (⟨2, true⟩, .schedule false false), (⟨3, true⟩, .requestPriority 1)]

/-- The first half of every ten microseconds. -/
def halfFrame : ArincConfig := ⟨10, [⟨0, 0, 5⟩]⟩

/-- The same with a frame of which the vCPU owns the first half. -/
def ownedAndAsked : List (Env × ArincOp) :=
  [(⟨1, true⟩, .setSchedule halfFrame), (⟨1, true⟩, .call (.wake 1)),
    (⟨2, true⟩, .call (.schedule false false)), (⟨3, true⟩, .call (.requestPriority 1))]

theorem drop_request_noop_iff_asked :
    DropIsNoOp schedBvt 3 false false
      (reached schedBvt (.single plainBvt) BvtControl.init wokenAndAsked) ∧
    DropIsNoOp schedCbs 3 false false
      (reached schedCbs (.single (CbsData.init halfOfTen 0)) CbsControl.init wokenAndAsked) ∧
    DropIsNoOp schedRtds 3 false false
      (reached schedRtds (.single (RtdsData.init halfOfTen 0)) RtdsControl.init wokenAndAsked) ∧
    DropIsNoOp schedBfp 3 false false
      (reached schedBfp (.single (BfpData.init halfOfTen 1 0)) BfpControl.init wokenAndAsked) ∧
    DropIsNoOp schedArinc653 3 false false
      (arincReached 4 (.single ()) [1] ownedAndAsked).2 := by
  obtain ⟨hbvt, hcbs, hrtds, hbfp, harinc⟩ := drop_request_noop_iff (.single plainBvt)
    (.single (CbsData.init halfOfTen 0)) (.single (RtdsData.init halfOfTen 0))
    (.single (BfpData.init halfOfTen 1 0)) (.single ()) [1] 4 wokenAndAsked ownedAndAsked 3 false
    false
  refine ⟨(hbvt (by decide) ⟨rfl, rfl⟩).mpr fun _ => by decide,
    (hcbs (by decide) ⟨rfl, rfl⟩).mpr fun _ => by decide,
    (hrtds (BootConfig.single_fresh ⟨_, _, rfl⟩) (by decide) ⟨rfl, rfl⟩).mpr fun _ => by decide,
    (hbfp (BootConfig.single_fresh ⟨_, _, _, rfl⟩) (by decide) ⟨rfl, rfl⟩).mpr fun _ => ?_,
    (harinc (by decide) (by decide) ⟨rfl, rfl⟩).mpr fun _ => ?_⟩
  · exact iff_of_true (by decide) (by decide)
  · exact iff_of_true (by decide) ⟨rfl, by decide, rfl⟩

/-- The vCPU runs until its budget timer fires. -/
def budgetUsedUp : List (Env × Op) :=
  [(⟨1, true⟩, .wake 1), (⟨2, true⟩, .schedule false false), (⟨7, true⟩, .timer)]

/-- The vCPU runs until its window ends. -/
def windowOver : List (Env × ArincOp) :=
  [(⟨1, true⟩, .setSchedule halfFrame), (⟨1, true⟩, .call (.wake 1)),
    (⟨2, true⟩, .call (.schedule false false)), (⟨6, true⟩, .call .timer)]

/--
Without the condition it is not one.  A second vCPU, blocked and registered later, keeps
the request of a first one that is alone pending; and a request is dropped although BFP
would idle for lack of budget, or ARINC 653 because the window is over.
-/
theorem drop_request_not_noop :
    (Admitted schedCbs (.pair (CbsData.init halfOfTen 0)) CbsControl.init wokenAndAsked ∧
      RequestPending (reached schedCbs (.pair (CbsData.init halfOfTen 0)) CbsControl.init
        wokenAndAsked).ctl false false ∧
      ¬DropIsNoOp schedCbs 3 false false
        (reached schedCbs (.pair (CbsData.init halfOfTen 0)) CbsControl.init wokenAndAsked)) ∧
    (Admitted schedBfp (.single (BfpData.init halfOfTen 1 0)) BfpControl.init budgetUsedUp ∧
      RequestPending (reached schedBfp (.single (BfpData.init halfOfTen 1 0)) BfpControl.init
        budgetUsedUp).ctl false false ∧
      ¬DropIsNoOp schedBfp 7 false false
        (reached schedBfp (.single (BfpData.init halfOfTen 1 0)) BfpControl.init budgetUsedUp)) ∧
    (ArincAdmitted 4 (.single ()) [1] windowOver ∧
      RequestPending (arincReached 4 (.single ()) [1] windowOver).2.ctl false false ∧
      ¬DropIsNoOp schedArinc653 6 false false (arincReached 4 (.single ()) [1] windowOver).2) := by
  have hcbs : Admitted schedCbs (.pair (CbsData.init halfOfTen 0)) CbsControl.init
      wokenAndAsked := by decide
  refine ⟨⟨hcbs, ⟨rfl, rfl⟩, fun h => ?_⟩, ⟨by decide, ⟨rfl, rfl⟩, fun h => ?_⟩,
    ⟨by decide, ⟨rfl, rfl⟩, fun h => ?_⟩⟩
  · have hcleared := h.2 (onlyRunnable_of_registry (cbs_reached hcbs).ctl (by decide) rfl
      (by decide)) (by decide +kernel)
    exact absurd hcleared (by decide +kernel)
  · exact absurd (h.1 (by decide +kernel)) (by decide +kernel)
  · exact absurd (h.1 (by decide +kernel)) (by decide +kernel)

end BeauOs.Sched

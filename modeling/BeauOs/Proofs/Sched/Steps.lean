/-
What one step can do.

`StepKind` sorts the calls into the scheduler by their effect.  Most of them only change
flags that no thread state depends on (`SameView`).  A freeze is a sleep behind a gate and a
thaw is a wake in front of one, so that, as far as threads and queues are concerned, four
calls are left: a sleep, a wake that has something to wake, the timer callback and
`schedule()`.  Invariants are proved for these and nothing else.
-/
import Mathlib.Data.List.Basic
import BeauOs.Proofs.Sched.ThreadStates

namespace BeauOs.Sched

open SchedControl

variable {D P : Type}

/-- A thread callers may name: registered, bound to this pCPU, not idle. -/
structure SchedControl.Target (ctl : SchedControl) (t : Tid) : Prop where
  not_idle : t ≠ ctl.idle
  registered : t ∈ ctl.threadList
  here : ctl.Local t

theorem SchedControl.Target.sameView {ctl ctl' : SchedControl} {t : Tid} (h : ctl.Target t)
    (hview : SameView ctl ctl') : ctl'.Target t where
  not_idle := hview.idle ▸ h.not_idle
  registered := hview.threadList ▸ h.registered
  here := hview.local_iff.mpr h.here

section Steps

variable {s : Pcpu D P} {t : Tid}

/-! ### Sleep and wake -/

theorem sleepThreadLocked_ctl (sch : AcrnScheduler D P) (env : Env) (h : CtlInv s.ctl)
    (ht : s.ctl.Target t) :
    let ctl := (sleepThreadLocked sch env t s).1.ctl
    CtlInv ctl ∧ (∀ u, ctl.Local u ↔ s.ctl.Local u) ∧ ctl.idle = s.ctl.idle ∧
      ctl.isActive t = false ∧ (ctl.thread t).status ≠ .runnable ∧
      ∀ u, u ≠ t → ctl.isActive u = s.ctl.isActive u ∧ ctl.thread u = s.ctl.thread u := by
  obtain ⟨hidle, hreg, hlocal⟩ := ht
  unfold sleepThreadLocked
  dsimp only
  by_cases hrun : (s.ctl.thread t).isRunning = true
  · rw [if_pos hrun]
    have hst : (s.ctl.thread t).status = .running := of_decide_eq_true hrun
    have hcur := (h.running t hlocal).mp hst
    have hreq : SameView s.ctl s.ctl.makeRescheduleRequest := .of_eq rfl rfl rfl rfl rfl
    have hinv : CtlInv (s.ctl.makeRescheduleRequest.updThread t
        fun o => { o with beBlocking := true }) :=
      (hreq.ctlInv h).updThread hidle (fun _ => rfl) ⟨fun _ => hcur, fun _ => hst⟩
        (fun _ => hcur) hreg
    have hloc : ∀ u, (s.ctl.makeRescheduleRequest.updThread t
        fun o => { o with beBlocking := true }).Local u ↔ s.ctl.Local u := by
      intro u
      rw [updThread_local, hreq.local_iff]
      exact fun _ => rfl
    refine ⟨hinv, hloc, rfl, hinv.not_active_of_blocking ((hloc t).mpr hlocal) (by simp), ?_, ?_⟩
    · rw [updThread_self]
      show (s.ctl.thread t).status ≠ .runnable
      rw [hst]
      simp
    · intro u hu
      exact ⟨(isActive_updThread _ hu).trans (hreq.isActive u), updThread_of_ne _ _ hu⟩
  · rw [if_neg hrun]
    have hcur : t ≠ s.ctl.currObj := by
      intro e
      exact hrun (decide_eq_true ((h.running t hlocal).mpr e))
    have hinv : CtlInv (s.ctl.updThread t fun o =>
        { o with latency := o.latency.markBlocked env.now, status := .blocked }) :=
      h.updThread hidle (fun _ => rfl) ⟨nofun, fun e => absurd e hcur⟩ (h.blocking t hlocal) hreg
    have hloc : ∀ u, (s.ctl.updThread t fun o =>
        { o with latency := o.latency.markBlocked env.now, status := .blocked }).Local u ↔
          s.ctl.Local u := fun u => updThread_local fun _ => rfl
    refine ⟨hinv, hloc, rfl, hinv.not_active_of_blocked ((hloc t).mpr hlocal) (by simp),
      by simp, ?_⟩
    intro u hu
    exact ⟨isActive_updThread _ hu, updThread_of_ne _ _ hu⟩

theorem CtlInv.not_active_of_wake {ctl : SchedControl} (h : CtlInv ctl) (hlocal : ctl.Local t)
    (hwake : ((ctl.thread t).isBlocked || (ctl.thread t).beBlocking) = true) :
    ctl.isActive t = false := by
  rcases Bool.or_eq_true _ _ |>.mp hwake with hb | hb
  · exact h.not_active_of_blocked hlocal (of_decide_eq_true hb)
  · exact h.not_active_of_blocking hlocal hb

variable (sch : AcrnScheduler D P) (ctl : SchedControl) (now : Nat) (env : Env)

theorem wakeThreadLocked_pol
    (hwake : ((s.ctl.thread t).isBlocked || (s.ctl.thread t).beBlocking) = true) :
    (wakeThreadLocked sch env t s).pol = sch.callWake env s.ctl t s.pol := by
  unfold wakeThreadLocked
  dsimp only
  rw [if_pos hwake]

/-- What `wake_thread_locked` does to the control block when it has something to wake. -/
theorem wakeThreadLocked_ctl (sch : AcrnScheduler D P) (env : Env) (h : CtlInv s.ctl)
    (ht : s.ctl.Target t)
    (hwake : ((s.ctl.thread t).isBlocked || (s.ctl.thread t).beBlocking) = true) :
    let ctl := (wakeThreadLocked sch env t s).ctl
    CtlInv ctl ∧ (∀ u, ctl.Local u ↔ s.ctl.Local u) ∧ ctl.idle = s.ctl.idle ∧
      ctl.isActive t = true ∧
      ∀ u, u ≠ t → ctl.isActive u = s.ctl.isActive u ∧ ctl.thread u = s.ctl.thread u := by
  obtain ⟨hidle, hreg, hlocal⟩ := ht
  unfold wakeThreadLocked
  dsimp only
  rw [if_pos hwake]
  have hreq : SameView s.ctl s.ctl.makeRescheduleRequest := .of_eq rfl rfl rfl rfl rfl
  by_cases hb : (s.ctl.thread t).isBlocked = true
  · -- BLOCKED: the thread becomes RUNNABLE
    simp only [hb, if_true]
    have hst : (s.ctl.thread t).status = .blocked := of_decide_eq_true hb
    have hcur : t ≠ s.ctl.currObj := by
      intro e
      rw [(h.running t hlocal).mpr e] at hst
      cases hst
    have hinv := (hreq.ctlInv h).updThread (t := t)
      (f := fun o => { o with latency := o.latency.markRunnable env.now, status := .runnable })
      hidle (fun _ => rfl) ⟨nofun, fun e => absurd e hcur⟩ (h.blocking t hlocal) hreg
    have hinv' := hinv.updThread (t := t) (f := fun o => { o with beBlocking := false })
      hidle (fun _ => rfl) (by
        rw [updThread_self]
        exact ⟨nofun, fun e => absurd e hcur⟩) nofun hreg
    refine ⟨hinv', ?_, rfl, ?_, ?_⟩
    · intro u
      rw [updThread_local, updThread_local, hreq.local_iff]
      · exact fun _ => rfl
      · exact fun _ => rfl
    · exact isActive_iff.mpr ⟨hidle, .inr (by simp)⟩
    · intro u hu
      refine ⟨(isActive_updThread _ hu).trans ((isActive_updThread _ hu).trans (hreq.isActive u)), ?_⟩
      rw [updThread_of_ne _ _ hu, updThread_of_ne _ _ hu]
      rfl
  · -- about to block: the current thread stays current
    simp only [hb]
    rw [if_neg Bool.false_ne_true]
    have hbb : (s.ctl.thread t).beBlocking = true := by
      rcases Bool.or_eq_true _ _ |>.mp hwake with hb' | hb'
      · exact absurd hb' hb
      · exact hb'
    have hcur := h.blocking t hlocal hbb
    have hinv := h.updThread (t := t) (f := fun o => { o with beBlocking := false })
      hidle (fun _ => rfl) (h.running t hlocal) nofun hreg
    refine ⟨hinv, fun u => updThread_local fun _ => rfl, rfl, ?_, ?_⟩
    · exact isActive_iff.mpr ⟨hidle, .inl ⟨hcur, by simp⟩⟩
    · intro u hu
      exact ⟨isActive_updThread _ hu, updThread_of_ne _ _ hu⟩

/-! ### The timer callback -/

/-- The state `timerCallback` leaves, up to the timer itself. -/
theorem timerCallback_cases (s : Pcpu D P) :
    SameView s.ctl (timerCallback sch now s).ctl ∧
      ((timerCallback sch now s).pol.data = s.pol.data ∧
          (timerCallback sch now s).pol.priv = s.pol.priv ∨
        ∃ ctl, SameView s.ctl ctl ∧
          let p' := (sch.timerHandler now ctl { s.pol with tickTimer := s.pol.tickTimer.del }).1
          (timerCallback sch now s).pol.data = p'.data ∧
            (timerCallback sch now s).pol.priv = p'.priv) := by
  have htick : SameView s.ctl s.ctl.schedAccountTick := .of_eq rfl rfl rfl rfl rfl
  have hreq : SameView s.ctl s.ctl.schedAccountTick.makeRescheduleRequest :=
    .of_eq rfl rfl rfl rfl rfl
  unfold timerCallback
  dsimp only
  by_cases hzero : s.pol.tickTimer.del.timeout ≠ 0
  · simp only [if_pos hzero]
    refine ⟨?_, .inr ⟨s.ctl.schedAccountTick, htick, ?_, ?_⟩⟩
    · split <;> split <;> first | exact hreq | exact htick
    · split <;> rfl
    · split <;> rfl
  · simp only [if_neg hzero]
    refine ⟨?_, .inl ⟨?_, ?_⟩⟩
    · split <;> exact .refl _
    · split <;> rfl
    · split <;> rfl

/-! ### Quiesce, priority and freeze bookkeeping -/

theorem requestThreadQuiesce_view (t : Tid) (generation : Nat) :
    SameView ctl (requestThreadQuiesce t generation ctl).1 := by
  unfold requestThreadQuiesce
  dsimp only
  split
  · exact .refl _
  · split
    · exact .of_eq rfl rfl rfl rfl rfl
    · exact .refl _

theorem releaseThreadQuiesce_view (t : Tid) : SameView ctl (releaseThreadQuiesce t ctl) := by
  unfold releaseThreadQuiesce
  dsimp only
  split
  · exact .refl _
  · split
    · exact .of_eq rfl rfl rfl rfl rfl
    · exact .refl _

theorem ackQuiesceVm_view (acc : SchedControl × Bool) (vmId : Nat) :
    SameView acc.1 (ackQuiesceVm acc vmId).1 := by
  unfold ackQuiesceVm
  dsimp only
  split
  · exact .refl _
  · split
    · exact .of_eq rfl rfl rfl rfl rfl
    · exact .refl _

/-- What each visit of the idle thread keeps, the walk keeps. -/
theorem schedAckQuiesceFromIdle_keeps {R : SchedControl × Bool → Prop}
    (hone : ∀ acc vmId, R acc → R (ackQuiesceVm acc vmId)) (h : R (ctl, false)) :
    R (schedAckQuiesceFromIdle ctl) :=
  List.foldlRecOn _ ackQuiesceVm h fun acc hacc vmId _ => hone acc vmId hacc

theorem schedAckQuiesceFromIdle_view : SameView ctl (schedAckQuiesceFromIdle ctl).1 :=
  schedAckQuiesceFromIdle_keeps ctl (R := fun acc => SameView ctl acc.1)
    (fun acc vmId h => h.trans (ackQuiesceVm_view acc vmId)) (SameView.refl ctl)

theorem requestThreadPriority_view (hidle : t ≠ s.ctl.idle) :
    SameView s.ctl (requestThreadPriority sch t s).ctl ∧
      (requestThreadPriority sch t s).pol = s.pol := by
  unfold requestThreadPriority requestThreadPriorityNoResched
  dsimp only
  split
  · refine ⟨?_, rfl⟩
    have hview : SameView s.ctl (s.ctl.updThread t fun o => { o with priorityPending := true }) :=
      SameView.updThread t (fun _ => rfl) (fun _ => rfl) (fun _ => rfl) (.inl hidle)
    exact hview.trans (SameView.of_eq rfl rfl rfl rfl rfl)
  · exact ⟨SameView.of_eq rfl rfl rfl rfl rfl, rfl⟩

theorem freezeGate_view (t : Tid) (epoch : Nat) :
    SameView ctl (ctl.updThread t fun o => { o with freezeEpoch := epoch, deferredWake := false }) :=
  SameView.updThread t (fun _ => rfl) (fun _ => rfl) (fun _ => rfl) (.inr fun _ h => h)

/-! ### Consuming priority requests -/

theorem consumePriority_view (s : Pcpu D P) (t : Tid) :
    SameView s.ctl (consumePriority sch now s t).ctl ∧
      (consumePriority sch now s t).ctl.quiesceRequestVmMask = s.ctl.quiesceRequestVmMask := by
  have hview : SameView s.ctl (s.ctl.updThread t fun o => { o with priorityPending := false }) :=
    SameView.updThread t (fun _ => rfl) (fun _ => rfl) (fun _ => rfl) (.inr fun _ _ => rfl)
  unfold consumePriority
  dsimp only
  split_ifs
  · exact ⟨hview, rfl⟩
  · exact ⟨hview, rfl⟩
  · exact ⟨SameView.refl _, rfl⟩

/-- What each thread of the scan keeps, the scan keeps. -/
theorem consumePriorities_keeps {sch : AcrnScheduler D P} {now : Nat} {R : Pcpu D P → Prop}
    (hone : ∀ s t, R s → R (consumePriority sch now s t)) (h : R s)
    (hclear : R { s with ctl := { s.ctl with priorityPending := false } }) :
    R (consumePriorities sch now s) := by
  unfold consumePriorities
  split
  · exact List.foldlRecOn _ _ hclear fun s hs t _ => hone s t hs
  · exact h

theorem consumePriorities_view (s : Pcpu D P) :
    SameView s.ctl (consumePriorities sch now s).ctl ∧
      (consumePriorities sch now s).ctl.quiesceRequestVmMask = s.ctl.quiesceRequestVmMask := by
  refine consumePriorities_keeps (R := fun s' => SameView s.ctl s'.ctl ∧
    s'.ctl.quiesceRequestVmMask = s.ctl.quiesceRequestVmMask) (fun s' t h => ?_)
    ⟨SameView.refl _, rfl⟩ ⟨SameView.of_eq rfl rfl rfl rfl rfl, rfl⟩
  obtain ⟨hview, hmask⟩ := consumePriority_view sch now s' t
  exact ⟨h.1.trans hview, hmask.trans h.2⟩

/-- The rule for the scan: what view changes and the hook of an active thread keep, it keeps. -/
theorem consumePriorities_rule {sch : AcrnScheduler D P} {now : Nat} (Inv : Pcpu D P → Prop)
    (hctl : ∀ s, Inv s → CtlInv s.ctl)
    (hview : ∀ (s : Pcpu D P) ctl, SameView s.ctl ctl → Inv s → Inv ⟨ctl, s.pol⟩)
    (hprio : ∀ (s : Pcpu D P) t, s.ctl.Local t → s.ctl.isActive t = true → Inv s →
      Inv ⟨s.ctl, sch.callPrioritize now s.ctl t s.pol⟩)
    (h : Inv s) : Inv (consumePriorities sch now s) := by
  have hone : ∀ s t, Inv s → Inv (consumePriority sch now s t) := by
    intro s t h
    unfold consumePriority
    dsimp only
    by_cases hpend : (s.ctl.thread t).pcpuId = s.ctl.pcpuId ∧
        (s.ctl.thread t).priorityPending = true
    swap
    · rw [if_neg hpend]
      exact h
    rw [if_pos hpend]
    have hv : SameView s.ctl (s.ctl.updThread t fun o => { o with priorityPending := false }) :=
      SameView.updThread t (fun _ => rfl) (fun _ => rfl) (fun _ => rfl) (.inr fun _ _ => rfl)
    by_cases hready : (s.ctl.thread t).isRunnableOrRunning = true ∧
        (s.ctl.thread t).beBlocking = false
    swap
    · rw [if_neg hready]
      exact hview s _ hv h
    rw [if_pos hready]
    -- a thread that may run and is not about to block is active, unless it is idle
    have hidle : t ≠ s.ctl.idle := by
      rintro rfl
      rw [(hctl s h).idle_priority] at hpend
      exact Bool.false_ne_true hpend.2
    have hst : (s.ctl.thread t).status ≠ .blocked := by
      intro hb
      have hrun := hready.1
      simp [ThreadObject.isRunnableOrRunning, hb] at hrun
    have hact : s.ctl.isActive t = true := by
      refine isActive_iff.mpr ⟨hidle, ?_⟩
      by_cases hcur : t = s.ctl.currObj
      · exact .inl ⟨hcur, hready.2⟩
      · exact .inr ((hctl s h).runnable_of_ne hpend.1 hcur hst)
    exact hprio ⟨_, s.pol⟩ t (hv.local_iff.mpr hpend.1) ((hv.isActive t).trans hact)
      (hview s _ hv h)
  exact consumePriorities_keeps hone h (hview s _ (SameView.of_eq rfl rfl rfl rfl rfl) h)

/-- Without a priority hook the scan does not reach the policy. -/
theorem consumePriorities_pol {sch : AcrnScheduler D P} (hnone : sch.prioritize = none) (now : Nat)
    (s : Pcpu D P) : (consumePriorities sch now s).pol = s.pol := by
  refine consumePriorities_keeps (R := fun s' => s'.pol = s.pol) (fun s' t h => ?_) rfl rfl
  unfold consumePriority AcrnScheduler.callPrioritize
  rw [hnone]
  dsimp only
  split_ifs <;> exact h

/-- The scan changes no thread object beyond its pending request. -/
theorem consumePriorities_thread (s : Pcpu D P) (t : Tid) :
    ∃ pending, (consumePriorities sch now s).ctl.thread t =
      { s.ctl.thread t with priorityPending := pending } := by
  have hsame : ∃ pending, s.ctl.thread t = { s.ctl.thread t with priorityPending := pending } :=
    ⟨(s.ctl.thread t).priorityPending, rfl⟩
  refine consumePriorities_keeps (R := fun s' => ∃ pending, s'.ctl.thread t =
    { s.ctl.thread t with priorityPending := pending }) (fun s' u h => ?_) hsame hsame
  have hupd : ∃ pending, (s'.ctl.updThread u fun o => { o with priorityPending := false }).thread t =
      { s.ctl.thread t with priorityPending := pending } := by
    by_cases hut : t = u
    · subst hut
      obtain ⟨pending, hp⟩ := h
      exact ⟨false, by rw [updThread_self, hp]⟩
    · rw [updThread_of_ne _ _ hut]
      exact h
  unfold consumePriority
  dsimp only
  split_ifs
  · exact hupd
  · exact hupd
  · exact h

theorem schedIdleWorkPending_consume (s : Pcpu D P) (suspend reset : Bool) :
    schedIdleWorkPending (consumePriorities sch now s).ctl suspend reset =
      schedIdleWorkPending s.ctl suspend reset := by
  unfold schedIdleWorkPending
  rw [(consumePriorities_view sch now s).2]

/-! ### One step -/

def Op.wakee : Op → Option Tid
  | .wake t | .thaw t _ _ => some t
  | _ => none

/-- The effect of a call, up to flags no thread state depends on. -/
inductive StepKind (sch : AcrnScheduler D P) (s : Pcpu D P) : Env × Op → Pcpu D P → Prop
  | view {call : Env × Op} {ctl : SchedControl} :
      SameView s.ctl ctl → StepKind sch s call ⟨ctl, s.pol⟩
  | sleep {env : Env} {op : Op} {ctl : SchedControl} {t : Tid} :
      SameView s.ctl ctl → s.ctl.Target t →
      StepKind sch s (env, op) (sleepThreadLocked sch env t ⟨ctl, s.pol⟩).1
  | wake {env : Env} {op : Op} {ctl : SchedControl} {t : Tid} :
      SameView s.ctl ctl → s.ctl.Target t →
      ((ctl.thread t).isBlocked || (ctl.thread t).beBlocking) = true → op.wakee = some t →
      StepKind sch s (env, op) (wakeThreadLocked sch env t ⟨ctl, s.pol⟩)
  | timer {env : Env} : StepKind sch s (env, .timer) (timerCallback sch env.now s)
  | schedule {env : Env} {suspend reset : Bool} :
      StepKind sch s (env, .schedule suspend reset) (schedule sch env.now suspend reset s)

/-- Waking a thread that has nothing to wake from is no more than a view change. -/
theorem stepKind_wakeThreadLocked {op : Op} {ctl : SchedControl} (hview : SameView s.ctl ctl)
    (ht : s.ctl.Target t) (hop : op.wakee = some t) :
    StepKind sch s (env, op) (wakeThreadLocked sch env t ⟨ctl, s.pol⟩) := by
  by_cases hwake : ((ctl.thread t).isBlocked || (ctl.thread t).beBlocking) = true
  · exact .wake hview ht hwake hop
  unfold wakeThreadLocked
  dsimp only
  rw [if_neg hwake]
  exact .view hview

theorem stepKind_freezeThread (op : Op) (ht : s.ctl.Target t) (epoch : Nat) :
    StepKind sch s (env, op) (freezeThread sch env t epoch s).1 := by
  unfold freezeThread
  dsimp only
  split_ifs
  · exact .view (SameView.refl _)
  · exact .sleep (freezeGate_view s.ctl t epoch) ht
  · exact .sleep (SameView.refl _) ht
  · exact .view (SameView.refl _)

theorem stepKind_thawThread (ht : s.ctl.Target t) (epoch : Nat) (wakeOwned : Bool) :
    StepKind sch s (env, .thaw t epoch wakeOwned) (thawThread sch env t epoch wakeOwned s).1 := by
  have hview := freezeGate_view s.ctl t 0
  unfold thawThread
  dsimp only
  split_ifs
  · exact .view (SameView.refl _)
  · exact stepKind_wakeThreadLocked sch env hview ht rfl
  · exact .view hview
  · exact .view (SameView.refl _)

theorem stepKind_wakeThread (ht : s.ctl.Target t) :
    StepKind sch s (env, .wake t) (wakeThread sch env t s) := by
  unfold wakeThread
  split_ifs
  · exact .view (SameView.refl _)
  · exact .view (SameView.updThread t (fun _ => rfl) (fun _ => rfl) (fun _ => rfl)
      (.inr fun _ h => h))
  · exact stepKind_wakeThreadLocked sch env (SameView.refl _) ht rfl

/-- **Every step is of one of these kinds.** -/
theorem step_kind (s : Pcpu D P) (call : Env × Op) (hvalid : call.2.Valid s.ctl) :
    StepKind sch s call (step sch s call) := by
  obtain ⟨env, op⟩ := call
  have htarget : ∀ t, op.target = some t → s.ctl.Target t := by
    intro t ht
    obtain ⟨hidle, hreg, hlocal⟩ := hvalid t ht
    exact ⟨hidle, hreg, hlocal⟩
  cases op with
  | wake t => exact stepKind_wakeThread sch env (htarget t rfl)
  | sleep t => exact .sleep (SameView.refl _) (htarget t rfl)
  | requestPriority t =>
    obtain ⟨hview, hpol⟩ := requestThreadPriority_view sch (htarget t rfl).not_idle
    have heq : step sch s (env, .requestPriority t) =
        ⟨(requestThreadPriority sch t s).ctl, s.pol⟩ := by
      rw [← hpol]
      rfl
    rw [heq]
    exact .view hview
  | freeze t epoch => exact stepKind_freezeThread sch env _ (htarget t rfl) epoch
  | thaw t epoch wakeOwned => exact stepKind_thawThread sch env (htarget t rfl) epoch wakeOwned
  | requestQuiesce t generation => exact .view (requestThreadQuiesce_view s.ctl t generation)
  | ackQuiesce =>
    have hack := schedAckQuiesceFromIdle_view s.ctl
    refine .view ?_
    split
    · exact hack.trans (SameView.of_eq rfl rfl rfl rfl rfl)
    · exact hack
  | releaseQuiesce t => exact .view (releaseThreadQuiesce_view s.ctl t)
  | timer => exact .timer
  | schedule => exact .schedule

/-! ### What a call leaves alone -/

/-- The same thread: what is fixed when it is created. -/
structure ThreadObject.SameIdentity (o o' : ThreadObject) : Prop where
  pcpuId : o'.pcpuId = o.pcpuId
  isVcpu : o'.isVcpu = o.isVcpu
  vmId : o'.vmId = o.vmId
  vcpuId : o'.vcpuId = o.vcpuId

/-- Two thread objects that differ in nothing but what scheduling changes. -/
structure ThreadObject.SameGates (o o' : ThreadObject) : Prop extends o.SameIdentity o' where
  freezeEpoch : o'.freezeEpoch = o.freezeEpoch
  deferredWake : o'.deferredWake = o.deferredWake

/-- The calls that work on the quiesce slots. -/
def Op.onSlots : Op → Bool
  | .requestQuiesce _ _ | .ackQuiesce | .releaseQuiesce _ => true
  | _ => false

/-- The thread whose gates a call may change. -/
def Op.gated : Op → Option Tid
  | .wake t | .freeze t _ | .thaw t _ _ => some t
  | _ => none

/-- What a call leaves alone: the registry, the tick rate, what a thread is, and the slots and gates
it is not meant for. -/
structure Touched (op : Op) (ctl ctl' : SchedControl) : Prop where
  idle : ctl'.idle = ctl.idle
  pcpuId : ctl'.pcpuId = ctl.pcpuId
  threadList : ctl'.threadList = ctl.threadList
  tickrate : ctl'.tickrate = ctl.tickrate
  slots : op.onSlots = false → ctl'.quiesceSlots = ctl.quiesceSlots
  identity : ∀ u, (ctl.thread u).SameIdentity (ctl'.thread u)
  gates : ∀ u, op.gated ≠ some u → (ctl.thread u).SameGates (ctl'.thread u)

theorem ThreadObject.SameGates.refl (o : ThreadObject) : o.SameGates o :=
  ⟨⟨rfl, rfl, rfl, rfl⟩, rfl, rfl⟩

namespace Touched

variable {op : Op} {ctl ctl' ctl'' : SchedControl}

theorem trans (h : Touched op ctl ctl') (h' : Touched op ctl' ctl'') : Touched op ctl ctl'' where
  idle := h'.idle.trans h.idle
  pcpuId := h'.pcpuId.trans h.pcpuId
  threadList := h'.threadList.trans h.threadList
  tickrate := h'.tickrate.trans h.tickrate
  slots hop := (h'.slots hop).trans (h.slots hop)
  identity u := by
    obtain ⟨hp, hi, hm, hc⟩ := h.identity u
    obtain ⟨hp', hi', hm', hc'⟩ := h'.identity u
    exact ⟨hp'.trans hp, hi'.trans hi, hm'.trans hm, hc'.trans hc⟩
  gates u hu := by
    obtain ⟨⟨hp, hi, hm, hc⟩, he, hd⟩ := h.gates u hu
    obtain ⟨⟨hp', hi', hm', hc'⟩, he', hd'⟩ := h'.gates u hu
    exact ⟨⟨hp'.trans hp, hi'.trans hi, hm'.trans hm, hc'.trans hc⟩, he'.trans he, hd'.trans hd⟩

/-- Fields beside the registry and the threads. -/
theorem of_eq (hidle : ctl'.idle = ctl.idle) (hpcpu : ctl'.pcpuId = ctl.pcpuId)
    (hlist : ctl'.threadList = ctl.threadList) (hrate : ctl'.tickrate = ctl.tickrate)
    (hthread : ctl'.thread = ctl.thread)
    (hslots : op.onSlots = false → ctl'.quiesceSlots = ctl.quiesceSlots) : Touched op ctl ctl' where
  idle := hidle
  pcpuId := hpcpu
  threadList := hlist
  tickrate := hrate
  slots := hslots
  identity _ := by rw [hthread]; exact ⟨rfl, rfl, rfl, rfl⟩
  gates _ _ := by rw [hthread]; exact .refl _

theorem refl (op : Op) (ctl : SchedControl) : Touched op ctl ctl :=
  of_eq rfl rfl rfl rfl rfl fun _ => rfl

theorem gate (op : Op) {t : Tid} {f : ThreadObject → ThreadObject} (hop : op.gated = some t)
    (hf : ∀ o : ThreadObject, o.SameIdentity (f o)) : Touched op ctl (ctl.updThread t f) := by
  refine ⟨rfl, rfl, rfl, rfl, fun _ => rfl, fun u => ?_, fun u hu => ?_⟩
  · by_cases hut : u = t
    · rw [hut, updThread_self]
      exact hf _
    · rw [updThread_of_ne _ _ hut]
      exact ⟨rfl, rfl, rfl, rfl⟩
  · have hut : u ≠ t := by
      rintro rfl
      exact hu hop
    rw [updThread_of_ne _ _ hut]
    exact .refl _

theorem updThread (h : Touched op ctl ctl') (t : Tid) {f : ThreadObject → ThreadObject}
    (hf : ∀ o : ThreadObject, o.SameGates (f o)) : Touched op ctl (ctl'.updThread t f) := by
  have hgates (u : Tid) : (ctl'.thread u).SameGates ((ctl'.updThread t f).thread u) := by
    by_cases hut : u = t
    · rw [hut, updThread_self]
      exact hf _
    · rw [updThread_of_ne _ _ hut]
      exact .refl _
  exact h.trans ⟨rfl, rfl, rfl, rfl, fun _ => rfl, fun u => (hgates u).toSameIdentity,
    fun u _ => hgates u⟩

end Touched

theorem sleepThreadLocked_touched (op : Op) (t : Tid) (s : Pcpu D P) :
    Touched op s.ctl (sleepThreadLocked sch env t s).1.ctl := by
  unfold sleepThreadLocked
  dsimp only
  split
  · refine Touched.updThread ?_ t fun _ => ⟨⟨rfl, rfl, rfl, rfl⟩, rfl, rfl⟩
    exact .of_eq rfl rfl rfl rfl rfl fun _ => rfl
  · exact Touched.updThread (.refl op s.ctl) t fun _ => ⟨⟨rfl, rfl, rfl, rfl⟩, rfl, rfl⟩

theorem wakeThreadLocked_touched (op : Op) (t : Tid) (s : Pcpu D P) :
    Touched op s.ctl (wakeThreadLocked sch env t s).ctl := by
  unfold wakeThreadLocked
  dsimp only
  split
  · dsimp only
    refine Touched.updThread ?_ t fun _ => ⟨⟨rfl, rfl, rfl, rfl⟩, rfl, rfl⟩
    split
    · refine Touched.updThread ?_ t fun _ => ⟨⟨rfl, rfl, rfl, rfl⟩, rfl, rfl⟩
      exact .of_eq rfl rfl rfl rfl rfl fun _ => rfl
    · exact .refl op s.ctl
  · exact .refl op s.ctl

theorem consumePriorities_touched (op : Op) (s : Pcpu D P) :
    Touched op s.ctl (consumePriorities sch now s).ctl := by
  refine consumePriorities_keeps (R := fun s' => Touched op s.ctl s'.ctl) (fun s' t h => ?_)
    (.refl op s.ctl) (.of_eq rfl rfl rfl rfl rfl fun _ => rfl)
  have hupd := h.updThread t (f := fun o => { o with priorityPending := false })
    fun _ => ⟨⟨rfl, rfl, rfl, rfl⟩, rfl, rfl⟩
  unfold consumePriority
  dsimp only
  split_ifs
  · exact hupd
  · exact hupd
  · exact h

theorem switchTo_touched (op : Op) (next : Tid) : Touched op ctl (switchTo ctl now next) := by
  have hgates (u : Tid) : (ctl.thread u).SameGates ((switchTo ctl now next).thread u) := by
    by_cases h : ctl.currObj = next
    · rw [switchTo_curr h]
      exact .refl _
    by_cases hnext : u = next
    · rw [hnext, switchTo_next h]
      exact ⟨⟨rfl, rfl, rfl, rfl⟩, rfl, rfl⟩
    by_cases hprev : u = ctl.currObj
    · rw [hprev, switchTo_prev h]
      exact ⟨⟨rfl, rfl, rfl, rfl⟩, rfl, rfl⟩
    · rw [switchTo_other hprev hnext]
      exact .refl _
  refine ⟨switchTo_idle, switchTo_pcpuId, switchTo_threadList, ?_, fun _ => ?_,
    fun u => (hgates u).toSameIdentity, fun u _ => hgates u⟩
  all_goals
    unfold switchTo
    dsimp only
    split <;> rfl

theorem schedAckQuiesceFromIdle_touched :
    Touched .ackQuiesce ctl (schedAckQuiesceFromIdle ctl).1 := by
  refine schedAckQuiesceFromIdle_keeps ctl (R := fun acc => Touched .ackQuiesce ctl acc.1)
    (fun acc vmId h => h.trans ?_) (.refl _ ctl)
  unfold ackQuiesceVm
  dsimp only
  split
  · exact .refl _ _
  · split
    · exact .of_eq rfl rfl rfl rfl rfl nofun
    · exact .refl _ _

/-- **Frame.**  A call changes the slots and gates it is meant for. -/
theorem step_touched (s : Pcpu D P) (call : Env × Op) :
    Touched call.2 s.ctl (step sch s call).ctl := by
  obtain ⟨env, op⟩ := call
  cases op with
  | wake t =>
    show Touched (.wake t) s.ctl (wakeThread sch env t s).ctl
    unfold wakeThread
    split_ifs
    · exact .refl _ _
    · dsimp only
      exact .gate (.wake t) rfl fun _ => ⟨rfl, rfl, rfl, rfl⟩
    · exact wakeThreadLocked_touched sch env _ t s
  | sleep t => exact sleepThreadLocked_touched sch env _ t s
  | requestPriority t =>
    show Touched _ _ (requestThreadPriority sch t s).ctl
    unfold requestThreadPriority requestThreadPriorityNoResched
    dsimp only
    split
    · have hpending : Touched (.requestPriority t) s.ctl (s.ctl.updThread t fun o =>
          { o with priorityPending := true }) :=
        (Touched.refl _ _).updThread t fun _ => ⟨⟨rfl, rfl, rfl, rfl⟩, rfl, rfl⟩
      exact hpending.trans (.of_eq rfl rfl rfl rfl rfl fun _ => rfl)
    · exact .of_eq rfl rfl rfl rfl rfl fun _ => rfl
  | freeze t epoch =>
    show Touched (.freeze t epoch) s.ctl (freezeThread sch env t epoch s).1.ctl
    unfold freezeThread
    dsimp only
    split_ifs
    · exact .refl _ _
    · refine Touched.trans ?_ (sleepThreadLocked_touched sch env _ t ⟨_, s.pol⟩)
      dsimp only
      exact .gate (.freeze t epoch) rfl fun _ => ⟨rfl, rfl, rfl, rfl⟩
    · exact sleepThreadLocked_touched sch env _ t s
    · exact .refl _ _
  | thaw t epoch wakeOwned =>
    have hgate : Touched (.thaw t epoch wakeOwned) s.ctl (s.ctl.updThread t fun o =>
        { o with freezeEpoch := 0, deferredWake := false }) :=
      .gate _ rfl fun _ => ⟨rfl, rfl, rfl, rfl⟩
    show Touched _ _ (thawThread sch env t epoch wakeOwned s).1.ctl
    unfold thawThread
    dsimp only
    split_ifs
    · exact .refl _ _
    · exact hgate.trans (wakeThreadLocked_touched sch env _ t ⟨_, s.pol⟩)
    · exact hgate
    · exact .refl _ _
  | requestQuiesce t generation =>
    show Touched _ _ (requestThreadQuiesce t generation s.ctl).1
    unfold requestThreadQuiesce
    dsimp only
    split_ifs <;> exact .of_eq rfl rfl rfl rfl rfl nofun
  | ackQuiesce =>
    have hack := schedAckQuiesceFromIdle_touched s.ctl
    show Touched _ _ (if (schedAckQuiesceFromIdle s.ctl).2 then
      (schedAckQuiesceFromIdle s.ctl).1.makeRescheduleRequest
      else (schedAckQuiesceFromIdle s.ctl).1)
    split
    · exact hack.trans (.of_eq rfl rfl rfl rfl rfl fun _ => rfl)
    · exact hack
  | releaseQuiesce t =>
    show Touched _ _ (releaseThreadQuiesce t s.ctl)
    unfold releaseThreadQuiesce
    dsimp only
    split_ifs <;> exact .of_eq rfl rfl rfl rfl rfl nofun
  | timer =>
    show Touched _ _ (timerCallback sch env.now s).ctl
    unfold timerCallback
    dsimp only
    split_ifs <;> exact .of_eq rfl rfl rfl rfl rfl fun _ => rfl
  | schedule suspend reset =>
    show Touched _ _ (schedule sch env.now suspend reset s).ctl
    unfold schedule
    refine (consumePriorities_touched sch env.now _ s).trans
      (Touched.trans ?_ (switchTo_touched _ env.now _ _))
    exact .of_eq rfl rfl rfl rfl rfl fun _ => rfl

/-- A policy selects threads of its own pCPU that can run. -/
def PicksRunnable (sch : AcrnScheduler D P) : Prop :=
  ∀ now ctl (p : PolicyState D P), CtlInv ctl →
    ctl.Local (sch.pickNext now ctl p).1 ∧ (ctl.thread (sch.pickNext now ctl p).1).status ≠ .blocked

/-- Whatever the policy keeps, the thread states stay in order if it selects sensibly. -/
theorem CtlInv.step {sch : AcrnScheduler D P} (hpick : PicksRunnable sch) (h : CtlInv s.ctl)
    (call : Env × Op) (hvalid : call.2.Valid s.ctl) : CtlInv (step sch s call).ctl := by
  have hkind := step_kind sch s call hvalid
  generalize BeauOs.Sched.step sch s call = s' at hkind ⊢
  cases hkind with
  | view hview => exact hview.ctlInv h
  | sleep hview ht =>
    exact (sleepThreadLocked_ctl sch _ (s := ⟨_, s.pol⟩) (hview.ctlInv h) (ht.sameView hview)).1
  | wake hview ht hwake =>
    exact (wakeThreadLocked_ctl sch _ (s := ⟨_, s.pol⟩) (hview.ctlInv h) (ht.sameView hview)
      hwake).1
  | timer => exact (timerCallback_cases sch _ s).1.ctlInv h
  | @schedule env suspend reset =>
    have hview := (consumePriorities_view sch env.now s).1
    have h' := hview.ctlInv h
    have hsel : (consumePriorities sch env.now s).ctl.Local
          (selectNext sch env.now suspend reset (consumePriorities sch env.now s)).1 ∧
        ((consumePriorities sch env.now s).ctl.thread
          (selectNext sch env.now suspend reset (consumePriorities sch env.now s)).1).status ≠
            .blocked := by
      unfold selectNext
      split
      · exact ⟨h'.idle_local, h'.idle_status⟩
      · exact hpick env.now _ _ h'
    have hclear : SameView (consumePriorities sch env.now s).ctl
        { (consumePriorities sch env.now s).ctl with needReschedule := false } :=
      .of_eq rfl rfl rfl rfl rfl
    exact (hclear.ctlInv h').switchTo (hclear.local_iff.mpr hsel.1) hsel.2

/-! ### The timer callback and the thread that runs -/

/-- A timer that was not armed again is left without a timeout. -/
def PolicyState.spent (p : PolicyState D P) : PolicyState D P :=
  if p.tickTimer.started then p else { p with tickTimer := { p.tickTimer with timeout := 0 } }

/-- The timer is taken off its list, and the handler runs if it had a timeout. -/
theorem timerCallback_pol (s : Pcpu D P) :
    (timerCallback sch now s).pol =
      (if s.pol.tickTimer.timeout ≠ 0 then
        (sch.timerHandler now s.ctl.schedAccountTick
          { s.pol with tickTimer := s.pol.tickTimer.del }).1
      else { s.pol with tickTimer := s.pol.tickTimer.del }).spent := by
  unfold timerCallback PolicyState.spent
  dsimp only
  rw [show s.pol.tickTimer.del.timeout = s.pol.tickTimer.timeout from rfl]
  by_cases hzero : s.pol.tickTimer.timeout ≠ 0
  · rw [if_pos hzero, if_pos hzero]
    dsimp only
    split <;> rfl
  · rw [if_neg hzero, if_neg hzero]
    dsimp only
    split <;> rfl

def SchedControl.runs (ctl : SchedControl) : Option Tid :=
  if ctl.currObj = ctl.idle then none else some ctl.currObj

theorem SchedControl.mem_runs {ctl : SchedControl} {r : Tid} :
    r ∈ ctl.runs ↔ ctl.currObj ≠ ctl.idle ∧ r = ctl.currObj := by
  unfold runs
  by_cases h : ctl.currObj = ctl.idle
  · simp [h]
  · simp [h, eq_comm]

theorem SameView.runs {ctl ctl' : SchedControl} (h : SameView ctl ctl') : ctl'.runs = ctl.runs := by
  unfold SchedControl.runs
  rw [h.currObj, h.idle]

theorem sleepThreadLocked_curr (t : Tid) (s : Pcpu D P) :
    (sleepThreadLocked sch env t s).1.ctl.currObj = s.ctl.currObj ∧
      (sleepThreadLocked sch env t s).1.ctl.idle = s.ctl.idle := by
  unfold sleepThreadLocked
  dsimp only
  split <;> exact ⟨rfl, rfl⟩

theorem wakeThreadLocked_curr (t : Tid) (s : Pcpu D P) :
    (wakeThreadLocked sch env t s).ctl.currObj = s.ctl.currObj ∧
      (wakeThreadLocked sch env t s).ctl.idle = s.ctl.idle := by
  unfold wakeThreadLocked
  dsimp only
  split_ifs <;> exact ⟨rfl, rfl⟩

theorem SchedControl.runs_congr {ctl ctl' : SchedControl}
    (h : ctl'.currObj = ctl.currObj ∧ ctl'.idle = ctl.idle) : ctl'.runs = ctl.runs := by
  unfold runs
  rw [h.1, h.2]

theorem switchTo_runs (next : Tid) :
    (switchTo ctl now next).runs = if next = ctl.idle then none else some next := by
  unfold runs
  rw [switchTo_currObj, switchTo_idle]

end Steps

end BeauOs.Sched

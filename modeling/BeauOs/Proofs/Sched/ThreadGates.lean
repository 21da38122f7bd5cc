/-
Threads that are held back.

Two gates keep a thread from being woken: a quiesce request of its VM and a freeze epoch.
Both are flags beside the thread states, and the policies know nothing of them.  What this
file provides is therefore independent of the policy: a thread that sleeps goes on sleeping,
through every call, until a wake gets past the gates (`PolicyInv.step_asleep`).

All a policy has to contribute is that it selects no BLOCKED thread (`PolicyInv`).
-/
import BeauOs.Proofs.Sched.DropRequest
import BeauOs.Proofs.Sched.Linkage

namespace BeauOs.Sched

variable {D P : Type}

variable {ctl : SchedControl} {t : Tid} (sch : AcrnScheduler D P) (s : Pcpu D P) (call : Env × Op)

/-- Callers may name the same threads after a call as before. -/
theorem SchedControl.Target.step {s : Pcpu D P} (h : s.ctl.Target t) (sch : AcrnScheduler D P)
    (call : Env × Op) :
    (BeauOs.Sched.step sch s call).ctl.Target t := by
  have htouched := step_touched sch s call
  refine ⟨?_, ?_, ?_⟩
  · rw [htouched.idle]
    exact h.not_idle
  · rw [htouched.threadList]
    exact h.registered
  · unfold SchedControl.Local
    rw [htouched.pcpuId, (htouched.identity t).pcpuId]
    exact h.here

/-! ### Policies that select no sleeper -/

/-- An invariant under which a policy selects threads that can run. -/
structure PolicyInv (sch : AcrnScheduler D P) (Inv : Pcpu D P → Prop) : Prop where
  ctl : ∀ {s}, Inv s → CtlInv s.ctl
  step : ∀ {s} (call : Env × Op), Inv s → call.2.Valid s.ctl → Inv (step sch s call)
  selects : ∀ {s} (now : Nat) (suspend reset : Bool), Inv s →
    let s' := consumePriorities sch now s
    (s'.ctl.thread (selectNext sch now suspend reset s').1).status ≠ .blocked

theorem LinkSpec.policyInv {sch : AcrnScheduler D P} {links : P → Tid → Nat}
    {Wf : (Tid → D) → P → Prop} {Relinks : Nat → (Tid → D) → P → Prop}
    (spec : LinkSpec sch links Wf Relinks) : PolicyInv sch (LinkInv links Wf) where
  ctl h := h.ctl
  step call h hvalid := (step_linked spec h call hvalid).1
  selects now suspend reset h :=
    (selectNext_inv spec (consumePriorities_inv spec h now).1 now suspend reset).2.2.1

theorem arincPolicyInv : PolicyInv schedArinc653 fun s => CtlInv s.ctl where
  ctl h := h
  step call h hvalid := h.step arincPicksRunnable call hvalid
  selects now suspend reset h := by
    have h' := (consumePriorities_view schedArinc653 now _).1.ctlInv h
    dsimp only
    unfold selectNext
    split
    · exact h'.idle_status
    · exact (arincPicksRunnable now _ _ h').2

theorem PolicyInv.run {sch : AcrnScheduler D P} {Inv : Pcpu D P → Prop} (hpol : PolicyInv sch Inv)
    {s : Pcpu D P} (h : Inv s) {calls : List (Env × Op)}
    (hrun : Run.Along (BeauOs.Sched.step sch) (fun s c => c.2.Valid s.ctl) s calls) :
    Inv (Run.exec (BeauOs.Sched.step sch) s calls) :=
  Run.inv_exec (fun _ c hs hc => hpol.step c hs hc) h hrun

/-- What follows from `PolicyInv` alone holds of every policy, from boot. -/
theorem PolicyInv.everyPolicy {Q : ∀ {D P : Type}, AcrnScheduler D P → Pcpu D P → Prop}
    (h : ∀ {D P : Type} {sch : AcrnScheduler D P} {Inv : Pcpu D P → Prop} {s : Pcpu D P},
      PolicyInv sch Inv → Inv s → (∀ vmId, (s.ctl.quiesceSlots vmId).obj = none) → Q sch s)
    (bvt : BootConfig BvtData) (cbs : BootConfig CbsData) (rtds : BootConfig RtdsData)
    (bfp : BootConfig BfpData) (arinc : BootConfig Unit) :
    Q schedBvt (bvt.boot BvtControl.init) ∧
    Q schedCbs (cbs.boot CbsControl.init) ∧
    (rtds.Fresh RtdsData.IsInit → Q schedRtds (rtds.boot RtdsControl.init)) ∧
    (bfp.Fresh BfpData.IsInit → Q schedBfp (bfp.boot BfpControl.init)) ∧
    ∀ p : ArincState, Q schedArinc653 ⟨(arinc.boot p.priv).ctl, p⟩ := by
  refine ⟨?_, ?_, fun hfresh => ?_, fun hfresh => ?_, fun p => ?_⟩
  · exact h bvtLinkSpec.policyInv (@bvt_reached [] bvt trivial).1 fun _ => rfl
  · exact h cbsLinkSpec.policyInv (@cbs_reached [] cbs trivial) fun _ => rfl
  · exact h rtdsTagSpec.linkSpec.policyInv (@rtds_reached [] rtds hfresh trivial) fun _ => rfl
  · exact h bfpTagSpec.linkSpec.policyInv (@bfp_reached [] bfp hfresh trivial) fun _ => rfl
  · exact h arincPolicyInv (arinc.ctlInv_boot p.priv) fun _ => rfl

/-! ### Sleepers -/

def SchedControl.Asleep (ctl : SchedControl) (t : Tid) : Prop :=
  (ctl.thread t).status = .blocked ∨ (ctl.thread t).beBlocking = true

theorem SameView.asleep {ctl' : SchedControl} (h : SameView ctl ctl') :
    ctl'.Asleep t ↔ ctl.Asleep t := by
  unfold SchedControl.Asleep
  rw [h.status, h.beBlocking]

theorem CtlInv.blocked_of_asleep (h : CtlInv ctl) (hlocal : ctl.Local t) (hsleep : ctl.Asleep t)
    (hne : t ≠ ctl.currObj) :
    (ctl.thread t).status = .blocked ∧ (ctl.thread t).beBlocking = false := by
  have hnb : (ctl.thread t).beBlocking = false := by
    rw [Bool.eq_false_iff]
    exact fun hb => hne (h.blocking t hlocal hb)
  refine ⟨hsleep.resolve_right ?_, hnb⟩
  rw [hnb]
  exact Bool.false_ne_true

theorem sleepThreadLocked_asleep (env : Env) (t : Tid) (s : Pcpu D P) :
    (sleepThreadLocked sch env t s).1.ctl.Asleep t := by
  unfold sleepThreadLocked
  dsimp only
  split
  · exact .inr (by rw [SchedControl.updThread_self])
  · exact .inl (by rw [SchedControl.updThread_self])

section Asleep

variable {ctl : SchedControl} {now : Nat} {next t : Tid}

/-- A context switch blocks the outgoing thread if it was about to, and wakes nobody. -/
theorem CtlInv.switchTo_asleep (h : CtlInv ctl) (hlocal : ctl.Local t) (hsleep : ctl.Asleep t)
    (hnext : (ctl.thread next).status ≠ .blocked) :
    (BeauOs.Sched.switchTo ctl now next).Asleep t ∧ (t ≠ ctl.currObj → t ≠ next) := by
  have hne : t ≠ ctl.currObj → t ≠ next := by
    rintro hcur rfl
    exact hnext (h.blocked_of_asleep hlocal hsleep hcur).1
  refine ⟨?_, hne⟩
  by_cases heq : ctl.currObj = next
  · rw [switchTo_curr heq]
    exact hsleep
  by_cases hcur : t = ctl.currObj
  · -- the outgoing thread runs, so it can only be about to block
    have hb : (ctl.thread ctl.currObj).beBlocking = true := by
      rw [hcur] at hsleep
      rcases hsleep with hst | hb
      · rw [h.curr_running] at hst
        cases hst
      · exact hb
    refine .inl ?_
    rw [hcur, switchTo_prev heq]
    simp [hb]
  · unfold SchedControl.Asleep
    rw [switchTo_other hcur (hne hcur)]
    exact hsleep

variable {sch : AcrnScheduler D P} {Inv : Pcpu D P → Prop} {s : Pcpu D P}

theorem PolicyInv.schedule_asleep (hpol : PolicyInv sch Inv) (h : Inv s) (hlocal : s.ctl.Local t)
    (hsleep : s.ctl.Asleep t) (suspend reset : Bool) :
    (schedule sch now suspend reset s).ctl.Asleep t ∧
      (t ≠ s.ctl.currObj → t ≠ (schedule sch now suspend reset s).ctl.currObj) := by
  have hview := (consumePriorities_view sch now s).1
  have hsel := hpol.selects now suspend reset h
  have hclear : SameView (consumePriorities sch now s).ctl
      { (consumePriorities sch now s).ctl with needReschedule := false } :=
    SameView.of_eq rfl rfl rfl rfl rfl
  have hall := hview.trans hclear
  obtain ⟨hasleep, hne⟩ := @CtlInv.switchTo_asleep _ now _ _ (hall.ctlInv (hpol.ctl h))
    (hall.local_iff.mpr hlocal) (hall.asleep.mpr hsleep) hsel
  unfold schedule
  dsimp only
  refine ⟨hasleep, fun hcur => ?_⟩
  rw [switchTo_currObj]
  refine hne ?_
  rw [hall.currObj]
  exact hcur

/--
**Sleepers stay asleep**, and off the pCPU once they left it, unless a wake of this very
thread does more than change flags.
-/
theorem PolicyInv.step_asleep (hpol : PolicyInv sch Inv) (h : Inv s) {call : Env × Op}
    (hvalid : call.2.Valid s.ctl) (hlocal : s.ctl.Local t) (hsleep : s.ctl.Asleep t)
    (hwake : call.2.wakee = some t → SameView s.ctl (BeauOs.Sched.step sch s call).ctl) :
    (BeauOs.Sched.step sch s call).ctl.Asleep t ∧
      (t ≠ s.ctl.currObj → t ≠ (BeauOs.Sched.step sch s call).ctl.currObj) := by
  have hsame : ∀ {ctl}, SameView s.ctl ctl →
      ctl.Asleep t ∧ (t ≠ s.ctl.currObj → t ≠ ctl.currObj) := by
    intro ctl hview
    refine ⟨hview.asleep.mpr hsleep, ?_⟩
    rw [hview.currObj]
    exact id
  by_cases hcall : call.2.wakee = some t
  · exact hsame (hwake hcall)
  have hkind := step_kind sch s call hvalid
  generalize BeauOs.Sched.step sch s call = s' at hkind ⊢
  have hinv := hpol.ctl h
  cases hkind with
  | view hview => exact hsame hview
  | @sleep env _ ctl u hview hu =>
    rw [(sleepThreadLocked_curr sch env u ⟨ctl, s.pol⟩).1]
    refine ⟨?_, (hsame hview).2⟩
    by_cases htu : t = u
    · rw [htu]
      exact sleepThreadLocked_asleep sch env u ⟨ctl, s.pol⟩
    obtain ⟨-, -, -, -, -, hother⟩ := sleepThreadLocked_ctl (s := ⟨ctl, s.pol⟩) sch env
      (hview.ctlInv hinv) (hu.sameView hview)
    unfold SchedControl.Asleep
    rw [(hother t htu).2]
    exact (hsame hview).1
  | @wake env _ ctl u hview hu hwakes hop =>
    have htu : t ≠ u := fun e => hcall (hop.trans (congrArg some e.symm))
    rw [(wakeThreadLocked_curr sch env u ⟨ctl, s.pol⟩).1]
    refine ⟨?_, (hsame hview).2⟩
    obtain ⟨-, -, -, -, hother⟩ := wakeThreadLocked_ctl (s := ⟨ctl, s.pol⟩) sch env
      (hview.ctlInv hinv) (hu.sameView hview) hwakes
    unfold SchedControl.Asleep
    rw [(hother t htu).2]
    exact (hsame hview).1
  | timer => exact hsame (timerCallback_cases sch _ s).1
  | @schedule _ suspend reset => exact hpol.schedule_asleep h hlocal hsleep suspend reset

end Asleep

end BeauOs.Sched

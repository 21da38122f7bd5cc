/-
What the queues of a policy hold, in every reachable state.

CBS, RTDS and BFP can lose a thread; BVT keeps the running thread queued and loses none.
-/
import BeauOs.Proofs.Sched.DropRequest

namespace BeauOs.Sched

variable {D P : Type}

/-- One thread runs, and each thread is queued at most once and only while it may run. -/
def OnlyActiveQueued (links : P → Tid → Nat) (s : Pcpu D P) : Prop :=
  ∀ t, s.ctl.Local t → ((s.ctl.thread t).status = .running ↔ t = s.ctl.currObj) ∧
    links s.pol.priv t ≤ 1 ∧ (links s.pol.priv t ≠ 0 → s.ctl.isActive t = true)

theorem LinkInv.onlyActiveQueued {sch : AcrnScheduler D P} {links : P → Tid → Nat}
    {Wf : (Tid → D) → P → Prop} {Relinks : Nat → (Tid → D) → P → Prop} {s : Pcpu D P}
    (h : LinkInv links Wf s) (spec : LinkSpec sch links Wf Relinks) : OnlyActiveQueued links s :=
  fun t hlocal => ⟨h.ctl.running t hlocal, spec.le_one h.wf t, fun hl => (h.linked t hl).1⟩

/-- **No queue holds a thread twice or one that sleeps**, whatever the framework is asked for. -/
theorem queues_hold_active (cbs : BootConfig CbsData) (rtds : BootConfig RtdsData)
    (bfp : BootConfig BfpData) (calls : List (Env × Op)) :
    (Admitted schedCbs cbs CbsControl.init calls →
      OnlyActiveQueued cbsLinks (reached schedCbs cbs CbsControl.init calls)) ∧
    (rtds.Fresh RtdsData.IsInit → Admitted schedRtds rtds RtdsControl.init calls →
      OnlyActiveQueued rtdsView.links (reached schedRtds rtds RtdsControl.init calls)) ∧
    (bfp.Fresh BfpData.IsInit → Admitted schedBfp bfp BfpControl.init calls →
      OnlyActiveQueued bfpView.links (reached schedBfp bfp BfpControl.init calls)) :=
  ⟨fun hrun => (cbs_reached hrun).onlyActiveQueued cbsLinkSpec,
    fun hfresh hrun => (rtds_reached hfresh hrun).onlyActiveQueued rtdsTagSpec.linkSpec,
    fun hfresh hrun => (bfp_reached hfresh hrun).onlyActiveQueued bfpTagSpec.linkSpec⟩

theorem queues_hold_active_reset :
    OnlyActiveQueued cbsLinks
      (reached schedCbs (.single (CbsData.init halfOfTen 0)) CbsControl.init resetWhileRunning) ∧
    OnlyActiveQueued rtdsView.links
      (reached schedRtds (.single (RtdsData.init halfOfTen 0)) RtdsControl.init resetWhileRunning) ∧
    OnlyActiveQueued bfpView.links
      (reached schedBfp (.single (BfpData.init halfOfTen 1 0)) BfpControl.init resetWhileRunning) := by
  obtain ⟨hcbs, hrtds, hbfp⟩ := queues_hold_active (.single (CbsData.init halfOfTen 0))
    (.single (RtdsData.init halfOfTen 0)) (.single (BfpData.init halfOfTen 1 0)) resetWhileRunning
  exact ⟨hcbs (by decide), hrtds (BootConfig.single_fresh ⟨_, _, rfl⟩) (by decide),
    hbfp (BootConfig.single_fresh ⟨_, _, _, rfl⟩) (by decide)⟩

/-- **BVT queues exactly the threads that may run**, each of them once. -/
theorem bvt_queue_active (cfg : BootConfig BvtData) (calls : List (Env × Op))
    (hrun : Admitted schedBvt cfg BvtControl.init calls) (t : Tid)
    (hlocal : (reached schedBvt cfg BvtControl.init calls).ctl.Local t) :
    bvtLinks (reached schedBvt cfg BvtControl.init calls).pol.priv t =
      if (reached schedBvt cfg BvtControl.init calls).ctl.isActive t then 1 else 0 := by
  obtain ⟨h, hal⟩ := bvt_reached hrun
  have hle := bvtLinkSpec.le_one h.wf t
  split
  next hact =>
    have := hal t hlocal hact
    omega
  next hact =>
    by_contra hne
    exact hact (h.linked t hne).1

/-- The reset that loses the running thread under the other policies. -/
theorem bvt_queue_active_reset :
    bvtLinks (reached schedBvt (.single plainBvt) BvtControl.init resetWhileRunning).pol.priv 1 = 1 :=
  bvt_queue_active (.single plainBvt) resetWhileRunning (by decide) 1 (by decide)

end BeauOs.Sched

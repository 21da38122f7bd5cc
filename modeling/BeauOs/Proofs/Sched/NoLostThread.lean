/-
No runnable thread is lost under CBS, RTDS or BFP.

The invariants of `Linkage` hold at boot, so they hold in every state a pCPU reaches.  What
is left is to say when the second of them survives: `KeepsLinked` along the run.  It fails
in two ways, and in both the code really loses a thread.  Management work takes the CPU
from a running thread without telling the policy, which never links it again; and under BFP
a depleted server whose next replenishment lies past the last tick is dropped by the walk
that should replenish it.
-/
import BeauOs.Proofs.Sched.CbsLinkage
import BeauOs.Proofs.Sched.RtdsLinkage
import BeauOs.Proofs.Sched.BfpLinkage

namespace BeauOs.Sched

variable {D P : Type}

/-! ### Boot -/

namespace BootConfig

/-- Every thread starts with data its policy's `init_data` can leave. -/
def Fresh (isInit : D → Prop) (cfg : BootConfig D) : Prop :=
  ∀ c ∈ cfg.idle :: cfg.threads, isInit c.data

theorem boot_data {isInit : D → Prop} {cfg : BootConfig D} (h : cfg.Fresh isInit) (priv : P)
    (t : Tid) : isInit ((cfg.boot priv).pol.data t) := by
  show isInit ((cfg.find t).getD cfg.idle).data
  cases hfind : cfg.find t with
  | none => exact h _ List.mem_cons_self
  | some c => exact h _ (List.mem_cons_of_mem _ (List.mem_of_find?_eq_some hfind))

/-- A thread other than idle starts blocked, or is not bound to this pCPU. -/
theorem thread_of_ne (cfg : BootConfig D) {t : Tid} (ht : t ≠ cfg.idle.tid)
    (hlocal : (cfg.thread t).pcpuId = cfg.pcpuId) :
    (cfg.thread t).status = .blocked ∧ (cfg.thread t).beBlocking = false := by
  unfold thread at hlocal ⊢
  rw [if_neg ht] at hlocal ⊢
  cases hfind : cfg.find t with
  | none =>
    rw [hfind] at hlocal
    exact absurd hlocal (Nat.succ_ne_self _)
  | some c => exact ⟨rfl, rfl⟩

theorem thread_idle (cfg : BootConfig D) :
    (cfg.thread cfg.idle.tid).pcpuId = cfg.pcpuId ∧
      (cfg.thread cfg.idle.tid).status = .running ∧
      (cfg.thread cfg.idle.tid).beBlocking = false ∧
      (cfg.thread cfg.idle.tid).priorityPending = false := by
  unfold thread
  rw [if_pos rfl]
  exact ⟨cfg.idle_pcpu, rfl, rfl, rfl⟩

theorem ctlInv_boot (cfg : BootConfig D) (priv : P) : CtlInv (cfg.boot priv).ctl := by
  obtain ⟨hpcpu, hst, hbb, hprio⟩ := cfg.thread_idle
  refine ⟨hpcpu, hpcpu, fun t hlocal => ?_, fun t hlocal hb => ?_, hbb, ?_, hprio,
    fun t hlocal hne => ?_, cfg.registry_perm.nodup_iff.mpr cfg.tids_nodup⟩
  · refine ⟨fun hrun => ?_, ?_⟩
    · by_contra ht
      rw [show ((cfg.boot priv).ctl.thread t).status = .blocked from
        (cfg.thread_of_ne ht hlocal).1] at hrun
      cases hrun
    · rintro rfl
      exact hst
  · by_contra ht
    rw [show ((cfg.boot priv).ctl.thread t).beBlocking = false from
      (cfg.thread_of_ne ht hlocal).2] at hb
    cases hb
  · rw [show ((cfg.boot priv).ctl.thread (cfg.boot priv).ctl.idle).status = .running from hst]
    nofun
  · by_cases ht : t = cfg.idle.tid
    · exact cfg.registry_perm.mem_iff.mpr (ht ▸ List.mem_cons_self)
    · exact absurd (cfg.thread_of_ne ht hlocal).1 hne

variable {links : P → Tid → Nat} {Wf : (Tid → D) → P → Prop}

/-- With empty queues both invariants hold at boot. -/
theorem linkInv_boot (cfg : BootConfig D) {priv : P} (hwf : Wf (cfg.boot priv).pol.data priv)
    (hempty : ∀ t, links priv t = 0) :
    LinkInv links Wf (cfg.boot priv) ∧ RunnableLinked links (cfg.boot priv) := by
  refine ⟨⟨cfg.ctlInv_boot priv, hwf, fun t ht => absurd (hempty t) ht⟩, ?_⟩
  intro t hlocal hidle hst
  rw [show ((cfg.boot priv).ctl.thread t).status = .blocked from
    (cfg.thread_of_ne hidle hlocal).1] at hst
  cases hst

end BootConfig

/-- Data as `sched_rtds_init_data` leaves them. -/
def RtdsData.IsInit (d : RtdsData) : Prop := ∃ res now, d = RtdsData.init res now

/-- Data as `sched_bfp_init_data` leaves them. -/
def BfpData.IsInit (d : BfpData) : Prop := ∃ res priority now, d = BfpData.init res priority now

/-! ### One or two threads and idle -/

def BootConfig.single (data : D) : BootConfig D where
  pcpuId := 0
  tickrate := 1000
  idle := ⟨0, 0, false, 0, 0, data, 0⟩
  threads := [⟨1, 0, true, 0, 0, data, 0⟩]
  registry := [0, 1]
  idle_pcpu := rfl
  tids_nodup := by simp
  registry_perm := List.Perm.refl _

def BootConfig.pair (data : D) : BootConfig D where
  pcpuId := 0
  tickrate := 1000
  idle := ⟨0, 0, false, 0, 0, data, 0⟩
  threads := [⟨1, 0, true, 0, 0, data, 0⟩, ⟨2, 0, true, 0, 1, data, 0⟩]
  registry := [0, 1, 2]
  idle_pcpu := rfl
  tids_nodup := show (List.range 3).Nodup from List.nodup_range
  registry_perm := List.Perm.refl _

def halfOfTen : Reservation := ⟨10, 5, by decide, by decide⟩

theorem BootConfig.single_fresh {isInit : D → Prop} {data : D} (h : isInit data) :
    (BootConfig.single data).Fresh isInit := by
  intro c hc
  simp only [single, List.mem_cons, List.not_mem_nil, or_false] at hc
  rcases hc with rfl | rfl <;> exact h

/-! ### Runs -/

/-- RUNNABLE threads are linked once, BLOCKED threads not at all. -/
def LinkedAsScheduled (links : P → Tid → Nat) (s : Pcpu D P) : Prop :=
  ∀ t, s.ctl.Local t →
    (t ≠ s.ctl.idle → (s.ctl.thread t).status = .runnable → links s.pol.priv t = 1) ∧
    ((s.ctl.thread t).status = .blocked → links s.pol.priv t = 0)

theorem LinkInv.linkedAsScheduled {sch : AcrnScheduler D P} {links : P → Tid → Nat}
    {Wf : (Tid → D) → P → Prop} {Relinks : Nat → (Tid → D) → P → Prop} {s : Pcpu D P}
    (spec : LinkSpec sch links Wf Relinks) (h : LinkInv links Wf s)
    (hrl : RunnableLinked links s) : LinkedAsScheduled links s := by
  intro t hlocal
  have hle : links s.pol.priv t ≤ 1 := spec.le_one h.wf t
  refine ⟨fun hidle hst => ?_, fun hst => ?_⟩
  · have hne := hrl t hlocal hidle hst
    omega
  · by_contra hne
    have hact := (h.linked t hne).1
    rw [h.ctl.not_active_of_blocked hlocal hst] at hact
    cases hact

instance KeepsLinked.decidable (links : P → Tid → Nat) (Relinks : Nat → (Tid → D) → P → Prop)
    [∀ now data priv, Decidable (Relinks now data priv)] (s : Pcpu D P) :
    ∀ call, Decidable (KeepsLinked links Relinks s call)
  | (env, .timer) => inferInstanceAs (Decidable (Relinks env.now _ _))
  | (env, .schedule suspend reset) =>
    inferInstanceAs (Decidable (if schedIdleWorkPending s.ctl suspend reset = true then
      _ ∨ _ ∨ _ ≠ 0 else Relinks env.now _ _))
  | (_, .wake _) | (_, .sleep _) | (_, .requestPriority _) | (_, .freeze _ _) | (_, .thaw _ _ _)
  | (_, .requestQuiesce _ _) | (_, .ackQuiesce) | (_, .releaseQuiesce _) => isTrue trivial

/-- Every call of the run is admitted by the framework and leaves no thread unlinked. -/
def NoThreadDropped (sch : AcrnScheduler D P) (links : P → Tid → Nat)
    (Relinks : Nat → (Tid → D) → P → Prop) (s : Pcpu D P) (calls : List (Env × Op)) : Prop :=
  Run.Along (step sch) (fun s c => c.2.Valid s.ctl ∧ KeepsLinked links Relinks s c) s calls

instance (sch : AcrnScheduler D P) (links : P → Tid → Nat)
    (Relinks : Nat → (Tid → D) → P → Prop) [∀ now data priv, Decidable (Relinks now data priv)]
    (s : Pcpu D P) (calls : List (Env × Op)) :
    Decidable (NoThreadDropped sch links Relinks s calls) :=
  inferInstanceAs (Decidable (Run.Along _ _ s calls))

theorem linkedAsScheduled_run {sch : AcrnScheduler D P} {links : P → Tid → Nat}
    {Wf : (Tid → D) → P → Prop} {Relinks : Nat → (Tid → D) → P → Prop}
    (spec : LinkSpec sch links Wf Relinks) {cfg : BootConfig D} {priv : P}
    (hwf : Wf (cfg.boot priv).pol.data priv) (hempty : ∀ t, links priv t = 0)
    {calls : List (Env × Op)} (hrun : NoThreadDropped sch links Relinks (cfg.boot priv) calls) :
    LinkedAsScheduled links (Run.exec (step sch) (cfg.boot priv) calls) := by
  obtain ⟨hinv, hrl⟩ := cfg.linkInv_boot hwf hempty
  obtain ⟨hinv', hrl'⟩ :=
    Run.inv_exec (fun s c (hs : LinkInv links Wf s ∧ RunnableLinked links s) hc =>
      ⟨(step_linked spec hs.1 c hc.1).1, (step_linked spec hs.1 c hc.1).2 hs.2 hc.2⟩)
      ⟨hinv, hrl⟩ hrun
  exact hinv'.linkedAsScheduled spec hrl'

/--
**No runnable thread is lost**, under each of the three policies, from boot and along every
run whose steps all meet `KeepsLinked`: idle work interrupts a running thread only if that
thread is linked or about to block, and BFP replenishments do not run past the last tick.
-/
theorem no_lost_runnable_thread (cbs : BootConfig CbsData) (rtds : BootConfig RtdsData)
    (bfp : BootConfig BfpData) (calls : List (Env × Op)) :
    (NoThreadDropped schedCbs cbsLinks (fun _ _ _ => True) (cbs.boot CbsControl.init) calls →
      LinkedAsScheduled cbsLinks (Run.exec (step schedCbs) (cbs.boot CbsControl.init) calls)) ∧
    (rtds.Fresh RtdsData.IsInit →
      NoThreadDropped schedRtds rtdsView.links (fun _ _ _ => True) (rtds.boot RtdsControl.init)
        calls →
      LinkedAsScheduled rtdsView.links
        (Run.exec (step schedRtds) (rtds.boot RtdsControl.init) calls)) ∧
    (bfp.Fresh BfpData.IsInit →
      NoThreadDropped schedBfp bfpView.links BfpReplenishable (bfp.boot BfpControl.init) calls →
      LinkedAsScheduled bfpView.links
        (Run.exec (step schedBfp) (bfp.boot BfpControl.init) calls)) := by
  refine ⟨fun hrun => ?_, fun hfresh hrun => ?_, fun hfresh hrun => ?_⟩
  · refine linkedAsScheduled_run cbsLinkSpec ?_ (fun _ => rfl) hrun
    exact List.nodup_nil
  · refine linkedAsScheduled_run rtdsTagSpec.linkSpec ?_ (fun _ => rfl) hrun
    refine TagWf.empty fun t => ?_
    obtain ⟨res, now, hd⟩ := rtds.boot_data hfresh RtdsControl.init t
    rw [hd]
    rfl
  · refine linkedAsScheduled_run bfpTagSpec.linkSpec ?_ (fun _ => rfl) hrun
    refine TagWf.empty fun t => ?_
    obtain ⟨res, priority, now, hd⟩ := bfp.boot_data hfresh BfpControl.init t
    rw [hd]
    rfl

/-- A run with every kind of call, in which idle work meets the thread about to block. -/
def everyOp : List (Env × Op) :=
  [(⟨1, true⟩, .wake 1), (⟨2, true⟩, .schedule false false), (⟨3, true⟩, .requestPriority 1),
    (⟨4, true⟩, .timer), (⟨4, true⟩, .schedule false false), (⟨5, false⟩, .freeze 1 7),
    (⟨6, true⟩, .schedule true true), (⟨7, false⟩, .thaw 1 7 true), (⟨8, true⟩, .sleep 1),
    (⟨9, false⟩, .requestQuiesce 1 3), (⟨10, true⟩, .schedule false false),
    (⟨11, true⟩, .ackQuiesce), (⟨12, false⟩, .releaseQuiesce 1), (⟨13, false⟩, .wake 1)]

theorem no_lost_runnable_thread_everyOp :
    LinkedAsScheduled cbsLinks (Run.exec (step schedCbs)
      ((BootConfig.single (CbsData.init halfOfTen 0)).boot CbsControl.init) everyOp) ∧
    LinkedAsScheduled rtdsView.links (Run.exec (step schedRtds)
      ((BootConfig.single (RtdsData.init halfOfTen 0)).boot RtdsControl.init) everyOp) ∧
    LinkedAsScheduled bfpView.links (Run.exec (step schedBfp)
      ((BootConfig.single (BfpData.init halfOfTen 1 0)).boot BfpControl.init) everyOp) := by
  obtain ⟨hcbs, hrtds, hbfp⟩ := no_lost_runnable_thread
    (BootConfig.single (CbsData.init halfOfTen 0)) (BootConfig.single (RtdsData.init halfOfTen 0))
    (BootConfig.single (BfpData.init halfOfTen 1 0)) everyOp
  exact ⟨hcbs (by decide), hrtds (BootConfig.single_fresh ⟨_, _, rfl⟩) (by decide),
    hbfp (BootConfig.single_fresh ⟨_, _, _, rfl⟩) (by decide)⟩

/-- A vCPU runs when a VM reset is pending. -/
def resetWhileRunning : List (Env × Op) :=
  [(⟨1, true⟩, .wake 1), (⟨2, true⟩, .schedule false false), (⟨3, true⟩, .schedule false true)]

/-- A BFP server is depleted in its last period but one. -/
def depletedAtTheEnd : List (Env × Op) :=
  [(⟨2 ^ 64 - 15, true⟩, .wake 1), (⟨2 ^ 64 - 14, true⟩, .schedule false false),
    (⟨2 ^ 64 - 8, true⟩, .schedule false false), (⟨2 ^ 64 - 5, true⟩, .timer)]

/--
Without the condition a thread is lost: after a reset under any of the three policies, and
under BFP also when the clock nears its end.
-/
theorem reset_loses_running_thread :
    ¬LinkedAsScheduled cbsLinks (Run.exec (step schedCbs)
      ((BootConfig.single (CbsData.init halfOfTen 0)).boot CbsControl.init) resetWhileRunning) ∧
    ¬LinkedAsScheduled rtdsView.links (Run.exec (step schedRtds)
      ((BootConfig.single (RtdsData.init halfOfTen 0)).boot RtdsControl.init)
      resetWhileRunning) ∧
    ¬LinkedAsScheduled bfpView.links (Run.exec (step schedBfp)
      ((BootConfig.single (BfpData.init halfOfTen 1 0)).boot BfpControl.init)
      resetWhileRunning) ∧
    ¬LinkedAsScheduled bfpView.links (Run.exec (step schedBfp)
      ((BootConfig.single (BfpData.init halfOfTen 1 (2 ^ 64 - 15))).boot BfpControl.init)
      depletedAtTheEnd) := by
  refine ⟨fun h => ?_, fun h => ?_, fun h => ?_, fun h => ?_⟩
  all_goals
    have hlinked := (h 1 (by decide +kernel)).1 (by decide +kernel) (by decide +kernel)
    revert hlinked
    decide +kernel

end BeauOs.Sched

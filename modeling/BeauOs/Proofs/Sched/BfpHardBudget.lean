/-
The hard budget of BFP, along every run.

The invariant of a run is that every server is `Settled` with its ledger, and that the thread
that runs was started in the period its server is in: then the time it is charged for begins in
that period.  `schedule()` establishes the latter, since it selects from a ready queue that was
just refreshed, and the timer keeps it, since a charge ends in the period it finds.

All of this needs room for one more period before the end of the 64-bit clock: a replenishment
past the last tick is never made, but the walk over the ready queue leaves such a server where
it is, with no budget, and it is selected.
-/
import BeauOs.Proofs.Sched.BfpBudget
import BeauOs.Proofs.Sched.NoLostThread

namespace BeauOs.Sched

open BfpData

/-! ### The thread that runs -/

theorem BfpData.account_lastStart (d : BfpData) (now : Nat) :
    (d.account now).lastStartTicks = now := by
  unfold account chargeCrossed chargeCurrentPeriod
  dsimp only
  split_ifs <;> rfl

section Started

variable {ctl : SchedControl} {now horizon : Nat} {p : BfpState}

theorem bfpRefreshQueues_ready (h : bfpView.Wf p) (ctl : SchedControl) (now : Nat) :
    ∀ t, ((bfpRefreshQueues ctl now p).data t).queue = .ready →
      ((bfpRefreshQueues ctl now p).data t).periodEnded now = false := by
  have hfold : ∀ (l : List Tid) (q : BfpState) (u : Tid),
      (u ∈ l ∨ (q.data u).periodEnded now = false) →
      ((l.foldl (fun p t => p.updData t (·.advanceInactivePeriod now)) q).data u).periodEnded now =
        false := by
    intro l
    induction l with
    | nil => exact fun _ _ hu => hu.resolve_left List.not_mem_nil
    | cons t l ih =>
      intro q u hu
      refine ih _ u ?_
      by_cases hut : u = t
      · rw [hut, PolicyState.updData_self]
        exact .inr (advance_not_ended _ now)
      · rw [PolicyState.updData_of_ne _ _ hut]
        exact hu.imp_left fun hmem => (List.mem_cons.mp hmem).resolve_left hut
  have hready : ∀ t, ((bfpAdvanceReady now p).data t).queue = .ready →
      ((bfpAdvanceReady now p).data t).periodEnded now = false := by
    intro t ht
    have htag : bfpView.tag p t = .ready := ((BfpState.advanceReady h now).2.1 t).symm.trans ht
    exact hfold _ p t (.inl ((h.ready.mem_iff t).mpr htag))
  unfold bfpRefreshQueues
  dsimp only
  refine Queue.forEachSafe_keeps (fun t (q : BfpState)
    (hq : ∀ t, (q.data t).queue = .ready → (q.data t).periodEnded now = false) => ?_) _ _ _ hready
  -- the walk links a server only after it was advanced
  unfold bfpRefreshDepleted
  split
  swap
  · exact hq
  have hadv := advance_not_ended (q.data t) now
  have hrem : ∀ u, ((bfpQueueRemove t (q.updData t (·.advanceInactivePeriod now))).data u).queue =
      .ready → ((bfpQueueRemove t (q.updData t (·.advanceInactivePeriod now))).data u).periodEnded
        now = false := by
    intro u
    by_cases hut : u = t
    · rw [hut, (BfpState.relinks_queueRemove t _).self]
      nofun
    · rw [(BfpState.relinks_queueRemove t _).other u hut, PolicyState.updData_of_ne _ _ hut]
      exact hq u
  dsimp only
  split
  swap
  · exact hrem
  have hre := BfpState.relinks_readyInsert t false
    (bfpQueueRemove t (q.updData t (·.advanceInactivePeriod now)))
  intro u hu
  by_cases hut : u = t
  · rw [hut, hre.self, (BfpState.relinks_queueRemove t _).self, PolicyState.updData_self]
    exact hadv
  · rw [hre.other u hut] at hu ⊢
    exact hrem u hu

theorem bfpRefreshAll_ready (h : bfpView.Wf p) (ctl : SchedControl) (now : Nat) :
    ∀ t, ((bfpRefreshAll ctl now p).data t).queue = .ready →
      ((bfpRefreshAll ctl now p).data t).periodEnded now = false := by
  unfold bfpRefreshAll
  dsimp only
  split
  · exact bfpRefreshQueues_ready h ctl now
  · have hwf := (BfpState.accountRuntime h ctl now ctl.currObj).1
    exact bfpRefreshQueues_ready (BfpState.refreshThread hwf ctl now ctl.currObj true).1 ctl now

theorem schedBfpPickNext_picked (hlink : LinkInv bfpView.links bfpView.QueueWf ⟨ctl, p⟩)
    (htimed : BfpTimed horizon ctl.runs p) (hnow : now ≤ horizon) :
    BfpPicked horizon now ctl (schedBfpPickNext now ctl p).1 (schedBfpPickNext now ctl p).2 := by
  have hact : ∀ u, bfpView.links p.priv u ≠ 0 → ctl.isActive u = true :=
    fun u hu => (hlink.linked u hu).1
  have hfit := TagView.linkedFit (p := p) hlink.wf hact hlink.activeNotBlocking
  have hcurr : TagView.CurrFit ctl := hlink.activeNotBlocking _ (.inr rfl)
  obtain ⟨hwf, -, -⟩ := BfpState.refreshAll hlink.wf hfit hcurr now
  obtain ⟨htimed', hstarted⟩ := bfpTakeFirst_picked ctl (bfpRefreshAll_timed htimed hlink.wf hnow) hwf
    (bfpRefreshAll_ready hlink.wf ctl now)
  unfold schedBfpPickNext
  dsimp only
  generalize bfpTakeFirst ctl now (bfpRefreshAll ctl now p) = sel at htimed' hstarted
  -- the timer is programmed, and the servers stay as they are
  have hdata := (BfpState.programLocalTimer_eq ctl now sel.1 sel.2).1
  refine ⟨fun u => hdata ▸ htimed' u, ?_⟩
  rw [hdata]
  exact hstarted

/-- **`schedule()`.**  Whoever runs afterwards was started by it, with budget left. -/
theorem bfp_schedule_started {s : Pcpu BfpData BfpControl}
    (hlink : LinkInv bfpView.links bfpView.QueueWf s) (htimed : BfpTimed horizon s.ctl.runs s.pol)
    (hnow : now ≤ horizon) (suspend reset : Bool) :
    let s' := schedule schedBfp now suspend reset s
    BfpTimed horizon s'.ctl.runs s'.pol ∧ ∀ r ∈ s'.ctl.runs, (s'.pol.data r).remainingTicks ≠ 0 ∧
      (s'.pol.data r).lastStartTicks = now ∧ (s'.pol.data r).periodEnded now = false := by
  obtain ⟨hview, -⟩ := consumePriorities_view schedBfp now s
  have hpol := @consumePriorities_pol _ _ schedBfp rfl now s
  have hlink' := hlink.sameView hview
  have htimed' : BfpTimed horizon (consumePriorities schedBfp now s).ctl.runs s.pol := by
    rw [hview.runs]
    exact htimed
  dsimp only
  unfold schedule
  dsimp only
  have hruns := fun next => switchTo_runs
    { (consumePriorities schedBfp now s).ctl with needReschedule := false } now next
  unfold selectNext
  rw [hpol]
  generalize (consumePriorities schedBfp now s).ctl = ctl at hlink' htimed' hruns ⊢
  rw [hruns]
  split
  · -- management work: idle runs
    rw [if_pos rfl]
    exact ⟨htimed'.idle, nofun⟩
  obtain ⟨htimed, hstarted⟩ := schedBfpPickNext_picked hlink' htimed' hnow
  refine ⟨htimed, fun r hr => ?_⟩
  split at hr
  · cases hr
  · rename_i hne
    obtain rfl := Option.some.inj hr
    exact hstarted hne

end Started

/-! ### Runs -/

/-- What holds along a run whose clock stays within `horizon`. -/
structure BfpLedgerInv (horizon : Nat) (x : BfpHistory) : Prop where
  link : LinkInv bfpView.links bfpView.QueueWf x.pcpu
  timed : BfpTimed horizon x.pcpu.ctl.runs x.pcpu.pol
  settled : ∀ t, ∃ n, (x.pcpu.pol.data t).Settled (x.ledger t) x.clock n
  /-- the thread that runs was started in its period -/
  started : ∀ r ∈ x.pcpu.ctl.runs, (x.pcpu.pol.data r).lastStartTicks ≠ 0 →
    (x.pcpu.pol.data r).lastStartTicks < (x.pcpu.pol.data r).nextReplenishTicks ∧
      (x.pcpu.pol.data r).nextReplenishTicks ≤
        (x.pcpu.pol.data r).lastStartTicks + (x.pcpu.pol.data r).periodTicks

/-- Calls the framework admits, at times that do not run backwards or past `horizon`. -/
def BfpInTime (horizon : Nat) (x : BfpHistory) (call : Env × Op) : Prop :=
  x.clock ≤ call.1.now ∧ call.1.now ≤ horizon ∧ call.2.Valid x.pcpu.ctl

instance (horizon : Nat) (x : BfpHistory) (call : Env × Op) :
    Decidable (BfpInTime horizon x call) :=
  inferInstanceAs (Decidable (_ ≤ _ ∧ _ ≤ _ ∧ call.2.Valid x.pcpu.ctl))

/-- How the start time of the thread that runs came about. -/
def StartKept (now : Nat) (runs : Option Tid) (r : Tid) (d d' : BfpData) : Prop :=
  d'.lastStartTicks = 0 ∨ (d'.lastStartTicks = now ∧ d'.periodEnded now = false) ∨
    (r ∈ runs ∧ d'.lastStartTicks = d.lastStartTicks ∧ d.SameBudget d')

section Step

variable {horizon : Nat} {x : BfpHistory} {call : Env × Op}

theorem BfpLedgerInv.room (h : BfpLedgerInv horizon x) (hok : BfpInTime horizon x call) (t : Tid) :
    call.1.now + (x.pcpu.pol.data t).periodTicks ≤ uint64Max := by
  have hroom := (h.timed t).room
  have hle := hok.2.1
  omega

/-- The timer charges the thread that runs, or finds that it has not run yet. -/
theorem BfpLedgerInv.timer_started (h : BfpLedgerInv horizon x) {now : Nat} {r : Tid}
    (hr : r ∈ x.pcpu.ctl.runs) :
    StartKept now x.pcpu.ctl.runs r (x.pcpu.pol.data r)
      ((timerCallback schedBfp now x.pcpu).pol.data r) := by
  obtain ⟨hidle, hcur⟩ := SchedControl.mem_runs.mp hr
  have htick : SameView x.pcpu.ctl x.pcpu.ctl.schedAccountTick := SameView.of_eq rfl rfl rfl rfl rfl
  rw [timerCallback_pol, PolicyState.spent_data]
  split
  swap
  · exact .inr (.inr ⟨hr, rfl, BfpData.SameBudget.refl _⟩)
  obtain ⟨href, hlast⟩ := bfpTimerHandler_refreshed x.pcpu.ctl.schedAccountTick now
    { x.pcpu.pol with tickTimer := x.pcpu.pol.tickTimer.del } r
  rw [htick.bfpCharged] at href hlast
  change (bfpCharged x.pcpu.ctl now x.pcpu.pol r).Refreshed now _ at href
  change _ = (bfpCharged x.pcpu.ctl now x.pcpu.pol r).lastStartTicks at hlast
  show StartKept now _ r _ ((bfpTimerHandler now x.pcpu.ctl.schedAccountTick
    { x.pcpu.pol with tickTimer := x.pcpu.pol.tickTimer.del }).1.data r)
  generalize (bfpTimerHandler now x.pcpu.ctl.schedAccountTick
    { x.pcpu.pol with tickTimer := x.pcpu.pol.tickTimer.del }).1.data r = d' at href hlast
  unfold bfpCharged at href hlast
  by_cases hdue : bfpDue x.pcpu.ctl now x.pcpu.pol r = true
  · rw [if_pos hdue] at href hlast
    have hend := account_not_ended (x.pcpu.pol.data r) now
    refine .inr (.inl ⟨hlast.trans (account_lastStart _ now), ?_⟩)
    rcases href with hs | hs
    · exact (hs.periodEnded now).trans hend
    · rw [advance_of_not_ended hend] at hs
      exact (hs.periodEnded now).trans hend
  · rw [if_neg hdue] at href hlast
    by_cases hzero : (x.pcpu.pol.data r).lastStartTicks = 0
    · exact .inl (hlast.trans hzero)
    -- not due although started: the clock has not moved since
    have hlt := (h.started r hr hzero).1
    have hnot : now ≤ (x.pcpu.pol.data r).lastStartTicks := by
      by_contra hgt
      refine hdue ?_
      rw [hcur] at hzero hgt ⊢
      rw [bfpDue_curr]
      have hrun := h.link.ctl.curr_running
      simp [SchedControl.isIdleThread, ThreadObject.isRunning, hidle, hrun, hzero, hgt]
    exact .inr (.inr ⟨hr, hlast, href.before (by omega)⟩)

theorem BfpLedgerInv.step_runs (h : BfpLedgerInv horizon x) (hok : BfpInTime horizon x call) :
    let s' := step schedBfp x.pcpu call
    BfpTimed horizon s'.ctl.runs s'.pol ∧ ∀ r ∈ s'.ctl.runs,
      StartKept call.1.now x.pcpu.ctl.runs r (x.pcpu.pol.data r) (s'.pol.data r) := by
  obtain ⟨env, op⟩ := call
  obtain ⟨-, hnow, hvalid⟩ := hok
  have hkind := step_kind schedBfp x.pcpu (env, op) hvalid
  have htimed := h.timed
  have hsame {r : Tid} (hr : r ∈ x.pcpu.ctl.runs) {d : BfpData} (hd : d = x.pcpu.pol.data r) :
      StartKept env.now x.pcpu.ctl.runs r (x.pcpu.pol.data r) d :=
    .inr (.inr ⟨hr, by rw [hd], hd ▸ BfpData.SameBudget.refl _⟩)
  dsimp only
  generalize step schedBfp x.pcpu (env, op) = s' at hkind ⊢
  cases hkind with
  | view hview =>
    rw [hview.runs]
    exact ⟨htimed, fun r hr => hsame hr rfl⟩
  | @sleep _ _ ctl t hview =>
    rw [SchedControl.runs_congr (sleepThreadLocked_curr schedBfp env t ⟨ctl, x.pcpu.pol⟩)]
    rw [← hview.runs] at htimed hsame ⊢
    refine ⟨schedBfpSleep_timed env htimed, fun r hr => ?_⟩
    obtain ⟨-, hself, hother⟩ := schedBfpSleep_data env ctl t x.pcpu.pol r
    by_cases hrt : r = t
    · exact .inl (hself hrt)
    · exact hsame hr (hother hrt)
  | @wake _ _ ctl t hview _ hwake =>
    rw [SchedControl.runs_congr (wakeThreadLocked_curr schedBfp env t ⟨ctl, x.pcpu.pol⟩),
      wakeThreadLocked_pol (s := ⟨ctl, x.pcpu.pol⟩) schedBfp env hwake]
    rw [← hview.runs] at htimed hsame ⊢
    refine ⟨schedBfpWake_timed env hnow htimed, fun r hr => ?_⟩
    have hdata : (schedBfpWake env ctl t x.pcpu.pol).data r =
        (bfpWoken env.now t x.pcpu.pol).data r :=
      congrFun (BfpState.programTimer_eq env ctl ctl.currObj (bfpWoken env.now t x.pcpu.pol)).1 r
    by_cases hrt : r = t
    · exact .inl (hdata ▸ (bfpWoken_data env.now t x.pcpu.pol r).2 hrt)
    · exact hsame hr (hdata.trans ((bfpWoken_eq env.now t x.pcpu.pol).2.2 r hrt))
  | timer =>
    rw [(timerCallback_cases schedBfp env.now x.pcpu).1.runs]
    exact ⟨bfp_timerCallback htimed h.link.wf hnow, fun r hr => h.timer_started hr⟩
  | @schedule _ suspend reset =>
    obtain ⟨hnext, hstart⟩ := bfp_schedule_started h.link htimed hnow suspend reset
    exact ⟨hnext, fun r hr => .inr (.inl (hstart r hr).2)⟩

theorem bfpCharges_runs {s : Pcpu BfpData BfpControl} {t : Tid} (h : bfpCharges s call t = true) :
    t ∈ s.ctl.runs ∧ (s.pol.data t).lastStartTicks ≠ 0 ∧ (s.pol.data t).lastStartTicks < call.1.now := by
  unfold bfpCharges bfpDue SchedControl.isIdleThread at h
  simp only [Bool.and_eq_true, Bool.not_eq_true', decide_eq_true_eq, decide_eq_false_iff_not] at h
  obtain ⟨-, ⟨⟨⟨rfl, hidle⟩, -⟩, hzero⟩, hlt⟩ := h
  exact ⟨SchedControl.mem_runs.mpr ⟨hidle, rfl⟩, hzero, hlt⟩

/-- **The ledger of one server across a call.** -/
theorem BfpLedgerInv.step_settled (h : BfpLedgerInv horizon x) (hok : BfpInTime horizon x call)
    (t : Tid) :
    let d := x.pcpu.pol.data t
    let x' := bfpHistoryStep x call
    (∃ n, (x'.pcpu.pol.data t).Settled (x'.ledger t) call.1.now n) ∧
      ∀ m, min (d.overrunCount + (newlyOver d.budgetTicks (x.ledger t) (x'.ledger t) m).card)
        uint64Max ≤ (x'.pcpu.pol.data t).overrunCount := by
  obtain ⟨n, hset⟩ := h.settled t
  have hroom := h.room hok t
  have href := bfp_step_refreshed x.pcpu t call
  rw [bfpBase_eq] at href
  dsimp only
  by_cases hcharge : bfpCharges x.pcpu call t = true
  · obtain ⟨hrun, hzero, hlt⟩ := bfpCharges_runs hcharge
    obtain ⟨hin, hbegin⟩ := h.started t hrun hzero
    have hl : ∀ k, (bfpHistoryStep x call).ledger t k = x.ledger t k +
        ticksIn (x.pcpu.pol.data t).periodTicks (x.pcpu.pol.data t).lastStartTicks call.1.now k := by
      intro k
      simp [bfpHistoryStep, hcharge]
    obtain ⟨⟨n', hset'⟩, hover⟩ := hset.account hbegin hin hlt hroom hl
    rw [if_pos hcharge] at href
    refine ⟨hset'.refreshed (Nat.le_refl _) ?_ href, fun m => ?_⟩
    · rw [account_reservation]
      exact hroom
    · exact (hover m).trans href.overrun.ge
  · have hl : (bfpHistoryStep x call).ledger t = x.ledger t := by
      funext k
      simp [bfpHistoryStep, hcharge]
    rw [if_neg hcharge] at href
    rw [hl]
    refine ⟨hset.refreshed hok.1 hroom href, fun m => ?_⟩
    have hnone : newlyOver (x.pcpu.pol.data t).budgetTicks (x.ledger t) (x.ledger t) m = ∅ :=
      Finset.filter_eq_empty_iff.mpr fun k _ hk => by omega
    rw [hnone, Finset.card_empty]
    exact (Nat.min_le_left _ _).trans href.overrun.ge

theorem BfpLedgerInv.historyStep (h : BfpLedgerInv horizon x) (hok : BfpInTime horizon x call) :
    BfpLedgerInv horizon (bfpHistoryStep x call) := by
  refine ⟨(step_linked bfpTagSpec.linkSpec h.link call hok.2.2).1, (h.step_runs hok).1,
    fun t => (h.step_settled hok t).1, fun r hr hzero => ?_⟩
  obtain ⟨n, hset⟩ := (h.step_settled hok r).1
  have hkept : StartKept call.1.now x.pcpu.ctl.runs r (x.pcpu.pol.data r)
      ((bfpHistoryStep x call).pcpu.pol.data r) := (h.step_runs hok).2 r hr
  have hres : ((bfpHistoryStep x call).pcpu.pol.data r).toReservation =
      (x.pcpu.pol.data r).toReservation := by
    have href := (bfp_step_refreshed x.pcpu r call).reservation
    rw [bfpBase_eq] at href
    split at href
    · exact href.trans (account_reservation _ _)
    · exact href
  have hroom := h.room hok r
  rw [← hres] at hroom
  generalize (bfpHistoryStep x call).pcpu.pol.data r = d' at hset hkept hzero hroom
  rcases hkept with hz | ⟨hlast, hend⟩ | ⟨hrun, hlast, hsame⟩
  · exact absurd hz hzero
  · have hpos := d'.period_pos
    have hnext := hset.next
    have hbegun := hset.begun
    unfold periodEnded at hend
    simp only [Bool.and_eq_false_iff, decide_eq_false_iff_not, not_not] at hend
    rw [Nat.succ_mul] at hnext
    omega
  · rw [hlast] at hzero ⊢
    rw [hsame.next, hsame.reservation]
    exact h.started r hrun hzero

/-- Before its boundary a server keeps its period, and its budget only shrinks. -/
theorem bfp_step_before (s : Pcpu BfpData BfpControl) {t : Tid}
    (hlt : call.1.now < (s.pol.data t).nextReplenishTicks) :
    ((BeauOs.Sched.step schedBfp s call).pol.data t).nextReplenishTicks =
        (s.pol.data t).nextReplenishTicks ∧
      ((BeauOs.Sched.step schedBfp s call).pol.data t).remainingTicks ≤
        (s.pol.data t).remainingTicks := by
  have href := bfp_step_refreshed s t call
  rw [bfpBase_eq] at href
  split at href
  · obtain ⟨hnext, hrem⟩ := account_before hlt
    have hsame := href.before (by rw [hnext]; exact hlt)
    exact ⟨hsame.next.trans hnext, hsame.remaining.le.trans hrem⟩
  · have hsame := href.before hlt
    exact ⟨hsame.next, hsame.remaining.le⟩

end Step

/-- Data set up by `start`, with a period that fits between `horizon` and the end of the clock. -/
def BfpData.IsInitWithin (start horizon : Nat) (d : BfpData) : Prop :=
  ∃ res priority created, d = BfpData.init res priority created ∧ created ≤ start ∧
    horizon + res.periodTicks ≤ uint64Max

theorem BfpData.init_settled {res : Reservation} {priority created start horizon : Nat}
    (hcreated : created ≤ start) (hstart : start ≤ horizon)
    (hroom : horizon + res.periodTicks ≤ uint64Max) :
    ∃ n, (BfpData.init res priority created).Settled (fun _ => 0) start n := by
  have hpos : 0 < res.periodTicks := Nat.lt_of_lt_of_le res.budget_pos res.budget_le_period
  have hfit : ¬created / res.periodTicks ≥ uint64Max / res.periodTicks := by
    rw [Nat.not_le, Nat.lt_iff_add_one_le, ← Nat.add_div_right _ hpos]
    exact Nat.div_le_div_right (by omega)
  have hwhole := Nat.div_mul_le_self created res.periodTicks
  refine ⟨created / res.periodTicks, ?_, by show _ * res.periodTicks ≤ _; omega, Nat.le_refl _,
    fun _ _ => rfl⟩
  show bfpNextPeriodBoundary created res.periodTicks = _
  unfold bfpNextPeriodBoundary
  rw [if_neg (by omega), if_neg hfit]
  rfl

/-- A booted pCPU at `start`, with nothing charged yet. -/
def BootConfig.bfpHistory (cfg : BootConfig BfpData) (start : Nat) : BfpHistory where
  clock := start
  pcpu := cfg.boot BfpControl.init
  ledger _ _ := 0

theorem bfpLedgerInv_boot {cfg : BootConfig BfpData} {start horizon : Nat}
    (hstart : start ≤ horizon) (hfresh : cfg.Fresh (BfpData.IsInitWithin start horizon)) :
    BfpLedgerInv horizon (cfg.bfpHistory start) := by
  have hdata : ∀ t, BfpData.IsInitWithin start horizon ((cfg.bfpHistory start).pcpu.pol.data t) :=
    cfg.boot_data hfresh BfpControl.init
  have hruns : (cfg.bfpHistory start).pcpu.ctl.runs = none := if_pos rfl
  refine ⟨?_, fun t => ?_, fun t => ?_, fun r hr => ?_⟩
  · refine (cfg.linkInv_boot (TagWf.empty fun t => ?_) fun _ => rfl).1
    obtain ⟨res, priority, created, hd, -⟩ := hdata t
    exact congrArg queue hd
  · obtain ⟨res, priority, created, hd, hcreated, hroom⟩ := hdata t
    obtain ⟨n, hset⟩ := @init_settled res priority created start horizon hcreated hstart hroom
    have hnext := hset.next
    rw [hd, hruns]
    refine ⟨hroom, ?_, nofun, nofun⟩
    rw [hnext]
    exact Nat.mul_pos (Nat.succ_pos n) (period_pos _)
  · obtain ⟨res, priority, created, hd, hcreated, hroom⟩ := hdata t
    rw [hd]
    exact init_settled hcreated hstart hroom
  · rw [hruns] at hr
    cases hr

theorem BfpLedgerInv.run {horizon : Nat} {x : BfpHistory} (h : BfpLedgerInv horizon x)
    {calls : List (Env × Op)} (hrun : Run.Along bfpHistoryStep (BfpInTime horizon) x calls) :
    BfpLedgerInv horizon (Run.exec bfpHistoryStep x calls) :=
  Run.inv_exec (fun _ _ hx hc => hx.historyStep hc) h hrun

/-- What a call may do to the budget of `t`. -/
structure BudgetKept (x : BfpHistory) (call : Env × Op) (t : Tid) : Prop where
  /-- the budget grows at the boundary only -/
  grows : (x.pcpu.pol.data t).remainingTicks <
      ((bfpHistoryStep x call).pcpu.pol.data t).remainingTicks →
    (x.pcpu.pol.data t).nextReplenishTicks ≤ call.1.now
  /-- `pick_next` selects no server without budget before its boundary -/
  selected : ∀ suspend reset, call.2 = .schedule suspend reset →
    t ∈ (bfpHistoryStep x call).pcpu.ctl.runs →
    ((bfpHistoryStep x call).pcpu.pol.data t).remainingTicks ≠ 0 ∧
      ((x.pcpu.pol.data t).remainingTicks = 0 →
        (x.pcpu.pol.data t).nextReplenishTicks ≤ call.1.now)
  /-- every period that goes over the budget is counted, up to the largest word -/
  overrun : ∀ m, min ((x.pcpu.pol.data t).overrunCount + (newlyOver (x.pcpu.pol.data t).budgetTicks
      (x.ledger t) ((bfpHistoryStep x call).ledger t) m).card) uint64Max ≤
    ((bfpHistoryStep x call).pcpu.pol.data t).overrunCount

theorem BfpLedgerInv.budgetKept {horizon : Nat} {x : BfpHistory} (h : BfpLedgerInv horizon x)
    {call : Env × Op} (hok : BfpInTime horizon x call) (t : Tid) : BudgetKept x call t := by
  have hgrows : (x.pcpu.pol.data t).remainingTicks <
      ((bfpHistoryStep x call).pcpu.pol.data t).remainingTicks →
      (x.pcpu.pol.data t).nextReplenishTicks ≤ call.1.now := by
    intro hlt
    by_contra hnot
    have hbefore : call.1.now < (x.pcpu.pol.data t).nextReplenishTicks := Nat.not_le.mp hnot
    have hle := (bfp_step_before x.pcpu hbefore).2
    exact absurd hlt (Nat.not_lt.mpr hle)
  refine ⟨hgrows, fun suspend reset hcall hrun => ?_, (h.step_settled hok t).2⟩
  obtain ⟨env, op⟩ := call
  obtain rfl : op = .schedule suspend reset := hcall
  obtain ⟨-, hstart⟩ := bfp_schedule_started h.link h.timed hok.2.1 suspend reset
  have hrem : ((bfpHistoryStep x (env, .schedule suspend reset)).pcpu.pol.data t).remainingTicks ≠ 0 :=
    (hstart t hrun).1
  exact ⟨hrem, fun hzero => hgrows (by omega)⟩

/-- Calls before its boundary give a server nothing back. -/
theorem bfp_run_before {t : Tid} : ∀ {later : List (Env × Op)} {x : BfpHistory},
    (∀ call ∈ later, call.1.now < (x.pcpu.pol.data t).nextReplenishTicks) →
    ((Run.exec bfpHistoryStep x later).pcpu.pol.data t).nextReplenishTicks =
        (x.pcpu.pol.data t).nextReplenishTicks ∧
      ((Run.exec bfpHistoryStep x later).pcpu.pol.data t).remainingTicks ≤
        (x.pcpu.pol.data t).remainingTicks := by
  intro later
  induction later with
  | nil => exact fun _ => ⟨rfl, Nat.le_refl _⟩
  | cons call rest ih =>
    intro x hearly
    obtain ⟨hnext, hrem⟩ := bfp_step_before x.pcpu (hearly call List.mem_cons_self)
    obtain ⟨hnext', hrem'⟩ := @ih (bfpHistoryStep x call) fun c hc =>
      (hearly c (List.mem_cons_of_mem _ hc)).trans_eq hnext.symm
    exact ⟨hnext'.trans hnext, hrem'.trans hrem⟩

/--
**The budget of a BFP server is hard**, on a pCPU whose servers were set up by `start` and along
every run of calls, as long as the clock leaves room for one more period of each server: what
remains never exceeds the budget and grows at the boundary only, no server without budget is
selected before its boundary, a period that is charged more than the budget is counted, and
calls before the boundary, sleeps and wakes among them, give nothing back.
-/
theorem bfp_hard_budget {cfg : BootConfig BfpData} {start horizon : Nat} (hstart : start ≤ horizon)
    (hfresh : cfg.Fresh (BfpData.IsInitWithin start horizon)) {calls : List (Env × Op)}
    (hrun : Run.Along bfpHistoryStep (BfpInTime horizon) (cfg.bfpHistory start) calls) (t : Tid) :
    let x := Run.exec bfpHistoryStep (cfg.bfpHistory start) calls
    (x.pcpu.pol.data t).remainingTicks ≤ (x.pcpu.pol.data t).budgetTicks ∧
      (∀ call, BfpInTime horizon x call → BudgetKept x call t) ∧
      ∀ later : List (Env × Op),
        (∀ call ∈ later, call.1.now < (x.pcpu.pol.data t).nextReplenishTicks) →
        ((Run.exec bfpHistoryStep x later).pcpu.pol.data t).remainingTicks ≤
          (x.pcpu.pol.data t).remainingTicks := by
  have hinv := (bfpLedgerInv_boot hstart hfresh).run hrun
  obtain ⟨n, hset⟩ := hinv.settled t
  exact ⟨hset.unspent.trans (Nat.sub_le _ _), fun call hok => hinv.budgetKept hok t,
    fun later hearly => (bfp_run_before hearly).2⟩

/-- A vCPU that runs through its budget and into its next period before the timer is served. -/
def lateTimer : List (Env × Op) :=
  [(⟨1, true⟩, .wake 1), (⟨2, true⟩, .schedule false false), (⟨13, true⟩, .timer)]

theorem bfp_hard_budget_late :
    let x := Run.exec bfpHistoryStep
      ((BootConfig.single (BfpData.init halfOfTen 1 0)).bfpHistory 0) lateTimer
    BudgetKept x (⟨14, true⟩, .schedule false false) 1 ∧
      (x.pcpu.pol.data 1).remainingTicks ≤ (x.pcpu.pol.data 1).budgetTicks := by
  obtain ⟨hle, hkept, -⟩ := @bfp_hard_budget (BootConfig.single (BfpData.init halfOfTen 1 0)) 0 1000
    (by decide) (BootConfig.single_fresh ⟨_, _, _, rfl, by decide, by decide⟩) lateTimer
    (by decide +kernel) 1
  exact ⟨hkept _ (by decide +kernel), hle⟩

/-- A vCPU waits for the pCPU while its last period but one ends. -/
def waitsAtTheEnd : List (Env × Op) := [(⟨2 ^ 64 - 15, true⟩, .wake 1)]

/--
Without room it is not: the walk over the ready queue finds no replenishment for a server whose
period has ended, leaves it in the queue, and the server is selected with no budget and its
boundary at the last tick.
-/
theorem bfp_selects_without_budget :
    let x := Run.exec bfpHistoryStep
      ((BootConfig.single (BfpData.init halfOfTen 1 (2 ^ 64 - 15))).bfpHistory (2 ^ 64 - 15))
      waitsAtTheEnd
    let x' := bfpHistoryStep x (⟨2 ^ 64 - 5, true⟩, .schedule false false)
    BfpInTime uint64Max x (⟨2 ^ 64 - 5, true⟩, .schedule false false) ∧
      x'.pcpu.ctl.currObj = 1 ∧ (x'.pcpu.pol.data 1).remainingTicks = 0 ∧
      2 ^ 64 - 5 < (x'.pcpu.pol.data 1).nextReplenishTicks := by
  decide +kernel

end BeauOs.Sched

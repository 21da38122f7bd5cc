/-
The time until a BFP server is replenished.

A server with room for its next period (`BfpData.Timed`) has a due time, and has budget while it is
in the ready queue.  Every hook keeps this of all servers (`BfpTimed`), where the thread that runs
is the only one that may have started and not been accounted for.
-/
import BeauOs.Proofs.Sched.BfpLinkage

namespace BeauOs.Sched

open BfpState

namespace BfpData

/--
A server with room for its next period: it has budget while it is in the ready queue, and if
it runs while it is linked, it was linked after it last started.
-/
structure Timed (horizon : Nat) (running : Prop) (d : BfpData) : Prop where
  room : horizon + d.periodTicks ≤ uint64Max
  next_pos : 0 < d.nextReplenishTicks
  ready : d.queue = .ready → d.remainingTicks ≠ 0
  linked : running → d.queue ≠ .none → d.lastStartTicks = 0

variable {horizon now : Nat} {running : Prop} {d : BfpData}

theorem Timed.imp {running' : Prop} (h : d.Timed horizon running) (hr : running' → running) :
    d.Timed horizon running' :=
  ⟨h.room, h.next_pos, h.ready, fun hrun => h.linked (hr hrun)⟩

/-- A server in no queue owes nothing but room. -/
theorem Timed.unlinked (h : d.Timed horizon running) {d' : BfpData} {running' : Prop}
    (hres : d'.toReservation = d.toReservation) (hnext : 0 < d'.nextReplenishTicks)
    (hnone : d'.queue = .none) : d'.Timed horizon running' := by
  refine ⟨?_, hnext, fun hr => ?_, fun _ hl => absurd hnone hl⟩
  · rw [hres]
    exact h.room
  · rw [hnone] at hr
    cases hr

/-- With room for one more period the grid point after `now` fits into the word. -/
theorem periodsDue_le (hroom : now + d.periodTicks ≤ uint64Max) (hle : d.nextReplenishTicks ≤ now) :
    d.periodsDue now ≤ (uint64Max - d.nextReplenishTicks) / d.periodTicks := by
  unfold periodsDue
  rw [← Nat.add_div_right _ d.period_pos]
  exact Nat.div_le_div_right (by omega)

theorem advance_of_ended (hroom : now + d.periodTicks ≤ uint64Max)
    (hend : d.periodEnded now = true) :
    d.advanceInactivePeriod now =
      { d with
        nextReplenishTicks := d.nextReplenishTicks + d.periodsDue now * d.periodTicks
        remainingTicks := d.budgetTicks
        replenishCount := counterAdd d.replenishCount (d.periodsDue now) } := by
  have hsat : d.replenishSaturates now = false :=
    decide_eq_false (Nat.not_lt.mpr (periodsDue_le hroom (next_le_of_ended hend)))
  unfold advanceInactivePeriod
  simp only [hend, hsat, if_true, Bool.false_eq_true, if_false]

theorem Timed.advance (h : d.Timed horizon running) (hnow : now ≤ horizon) :
    (d.advanceInactivePeriod now).Timed horizon running := by
  by_cases hend : d.periodEnded now = true
  · rw [advance_of_ended (Nat.le_trans (Nat.add_le_add_right hnow _) h.room) hend]
    exact ⟨h.room, Nat.add_pos_left h.next_pos _, fun _ => Nat.pos_iff_ne_zero.mp d.budget_pos,
      h.linked⟩
  · rw [Bool.not_eq_true] at hend
    rw [advance_of_not_ended hend]
    exact h

theorem advance_lastStart (d : BfpData) (now : Nat) :
    (d.advanceInactivePeriod now).lastStartTicks = d.lastStartTicks := by
  unfold advanceInactivePeriod
  dsimp only
  split_ifs <;> rfl

theorem chargeCurrentPeriod_reservation (d : BfpData) (delta : Nat) :
    (d.chargeCurrentPeriod delta).toReservation = d.toReservation := by
  unfold chargeCurrentPeriod
  split <;> rfl

theorem chargeCrossed_next_pos {boundary : Nat} (hpos : 0 < boundary) (d : BfpData) :
    0 < (d.chargeCrossed boundary now).nextReplenishTicks := by
  have hmax : 0 < uint64Max := by decide
  unfold chargeCrossed
  dsimp only
  split_ifs
  · exact hmax
  all_goals exact Nat.add_pos_left hpos _

theorem chargeCrossed_reservation (d : BfpData) (boundary now : Nat) :
    (d.chargeCrossed boundary now).toReservation = d.toReservation := by
  unfold chargeCrossed
  dsimp only
  split_ifs <;> rfl

theorem account_reservation (d : BfpData) (now : Nat) :
    (d.account now).toReservation = d.toReservation := by
  unfold account
  dsimp only
  split_ifs
  · rw [chargeCurrentPeriod_reservation]
  · rw [chargeCrossed_reservation, chargeCurrentPeriod_reservation]
  · rw [chargeCrossed_reservation]

theorem account_next_pos (h : 0 < d.nextReplenishTicks) (now : Nat) :
    0 < (d.account now).nextReplenishTicks := by
  unfold account
  dsimp only
  split
  · rw [chargeCurrentPeriod_next]
    exact h
  · exact chargeCrossed_next_pos h _

end BfpData

/-- Every server has room; `run` is the thread that runs. -/
def BfpTimed (horizon : Nat) (run : Option Tid) (p : BfpState) : Prop :=
  ∀ t, (p.data t).Timed horizon (t ∈ run)

section Bfp

variable {horizon now : Nat} {run : Option Tid} {p q : BfpState} {ctl : SchedControl} {t r : Tid}

section

variable (h : BfpTimed horizon run p)

include h

theorem BfpTimed.idle : BfpTimed horizon none p :=
  fun t => (h t).imp nofun

theorem BfpTimed.relinks {queue : ServerQueue} {count : Nat}
    (hre : BfpState.Relinks t queue count p q)
    (ht : BfpData.Timed horizon (t ∈ run) { p.data t with queue := queue, depletedCount := count }) :
    BfpTimed horizon run q := by
  intro u
  by_cases hu : u = t
  · rw [hu, hre.self]
    exact ht
  · rw [hre.other u hu]
    exact h u

theorem BfpTimed.updData {f : BfpData → BfpData}
    (hf : (f (p.data t)).Timed horizon (t ∈ run)) : BfpTimed horizon run (p.updData t f) := by
  intro u
  by_cases hu : u = t
  · rw [hu, PolicyState.updData_self]
    exact hf
  · rw [PolicyState.updData_of_ne p f hu]
    exact h u

theorem BfpTimed.queueRemove (t : Tid) : BfpTimed horizon run (bfpQueueRemove t p) :=
  h.relinks (relinks_queueRemove t p) ((h t).unlinked rfl (h t).next_pos rfl)

theorem BfpTimed.link (hstart : t ∈ run → (p.data t).lastStartTicks = 0) (keepTurn : Bool) :
    BfpTimed horizon run (if (p.data t).remainingTicks ≠ 0 then bfpReadyInsert t keepTurn p
      else bfpDepletedInsert t p) := by
  split
  · rename_i hrem
    exact h.relinks (relinks_readyInsert t keepTurn p)
      ⟨(h t).room, (h t).next_pos, fun _ => hrem, fun hrun _ => hstart hrun⟩
  · exact h.relinks (relinks_depletedInsert t p)
      ⟨(h t).room, (h t).next_pos, nofun, fun hrun _ => hstart hrun⟩

/-- The charge of a running thread; it does nothing to a linked one. -/
theorem BfpTimed.accountRuntime (ht : t ∈ run) (ctl : SchedControl)
    (now : Nat) : BfpTimed horizon run (bfpAccountRuntime ctl now t p) := by
  unfold bfpAccountRuntime
  split
  · exact h
  rename_i hguard
  have hstart : (p.data t).lastStartTicks ≠ 0 := by
    intro hzero
    simp [hzero] at hguard
  have hnone : (p.data t).queue = .none := by
    by_contra hl
    exact hstart ((h t).linked ht hl)
  exact h.updData ((h t).unlinked (BfpData.account_reservation _ now)
    (BfpData.account_next_pos (h t).next_pos now) ((account_queue now _).trans hnone))

omit h in
theorem BfpTimed.refreshThread (h : BfpTimed horizon none p) (hnow : now ≤ horizon)
    (ctl : SchedControl) (t : Tid) (keepTurn : Bool) :
    BfpTimed horizon none (bfpRefreshThread ctl now t keepTurn p) := by
  have hadv : BfpTimed horizon none (p.updData t (·.advanceInactivePeriod now)) :=
    h.updData ((h t).advance hnow)
  unfold bfpRefreshThread
  dsimp only
  generalize p.updData t (·.advanceInactivePeriod now) = q at hadv
  split
  · exact hadv.queueRemove t
  · exact hadv.link nofun keepTurn

/-- The walk meets linked threads only, and a depleted thread that runs has not started since. -/
theorem BfpTimed.refreshDepleted (hnow : now ≤ horizon)
    (ht : bfpView.tag p t = .depleted) (ctl : SchedControl) :
    BfpTimed horizon run (bfpRefreshDepleted ctl now t p) := by
  have hstart : t ∈ run → (p.data t).lastStartTicks = 0 := fun hrun =>
    (h t).linked hrun (by rw [show (p.data t).queue = .depleted from ht]; nofun)
  unfold bfpRefreshDepleted
  split
  swap
  · exact h
  have hadv : BfpTimed horizon run (p.updData t (·.advanceInactivePeriod now)) :=
    h.updData ((h t).advance hnow)
  have hstart' : t ∈ run → ((bfpQueueRemove t (p.updData t
      (·.advanceInactivePeriod now))).data t).lastStartTicks = 0 := by
    intro hrun
    rw [(relinks_queueRemove t _).self, PolicyState.updData_self]
    exact (BfpData.advance_lastStart (p.data t) now).trans (hstart hrun)
  have hrem := hadv.queueRemove t
  dsimp only
  generalize bfpQueueRemove t (p.updData t (·.advanceInactivePeriod now)) = q at hrem hstart'
  split
  · rename_i hcond
    rw [Bool.and_eq_true, decide_eq_true_iff] at hcond
    have hlink := hrem.link hstart' false
    rw [if_pos hcond.2] at hlink
    exact hlink
  · exact hrem

theorem BfpTimed.refreshQueues (hwf : bfpView.Wf p) (hnow : now ≤ horizon) (ctl : SchedControl) :
    BfpTimed horizon run (bfpRefreshQueues ctl now p) := by
  refine refreshQueues_inv hwf ?_ fun q t _ ht hq => hq.refreshDepleted hnow ht ctl
  exact advanceReady_inv (fun q t hq => hq.updData ((hq t).advance hnow)) h

omit h in
theorem bfpTimerHandler_timed (h : BfpTimed horizon ctl.runs p) (hwf : bfpView.Wf p)
    (hnow : now ≤ horizon) : BfpTimed horizon ctl.runs (bfpTimerHandler now ctl p).1 := by
  have hq : BfpTimed horizon ctl.runs { p with priv := { p.priv with timerDeadlineTicks := 0 } } := h
  have hwfq : bfpView.Wf { p with priv := { p.priv with timerDeadlineTicks := 0 } } := hwf
  unfold bfpTimerHandler
  dsimp only
  generalize { p with priv := { p.priv with timerDeadlineTicks := 0 } } = q at hq hwfq
  split
  · exact hq.refreshQueues hwfq hnow ctl
  rename_i hidle
  have hrun : ctl.currObj ∈ ctl.runs :=
    SchedControl.mem_runs.mpr ⟨fun e => hidle (decide_eq_true e), rfl⟩
  exact (hq.accountRuntime hrun ctl now).refreshQueues
    (accountRuntime hwfq ctl now ctl.currObj).1 hnow ctl

omit h in
theorem bfpRefreshAll_timed (h : BfpTimed horizon ctl.runs p) (hwf : bfpView.Wf p)
    (hnow : now ≤ horizon) : BfpTimed horizon none (bfpRefreshAll ctl now p) := by
  unfold bfpRefreshAll
  dsimp only
  split
  · exact h.idle.refreshQueues hwf hnow ctl
  rename_i hidle
  have hrun : ctl.currObj ∈ ctl.runs :=
    SchedControl.mem_runs.mpr ⟨fun e => hidle (decide_eq_true e), rfl⟩
  have hwf' := (accountRuntime hwf ctl now ctl.currObj).1
  exact ((h.accountRuntime hrun ctl now).idle.refreshThread hnow ctl _ true).refreshQueues
    (refreshThread hwf' ctl now ctl.currObj true).1 hnow ctl

/-! The hooks. -/

theorem BfpTimed.woken (hnow : now ≤ horizon) (t : Tid) : BfpTimed horizon run (bfpWoken now t p) := by
  have hadv := (h t).advance hnow
  have hupd : BfpTimed horizon run
      (p.updData t fun d => { d.advanceInactivePeriod now with lastStartTicks := 0 }) :=
    h.updData ⟨hadv.room, hadv.next_pos, hadv.ready, fun _ _ => rfl⟩
  refine hupd.link (fun _ => ?_) false
  rw [PolicyState.updData_self]

end

theorem bfpWoken_eq (now : Nat) (t : Tid) (p : BfpState) :
    (bfpWoken now t p).tickTimer = p.tickTimer ∧
      (((bfpWoken now t p).data t).remainingTicks ≠ 0 ∨
        ((bfpWoken now t p).data t).queue = .depleted) ∧
      ∀ u, u ≠ t → (bfpWoken now t p).data u = p.data u := by
  unfold bfpWoken
  dsimp only
  have hother : ∀ u, u ≠ t → (p.updData t fun d =>
      { d.advanceInactivePeriod now with lastStartTicks := 0 }).data u = p.data u :=
    fun u hu => PolicyState.updData_of_ne p _ hu
  have htimer : (p.updData t fun d =>
      { d.advanceInactivePeriod now with lastStartTicks := 0 }).tickTimer = p.tickTimer := rfl
  generalize p.updData t (fun d => { d.advanceInactivePeriod now with lastStartTicks := 0 }) = q
    at hother htimer
  split
  · rename_i hrem
    have hre := relinks_readyInsert t false q
    rw [hre.self]
    exact ⟨hre.timer.trans htimer, .inl hrem, fun u hu => (hre.other u hu).trans (hother u hu)⟩
  · have hre := relinks_depletedInsert t q
    rw [hre.self]
    exact ⟨hre.timer.trans htimer, .inr rfl, fun u hu => (hre.other u hu).trans (hother u hu)⟩

theorem schedBfpSleep_timed (env : Env) (h : BfpTimed horizon ctl.runs p) :
    BfpTimed horizon ctl.runs (schedBfpSleep env ctl t p) := by
  have hacc : BfpTimed horizon ctl.runs
      (if bfpIsCurrent ctl t then bfpAccountRuntime ctl env.now t p else p) := by
    split
    · rename_i hcur
      have hcur' : ctl.currObj = t := of_decide_eq_true hcur
      by_cases hidle : t = ctl.idle
      · unfold bfpAccountRuntime SchedControl.isIdleThread
        rw [if_pos (by simp [hidle])]
        exact h
      · exact h.accountRuntime (SchedControl.mem_runs.mpr ⟨hcur' ▸ hidle, hcur'.symm⟩) ctl env.now
    · exact h
  unfold schedBfpSleep
  dsimp only
  generalize (if bfpIsCurrent ctl t then bfpAccountRuntime ctl env.now t p else p) = q at hacc
  have hrem := hacc.queueRemove t
  exact hrem.updData ⟨(hrem t).room, (hrem t).next_pos, (hrem t).ready, fun _ _ => rfl⟩

/-- The selected server is started at `now`, with budget and in its period. -/
structure BfpPicked (horizon now : Nat) (ctl : SchedControl) (next : Tid) (p : BfpState) : Prop where
  timed : BfpTimed horizon (if next = ctl.idle then none else some next) p
  started : next ≠ ctl.idle → (p.data next).remainingTicks ≠ 0 ∧
    (p.data next).lastStartTicks = now ∧ (p.data next).periodEnded now = false

/-- It comes from the ready queue, so it has budget. -/
theorem bfpTakeFirst_picked (ctl : SchedControl) (h : BfpTimed horizon none p) (hwf : bfpView.Wf p)
    (hready : ∀ t, (p.data t).queue = .ready → (p.data t).periodEnded now = false) :
    BfpPicked horizon now ctl (bfpTakeFirst ctl now p).1 (bfpTakeFirst ctl now p).2 := by
  unfold bfpTakeFirst
  split
  swap
  · refine ⟨?_, fun hne => absurd rfl hne⟩
    rw [if_pos rfl]
    exact h
  rename_i first rest hq
  dsimp only
  have htag : (p.data first).queue = .ready := by
    refine (hwf.ready.mem_iff first).mp ?_
    rw [show bfpView.ready p.priv = first :: rest from hq]
    exact List.mem_cons_self
  have hre := relinks_queueRemove first p
  have hdata : ((bfpQueueRemove first p).updData first fun d =>
      { d with lastStartTicks := now }).data first =
        { p.data first with queue := .none, lastStartTicks := now } := by
    rw [PolicyState.updData_self, hre.self]
  have hrun : BfpTimed horizon (some first) ((bfpQueueRemove first p).updData first fun d =>
      { d with lastStartTicks := now }) := by
    intro u
    by_cases hu : u = first
    · rw [hu, hdata]
      exact (h first).unlinked rfl (h first).next_pos rfl
    · rw [PolicyState.updData_of_ne _ _ hu, hre.other u hu]
      exact (h u).imp fun hmem => absurd (Option.some.inj hmem).symm hu
  refine ⟨?_, fun _ => ?_⟩
  · split
    · exact hrun.idle
    · exact hrun
  · rw [hdata]
    exact ⟨(h first).ready htag, rfl, hready first htag⟩

theorem schedBfpWake_timed (env : Env) (hnow : env.now ≤ horizon) (h : BfpTimed horizon run p) :
    BfpTimed horizon run (schedBfpWake env ctl t p) := by
  intro u
  rw [schedBfpWake_eq, (programTimer_eq env ctl ctl.currObj _).1]
  exact h.woken hnow t u

theorem bfp_timerCallback {s : Pcpu BfpData BfpControl} (h : BfpTimed horizon s.ctl.runs s.pol)
    (hwf : bfpView.Wf s.pol) (hnow : now ≤ horizon) :
    BfpTimed horizon s.ctl.runs (timerCallback schedBfp now s).pol := by
  obtain ⟨-, ⟨hdata, -⟩ | ⟨ctl, hview, hdata, -⟩⟩ := timerCallback_cases schedBfp now s
  · exact fun u => hdata ▸ h u
  · intro u
    rw [hdata]
    have hq : BfpTimed horizon ctl.runs { s.pol with tickTimer := s.pol.tickTimer.del } := by
      rw [hview.runs]
      exact h
    have htimer := bfpTimerHandler_timed hq hwf hnow
    rw [hview.runs] at htimer
    exact htimer u

end Bfp

end BeauOs.Sched

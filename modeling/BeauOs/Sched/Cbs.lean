/-
The Constant Bandwidth Server policy: `core/sched/cbs.c`.

Each thread is a server with budget Q every period T.  Running consumes the remaining
budget; an empty budget moves the deadline one period on and is refilled at once (soft
CBS).  A server that wakes keeps its deadline only if what it has left is no denser than
Q/T, and otherwise starts a fresh period.  The run queue is ordered by deadline, the
selected thread is unlinked, and a local one-shot timer fires at the earlier of budget
exhaustion and deadline.

The two loops of the accounting code are written with fuel.  A round of
`cbs_charge_runtime` charges at least one tick and a round of
`cbs_replenish_after_depletion` moves the deadline at least one tick, because a
reservation is never empty (`Reservation.budget_pos`), so the fuel given is enough.
-/
import BeauOs.Lib.Queue
import BeauOs.Sched.Framework

namespace BeauOs.Sched

/-- `struct sched_cbs_data`; the list node is the run queue of `CbsControl`. -/
structure CbsData extends Reservation where
  remainingTicks : Nat
  deadlineTicks : Nat
  lastStartTicks : Nat
  depletedCount : Nat
  replenishCount : Nat
  wakeReplenishCount : Nat
  lateAccountCount : Nat
  deriving DecidableEq

structure CbsControl where
  runqueue : List Tid
  /-- cached one-shot deadline; 0 means no CBS timer is armed -/
  timerDeadlineTicks : Nat
  deriving DecidableEq

abbrev CbsState := PolicyState CbsData CbsControl

/-! ### Reservations -/

/-- `cbs_normalize_us`; an error is the text of the panic. -/
def cbsNormalizeUs (pcpuId : Nat) (pool : Option PoolConfig) (paramPeriod paramBudget : Nat) :
    Except String NormalizedUs :=
  let period := poolDefault paramPeriod (PoolConfig.values pool).1 4000
  let budget := poolDefault paramBudget (PoolConfig.values pool).2 2000
  if period < 500 then .error s!"CBS pCPU{pcpuId} period {period} below minimum 500"
  else if hmin : budget < 500 then .error s!"CBS pCPU{pcpuId} budget {budget} below minimum 500"
  else if hmax : budget > period then .error s!"CBS pCPU{pcpuId} budget {budget} > period {period}"
  else .ok ⟨(period, budget), by omega, by omega⟩

namespace CbsData

/-! ### Replenishment -/

variable (d : CbsData)

def replenishFromNow (now : Nat) (count : Bool) : CbsData :=
  { d with
    deadlineTicks := add64 now d.periodTicks
    remainingTicks := d.budgetTicks
    replenishCount := if count then countEvent d.replenishCount else d.replenishCount }

def replenishNextWindow (count : Bool) : CbsData :=
  { d with
    deadlineTicks :=
      if d.deadlineTicks > uint64Max - d.periodTicks then uint64Max
      else d.deadlineTicks + d.periodTicks
    remainingTicks := d.budgetTicks
    replenishCount := if count then countEvent d.replenishCount else d.replenishCount }

/-- The `do`/`while` loop of `cbs_replenish_after_depletion`. -/
def replenishWindows (now : Nat) (count : Bool) : Nat → CbsData → CbsData
  | 0, d => d
  | fuel + 1, d =>
    let d := d.replenishNextWindow count
    if d.deadlineTicks ≤ now ∧ d.deadlineTicks ≠ uint64Max then
      replenishWindows now count fuel d
    else d

def replenishAfterDepletion (now : Nat) (count : Bool) : CbsData :=
  if d.deadlineTicks = 0 then d.replenishFromNow now count
  else replenishWindows now count (now - d.deadlineTicks + 1) d

/-- The loop of `cbs_charge_runtime`. -/
def chargeLoop (count : Bool) : Nat → Nat → CbsData → CbsData
  | 0, _, d => d
  | fuel + 1, delta, d =>
    if delta = 0 then d
    else
      let d := if d.remainingTicks = 0 then d.replenishNextWindow count else d
      if delta < d.remainingTicks then { d with remainingTicks := d.remainingTicks - delta }
      else
        chargeLoop count fuel (delta - d.remainingTicks)
          { d with
            remainingTicks := 0
            depletedCount := if count then countEvent d.depletedCount else d.depletedCount }

def chargeRuntime (delta : Nat) (count : Bool) : CbsData :=
  chargeLoop count delta delta d

/-- `cbs_ratio_greater`, with the 128-bit products. -/
def ratioGreater (leftNum leftDen rightNum rightDen : Nat) : Bool :=
  leftNum * rightDen > rightNum * leftDen

def needsWakeReplenish (now : Nat) : Bool :=
  if d.deadlineTicks ≤ now then true
  else ratioGreater d.remainingTicks (d.deadlineTicks - now) d.budgetTicks d.periodTicks

def refreshActiveWindow (now : Nat) : CbsData :=
  if d.remainingTicks = 0 then d.replenishAfterDepletion now true
  else if d.deadlineTicks ≤ now then d.replenishFromNow now true
  else d

def applyInactiveWakeRule (now : Nat) : CbsData :=
  if d.remainingTicks = 0 then
    let d := d.replenishAfterDepletion now true
    { d with wakeReplenishCount := countEvent d.wakeReplenishCount }
  else if d.needsWakeReplenish now then
    let d := d.replenishFromNow now true
    { d with wakeReplenishCount := countEvent d.wakeReplenishCount }
  else d

def recordLateAccount (now : Nat) : CbsData :=
  let budgetDue :=
    if d.remainingTicks = 0 then d.lastStartTicks
    else if d.lastStartTicks ≤ uint64Max - d.remainingTicks then
      d.lastStartTicks + d.remainingTicks
    else 0
  let due :=
    if budgetDue ≠ 0 ∧ (d.deadlineTicks = 0 ∨ budgetDue < d.deadlineTicks) then budgetDue
    else d.deadlineTicks
  if due ≠ 0 ∧ due < now then { d with lateAccountCount := countEvent d.lateAccountCount } else d

/-- The charge of `cbs_account_runtime`, once its guards are passed. -/
def account (now : Nat) : CbsData :=
  ({ d.recordLateAccount now with lastStartTicks := now }).chargeRuntime
    (now - d.lastStartTicks) true

/-- A fresh server, as `sched_cbs_init_data` sets it up. -/
def init (res : Reservation) (now : Nat) : CbsData where
  toReservation := res
  remainingTicks := res.budgetTicks
  deadlineTicks := add64 now res.periodTicks
  lastStartTicks := 0
  depletedCount := 0
  replenishCount := 0
  wakeReplenishCount := 0
  lateAccountCount := 0

end CbsData

/-! ### The run queue -/

section

variable (ctl : SchedControl)

def cbsIsCurrent (t : Tid) : Bool := ctl.isCurrent t

def cbsIsActive (t : Tid) : Bool := ctl.isActive t

def cbsIsQueued (p : CbsState) (t : Tid) : Bool := t ∈ p.priv.runqueue

def cbsQueueRemove (t : Tid) (p : CbsState) : CbsState :=
  if cbsIsQueued p t then
    { p with priv := { p.priv with runqueue := p.priv.runqueue.erase t } }
  else p

def cbsQueueInsert (t : Tid) (p : CbsState) : CbsState :=
  let p := if cbsIsQueued p t then cbsQueueRemove t p else p
  { p with priv := { p.priv with
      runqueue := Queue.insertBefore
        (fun u => (p.data t).deadlineTicks < (p.data u).deadlineTicks) t p.priv.runqueue } }

variable (now : Nat)

def cbsAccountRuntime (t : Tid) (p : CbsState) : CbsState :=
  if ctl.isIdleThread t || !(ctl.thread t).isRunning || decide ((p.data t).lastStartTicks = 0) ||
      decide (now ≤ (p.data t).lastStartTicks) then p
  else p.updData t (·.account now)

def cbsRefreshThread (t : Tid) (p : CbsState) : CbsState :=
  if cbsIsActive ctl t then cbsQueueInsert t (p.updData t (·.refreshActiveWindow now)) else p

/-- A queued server whose window `cbs_refresh_queues` has to renew. -/
def cbsIsStale (d : CbsData) : Bool :=
  d.remainingTicks = 0 || d.deadlineTicks ≤ now

/-- The body of the walk in `cbs_refresh_queues`. -/
def cbsRefreshQueued (t : Tid) (p : CbsState) : CbsState :=
  if cbsIsStale now (p.data t) then cbsRefreshThread ctl now t (cbsQueueRemove t p) else p

/-- `cbs_refresh_queues`: a renewed server can move behind the cursor and be met once more. -/
def cbsRefreshQueues (p : CbsState) : CbsState :=
  Queue.forEachSafe (·.priv.runqueue) (cbsRefreshQueued ctl now)
    (2 * p.priv.runqueue.length) p.priv.runqueue.head? p

/-! ### The local timer -/

/-- The time at which `running` needs EL2 again; 0 for no timer. -/
def cbsTimeout (running : Option Tid) (p : CbsState) : Nat :=
  let timeout := match running with
    | some t =>
      if ctl.isIdleThread t then 0
      else
        let d := p.data t
        if d.remainingTicks > 0 then
          let due :=
            if d.lastStartTicks ≠ 0 then add64 d.lastStartTicks d.remainingTicks
            else add64 now d.remainingTicks
          if d.deadlineTicks < due then d.deadlineTicks else due
        else now
    | none => 0
  if timeout ≤ now then (if timeout = 0 then 0 else now) else timeout

def cbsProgramLocalTimer (running : Option Tid) (p : CbsState) : CbsState :=
  let timeout := cbsTimeout ctl now running p
  if timeout = p.priv.timerDeadlineTicks then p
  else
    let p :=
      if p.priv.timerDeadlineTicks ≠ 0 then
        { p with tickTimer := p.tickTimer.del, priv := { p.priv with timerDeadlineTicks := 0 } }
      else p
    if timeout ≠ 0 then
      { p with
        tickTimer := p.tickTimer.arm timeout
        priv := { p.priv with timerDeadlineTicks := timeout } }
    else p

end

def cbsProgramTimer (env : Env) (ctl : SchedControl) (running : Option Tid) (p : CbsState) :
    CbsState :=
  if env.here then cbsProgramLocalTimer ctl env.now running p else p

/-! ### Hooks -/

/-- The accounting that `cbs_timer_handler` and `sched_cbs_pick_next` share. -/
def cbsRefreshAll (ctl : SchedControl) (now : Nat) (p : CbsState) : CbsState :=
  let p :=
    if ctl.isIdleThread ctl.currObj then p
    else cbsRefreshThread ctl now ctl.currObj (cbsAccountRuntime ctl now ctl.currObj p)
  cbsRefreshQueues ctl now p

def cbsTimerHandler (now : Nat) (ctl : SchedControl) (p : CbsState) : CbsState × Bool :=
  let p := { p with priv := { p.priv with timerDeadlineTicks := 0 } }
  let p := cbsRefreshAll ctl now p
  (cbsProgramLocalTimer ctl now (some ctl.currObj) p, true)

/-- The earliest deadline leaves the run queue; idle runs if the queue is empty. -/
def cbsTakeFirst (ctl : SchedControl) (p : CbsState) : Tid × CbsState :=
  match p.priv.runqueue with
  | first :: _ => (first, cbsQueueRemove first p)
  | [] => (ctl.idle, p)

def schedCbsPickNext (now : Nat) (ctl : SchedControl) (p : CbsState) : Tid × CbsState :=
  let (next, p) := cbsTakeFirst ctl (cbsRefreshAll ctl now p)
  let p :=
    if ctl.isIdleThread next then p
    else p.updData next fun d => { d with lastStartTicks := now }
  (next, cbsProgramLocalTimer ctl now (some next) p)

def schedCbsSleep (env : Env) (ctl : SchedControl) (t : Tid) (p : CbsState) : CbsState :=
  let p := if cbsIsCurrent ctl t then cbsAccountRuntime ctl env.now t p else p
  let p := cbsQueueRemove t p
  let p := p.updData t fun d => { d with lastStartTicks := 0 }
  cbsProgramTimer env ctl (if cbsIsCurrent ctl t then none else some ctl.currObj) p

def schedCbsWake (env : Env) (ctl : SchedControl) (t : Tid) (p : CbsState) : CbsState :=
  let p := p.updData t fun d => { d.applyInactiveWakeRule env.now with lastStartTicks := 0 }
  cbsProgramTimer env ctl (some ctl.currObj) (cbsQueueInsert t p)

def schedCbsPrioritize (now : Nat) (ctl : SchedControl) (t : Tid) (p : CbsState) : CbsState :=
  let p := p.updData t (·.refreshActiveWindow now)
  if cbsIsCurrent ctl t then p else cbsQueueInsert t p

def schedCbs : AcrnScheduler CbsData CbsControl where
  pickNext := schedCbsPickNext
  sleep := some schedCbsSleep
  wake := some schedCbsWake
  prioritize := some schedCbsPrioritize
  timerHandler := cbsTimerHandler

/-- `sched_cbs_init`: an empty run queue and no armed timer. -/
def CbsControl.init : CbsControl := ⟨[], 0⟩

end BeauOs.Sched

/-
The software timers of one pCPU: `core/timer.c`.

Every pCPU keeps its timers on one list, earliest deadline first, and programs the
architecture timer for the head.  `timer_softirq` walks the list from the head, unlinks each
expired timer, runs its callback and links it again if it is periodic.

A callback may itself add, delete and update timers of the pCPU, also the one it runs for
and the one the walk has saved as the next.  What it does to the timers is all that counts
here, so a callback is the list of calls it makes; which calls these are may differ from one
run to the next, and `Callbacks.calls k` are those of the run with number `k`.  The clock is
read once at the start and once for every periodic timer, and may show anything.

The list is the intrusive one of `lib/list.h`: nodes are the timers and the head, and the
links are written whether or not they form a list.  A walk that does not come back to the
head within the number of timers there are never does, and has no result.
-/
import BeauOs.Lib.Ring
import BeauOs.Sched.Thread

namespace BeauOs.Timer

open BeauOs.Sched (usToTicks)

def maxTimerActions : Nat := 32

def minTimerPeriodUs : Nat := 500

inductive TickMode
  | oneshot
  | periodic
  deriving DecidableEq, Repr

/-- `struct hv_timer` without its list node. -/
structure HvTimer where
  mode : TickMode
  timeout : Nat
  periodInCycle : Nat
  /-- `func != NULL` -/
  hasFunc : Bool
  deriving DecidableEq, Repr

namespace HvTimer

/-- `initialize_timer` and `update_timer` without the node and the callback. -/
def set (timer : HvTimer) (timeout period : Nat) : HvTimer :=
  if period > 0 then { timer with timeout := timeout, mode := .periodic, periodInCycle := period }
  else { timer with timeout := timeout, mode := .oneshot, periodInCycle := 0 }

def advancePeriodic (timer : HvTimer) (now : Nat) : HvTimer :=
  let next := add64 timer.timeout timer.periodInCycle
  let next :=
    if next ≤ now then
      let missed := add64 ((now - next) / timer.periodInCycle) 1
      let next := add64 next (mul64 missed timer.periodInCycle)
      if next ≤ now then add64 now timer.periodInCycle else next
    else next
  { timer with timeout := next }

end HvTimer

/-- A list node: a timer, or the head for `none`. -/
abbrev Node (n : Nat) := Option (Fin n)

/-- The timers there are, the links between them and what the hardware is set to. -/
structure PcpuTimers (n : Nat) where
  timer : Fin n → HvTimer
  links : Ring.Links (Node n)
  /-- the last `arch_set_timer_count` -/
  archCount : Option Nat
  tickrate : Nat

variable {n : Nat}

namespace PcpuTimers

variable (s : PcpuTimers n)

def updTimer (t : Fin n) (f : HvTimer → HvTimer) : PcpuTimers n :=
  { s with timer := Function.update s.timer t (f (s.timer t)) }

@[simp] theorem updTimer_self (t : Fin n) (f : HvTimer → HvTimer) :
    (s.updTimer t f).timer t = f (s.timer t) := by simp [updTimer]

theorem updTimer_of_ne {t u : Fin n} (f : HvTimer → HvTimer) (h : u ≠ t) :
    (s.updTimer t f).timer u = s.timer u := by simp [updTimer, h]

end PcpuTimers

/-! ### The list -/

section

variable (s : PcpuTimers n)

def timerIsStarted (t : Fin n) : Bool := !s.links.isAlone (some t)

def updateArchitectureTimer : PcpuTimers n :=
  match s.links.next none with
  | some t => { s with archCount := some (s.timer t).timeout }
  | none => s

/-- The node stands for a timer that expires before `tsc`. -/
def expiresBefore (tsc : Nat) : Node n → Bool
  | some u => (s.timer u).timeout < tsc
  | none => false

/-- `local_add_timer`: behind the last timer that expires earlier; whether that is the head. -/
def localAddTimer (t : Fin n) : Option (PcpuTimers n × Bool) :=
  (s.links.lastWhile none (expiresBefore s (s.timer t).timeout) (n + 1) (s.links.next none)
    none).map fun prev =>
      ({ s with links := s.links.insertAfter (some t) prev }, prev.isNone)

/-- The check of `add_timer`. -/
def accepts (t : Fin n) : Bool :=
  (s.timer t).hasFunc && decide ((s.timer t).timeout ≠ 0)

/-- `add_timer`, without its assertion that the timer is not linked, which stops the hypervisor. -/
def addTimer (t : Fin n) : Option (PcpuTimers n × Int) :=
  if accepts s t then
    let s := s.updTimer t fun timer =>
      if timer.mode = .periodic then
        { timer with periodInCycle := max timer.periodInCycle (usToTicks s.tickrate minTimerPeriodUs) }
      else timer
    (localAddTimer s t).map fun added =>
      (if added.2 then updateArchitectureTimer added.1 else added.1, 0)
  else some (s, -22)

/-- `update_timer`; a linked timer stays where it is. -/
def updateTimer (t : Fin n) (timeout period : Nat) : PcpuTimers n :=
  s.updTimer t fun timer => timer.set timeout period

def delTimer (t : Fin n) : PcpuTimers n :=
  if timerIsStarted s t then { s with links := s.links.remove (some t) } else s

/-! ### Callbacks -/

inductive TimerCall (n : Nat)
  | add (t : Fin n)
  | del (t : Fin n)
  | update (t : Fin n) (timeout period : Nat)
  deriving DecidableEq

/-- What happened to the timers, in order. -/
inductive TimerEvent (n : Nat)
  /-- `add_timer` accepted the timer -/
  | added (t : Fin n)
  /-- `del_timer` was called -/
  | deleted (t : Fin n)
  /-- the callback ran; whether the timer was linked, its deadline and `current_tsc` -/
  | ran (t : Fin n) (linked : Bool) (timeout tsc : Nat)
  /-- the timer was taken off the list without a callback -/
  | skipped (t : Fin n)
  /-- a periodic timer was linked again -/
  | requeued (t : Fin n)
  deriving DecidableEq

def TimerCall.run : TimerCall n → Option (PcpuTimers n × List (TimerEvent n))
  | .add t => (addTimer s t).map fun added => (added.1, if added.2 = 0 then [.added t] else [])
  | .del t => some (delTimer s t, [.deleted t])
  | .update t timeout period => some (updateTimer s t timeout period, [])

end

def runCalls : List (TimerCall n) → PcpuTimers n × List (TimerEvent n) →
    Option (PcpuTimers n × List (TimerEvent n))
  | [], acc => some acc
  | call :: rest, acc => do
    let (s, events) ← call.run acc.1
    runCalls rest (s, acc.2 ++ events)

/-- What the outside does during one softirq. -/
structure Callbacks (n : Nat) where
  /-- the calls of the callback that runs as number `k` -/
  calls : Nat → List (TimerCall n)
  /-- `cpu_ticks()` at its reading number `k` -/
  clock : Nat → Nat

/-! ### The softirq -/

/-- The variables of `timer_softirq` and what it has done. -/
structure Softirq (n : Nat) where
  timers : PcpuTimers n
  currentTsc : Nat
  runs : Nat
  /-- clock readings made -/
  reads : Nat
  trace : List (TimerEvent n)

/-- `run_timer` for a timer that is already unlinked. -/
def runTimer (env : Callbacks n) (t : Fin n) (linked : Bool) (x : Softirq n) :
    Option (Softirq n) :=
  if accepts x.timers t then
    let ran := TimerEvent.ran t linked (x.timers.timer t).timeout x.currentTsc
    (runCalls (env.calls x.runs) (x.timers, x.trace ++ [ran])).map fun done =>
      { x with timers := done.1, trace := done.2, runs := x.runs + 1 }
  else some { x with trace := x.trace ++ [.skipped t] }

/-- After the callback: a timer it has linked stays, a periodic one is linked again. -/
def recycleTimer (env : Callbacks n) (t : Fin n) (x : Softirq n) : Option (Softirq n) :=
  if timerIsStarted x.timers t then some x
  else if (x.timers.timer t).mode = .periodic then
    let now := env.clock x.reads
    (localAddTimer (x.timers.updTimer t (·.advancePeriodic now)) t).map fun added =>
      { x with
        timers := added.1
        currentTsc := now
        reads := x.reads + 1
        trace := x.trace ++ [.requeued t] }
  else some { x with timers := x.timers.updTimer t fun timer => { timer with timeout := 0 } }

def dispatchTimer (env : Callbacks n) (t : Fin n) (x : Softirq n) : Option (Softirq n) := do
  let linked := timerIsStarted x.timers t
  let x ← runTimer env t linked { x with timers := delTimer x.timers t }
  recycleTimer env t x

/--
The loop of `timer_softirq`.  The next node is read before the callback runs, and again from
where it is linked by then; `tries` counts down before it is tested.
-/
def softirqLoop (env : Callbacks n) : Nat → Node n → Node n → Softirq n → Option (Softirq n)
  | 0, _, _, x => some x
  | _ + 1, none, _, x => some x
  | tries + 1, some t, next, x =>
    if (x.timers.timer t).timeout ≤ x.currentTsc ∧ tries ≠ 0 then do
      let x ← dispatchTimer env t x
      softirqLoop env tries next (x.timers.links.next next) x
    else some x

/-- The state `timer_softirq` starts its loop in. -/
def Softirq.start (env : Callbacks n) (s : PcpuTimers n) : Softirq n := ⟨s, env.clock 0, 0, 1, []⟩

def timerSoftirq (env : Callbacks n) (s : PcpuTimers n) : Option (Softirq n) :=
  let pos := s.links.next none
  (softirqLoop env maxTimerActions pos (s.links.next pos) (.start env s)).map fun x =>
    { x with timers := updateArchitectureTimer x.timers }

end BeauOs.Timer

/-
The timers of a vCPU: `arch/arm64/guest/vtimer.c`.

A guest has a virtual timer (CNTV) and a physical one (CNTP).  Here are the shadow registers of
both, what a trapped access does to them, and the host timers that follow them: `cntv_timer`, the
backup of the live virtual timer, and `cntp_timer`, which is all there is of the physical one.  A
host timer is the deadline it is armed for, zero if it is not armed, as `add_timer` refuses that.

The counter is read several times in a call, and `ticks k` is its reading number `k`.  The live
registers of the virtual timer are a copy of the shadow ones and left out.
-/
import BeauOs.Pm.Transaction

namespace BeauOs.Guest

open BeauOs.Pm (eInval)

def ctlEnable : BitVec 32 := 1#32

def ctlImask : BitVec 32 := 2#32

def ctlIstatus : BitVec 32 := 4#32

inductive TimerReg
  | cntpct
  | cntvct
  | cntpCtl
  | cntpCval
  | cntpTval
  | cntvCtl
  | cntvCval
  | cntvTval
  deriving DecidableEq

def sysregEnc (op0 op1 crn crm op2 : Nat) : Nat :=
  op0 <<< 20 ||| op2 <<< 17 ||| op1 <<< 14 ||| crn <<< 10 ||| crm <<< 1

def TimerReg.sysreg : TimerReg → Nat
  | .cntpct => sysregEnc 3 3 14 0 1
  | .cntvct => sysregEnc 3 3 14 0 2
  | .cntpCtl => sysregEnc 3 3 14 2 1
  | .cntpCval => sysregEnc 3 3 14 2 2
  | .cntpTval => sysregEnc 3 3 14 2 0
  | .cntvCtl => sysregEnc 3 3 14 3 1
  | .cntvCval => sysregEnc 3 3 14 3 2
  | .cntvTval => sysregEnc 3 3 14 3 0

def TimerReg.decode (sysreg : Nat) : Option TimerReg :=
  [.cntpct, .cntvct, .cntpCtl, .cntpCval, .cntpTval, .cntvCtl, .cntvCval, .cntvTval].find?
    fun reg => reg.sysreg = sysreg

/-- The timer fields of a vCPU. -/
structure Vtimer where
  cntvoffEl2 : BitVec 64
  cntpCtlEl0 : BitVec 32
  cntpCvalEl0 : BitVec 64
  cntvCtlEl0 : BitVec 32
  cntvCvalEl0 : BitVec 64
  cntvTimerInitialized : Bool
  cntpTimerInitialized : Bool
  cntvTimer : BitVec 64
  cntpTimer : BitVec 64
  /-- whether PPI 30 is asserted in the vGIC -/
  physicalLine : Bool
  deriving DecidableEq

def vtimerVirtualNow (v : Vtimer) (ticks : BitVec 64) : BitVec 64 := ticks - v.cntvoffEl2

def vtimerVirtualDeadline (v : Vtimer) (guestCval : BitVec 64) : BitVec 64 :=
  guestCval + v.cntvoffEl2

variable (ctl : BitVec 32)

def vtimerCtlEnabled : Bool :=
  ctl &&& ctlEnable != 0#32 && ctl &&& ctlImask == 0#32

/-- `(int64_t)(cval - now) <= 0L` -/
def vtimerDue (cval now : BitVec 64) : Bool := (cval - now).sle 0#64

def vtimerSourceExpired (cval now : BitVec 64) : Bool :=
  vtimerCtlEnabled ctl && vtimerDue cval now

def vtimerVirtualExpired (v : Vtimer) (ticks : BitVec 64) : Bool :=
  vtimerSourceExpired v.cntvCtlEl0 v.cntvCvalEl0 (vtimerVirtualNow v ticks)

def vtimerPhysicalExpired (v : Vtimer) (ticks : BitVec 64) : Bool :=
  vtimerSourceExpired v.cntpCtlEl0 v.cntpCvalEl0 ticks

def vtimerCtlValue (cval now : BitVec 64) : BitVec 32 :=
  let value := ctl &&& (ctlEnable ||| ctlImask)
  if value &&& ctlEnable ≠ 0#32 ∧ vtimerDue cval now = true then value ||| ctlIstatus else value

/-- `cntp_timer_update`; `cntp_timer_handler` reads the counter once more. -/
def cntpTimerUpdate (running : Bool) (ticks : Nat → BitVec 64) (deassertInactive : Bool)
    (v : Vtimer) : Vtimer :=
  if !v.cntpTimerInitialized then v
  else if !vtimerCtlEnabled v.cntpCtlEl0 then
    { v with cntpTimer := 0, physicalLine := v.physicalLine && !deassertInactive }
  else if vtimerDue v.cntpCvalEl0 (ticks 2) then
    { v with
      cntpTimer := 0
      physicalLine := v.physicalLine || running && vtimerPhysicalExpired v (ticks 3) }
  else
    { v with cntpTimer := v.cntpCvalEl0, physicalLine := v.physicalLine && !deassertInactive }

/-- `cntv_timer_arm`; a deadline that is due already is caught up with at the next tick. -/
def cntvTimerArm (ticks : BitVec 64) (v : Vtimer) : Vtimer :=
  if !v.cntvTimerInitialized then v
  else
    let deadline := vtimerVirtualDeadline v v.cntvCvalEl0
    if !vtimerCtlEnabled v.cntvCtlEl0 then { v with cntvTimer := 0 }
    else { v with cntvTimer := if vtimerDue deadline ticks then ticks + 1 else deadline }

/-- The value a read of `arm64_vtimer_handle_sysreg` stores. -/
def Vtimer.read (v : Vtimer) (ticks : Nat → BitVec 64) (reg : TimerReg) : BitVec 64 :=
  let cntvNow := vtimerVirtualNow v (ticks 0)
  let cntpNow := ticks 1
  match reg with
  | .cntpct => cntpNow
  | .cntvct => vtimerVirtualNow v (ticks 2)
  | .cntpCtl => (vtimerCtlValue v.cntpCtlEl0 v.cntpCvalEl0 cntpNow).setWidth 64
  | .cntvCtl => (vtimerCtlValue v.cntvCtlEl0 v.cntvCvalEl0 cntvNow).setWidth 64
  | .cntpCval => v.cntpCvalEl0
  | .cntvCval => v.cntvCvalEl0
  | .cntpTval => ((v.cntpCvalEl0 - cntpNow).setWidth 32).setWidth 64
  | .cntvTval => ((v.cntvCvalEl0 - cntvNow).setWidth 32).setWidth 64

/-- What a write of `arm64_vtimer_handle_sysreg` does; the counters cannot be written. -/
def Vtimer.write (v : Vtimer) (running : Bool) (ticks : Nat → BitVec 64) (reg : TimerReg)
    (value : BitVec 64) : Option Vtimer :=
  let ctl := (value.setWidth 32) &&& (ctlEnable ||| ctlImask)
  let offset := (value.setWidth 32).signExtend 64
  let syncPhysical := cntpTimerUpdate running ticks true
  let syncVirtual := cntvTimerArm (ticks 2)
  match reg with
  | .cntpct | .cntvct => none
  | .cntpCtl => some (syncPhysical { v with cntpCtlEl0 := ctl })
  | .cntvCtl => some (syncVirtual { v with cntvCtlEl0 := ctl })
  | .cntpCval => some (syncPhysical { v with cntpCvalEl0 := value })
  | .cntvCval => some (syncVirtual { v with cntvCvalEl0 := value })
  | .cntpTval => some (syncPhysical { v with cntpCvalEl0 := ticks 1 + offset })
  | .cntvTval => some (syncVirtual { v with cntvCvalEl0 := vtimerVirtualNow v (ticks 0) + offset })

/-- `arm64_vtimer_handle_sysreg`; `reg` is absent for the register XZR. -/
def arm64VtimerHandleSysreg (running : Bool) (ticks : Nat → BitVec 64) (sysreg : Nat)
    (read : Bool) (reg : Option (BitVec 64)) (v : Vtimer) : Vtimer × Option (BitVec 64) × Int :=
  match TimerReg.decode sysreg with
  | none => (v, reg, -eInval)
  | some r =>
    if read then (v, reg.map fun _ => v.read ticks r, 0)
    else
      match v.write running ticks r (reg.getD 0#64) with
      | none => (v, reg, -eInval)
      | some v => (v, reg, 0)

end BeauOs.Guest

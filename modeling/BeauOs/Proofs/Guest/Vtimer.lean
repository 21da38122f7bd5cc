/-
The comparison of the emulated timers.

The architecture fires a timer once the counter, as the guest sees it, is at or above the compare
value, both unsigned.  The code takes the sign of their difference instead, and the two agree as
long as neither value is more than half the range ahead of the other (`vtimerDue_iff_le`).  A guest
that parks a timer at the largest compare value is not: its timer fires at once.

Main result: **`timer_law_iff`**, what both timers do is what the architecture says if and only if
the compare value of every enabled one is near its counter, and the counter does not wrap while the
backup timer catches up.
-/
import BeauOs.Guest.Vtimer
import Mathlib.Tactic.SplitIfs

namespace BeauOs.Guest

/-! ### The architecture -/

inductive TimerKind
  | physical
  | virtual

def Vtimer.ctl (v : Vtimer) : TimerKind → BitVec 32
  | .physical => v.cntpCtlEl0
  | .virtual => v.cntvCtlEl0

def Vtimer.cval (v : Vtimer) : TimerKind → BitVec 64
  | .physical => v.cntpCvalEl0
  | .virtual => v.cntvCvalEl0

/-- The counter the timer is compared with in a call. -/
def Vtimer.view (v : Vtimer) (ticks : Nat → BitVec 64) : TimerKind → BitVec 64
  | .physical => ticks 1
  | .virtual => ticks 0 - v.cntvoffEl2

def TimerKind.ctlReg : TimerKind → TimerReg
  | .physical => .cntpCtl
  | .virtual => .cntvCtl

def TimerKind.cvalReg : TimerKind → TimerReg
  | .physical => .cntpCval
  | .virtual => .cntvCval

def TimerKind.tvalReg : TimerKind → TimerReg
  | .physical => .cntpTval
  | .virtual => .cntvTval

/-- The test by which the code decides whether to assert the interrupt of the timer. -/
def Vtimer.expired (v : Vtimer) (ticks : Nat → BitVec 64) : TimerKind → Bool
  | .physical => vtimerPhysicalExpired v (ticks 1)
  | .virtual => vtimerVirtualExpired v (ticks 0)

variable (ctl : BitVec 32)

/-- The timer condition of the architecture. -/
def Fires (cval now : BitVec 64) : Prop :=
  ctl &&& ctlEnable ≠ 0#32 ∧ cval.toNat ≤ now.toNat

/-- What the architecture says of the timers, for every access the guest makes. -/
structure TimerLaw (running : Bool) (ticks : Nat → BitVec 64) (v : Vtimer) : Prop where
  /-- ISTATUS is reported exactly when the condition holds -/
  status : ∀ t old, ∃ value,
    arm64VtimerHandleSysreg running ticks t.ctlReg.sysreg true (some old) v = (v, some value, 0) ∧
      (value.getLsbD 2 = true ↔ Fires (v.ctl t) (v.cval t) (v.view ticks t))
  /-- and the test for the interrupt holds when it is not masked either -/
  interrupt : ∀ t, v.expired ticks t = true ↔
    Fires (v.ctl t) (v.cval t) (v.view ticks t) ∧ v.ctl t &&& ctlImask = 0#32
  ctlWrite : ∀ t value, ∃ v',
    arm64VtimerHandleSysreg running ticks t.ctlReg.sysreg false (some value) v =
        (v', some value, 0) ∧
      v'.ctl t = value.setWidth 32 &&& (ctlEnable ||| ctlImask) ∧ v'.cval t = v.cval t
  cvalWrite : ∀ t value, ∃ v',
    arm64VtimerHandleSysreg running ticks t.cvalReg.sysreg false (some value) v =
        (v', some value, 0) ∧
      v'.ctl t = v.ctl t ∧ v'.cval t = value
  tvalWrite : ∀ t value, ∃ v',
    arm64VtimerHandleSysreg running ticks t.tvalReg.sysreg false (some value) v =
        (v', some value, 0) ∧
      v'.ctl t = v.ctl t ∧ v'.cval t = v.view ticks t + (value.setWidth 32).signExtend 64
  tvalRead : ∀ t old,
    arm64VtimerHandleSysreg running ticks t.tvalReg.sysreg true (some old) v =
      (v, some (((v.cval t - v.view ticks t).setWidth 32).setWidth 64), 0)
  /-- the backup timer comes at a time at which the interrupt is to be asserted -/
  armed : v.cntvTimerInitialized = true → (cntvTimerArm (ticks 2) v).cntvTimer ≠ 0#64 →
    Fires v.cntvCtlEl0 v.cntvCvalEl0
        (vtimerVirtualNow v (cntvTimerArm (ticks 2) v).cntvTimer) ∧
      v.cntvCtlEl0 &&& ctlImask = 0#32

/-! ### The signed difference -/

/-- Neither value is more than half the range ahead. -/
def Near (cval now : BitVec 64) : Prop :=
  cval.toNat < now.toNat + 2 ^ 63 ∧ now.toNat ≤ cval.toNat + 2 ^ 63

theorem vtimerDue_iff (cval now : BitVec 64) :
    vtimerDue cval now = true ↔
      cval = now ∨ cval.toNat < now.toNat ∧ now.toNat ≤ cval.toNat + 2 ^ 63 ∨
        now.toNat + 2 ^ 63 ≤ cval.toNat := by
  have hc := cval.isLt
  have hn := now.isLt
  rw [vtimerDue, BitVec.sle_iff_toInt_le, BitVec.toInt_zero, BitVec.toInt_eq_toNat_cond,
    BitVec.toNat_sub, ← BitVec.toNat_inj]
  split <;> omega

theorem vtimerDue_iff_le (cval now : BitVec 64) :
    (vtimerDue cval now = true ↔ cval.toNat ≤ now.toNat) ↔ Near cval now := by
  have hc := cval.isLt
  have hn := now.isLt
  rw [vtimerDue_iff, Near, ← BitVec.toNat_inj]
  omega

theorem vtimerCtlEnabled_iff :
    vtimerCtlEnabled ctl = true ↔ ctl &&& ctlEnable ≠ 0#32 ∧ ctl &&& ctlImask = 0#32 := by
  simp [vtimerCtlEnabled]

theorem vtimerCtlValue_status (cval now : BitVec 64) :
    ((vtimerCtlValue ctl cval now).setWidth 64).getLsbD 2 = true ↔
      ctl &&& ctlEnable ≠ 0#32 ∧ vtimerDue cval now = true := by
  have henable : ctl &&& (ctlEnable ||| ctlImask) &&& ctlEnable = ctl &&& ctlEnable := by
    rw [BitVec.and_assoc]
    rfl
  simp only [vtimerCtlValue, henable]
  split
  next h => simp [h, ctlIstatus]
  next h => simpa [ctlEnable, ctlImask] using h

theorem TimerReg.decode_sysreg (reg : TimerReg) : TimerReg.decode reg.sysreg = some reg := by
  cases reg <;> rfl

theorem cntpTimerUpdate_regs (running : Bool) (ticks : Nat → BitVec 64) (deassert : Bool)
    (v : Vtimer) : (cntpTimerUpdate running ticks deassert v).cntpCtlEl0 = v.cntpCtlEl0 ∧
      (cntpTimerUpdate running ticks deassert v).cntpCvalEl0 = v.cntpCvalEl0 := by
  unfold cntpTimerUpdate
  split_ifs <;> exact ⟨rfl, rfl⟩

theorem cntvTimerArm_regs (ticks : BitVec 64) (v : Vtimer) :
    (cntvTimerArm ticks v).cntvCtlEl0 = v.cntvCtlEl0 ∧
      (cntvTimerArm ticks v).cntvCvalEl0 = v.cntvCvalEl0 := by
  unfold cntvTimerArm
  split_ifs <;> exact ⟨rfl, rfl⟩

theorem handleSysreg_write {running : Bool} {ticks : Nat → BitVec 64} {reg : TimerReg}
    {value : BitVec 64} {v v' : Vtimer} (h : v.write running ticks reg value = some v') :
    arm64VtimerHandleSysreg running ticks reg.sysreg false (some value) v = (v', some value, 0) := by
  rw [arm64VtimerHandleSysreg, TimerReg.decode_sysreg]
  simp [h]

/-! ### The backup timer -/

/-- The catch-up is before the wrap of the guest's counter. -/
def CatchesUp (cval now : BitVec 64) : Prop :=
  cval.toNat < now.toNat + 2 ^ 63 ∧ (now.toNat + 1 = 2 ^ 64 → cval.toNat + 1 < 2 ^ 63)

theorem vtimerDue_deadline (v : Vtimer) (cval ticks : BitVec 64) :
    vtimerDue (vtimerVirtualDeadline v cval) ticks = vtimerDue cval (vtimerVirtualNow v ticks) := by
  unfold vtimerDue vtimerVirtualDeadline vtimerVirtualNow
  congr 1
  bv_omega

/-- Where the backup timer is armed for, the compare value has been reached. -/
theorem cntvTimerArm_reached {v : Vtimer} {ticks : BitVec 64}
    (hinit : v.cntvTimerInitialized = true) (hon : vtimerCtlEnabled v.cntvCtlEl0 = true) :
    ((cntvTimerArm ticks v).cntvTimer ≠ 0#64 →
        v.cntvCvalEl0.toNat ≤ (vtimerVirtualNow v (cntvTimerArm ticks v).cntvTimer).toNat) ↔
      (ticks + 1 ≠ 0#64 → CatchesUp v.cntvCvalEl0 (vtimerVirtualNow v ticks)) := by
  have hc := v.cntvCvalEl0.isLt
  have hn := (vtimerVirtualNow v ticks).isLt
  simp only [cntvTimerArm, hinit, hon, Bool.not_true, Bool.false_eq_true, if_false,
    vtimerDue_deadline]
  split
  next hdue =>
    have hnext : vtimerVirtualNow v (ticks + 1) = vtimerVirtualNow v ticks + 1 := by
      unfold vtimerVirtualNow
      bv_omega
    have hone : (1 : BitVec 64).toNat = 1 := rfl
    rw [hnext, BitVec.toNat_add, hone]
    rw [vtimerDue_iff, ← BitVec.toNat_inj] at hdue
    refine imp_congr Iff.rfl ?_
    unfold CatchesUp
    omega
  next hdue =>
    have hback : vtimerVirtualNow v (vtimerVirtualDeadline v v.cntvCvalEl0) = v.cntvCvalEl0 := by
      unfold vtimerVirtualNow vtimerVirtualDeadline
      bv_omega
    rw [vtimerDue_iff, ← BitVec.toNat_inj] at hdue
    simp only [hback, Nat.le_refl, implies_true, true_iff]
    intro _
    constructor <;> omega

/-! ### The law -/

/-- **The emulated timers follow the architecture if and only if every enabled compare value is
near its counter and the backup timer catches up.** -/
theorem timer_law_iff (running : Bool) (ticks : Nat → BitVec 64) (v : Vtimer) :
    TimerLaw running ticks v ↔
      (∀ t, v.ctl t &&& ctlEnable ≠ 0#32 → Near (v.cval t) (v.view ticks t)) ∧
        (v.cntvTimerInitialized = true → vtimerCtlEnabled v.cntvCtlEl0 = true →
          ticks 2 + 1 ≠ 0#64 → CatchesUp v.cntvCvalEl0 (vtimerVirtualNow v (ticks 2))) := by
  have hread : ∀ t old, arm64VtimerHandleSysreg running ticks t.ctlReg.sysreg true (some old) v =
      (v, some ((vtimerCtlValue (v.ctl t) (v.cval t) (v.view ticks t)).setWidth 64), 0) := by
    intro t old
    cases t <;> rw [arm64VtimerHandleSysreg, TimerReg.decode_sysreg] <;> rfl
  constructor
  · intro h
    refine ⟨fun t hon => ?_, fun hinit hon => (cntvTimerArm_reached hinit hon).1 fun hne =>
      (h.armed hinit hne).1.2⟩
    obtain ⟨value, heq, hstatus⟩ := h.status t 0#64
    rw [hread] at heq
    cases heq
    rw [vtimerCtlValue_status, Fires, and_congr_right_iff] at hstatus
    exact (vtimerDue_iff_le _ _).1 (hstatus hon)
  · rintro ⟨hnear, hcatch⟩
    have hdue : ∀ t, v.ctl t &&& ctlEnable ≠ 0#32 ∧
        vtimerDue (v.cval t) (v.view ticks t) = true ↔
          Fires (v.ctl t) (v.cval t) (v.view ticks t) := fun t =>
      and_congr_right fun hon => (vtimerDue_iff_le _ _).2 (hnear t hon)
    refine ⟨fun t old => ⟨_, hread t old, (vtimerCtlValue_status _ _ _).trans (hdue t)⟩,
      fun t => ?_, fun t value => ?_, fun t value => ?_, fun t value => ?_, ?_, ?_⟩
    · have hsource : v.expired ticks t =
          vtimerSourceExpired (v.ctl t) (v.cval t) (v.view ticks t) := by
        cases t <;> rfl
      rw [hsource, vtimerSourceExpired, Bool.and_eq_true, vtimerCtlEnabled_iff, ← hdue]
      exact and_right_comm
    iterate 3
      cases t
      · exact ⟨_, handleSysreg_write rfl, cntpTimerUpdate_regs ..⟩
      · exact ⟨_, handleSysreg_write rfl, cntvTimerArm_regs ..⟩
    · intro t old
      cases t <;> rw [arm64VtimerHandleSysreg, TimerReg.decode_sysreg] <;> rfl
    · intro hinit hne
      by_cases hon : vtimerCtlEnabled v.cntvCtlEl0 = true
      · obtain ⟨henable, hmask⟩ := (vtimerCtlEnabled_iff _).1 hon
        exact ⟨⟨henable, (cntvTimerArm_reached hinit hon).2 (hcatch hinit hon) hne⟩, hmask⟩
      · exact absurd (by simp [cntvTimerArm, hinit, hon]) hne

/-- A virtual timer that is never to fire reports its condition right after boot. -/
theorem parked_timer_fires :
    ∃ v : Vtimer, v.cval .virtual = BitVec.allOnes 64 ∧ v.view (fun _ => 0#64) .virtual = 0#64 ∧
      (arm64VtimerHandleSysreg true (fun _ => 0#64) TimerReg.cntvCtl.sysreg true (some 0#64) v).2 =
        (some (5#64), 0) ∧
      ¬TimerLaw true (fun _ => 0#64) v := by
  refine ⟨⟨0, 0, 0, ctlEnable, BitVec.allOnes 64, true, true, 0, 0, false⟩, rfl, rfl, rfl, ?_⟩
  intro h
  have hreached := ((h.interrupt .virtual).1 (by decide)).1.2
  exact absurd hreached (by decide)

end BeauOs.Guest

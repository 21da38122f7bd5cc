/-
One CBS server: what charging, replenishing and waking do to its budget and deadline.

Charging and replenishing move the deadline by whole periods.  `chargeWindows` and
`windowsPast` say how many, and the two loops of the source are shown to take exactly
that many rounds, as long as the deadline does not run into the end of the 64-bit clock.

The bandwidth bound rests on one quantity.  Write c for the ticks charged so far, r for
the budget left, d for the deadline and t₀ for the time the server was set up.  Then
(c + r) · T ≤ Q · (d - t₀) after every operation.  A charge keeps both sides in step: each
window adds Q to c + r and T to d.  A fresh window from `now` needs c · T ≤ Q · (now - t₀),
which follows from the old bound if the old deadline has passed, and from the density
test, r · T > Q · (d - now), if it has not.
-/
import BeauOs.Lib.Run
import BeauOs.Sched.Cbs
import Mathlib.Tactic.Ring
import Mathlib.Tactic.Linarith

namespace BeauOs.Sched

namespace CbsData

theorem period_pos (d : CbsData) : 0 < d.periodTicks :=
  Nat.lt_of_lt_of_le d.budget_pos d.budget_le_period

variable {d : CbsData} {delta : Nat} (count : Bool)

theorem replenishNextWindow_deadline (h : d.deadlineTicks + d.periodTicks ≤ uint64Max) :
    (d.replenishNextWindow count).deadlineTicks = d.deadlineTicks + d.periodTicks := by
  unfold replenishNextWindow
  exact if_neg (by omega)

/-! ### Charging -/

/-- The number of windows a charge of `delta` ticks opens. -/
def chargeWindows (d : CbsData) (delta : Nat) : Nat :=
  (delta - d.remainingTicks + (d.budgetTicks - 1)) / d.budgetTicks

theorem chargeWindows_eq_zero (h : delta ≤ d.remainingTicks) : d.chargeWindows delta = 0 := by
  have hpos := d.budget_pos
  unfold chargeWindows
  exact Nat.div_eq_of_lt (by omega)

/-- A charge that finds the budget empty opens one window and goes on in it. -/
theorem chargeWindows_open (hempty : d.remainingTicks = 0) (hdelta : delta ≠ 0) :
    d.chargeWindows delta = 1 + (d.replenishNextWindow count).chargeWindows delta := by
  have hpos := d.budget_pos
  show (delta - d.remainingTicks + (d.budgetTicks - 1)) / d.budgetTicks =
    1 + (delta - d.budgetTicks + (d.budgetTicks - 1)) / d.budgetTicks
  rw [hempty, Nat.add_comm 1, ← Nat.add_div_right _ hpos]
  rcases Nat.lt_or_ge delta d.budgetTicks with hlt | hge
  · rw [Nat.div_eq_of_lt_le (k := 1) (by omega) (by omega),
      Nat.div_eq_of_lt_le (k := 1) (by omega) (by omega)]
  · congr 1
    omega

/-- What charging `delta` ticks over `k` new windows does to a server. -/
structure Charged (d d' : CbsData) (delta k : Nat) : Prop where
  reservation : d'.toReservation = d.toReservation
  lastStart : d'.lastStartTicks = d.lastStartTicks
  deadline : d'.deadlineTicks = d.deadlineTicks + k * d.periodTicks
  remaining : d'.remainingTicks + delta = d.remainingTicks + k * d.budgetTicks
  remaining_le : d'.remainingTicks ≤ d.budgetTicks

namespace Charged

variable {d d₁ d₂ : CbsData} {delta₁ delta₂ k₁ k₂ : Nat}

theorem refl (h : d.remainingTicks ≤ d.budgetTicks) : Charged d d 0 0 :=
  ⟨rfl, rfl, by omega, by omega, h⟩

theorem trans (h₁ : Charged d d₁ delta₁ k₁) (h₂ : Charged d₁ d₂ delta₂ k₂) :
    Charged d d₂ (delta₁ + delta₂) (k₁ + k₂) := by
  have hdl := h₂.deadline
  have hrem := h₂.remaining
  have hle := h₂.remaining_le
  rw [h₁.reservation] at hdl hrem hle
  refine ⟨h₂.reservation.trans h₁.reservation, h₂.lastStart.trans h₁.lastStart, ?_, ?_, hle⟩
  · rw [hdl, h₁.deadline, Nat.add_mul]
    omega
  · have h := h₁.remaining
    rw [Nat.add_mul]
    omega

theorem openWindow (count : Bool) (hempty : d.remainingTicks = 0)
    (hsat : d.deadlineTicks + d.periodTicks ≤ uint64Max) :
    Charged d (d.replenishNextWindow count) 0 1 := by
  refine ⟨rfl, rfl, ?_, ?_, Nat.le_refl _⟩
  · rw [replenishNextWindow_deadline count hsat, Nat.one_mul]
  · show d.budgetTicks + 0 = d.remainingTicks + 1 * d.budgetTicks
    omega

theorem within (h : delta₁ ≤ d.remainingTicks) (hle : d.remainingTicks ≤ d.budgetTicks)
    (n : Nat) : Charged d
      { d with remainingTicks := d.remainingTicks - delta₁, depletedCount := n } delta₁ 0 := by
  refine ⟨rfl, rfl, ?_, ?_, ?_⟩
  · show d.deadlineTicks = d.deadlineTicks + 0 * d.periodTicks
    omega
  · show d.remainingTicks - delta₁ + delta₁ = d.remainingTicks + 0 * d.budgetTicks
    omega
  · show d.remainingTicks - delta₁ ≤ d.budgetTicks
    omega

end Charged

theorem chargeLoop_charged :
    ∀ (fuel delta : Nat) (d : CbsData), delta ≤ fuel → d.remainingTicks ≤ d.budgetTicks →
      d.deadlineTicks + d.chargeWindows delta * d.periodTicks ≤ uint64Max →
      Charged d (chargeLoop count fuel delta d) delta (d.chargeWindows delta) := by
  intro fuel
  induction fuel with
  | zero =>
    intro delta d hfuel hrem _
    obtain rfl : delta = 0 := by omega
    rw [chargeWindows_eq_zero (Nat.zero_le _)]
    exact Charged.refl hrem
  | succ fuel ih =>
    intro delta d hfuel hrem hsat
    unfold chargeLoop
    by_cases hzero : delta = 0
    · subst hzero
      rw [if_pos rfl, chargeWindows_eq_zero (Nat.zero_le _)]
      exact Charged.refl hrem
    rw [if_neg hzero]
    -- the round after an empty budget was refilled, which both cases below share
    have round : ∀ d₁ : CbsData, 0 < d₁.remainingTicks → d₁.remainingTicks ≤ d₁.budgetTicks →
        d₁.deadlineTicks + d₁.chargeWindows delta * d₁.periodTicks ≤ uint64Max →
        Charged d₁
          (if delta < d₁.remainingTicks then
            { d₁ with remainingTicks := d₁.remainingTicks - delta }
          else
            chargeLoop count fuel (delta - d₁.remainingTicks)
              { d₁ with
                remainingTicks := 0
                depletedCount :=
                  if count then countEvent d₁.depletedCount else d₁.depletedCount })
          delta (d₁.chargeWindows delta) := by
      intro d₁ hpos hle hsat₁
      by_cases hlt : delta < d₁.remainingTicks
      · rw [if_pos hlt, chargeWindows_eq_zero (Nat.le_of_lt hlt)]
        exact Charged.within (Nat.le_of_lt hlt) hle d₁.depletedCount
      rw [if_neg hlt]
      have hdeplete := Charged.within (Nat.le_refl _) hle
        (if count then countEvent d₁.depletedCount else d₁.depletedCount)
      rw [Nat.sub_self] at hdeplete
      have hrest := hdeplete.trans (ih (delta - d₁.remainingTicks) _ (by omega)
        (Nat.zero_le _) hsat₁)
      rw [Nat.add_sub_cancel' (Nat.le_of_not_lt hlt), Nat.zero_add] at hrest
      exact hrest
    by_cases hempty : d.remainingTicks = 0
    · have hwin := chargeWindows_open count hempty hzero
      rw [hwin, Nat.add_mul, Nat.one_mul] at hsat
      have hopen := Charged.openWindow count hempty (by omega)
      have hround := hopen.trans (round (d.replenishNextWindow count) d.budget_pos
        (Nat.le_refl _) (by
          rw [replenishNextWindow_deadline count (by omega)]
          exact (Nat.add_assoc _ _ _).trans_le hsat))
      rw [Nat.zero_add, ← hwin] at hround
      simpa only [hempty, if_true] using hround
    · simpa only [hempty, if_false] using round d (Nat.pos_of_ne_zero hempty) hrem hsat

/-- **A charge consumes exactly `delta` and opens exactly `chargeWindows` windows.** -/
theorem chargeRuntime_charged (hrem : d.remainingTicks ≤ d.budgetTicks)
    (hsat : d.deadlineTicks + d.chargeWindows delta * d.periodTicks ≤ uint64Max) :
    Charged d (d.chargeRuntime delta count) delta (d.chargeWindows delta) :=
  chargeLoop_charged count delta delta d (Nat.le_refl _) hrem hsat

/-! ### Replenishing -/

/-- The number of periods that bring an empty server's deadline past `now`, at least one. -/
def windowsPast (d : CbsData) (now : Nat) : Nat :=
  if d.deadlineTicks ≤ now then (now - d.deadlineTicks) / d.periodTicks + 1 else 1

theorem windowsPast_pos (d : CbsData) (now : Nat) : 1 ≤ d.windowsPast now := by
  unfold windowsPast
  split
  · exact Nat.le_add_left _ _
  · exact Nat.le_refl _

/-- What a replenishment with deadline `dl` does to a server. -/
structure Replenished (d d' : CbsData) (dl : Nat) : Prop where
  reservation : d'.toReservation = d.toReservation
  lastStart : d'.lastStartTicks = d.lastStartTicks
  deadline : d'.deadlineTicks = dl
  remaining : d'.remainingTicks = d.budgetTicks

theorem replenishFromNow_replenished {now : Nat} (hsat : now + d.periodTicks ≤ uint64Max) :
    Replenished d (d.replenishFromNow now count) (now + d.periodTicks) :=
  ⟨rfl, rfl, add64_eq hsat, rfl⟩

theorem replenishWindows_replenished (now : Nat) (count : Bool) :
    ∀ (fuel : Nat) (d : CbsData), now - d.deadlineTicks < fuel →
      d.deadlineTicks + d.windowsPast now * d.periodTicks ≤ uint64Max →
      Replenished d (replenishWindows now count fuel d)
        (d.deadlineTicks + d.windowsPast now * d.periodTicks) := by
  intro fuel
  induction fuel with
  | zero => intro d hfuel; omega
  | succ fuel ih =>
    intro d hfuel hsat
    have hpos := d.period_pos
    have hone : d.deadlineTicks + d.periodTicks ≤ uint64Max := by
      have h := Nat.mul_le_mul_right d.periodTicks (d.windowsPast_pos now)
      omega
    have hdl := replenishNextWindow_deadline count hone
    unfold replenishWindows
    by_cases hpast : d.deadlineTicks + d.periodTicks ≤ now
    · -- the next deadline has passed too, so one more round is taken
      have hwin : d.windowsPast now = 1 + (d.replenishNextWindow count).windowsPast now := by
        unfold windowsPast
        rw [hdl, if_pos hpast, if_pos (by omega)]
        show _ = 1 + ((now - (d.deadlineTicks + d.periodTicks)) / d.periodTicks + 1)
        rw [← Nat.add_div_right (now - (d.deadlineTicks + d.periodTicks)) hpos, Nat.add_comm 1]
        congr 2
        omega
      rw [hwin, Nat.add_mul, Nat.one_mul, ← Nat.add_assoc, ← hdl] at hsat ⊢
      have hmax : (d.replenishNextWindow count).deadlineTicks ≠ uint64Max := by
        intro hmax
        have h := Nat.mul_le_mul_right d.periodTicks
          ((d.replenishNextWindow count).windowsPast_pos now)
        omega
      simp only
      rw [if_pos ⟨by omega, hmax⟩]
      have h := ih (d.replenishNextWindow count) (by omega) hsat
      exact ⟨h.reservation, h.lastStart, h.deadline, h.remaining⟩
    · have hwin : d.windowsPast now = 1 := by
        unfold windowsPast
        split
        · rw [Nat.div_eq_of_lt (by omega)]
        · rfl
      simp only
      rw [if_neg (by omega), hwin, Nat.one_mul]
      exact ⟨rfl, rfl, hdl, rfl⟩

theorem replenishAfterDepletion_replenished {now : Nat} (hdl : d.deadlineTicks ≠ 0)
    (hsat : d.deadlineTicks + d.windowsPast now * d.periodTicks ≤ uint64Max) :
    Replenished d (d.replenishAfterDepletion now count)
      (d.deadlineTicks + d.windowsPast now * d.periodTicks) := by
  unfold replenishAfterDepletion
  rw [if_neg hdl]
  exact replenishWindows_replenished now count _ d (Nat.lt_succ_self _) hsat

end CbsData

/-! ### The bandwidth bound -/

/-- What can happen to a server, each at some clock value. -/
inductive ServerOp
  /-- `cbs_charge_runtime` -/
  | charge (delta : Nat)
  /-- `cbs_refresh_active_window`, from the timer or from `pick_next` -/
  | refresh
  /-- `cbs_refresh_active_window`, from `sched_cbs_prioritize` -/
  | prioritize
  /-- the server part of `sched_cbs_wake` -/
  | wake
  deriving DecidableEq

/-- A server together with the ticks charged to it since it was set up. -/
structure Metered where
  server : CbsData
  charged : Nat

def Metered.step (m : Metered) (e : Nat × ServerOp) : Metered :=
  match e.2 with
  | .charge delta => ⟨m.server.chargeRuntime delta true, m.charged + delta⟩
  | .refresh => ⟨m.server.refreshActiveWindow e.1, m.charged⟩
  | .prioritize => ⟨m.server.refreshActiveWindow e.1, m.charged⟩
  | .wake => ⟨{ m.server.applyInactiveWakeRule e.1 with lastStartTicks := 0 }, m.charged⟩

/-- The deadline the operation computes fits in 64 bits. -/
def NoSaturation (d : CbsData) (now : Nat) : ServerOp → Prop
  | .charge delta => d.deadlineTicks + d.chargeWindows delta * d.periodTicks ≤ uint64Max
  | .refresh | .prioritize =>
    (d.remainingTicks = 0 →
      d.deadlineTicks + d.windowsPast now * d.periodTicks ≤ uint64Max) ∧
    (d.remainingTicks ≠ 0 ∧ d.deadlineTicks ≤ now → now + d.periodTicks ≤ uint64Max)
  | .wake =>
    (d.remainingTicks = 0 →
      d.deadlineTicks + d.windowsPast now * d.periodTicks ≤ uint64Max) ∧
    (d.remainingTicks ≠ 0 ∧ d.needsWakeReplenish now = true → now + d.periodTicks ≤ uint64Max)

instance (d : CbsData) (now : Nat) : ∀ op, Decidable (NoSaturation d now op)
  | .charge _ => inferInstanceAs (Decidable (_ ≤ uint64Max))
  | .refresh | .prioritize | .wake =>
    inferInstanceAs (Decidable ((_ → _ ≤ uint64Max) ∧ (_ ∧ _ → _ ≤ uint64Max)))

/-- What holds of a metered server that was set up at `t₀`. -/
structure WithinBandwidth (res : Reservation) (t₀ : Nat) (m : Metered) : Prop where
  reservation : m.server.toReservation = res
  deadline_ge : t₀ + res.periodTicks ≤ m.server.deadlineTicks
  remaining_le : m.server.remainingTicks ≤ res.budgetTicks
  bound : (m.charged + m.server.remainingTicks) * res.periodTicks ≤
    res.budgetTicks * (m.server.deadlineTicks - t₀)

namespace WithinBandwidth

variable {res : Reservation} {t₀ now : Nat} {m : Metered}

theorem init (h : t₀ + res.periodTicks ≤ uint64Max) :
    WithinBandwidth res t₀ ⟨CbsData.init res t₀, 0⟩ := by
  have hdl : (CbsData.init res t₀).deadlineTicks = t₀ + res.periodTicks := add64_eq h
  refine ⟨rfl, by rw [hdl], Nat.le_refl _, ?_⟩
  show (0 + res.budgetTicks) * res.periodTicks ≤
    res.budgetTicks * ((CbsData.init res t₀).deadlineTicks - t₀)
  rw [hdl, Nat.zero_add, Nat.add_sub_cancel_left]

variable {d' : CbsData}

variable (hm : WithinBandwidth res t₀ m)

include hm

/-- What is charged and left grows by at most Q for each T the deadline moves on. -/
theorem advance {delta k : Nat}
    (hres' : d'.toReservation = m.server.toReservation)
    (hdl : d'.deadlineTicks = m.server.deadlineTicks + k * res.periodTicks)
    (hrem : d'.remainingTicks + delta ≤ m.server.remainingTicks + k * res.budgetTicks)
    (hle : d'.remainingTicks ≤ res.budgetTicks) :
    WithinBandwidth res t₀ ⟨d', m.charged + delta⟩ := by
  have hge := hm.deadline_ge
  refine ⟨hres'.trans hm.reservation, ?_, hle, ?_⟩
  · show t₀ + res.periodTicks ≤ d'.deadlineTicks
    omega
  · show (m.charged + delta + d'.remainingTicks) * res.periodTicks ≤
      res.budgetTicks * (d'.deadlineTicks - t₀)
    calc (m.charged + delta + d'.remainingTicks) * res.periodTicks
        ≤ (m.charged + m.server.remainingTicks + k * res.budgetTicks) * res.periodTicks :=
          Nat.mul_le_mul_right _ (by omega)
      _ = (m.charged + m.server.remainingTicks) * res.periodTicks +
            res.budgetTicks * (k * res.periodTicks) := by ring
      _ ≤ res.budgetTicks * (m.server.deadlineTicks - t₀) +
            res.budgetTicks * (k * res.periodTicks) := Nat.add_le_add_right hm.bound _
      _ = res.budgetTicks * (d'.deadlineTicks - t₀) := by
          rw [← Nat.mul_add, hdl]
          congr 1
          omega

theorem charge {delta k : Nat}
    (hd : CbsData.Charged m.server d' delta k) :
    WithinBandwidth res t₀ ⟨d', m.charged + delta⟩ := by
  have hdl := hd.deadline
  have hrem := hd.remaining
  have hle := hd.remaining_le
  rw [hm.reservation] at hdl hrem hle
  exact hm.advance hd.reservation hdl hrem.le hle

/-- An empty server that is refilled with a deadline at least one period later. -/
theorem rollover {k : Nat} (hk : 1 ≤ k)
    (hd : CbsData.Replenished m.server d' (m.server.deadlineTicks + k * m.server.periodTicks)) :
    WithinBandwidth res t₀ ⟨d', m.charged⟩ := by
  have hdl := hd.deadline
  have hrem := hd.remaining
  rw [hm.reservation] at hdl hrem
  have hone := Nat.mul_le_mul_right res.budgetTicks hk
  exact hm.advance hd.reservation hdl (show _ + 0 ≤ _ by omega) hrem.le

/-- A fresh window from `now` is affordable once what was charged is within Q/T of `now - t₀`. -/
theorem fresh (hnow : t₀ ≤ now)
    (hpaid : m.charged * res.periodTicks ≤ res.budgetTicks * (now - t₀))
    (hd : CbsData.Replenished m.server d' (now + m.server.periodTicks)) :
    WithinBandwidth res t₀ ⟨d', m.charged⟩ := by
  have hdl := hd.deadline
  have hrem := hd.remaining
  have hres := hm.reservation
  rw [hres] at hdl hrem
  refine ⟨hd.reservation.trans hres, ?_, hrem.le, ?_⟩
  · show t₀ + res.periodTicks ≤ d'.deadlineTicks
    omega
  · show (m.charged + d'.remainingTicks) * res.periodTicks ≤
      res.budgetTicks * (d'.deadlineTicks - t₀)
    rw [hrem, hdl, Nat.add_mul, show now + res.periodTicks - t₀ = now - t₀ + res.periodTicks by omega,
      Nat.mul_add]
    exact Nat.add_le_add_right hpaid _

/-- A deadline that has passed has paid for everything charged before it. -/
theorem paid_of_deadline_le (h : m.server.deadlineTicks ≤ now) :
    m.charged * res.periodTicks ≤ res.budgetTicks * (now - t₀) := by
  calc m.charged * res.periodTicks
      ≤ (m.charged + m.server.remainingTicks) * res.periodTicks :=
        Nat.mul_le_mul_right _ (Nat.le_add_right _ _)
    _ ≤ res.budgetTicks * (m.server.deadlineTicks - t₀) := hm.bound
    _ ≤ res.budgetTicks * (now - t₀) := Nat.mul_le_mul_left _ (Nat.sub_le_sub_right h _)

section

variable (hnow : t₀ ≤ now)

include hnow

/-- The density test leaves no more than Q/T of `now - t₀` charged. -/
theorem paid_of_dense (hlt : now < m.server.deadlineTicks)
    (hdense : m.server.remainingTicks * res.periodTicks >
      res.budgetTicks * (m.server.deadlineTicks - now)) :
    m.charged * res.periodTicks ≤ res.budgetTicks * (now - t₀) := by
  have hbound := hm.bound
  rw [Nat.add_mul, show m.server.deadlineTicks - t₀ =
    (m.server.deadlineTicks - now) + (now - t₀) by omega, Nat.mul_add] at hbound
  omega

theorem paid_of_needsWakeReplenish (h : m.server.needsWakeReplenish now = true) :
    m.charged * res.periodTicks ≤ res.budgetTicks * (now - t₀) := by
  unfold CbsData.needsWakeReplenish at h
  by_cases hle : m.server.deadlineTicks ≤ now
  · exact hm.paid_of_deadline_le hle
  rw [if_neg hle] at h
  have hdense := of_decide_eq_true h
  rw [hm.reservation] at hdense
  exact hm.paid_of_dense hnow (Nat.lt_of_not_le hle) hdense

/-- A server is refilled if it is empty, or if it needs a fresh window that is paid for. -/
theorem refill {needs : Prop} [Decidable needs]
    (hpaid : needs → m.charged * res.periodTicks ≤ res.budgetTicks * (now - t₀))
    (hsat : (m.server.remainingTicks = 0 → m.server.deadlineTicks +
        m.server.windowsPast now * m.server.periodTicks ≤ uint64Max) ∧
      (m.server.remainingTicks ≠ 0 ∧ needs → now + m.server.periodTicks ≤ uint64Max)) :
    WithinBandwidth res t₀
      ⟨if m.server.remainingTicks = 0 then m.server.replenishAfterDepletion now true
        else if needs then m.server.replenishFromNow now true else m.server, m.charged⟩ := by
  have hdl : m.server.deadlineTicks ≠ 0 := by
    have := hm.deadline_ge
    have := res.budget_pos
    have := res.budget_le_period
    omega
  by_cases hempty : m.server.remainingTicks = 0
  · rw [if_pos hempty]
    exact hm.rollover (m.server.windowsPast_pos now)
      (CbsData.replenishAfterDepletion_replenished true hdl (hsat.1 hempty))
  rw [if_neg hempty]
  by_cases hneeds : needs
  · rw [if_pos hneeds]
    exact hm.fresh hnow (hpaid hneeds)
      (CbsData.replenishFromNow_replenished true (hsat.2 ⟨hempty, hneeds⟩))
  · rw [if_neg hneeds]
    exact hm

end

theorem refreshActiveWindow (hnow : t₀ ≤ now)
    (hsat : NoSaturation m.server now .refresh) :
    WithinBandwidth res t₀ ⟨m.server.refreshActiveWindow now, m.charged⟩ :=
  hm.refill hnow hm.paid_of_deadline_le hsat

theorem wake (hnow : t₀ ≤ now)
    (hsat : NoSaturation m.server now .wake) :
    WithinBandwidth res t₀
      ⟨{ m.server.applyInactiveWakeRule now with lastStartTicks := 0 }, m.charged⟩ := by
  have h := hm.refill hnow (hm.paid_of_needsWakeReplenish hnow) hsat
  unfold CbsData.applyInactiveWakeRule
  split_ifs at h ⊢ <;> exact ⟨h.reservation, h.deadline_ge, h.remaining_le, h.bound⟩

theorem step (e : Nat × ServerOp) (hnow : t₀ ≤ e.1)
    (hsat : NoSaturation m.server e.1 e.2) : WithinBandwidth res t₀ (m.step e) := by
  obtain ⟨now, op⟩ := e
  cases op with
  | charge =>
    exact hm.charge (CbsData.chargeRuntime_charged true
      (hm.remaining_le.trans (by rw [hm.reservation])) hsat)
  | refresh | prioritize => exact hm.refreshActiveWindow hnow hsat
  | wake => exact hm.wake hnow hsat

end WithinBandwidth

/--
**No server is charged more than Q/T of the time up to its deadline.**  Whatever the order
of charges, refreshes, priority requests and wakes after `t₀`, the budget left is at most
Q, and what was charged plus what is left stays within Q/T of the time from `t₀` to the
current deadline.
-/
theorem cbs_bandwidth_bound (res : Reservation) (t₀ : Nat)
    (hinit : t₀ + res.periodTicks ≤ uint64Max) (events : List (Nat × ServerOp))
    (hrun : Run.Along Metered.step (fun m e => t₀ ≤ e.1 ∧ NoSaturation m.server e.1 e.2)
      ⟨CbsData.init res t₀, 0⟩ events) :
    let m := Run.exec Metered.step ⟨CbsData.init res t₀, 0⟩ events
    m.server.remainingTicks ≤ res.budgetTicks ∧
      (m.charged + m.server.remainingTicks) * res.periodTicks ≤
        res.budgetTicks * (m.server.deadlineTicks - t₀) := by
  have h := Run.inv_exec (fun m e (hm : WithinBandwidth res t₀ m) he => hm.step e he.1 he.2)
    (WithinBandwidth.init hinit) hrun
  exact ⟨h.remaining_le, h.bound⟩

/-- A 5-in-10 server that overruns, sleeps past its deadline and wakes. -/
theorem cbs_bandwidth_bound_overrun :
    let res : Reservation := ⟨10, 5, by decide, by decide⟩
    let m := Run.exec Metered.step ⟨CbsData.init res 100, 0⟩
      [(101, .wake), (113, .charge 12), (113, .refresh), (140, .wake), (142, .prioritize),
        (145, .charge 5)]
    m.server.remainingTicks ≤ 5 ∧
      (m.charged + m.server.remainingTicks) * 10 ≤ 5 * (m.server.deadlineTicks - 100) :=
  cbs_bandwidth_bound ⟨10, 5, by decide, by decide⟩ 100 (by decide) _ (by decide)

end BeauOs.Sched

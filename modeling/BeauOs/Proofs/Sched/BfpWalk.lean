/-
The charge of a BFP server as a walk through its periods.

`bfp_account_runtime` charges a thread that ran past the end of its period with one division: the
rest of the first period, the whole periods between, and the phase of the last one.  What it stands
for is a loop (`BfpData.walk`) that charges one period after the other and replenishes the server at
the end of each.  The quotient counts the rounds of the loop, and both leave the same server.
-/
import BeauOs.Proofs.Sched.BfpTimes
import BeauOs.Proofs.Sched.NoLostThread

namespace BeauOs.Sched

namespace BfpData

variable {d : BfpData} {now : Nat}

/-! ### The walk -/

/-- The period ends and the server is replenished for the next one. -/
def nextPeriod (d : BfpData) : BfpData :=
  { d with
    nextReplenishTicks := d.nextReplenishTicks + d.periodTicks
    remainingTicks := d.budgetTicks
    replenishCount := counterAdd d.replenishCount 1 }

/-- The time from `start` to `now`, charged period by period. -/
def walk (d : BfpData) (now start : Nat) : BfpData :=
  if now < d.nextReplenishTicks then d.chargeCurrentPeriod (now - start)
  else
    (d.chargeCurrentPeriod (d.nextReplenishTicks - start)).nextPeriod.walk now d.nextReplenishTicks
termination_by now + 1 - d.nextReplenishTicks
decreasing_by
  have hpos := d.period_pos
  simp only [nextPeriod, chargeCurrentPeriod_next, chargeCurrentPeriod_reservation]
  omega

theorem walk_of_lt (h : now < d.nextReplenishTicks) (start : Nat) :
    d.walk now start = d.chargeCurrentPeriod (now - start) := by
  rw [walk, if_pos h]

theorem walk_of_le (h : d.nextReplenishTicks ≤ now) (start : Nat) :
    d.walk now start = (d.chargeCurrentPeriod (d.nextReplenishTicks - start)).nextPeriod.walk now
      d.nextReplenishTicks := by
  rw [walk, if_neg (Nat.not_lt.mpr h)]

/-! ### The closed form -/

/-- The overrun counter after `n` more overruns. -/
def countOverruns (counter n : Nat) : Nat := if n = 0 then counter else counterAdd counter n

theorem countOverruns_add {counter a b : Nat} (hfit : a + b ≤ uint64Max) :
    countOverruns (countOverruns counter a) b = countOverruns counter (a + b) := by
  unfold countOverruns counterAdd
  split_ifs <;> omega

theorem counterAdd_succ {counter n : Nat} (hfit : n + 1 ≤ uint64Max) :
    counterAdd (counterAdd counter 1) n = counterAdd counter (n + 1) := by
  unfold counterAdd
  split_ifs <;> omega

theorem chargeCurrentPeriod_eq (d : BfpData) (delta : Nat) :
    d.chargeCurrentPeriod delta =
      { d with
        remainingTicks := d.remainingTicks - delta
        overrunCount := countOverruns d.overrunCount (if delta > d.remainingTicks then 1 else 0) } := by
  unfold chargeCurrentPeriod
  split
  · rename_i hover
    rw [Nat.sub_eq_zero_of_le (Nat.le_of_lt hover)]
    rfl
  · rfl

/-- A charge that reaches `phase` ticks into the period `full` after the boundary. -/
theorem chargeCrossed_eq {boundary phase : Nat} (full : Nat)
    (hnow : now = boundary + full * d.periodTicks + phase) (hphase : phase < d.periodTicks)
    (hfit : boundary + (full + 1) * d.periodTicks ≤ uint64Max) :
    d.chargeCrossed boundary now =
      { d with
        nextReplenishTicks := boundary + (full + 1) * d.periodTicks
        remainingTicks := d.budgetTicks - phase
        replenishCount := counterAdd d.replenishCount (full + 1)
        overrunCount := countOverruns (countOverruns d.overrunCount
          (if d.budgetTicks < d.periodTicks then full else 0))
            (if phase > d.budgetTicks then 1 else 0) } := by
  have helapsed : now - boundary = phase + full * d.periodTicks := by omega
  have hdiv : (now - boundary) / d.periodTicks = full := by
    rw [helapsed, Nat.add_mul_div_right _ _ d.period_pos, Nat.div_eq_of_lt hphase, Nat.zero_add]
  have hmod : (now - boundary) % d.periodTicks = phase := by
    rw [helapsed, Nat.add_mul_mod_self_right, Nat.mod_eq_of_lt hphase]
  have hsat : ¬full + 1 > (uint64Max - boundary) / d.periodTicks := by
    rw [Nat.not_lt, Nat.le_div_iff_mul_le d.period_pos]
    omega
  have hfull : (if full ≠ 0 ∧ d.budgetTicks < d.periodTicks then counterAdd d.overrunCount full
      else d.overrunCount) =
        countOverruns d.overrunCount (if d.budgetTicks < d.periodTicks then full else 0) := by
    unfold countOverruns
    split_ifs <;> first | rfl | omega
  unfold chargeCrossed
  dsimp only
  rw [hdiv, hmod, if_neg hsat, hfull]
  split
  · rename_i hover
    rw [Nat.sub_eq_zero_of_le (Nat.le_of_lt hover)]
    rfl
  · rfl

/-- A period that is run through, and a charge that goes on after it. -/
theorem chargeCrossed_period {full phase : Nat}
    (hnow : now = d.nextReplenishTicks + (full + 1) * d.periodTicks + phase)
    (hphase : phase < d.periodTicks)
    (hfit : d.nextReplenishTicks + (full + 2) * d.periodTicks ≤ uint64Max) :
    (d.nextPeriod.chargeCurrentPeriod d.periodTicks).chargeCrossed d.nextPeriod.nextReplenishTicks
      now = d.chargeCrossed d.nextReplenishTicks now := by
  have hnext : d.nextReplenishTicks + d.periodTicks + (full + 1) * d.periodTicks =
      d.nextReplenishTicks + (full + 2) * d.periodTicks := by
    rw [Nat.succ_mul (full + 1)]
    omega
  have hmany : full + 2 ≤ uint64Max :=
    Nat.le_trans (Nat.le_mul_of_pos_right _ d.period_pos)
      (Nat.le_trans (Nat.le_add_left _ _) hfit)
  have hover : countOverruns (countOverruns d.overrunCount
      (if d.periodTicks > d.budgetTicks then 1 else 0))
        (if d.budgetTicks < d.periodTicks then full else 0) =
      countOverruns d.overrunCount (if d.budgetTicks < d.periodTicks then full + 1 else 0) := by
    rw [countOverruns_add (by split_ifs <;> omega)]
    congr 1
    split_ifs <;> omega
  rw [chargeCrossed_eq (full + 1) hnow hphase hfit, ← hover, ← hnext,
    ← counterAdd_succ hmany, chargeCurrentPeriod_eq]
  refine chargeCrossed_eq full ?_ hphase ?_
  · show now = d.nextReplenishTicks + d.periodTicks + full * d.periodTicks + phase
    rw [hnow, Nat.succ_mul]
    omega
  · show d.nextReplenishTicks + d.periodTicks + (full + 1) * d.periodTicks ≤ uint64Max
    exact hnext ▸ hfit

/-- The walk from the start of a period.  The induction is on the periods that are run through. -/
theorem nextPeriod_walk {phase : Nat} : ∀ (full : Nat) (d : BfpData),
    now = d.nextReplenishTicks + full * d.periodTicks + phase → phase < d.periodTicks →
    d.nextReplenishTicks + (full + 1) * d.periodTicks ≤ uint64Max →
    d.nextPeriod.walk now d.nextReplenishTicks = d.chargeCrossed d.nextReplenishTicks now := by
  intro full
  induction full with
  | zero =>
    intro d hnow hphase hfit
    have hlt : now < d.nextPeriod.nextReplenishTicks := by
      show now < d.nextReplenishTicks + d.periodTicks
      omega
    rw [walk_of_lt hlt, chargeCurrentPeriod_eq, chargeCrossed_eq 0 hnow hphase hfit,
      show now - d.nextReplenishTicks = phase by omega, ite_self, Nat.zero_add, Nat.one_mul]
    rfl
  | succ full ih =>
    intro d hnow hphase hfit
    have hle : d.nextPeriod.nextReplenishTicks ≤ now := by
      show d.nextReplenishTicks + d.periodTicks ≤ now
      rw [hnow, Nat.succ_mul]
      omega
    have hdelta : d.nextPeriod.nextReplenishTicks - d.nextReplenishTicks = d.periodTicks :=
      Nat.add_sub_cancel_left _ _
    rw [walk_of_le hle, hdelta, ← chargeCrossed_period hnow hphase hfit,
      ← chargeCurrentPeriod_next d.nextPeriod d.periodTicks]
    refine ih _ ?_ ?_ ?_
    · rw [chargeCurrentPeriod_next, chargeCurrentPeriod_reservation]
      show now = d.nextReplenishTicks + d.periodTicks + full * d.periodTicks + phase
      rw [hnow, Nat.succ_mul]
      omega
    · rw [chargeCurrentPeriod_reservation]
      exact hphase
    · rw [chargeCurrentPeriod_next, chargeCurrentPeriod_reservation]
      show d.nextReplenishTicks + d.periodTicks + (full + 1) * d.periodTicks ≤ uint64Max
      rw [Nat.succ_mul (full + 1)] at hfit
      omega

theorem walk_eq (start : Nat) (hfit : d.nextReplenishTicks ≤ now →
      d.nextReplenishTicks + d.periodsDue now * d.periodTicks ≤ uint64Max) :
    d.walk now start =
      if now < d.nextReplenishTicks then d.chargeCurrentPeriod (now - start)
      else (d.chargeCurrentPeriod (d.nextReplenishTicks - start)).chargeCrossed
        d.nextReplenishTicks now := by
  by_cases hin : now < d.nextReplenishTicks
  · rw [if_pos hin, walk_of_lt hin]
  have hle := Nat.not_lt.mp hin
  rw [if_neg hin, walk_of_le hle]
  have hnext := chargeCurrentPeriod_next d (d.nextReplenishTicks - start)
  have hres := chargeCurrentPeriod_reservation d (d.nextReplenishTicks - start)
  generalize d.chargeCurrentPeriod (d.nextReplenishTicks - start) = e at hnext hres
  have hperiod : e.periodTicks = d.periodTicks := by rw [hres]
  rw [← hnext]
  refine @nextPeriod_walk now ((now - d.nextReplenishTicks) % d.periodTicks)
    ((now - d.nextReplenishTicks) / d.periodTicks) e ?_ ?_ ?_
  · rw [hnext, hperiod, Nat.add_assoc, Nat.div_add_mod']
    omega
  · rw [hperiod]
    exact Nat.mod_lt _ d.period_pos
  · rw [hnext, hperiod]
    exact hfit hle

/-- The walk does not look at the start time that is on record. -/
theorem walk_lastStart (d : BfpData) (now start at' : Nat) :
    { d with lastStartTicks := at' }.walk now start =
      { d.walk now start with lastStartTicks := at' } := by
  induction d, start using walk.induct now with
  | case1 d _ hlt =>
    rw [walk_of_lt hlt, walk_of_lt (d := { d with lastStartTicks := at' }) hlt,
      chargeCurrentPeriod_eq, chargeCurrentPeriod_eq]
  | case2 d _ hge ih =>
    rw [walk_of_le (Nat.not_lt.mp hge),
      walk_of_le (d := { d with lastStartTicks := at' }) (Nat.not_lt.mp hge), ← ih,
      chargeCurrentPeriod_eq, chargeCurrentPeriod_eq]
    rfl

theorem account_eq_walk (hstart : d.lastStartTicks < d.nextReplenishTicks)
    (hfit : d.nextReplenishTicks ≤ now →
      d.nextReplenishTicks + d.periodsDue now * d.periodTicks ≤ uint64Max) :
    d.account now = { d.walk now d.lastStartTicks with lastStartTicks := now } := by
  have hmax : ¬now < d.nextReplenishTicks → d.nextReplenishTicks ≠ uint64Max := by
    intro hin h
    have hroom := hfit (Nat.not_lt.mp hin)
    have hpos := d.period_pos
    unfold periodsDue at hroom
    rw [h, Nat.succ_mul] at hroom
    omega
  rw [← walk_lastStart, walk_eq (d := { d with lastStartTicks := now }) _ hfit]
  unfold account
  dsimp only
  by_cases hin : now < d.nextReplenishTicks
  · rw [if_pos (.inr hin), if_pos hin]
  · rw [if_neg (not_or.mpr ⟨hmax hin, hin⟩), if_pos hstart, if_neg hin]

end BfpData

/--
**Late accounting is the period-by-period walk**: a thread that has run since its last start is left
with the budget, the boundary and the counters of the walk.
-/
theorem bfpAccountRuntime_walk (ctl : SchedControl) (now : Nat) (t : Tid) (p : BfpState)
    (hthread : ctl.isIdleThread t = false ∧ (ctl.thread t).isRunning = true)
    (hruns : (p.data t).lastStartTicks ≠ 0)
    (hstart : (p.data t).lastStartTicks < (p.data t).nextReplenishTicks)
    (hfit : (p.data t).nextReplenishTicks ≤ now → (p.data t).nextReplenishTicks +
      (p.data t).periodsDue now * (p.data t).periodTicks ≤ uint64Max) :
    let d := (bfpAccountRuntime ctl now t p).data t
    let walked := (p.data t).walk now (p.data t).lastStartTicks
    d.remainingTicks = walked.remainingTicks ∧ d.nextReplenishTicks = walked.nextReplenishTicks ∧
      d.replenishCount = walked.replenishCount ∧ d.overrunCount = walked.overrunCount := by
  dsimp only
  unfold bfpAccountRuntime
  by_cases hlate : now ≤ (p.data t).lastStartTicks
  · -- no time has passed, and the walk charges none
    rw [if_pos (by simp [hlate]), BfpData.walk_of_lt (Nat.lt_of_le_of_lt hlate hstart),
      Nat.sub_eq_zero_of_le hlate, BfpData.chargeCurrentPeriod_eq]
    exact ⟨rfl, rfl, rfl, rfl⟩
  · rw [if_neg (by simp [hthread.1, hthread.2, hruns, hlate]), PolicyState.updData_self,
      BfpData.account_eq_walk hstart hfit]
    exact ⟨rfl, rfl, rfl, rfl⟩

/-- A vCPU that was started at tick 2, as the timer finds it three periods late. -/
def startedServer : Pcpu BfpData BfpControl :=
  Run.exec (step schedBfp) ((BootConfig.single (BfpData.init halfOfTen 1 0)).boot BfpControl.init)
    [(⟨1, true⟩, .wake 1), (⟨2, true⟩, .schedule false false)]

theorem bfpAccountRuntime_walk_late :
    ((bfpAccountRuntime startedServer.ctl 33 1 startedServer.pol).data 1).overrunCount =
      ((startedServer.pol.data 1).walk 33 (startedServer.pol.data 1).lastStartTicks).overrunCount :=
  (bfpAccountRuntime_walk startedServer.ctl 33 1 startedServer.pol (by decide +kernel)
    (by decide +kernel) (by decide +kernel) (by decide +kernel)).2.2.2

end BeauOs.Sched

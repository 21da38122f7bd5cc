/-
What the admission tests of CBS and BFP decide.

The test of CBS rounds the share of each VM down to parts per million, so an accepted pCPU may be
over-committed by less than one part per million for each VM; it is exact where the shares are
whole parts per million.

The test of BFP follows the iterates of the demand function from the budget of the task on.  The
demand is monotone, so the iterates stay below each solution of the recurrence, and the first one
that repeats is the least solution.  The last iteration only compares: the solution has to be
there before it.
-/
import Mathlib
import BeauOs.Sched.Admission

namespace BeauOs.Sched

/-! ### The utilisation test -/

section Utilisation

variable (pcpuId : Nat) (pool : Option PoolConfig)

/-- The reservations of the VMs with a vCPU on the pCPU. -/
def cbsReservations (vms : List VmSchedConfig) : List NormalizedUs :=
  (vms.filter fun vm => cbsVmUsesPcpu vm pcpuId).filterMap fun vm =>
    (cbsNormalizeUs pcpuId pool vm.cbsPeriodUs vm.cbsBudgetUs).toOption

/-- The exact share of the pCPU. -/
def share (us : NormalizedUs) : ℚ := us.val.2 / us.val.1

def sharePpm (us : NormalizedUs) : Nat := us.val.2 * cbsUtilScale / us.val.1

theorem cbsAdmissionLoop_ok {u : Nat} {vms : List VmSchedConfig} {vmId utilization : Nat}
    (hscale : utilization ≤ cbsUtilScale)
    (h : cbsAdmissionLoop pcpuId pool vms vmId utilization = .ok u) :
    utilization + ((cbsReservations pcpuId pool vms).map sharePpm).sum ≤ cbsUtilScale := by
  induction vms generalizing vmId utilization with
  | nil => simpa [cbsReservations] using hscale
  | cons vm rest ih =>
    unfold cbsAdmissionLoop at h
    unfold cbsReservations at ih ⊢
    split at h
    next huses =>
      rw [List.filter_cons_of_neg (by simpa using huses)]
      exact ih hscale h
    next huses =>
      rw [List.filter_cons_of_pos (by simpa using huses)]
      split at h
      next => cases h
      next us hus =>
        rw [List.filterMap_cons_some (by rw [hus]; rfl), List.map_cons, List.sum_cons]
        dsimp only at h
        split at h
        next => cases h
        next hfits =>
          have hrest := ih (Nat.le_of_not_lt hfits) h
          unfold sharePpm at hrest ⊢
          omega

theorem period_cast_pos (us : NormalizedUs) : (0 : ℚ) < us.val.1 := by
  have hpos : 0 < us.val.1 := by
    have := us.property
    omega
  exact_mod_cast hpos

/-- Rounding down loses less than one part. -/
theorem share_le (us : NormalizedUs) : share us * cbsUtilScale ≤ sharePpm us + 1 := by
  have hlt := Nat.lt_mul_div_succ (us.val.2 * cbsUtilScale)
    (show 0 < us.val.1 from by exact_mod_cast period_cast_pos us)
  unfold share sharePpm
  rw [div_mul_eq_mul_div, div_le_iff₀ (period_cast_pos us), mul_comm _ (us.val.1 : ℚ)]
  exact_mod_cast hlt.le

theorem share_eq {us : NormalizedUs} (h : us.val.1 ∣ us.val.2 * cbsUtilScale) :
    share us * cbsUtilScale = sharePpm us := by
  unfold share sharePpm
  rw [Nat.cast_div h (period_cast_pos us).ne', div_mul_eq_mul_div, Nat.cast_mul]

/-- **What an accepted pCPU can be asked for**: at most the pCPU and one part per million for each
of its VMs, and at most the pCPU if every share is a whole number of parts. -/
theorem cbsValidatePcpuAdmission_bound {vms : List VmSchedConfig} {u : Nat}
    (h : cbsValidatePcpuAdmission pcpuId pool vms = .ok u) :
    ((cbsReservations pcpuId pool vms).map share).sum ≤
        1 + ((cbsReservations pcpuId pool vms).length : ℚ) / 1000000 ∧
      ((∀ us ∈ cbsReservations pcpuId pool vms, us.val.1 ∣ us.val.2 * 1000000) →
        ((cbsReservations pcpuId pool vms).map share).sum ≤ 1) := by
  have hppm := cbsAdmissionLoop_ok pcpuId pool (Nat.zero_le _) h
  generalize cbsReservations pcpuId pool vms = reservations at hppm ⊢
  have hcast : (((reservations.map sharePpm).sum : Nat) : ℚ) ≤ 1000000 := by
    unfold cbsUtilScale at hppm
    exact_mod_cast (by omega : (reservations.map sharePpm).sum ≤ 1000000)
  constructor
  · have hsum : (reservations.map share).sum * 1000000 ≤
        ((reservations.map sharePpm).sum : Nat) + reservations.length := by
      clear hppm hcast
      induction reservations with
      | nil => simp
      | cons us rest ih =>
        have hus := share_le us
        simp only [cbsUtilScale, Nat.cast_ofNat] at hus
        simp only [List.map_cons, List.sum_cons, List.length_cons, Nat.cast_add, Nat.cast_one]
        linarith
    linarith
  · intro hdvd
    have hsum : (reservations.map share).sum * 1000000 = ((reservations.map sharePpm).sum : Nat) := by
      clear hppm hcast
      induction reservations with
      | nil => simp
      | cons us rest ih =>
        have hus := share_eq (hdvd us List.mem_cons_self)
        have hrest := ih fun v hv => hdvd v (List.mem_cons_of_mem _ hv)
        simp only [cbsUtilScale, Nat.cast_ofNat] at hus
        simp only [List.map_cons, List.sum_cons, Nat.cast_add]
        linarith
    linarith

end Utilisation

/-- A VM on pCPU 0 that asks for half of its period and half a microsecond. -/
def overHalf : VmSchedConfig := ⟨[0], 0, 4000001, 2000001⟩

def half : VmSchedConfig := ⟨[0], 0, 4000, 2000⟩

theorem cbsValidatePcpuAdmission_bound_pair :
    ((cbsReservations 0 none [overHalf, overHalf]).map share).sum ≤
        1 + ((cbsReservations 0 none [overHalf, overHalf]).length : ℚ) / 1000000 ∧
      ((cbsReservations 0 none [half, half]).map share).sum ≤ 1 :=
  have hover : cbsValidatePcpuAdmission 0 none [overHalf, overHalf] = .ok 1000000 := by
    decide +kernel
  have hhalf : cbsValidatePcpuAdmission 0 none [half, half] = .ok 1000000 := by decide +kernel
  ⟨(cbsValidatePcpuAdmission_bound 0 none hover).1,
    (cbsValidatePcpuAdmission_bound 0 none hhalf).2 (by decide +kernel)⟩

/-- Two such VMs are accepted and over-commit the pCPU. -/
theorem cbsValidatePcpuAdmission_overcommits :
    cbsValidatePcpuAdmission 0 none [overHalf, overHalf] = .ok 1000000 ∧
      1 < ((cbsReservations 0 none [overHalf, overHalf]).map share).sum := by
  refine ⟨by decide +kernel, ?_⟩
  rw [show cbsReservations 0 none [overHalf, overHalf] =
    [⟨(4000001, 2000001), by decide⟩, ⟨(4000001, 2000001), by decide⟩] from by decide +kernel]
  norm_num [share]

/-! ### The response-time test -/

section ResponseTime

variable (pcpuId : Nat) (tasks : List BfpAdmissionTask) (i : Fin tasks.length)

/-- The jobs of the task `other` in a window, if it has the index `idx` and can delay `task`. -/
def interference (task : BfpAdmissionTask) (taskIdx response : Nat) (other : BfpAdmissionTask)
    (idx : Nat) : Nat :=
  if idx = taskIdx ∨ other.priority < task.priority then 0
  else (response + other.periodUs - 1) / other.periodUs * other.budgetUs

/-- The right side of the recurrence of the task `i`. -/
def rtaDemand (response : Nat) : Nat :=
  (tasks.get i).budgetUs +
    (tasks.zipIdx.map fun t => interference (tasks.get i) i response t.1 t.2).sum

theorem bfpJobs_eq {response periodUs : Nat} (hpos : 0 < periodUs) :
    bfpJobs response periodUs = (response + periodUs - 1) / periodUs := by
  have hsplit := Nat.div_add_mod response periodUs
  have hlt := Nat.mod_lt response hpos
  unfold bfpJobs
  split
  next hrem =>
    rw [show response + periodUs - 1 = response % periodUs - 1 + periodUs * (response / periodUs + 1)
      by rw [Nat.mul_add]; omega, Nat.add_mul_div_left _ _ hpos,
      Nat.div_eq_of_lt (show response % periodUs - 1 < periodUs by omega), Nat.zero_add]
  next hrem =>
    rw [show response + periodUs - 1 = periodUs - 1 + periodUs * (response / periodUs) by omega,
      Nat.add_mul_div_left _ _ hpos, Nat.div_eq_of_lt (show periodUs - 1 < periodUs by omega),
      Nat.zero_add]

/-- The inner loop adds up the interference, and stops where the sum leaves the word. -/
theorem bfpDemandLoop_spec (task : BfpAdmissionTask) (taskIdx response : Nat)
    (rest : List BfpAdmissionTask) (idx : Nat) {demand : Nat} (hword : demand ≤ uint64Max) :
    let total := demand + ((rest.zipIdx idx).map fun t =>
      interference task taskIdx response t.1 t.2).sum
    if total ≤ uint64Max then
      bfpDemandLoop pcpuId task taskIdx response rest idx demand = .ok total
    else ∃ text, bfpDemandLoop pcpuId task taskIdx response rest idx demand = .error text := by
  induction rest generalizing idx demand with
  | nil => simpa [bfpDemandLoop] using hword
  | cons other rest ih =>
    have hbudget := other.us.property
    simp only [bfpDemandLoop, List.zipIdx_cons, List.map_cons, List.sum_cons]
    by_cases hskip : idx = taskIdx ∨ other.priority < task.priority
    · rw [if_pos hskip, interference, if_pos hskip, Nat.zero_add]
      exact ih (idx + 1) hword
    rw [if_neg hskip, interference, if_neg hskip,
      bfpJobs_eq (show 0 < other.periodUs from by unfold BfpAdmissionTask.periodUs; omega),
      ← Nat.add_assoc]
    generalize (response + other.periodUs - 1) / other.periodUs = jobs
    have hfits : jobs > uint64Max / other.budgetUs ↔ uint64Max < jobs * other.budgetUs :=
      Nat.div_lt_iff_lt_mul (show 0 < other.budgetUs from by
        unfold BfpAdmissionTask.budgetUs; omega)
    by_cases hmul : uint64Max < jobs * other.budgetUs
    · rw [if_pos (hfits.2 hmul), if_neg (by omega)]
      exact ⟨_, rfl⟩
    rw [if_neg (mt hfits.1 hmul)]
    by_cases hadd : demand > uint64Max - jobs * other.budgetUs
    · rw [if_pos hadd, if_neg (by omega)]
      exact ⟨_, rfl⟩
    · rw [if_neg hadd]
      exact ih (idx + 1) (by omega)

theorem rtaDemand_mono : Monotone (rtaDemand tasks i) := by
  intro a b hab
  refine Nat.add_le_add_left (List.sum_le_sum fun t _ => ?_) _
  unfold interference
  split
  · exact le_refl 0
  · exact Nat.mul_le_mul_right _ (Nat.div_le_div_right (by omega))

/-- The outer loop returns a solution that the iterates reach before the last iteration. -/
theorem bfpResponseLoop_iff {left response R : Nat} (hup : response ≤ rtaDemand tasks i response) :
    bfpResponseLoop pcpuId tasks (tasks.get i) i left response = .ok R ↔
      (∃ k < left, (rtaDemand tasks i)^[k] response = R) ∧ rtaDemand tasks i R = R ∧
        R ≤ (tasks.get i).periodUs := by
  induction left generalizing response with
  | zero => simp [bfpResponseLoop]
  | succ left ih =>
    have hus := (tasks.get i).us.property
    have hfits := (tasks.get i).fits
    have hword : (tasks.get i).budgetUs ≤ uint64Max := by
      unfold BfpAdmissionTask.budgetUs uint64Max
      omega
    have hspec := bfpDemandLoop_spec pcpuId (tasks.get i) i response tasks 0 hword
    change if rtaDemand tasks i response ≤ uint64Max then _ = Except.ok (rtaDemand tasks i response)
      else _ at hspec
    -- every iterate from the second on is at least the demand
    have hle (k : Nat) (hk : rtaDemand tasks i ((rtaDemand tasks i)^[k] response) =
        (rtaDemand tasks i)^[k] response) :
        rtaDemand tasks i response ≤ (rtaDemand tasks i)^[k] response := by
      have hmono := (rtaDemand_mono tasks i).monotone_iterate_of_le_map hup
      rw [← hk]
      exact rtaDemand_mono tasks i (hmono (Nat.zero_le k))
    unfold bfpResponseLoop
    by_cases hlate : (tasks.get i).periodUs < rtaDemand tasks i response
    · -- the demand misses the deadline, in the word or beyond it
      refine iff_of_false ?_ ?_
      · split at hspec
        next =>
          rw [hspec]
          dsimp only
          rw [if_pos hlate]
          exact nofun
        next =>
          obtain ⟨text, htext⟩ := hspec
          rw [htext]
          exact nofun
      · rintro ⟨⟨k, -, rfl⟩, hfix, hdl⟩
        have := hle k hfix
        omega
    · rw [if_pos (by unfold BfpAdmissionTask.periodUs at hlate; unfold uint64Max; omega)] at hspec
      rw [hspec]
      dsimp only
      rw [if_neg hlate]
      split
      next heq =>
        have hstay (k : Nat) : (rtaDemand tasks i)^[k] response = response :=
          Function.iterate_fixed heq k
        constructor
        · intro h
          cases h
          exact ⟨⟨0, by omega, rfl⟩, heq, by omega⟩
        · rintro ⟨⟨k, -, rfl⟩, -, -⟩
          rw [hstay k]
      next hne =>
        rw [ih (rtaDemand_mono tasks i hup)]
        refine and_congr_left fun hsol => ⟨?_, ?_⟩
        · rintro ⟨k, hk, rfl⟩
          exact ⟨k + 1, by omega, rfl⟩
        · rintro ⟨_ | k, hk, rfl⟩
          · exact absurd hsol.1 hne
          · exact ⟨k, by omega, rfl⟩

/-- The iterates from the budget on stay below each solution. -/
theorem iterate_le_solution {R : Nat} (hR : rtaDemand tasks i R = R) (k : Nat) :
    (rtaDemand tasks i)^[k] (tasks.get i).budgetUs ≤ R := by
  have hstart : (tasks.get i).budgetUs ≤ R := hR ▸ Nat.le_add_right _ _
  have hk := (rtaDemand_mono tasks i).iterate k hstart
  rwa [Function.iterate_fixed hR] at hk

/-- **The test decides the recurrence**: it accepts a response just if that is the least solution,
within the period, and fewer iterations than the limit reach it. -/
theorem bfpValidateResponseTime_iff {R : Nat} :
    bfpValidateResponseTime pcpuId tasks i = .ok R ↔
      IsLeast {r | r = rtaDemand tasks i r} R ∧ R ≤ (tasks.get i).periodUs ∧
        ∃ k < bfpRtaMaxIterations, (rtaDemand tasks i)^[k] (tasks.get i).budgetUs = R := by
  unfold bfpValidateResponseTime
  rw [bfpResponseLoop_iff pcpuId tasks i (Nat.le_add_right _ _)]
  constructor
  · rintro ⟨⟨k, hk, rfl⟩, hfix, hdl⟩
    exact ⟨⟨hfix.symm, fun r hr => iterate_le_solution tasks i (Eq.symm hr) k⟩, hdl, k, hk, rfl⟩
  · rintro ⟨hleast, hdl, hreach⟩
    exact ⟨hreach, hleast.1.symm, hdl⟩

end ResponseTime

/-- A task behind one that leaves it eight microseconds of each millisecond. -/
def crowdedTasks : List BfpAdmissionTask :=
  [⟨0, 2, ⟨(1000, 992), by decide⟩, by decide⟩, ⟨1, 1, ⟨(100000, 512), by decide⟩, by decide⟩]

def crowdedTask : Fin crowdedTasks.length := ⟨1, by decide⟩

/-- The least solution is reached by the last iteration allowed, and the task is refused. -/
theorem bfpValidateResponseTime_last_iteration :
    IsLeast {r | r = rtaDemand crowdedTasks crowdedTask r} 64000 ∧
      64000 ≤ (crowdedTasks.get crowdedTask).periodUs ∧
      (rtaDemand crowdedTasks crowdedTask)^[bfpRtaMaxIterations]
        (crowdedTasks.get crowdedTask).budgetUs = 64000 ∧
      ¬ (bfpValidateResponseTime 0 crowdedTasks crowdedTask).toBool := by
  have hreach : (rtaDemand crowdedTasks crowdedTask)^[64]
      (crowdedTasks.get crowdedTask).budgetUs = 64000 := by decide +kernel
  refine ⟨⟨by decide +kernel, fun r hr => ?_⟩, by decide, hreach, by decide +kernel⟩
  rw [← hreach]
  exact iterate_le_solution crowdedTasks crowdedTask (Eq.symm hr) 64

end BeauOs.Sched

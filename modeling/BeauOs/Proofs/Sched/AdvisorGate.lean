/-
What the gate of the scheduling advisor lets through.

A proposal is accepted only with the capability of the last registration that still stands, and
only if it names the VMs of the pCPU, each once, with budgets that lie in the limits of the pool.
Two things are weaker than the configuration says.  The time between two proposals is compared with
a minimum that the guest wrote into its request, and in 32 bits.  And the utilisation is a sum of
quotients that are rounded down one by one, so the budgets may add up to more than the period.

`proposal_lawful` gives the law for every history whose proposals name a minimum that is no smaller
than the one of the pool and lose less than one part per million to the rounding.
`proposal_too_soon_and_too_much` breaks both parts.
-/
import BeauOs.Sched.Smart
import BeauOs.Lib.Run

namespace BeauOs.Sched

/-! ### What was registered and accepted -/

/-- A registration that stands, and the pCPU and time of what it was granted. -/
structure AiRegistration where
  vmid : Nat
  capability : UInt64
  accepted : List (Nat × UInt64)
  deriving DecidableEq

/-- The gate, the registration that a reader of the returned codes knows of, and the last time. -/
structure AiRun where
  gate : AiSchedGate
  current : Option AiRegistration
  clock : UInt64

def AiRun.start : AiRun := ⟨.init, none, 0⟩

inductive AiEvent where
  | hcall (call : AiCall)
  | invalidate (vmid : Nat) (now : UInt64)

def AiEvent.now : AiEvent → UInt64
  | .hcall call => call.now
  | .invalidate _ now => now

/-- A registration that passes the checks, and the capability it is answered with. -/
def AiCall.issued (cfg : AiPlatform) (call : AiCall) (gate : AiSchedGate) : Option UInt64 :=
  match call.ioc, (hcallAiSched cfg call gate).2.1 with
  | some ioc, some reply =>
    if ioc.op = aiSchedOpRegister ∧ reply.status = aiSchedStatusOk then some reply.capability
    else none
  | _, _ => none

/-- The pCPU of a proposal that returns 0. -/
def AiCall.accepted (cfg : AiPlatform) (call : AiCall) (gate : AiSchedGate) : Option Nat :=
  match call.ioc with
  | some ioc =>
    if ioc.op = aiSchedOpPropose ∧ (hcallAiSched cfg call gate).1 = none then some ioc.pcpuId
    else none
  | none => none

def AiRun.account (cfg : AiPlatform) (x : AiRun) (call : AiCall) : Option AiRegistration :=
  match call.issued cfg x.gate with
  | some capability => some ⟨call.vmid, capability, []⟩
  | none =>
    match call.accepted cfg x.gate with
    | some pcpuId => x.current.map fun reg =>
      { reg with accepted := (pcpuId, call.now) :: reg.accepted }
    | none => x.current

def AiRun.step (cfg : AiPlatform) (x : AiRun) : AiEvent → AiRun
  | .hcall call => ⟨(hcallAiSched cfg call x.gate).2.2, x.account cfg call, call.now⟩
  | .invalidate vmid now =>
    ⟨aiSchedInvalidateVm vmid x.gate, x.current.filter fun reg => reg.vmid ≠ vmid, now⟩

/-! ### The law -/

/-- An entry lies in the limits of the pool. -/
structure EntryLawful (cfg : AiPlatform) (pool : SchedCpupoolConfig) (entry : AiSchedEntry) :
    Prop where
  min : pool.aiMinBudgetUs ≤ entry.budgetUs
  max : entry.budgetUs ≤ pool.aiMaxBudgetUs
  raise : entry.budgetUs.toNat ≤
    (cfg.configuredBudget pool entry.vmid).toNat + pool.aiMaxStepUs.toNat
  lower : (cfg.configuredBudget pool entry.vmid).toNat ≤
    entry.budgetUs.toNat + pool.aiMaxStepUs.toNat

def AiPlatform.vmsOn (cfg : AiPlatform) (pcpuId : Nat) : List Nat :=
  (List.range configMaxVmNum).filter fun vmid => aiSchedVmUsesPcpu (cfg.vmConfig vmid) pcpuId

/-- What a proposal that returns 0 has to be. -/
structure ProposalLawful (cfg : AiPlatform) (x : AiRun) (call : AiCall) (ioc : AiSchedIoc)
    (pool : SchedCpupoolConfig) (reg : AiRegistration) : Prop where
  configured : cfg.pool ioc.pcpuId = some pool
  registered : x.current = some reg
  owner : reg.vmid = call.vmid
  capability : ioc.capability = reg.capability
  named : (ioc.proposed.map (·.vmid)).Perm (cfg.vmsOn ioc.pcpuId)
  limits : ∀ entry ∈ ioc.proposed, EntryLawful cfg pool entry
  sum : (ioc.proposed.map (·.budgetUs.toNat)).sum ≤ pool.periodUs.toNat
  apart : ∀ time, (ioc.pcpuId, time) ∈ reg.accepted →
    time.toNat + pool.aiMinUpdateMs.toNat * cfg.tickrate ≤ call.now.toNat

/-- What the rounding of the utilisation loses, in units of one part per million of the period. -/
def roundingLoss (pool : SchedCpupoolConfig) (entries : List AiSchedEntry) : Nat :=
  (entries.map fun entry => entry.budgetUs.toNat * 1000000 % pool.periodUs.toNat).sum

/-- A proposal names at least the minimum of the pool and fits the precision of the sum. -/
def AiEvent.Careful (cfg : AiPlatform) : AiEvent → Prop
  | .hcall call => ∀ ioc ∈ call.ioc, ioc.op = aiSchedOpPropose → call.now ≠ 0 ∧
      ∀ pool ∈ cfg.pool ioc.pcpuId,
        pool.aiMinUpdateMs.toNat * 1000 ≤ (ioc.minUpdateMs * 1000).toNat ∧
          roundingLoss pool ioc.proposed < 1000000
  | .invalidate _ _ => True

instance (cfg : AiPlatform) : ∀ event : AiEvent, Decidable (event.Careful cfg)
  | .hcall call => inferInstanceAs (Decidable (∀ ioc ∈ call.ioc, _ → _ ∧ ∀ pool ∈ _, _ ∧ _))
  | .invalidate _ _ => inferInstanceAs (Decidable True)

def AiEvent.InOrder (x : AiRun) (event : AiEvent) : Prop := x.clock ≤ event.now

instance (x : AiRun) (event : AiEvent) : Decidable (event.InOrder x) :=
  inferInstanceAs (Decidable (_ ≤ _))

/-! ### Validation -/

section Validation

variable {cfg : AiPlatform} {pool : SchedCpupoolConfig} {active : BitVec 64}

/-- What the parts per million of a list of entries come to. -/
def ppmSum (pool : SchedCpupoolConfig) (entries : List AiSchedEntry) : Nat :=
  (entries.map fun entry => entry.budgetUs.toNat * 1000000 / pool.periodUs.toNat).sum

/-- What an accepted list of entries satisfies. -/
structure EntriesChecked (cfg : AiPlatform) (pool : SchedCpupoolConfig) (active : BitVec 64)
    (entries : List AiSchedEntry) (seen seen' : BitVec 64) (used used' : UInt64) : Prop where
  lawful : ∀ entry ∈ entries, EntryLawful cfg pool entry
  range : ∀ entry ∈ entries, entry.vmid < configMaxVmNum
  active : ∀ entry ∈ entries, bitmapTest entry.vmid active = true
  fresh : ∀ entry ∈ entries, bitmapTest entry.vmid seen = false
  nodup : (entries.map (·.vmid)).Nodup
  seen : ∀ vmid < 64, bitmapTest vmid seen' = true ↔
    bitmapTest vmid seen = true ∨ vmid ∈ entries.map (·.vmid)
  used : used'.toNat = used.toNat + ppmSum pool entries
  fits : used'.toNat ≤ 1000000

/-- The 64-bit utilisation of one entry does not wrap. -/
theorem entryPpm_toNat (pool : SchedCpupoolConfig) (entry : AiSchedEntry) {used : UInt64}
    (hused : used.toNat ≤ 1000000) :
    (used + entry.budgetUs.toUInt64 * 1000000 / pool.periodUs.toUInt64).toNat =
      used.toNat + entry.budgetUs.toNat * 1000000 / pool.periodUs.toNat := by
  have hbudget := entry.budgetUs.toNat_lt
  have hquot : entry.budgetUs.toNat * 1000000 / pool.periodUs.toNat ≤
      entry.budgetUs.toNat * 1000000 := Nat.div_le_self _ _
  have hprod : entry.budgetUs.toNat * 1000000 % 2 ^ 64 = entry.budgetUs.toNat * 1000000 :=
    Nat.mod_eq_of_lt (by omega)
  rw [UInt64.toNat_add, UInt64.toNat_div, UInt64.toNat_mul, UInt32.toNat_toUInt64,
    UInt32.toNat_toUInt64, show (1000000 : UInt64).toNat = 1000000 from rfl, hprod]
  generalize entry.budgetUs.toNat * 1000000 / pool.periodUs.toNat = quot at hquot ⊢
  exact Nat.mod_eq_of_lt (by omega)

/-- The step limit bounds the change both ways. -/
theorem step_bounds {budget current step : UInt32}
    (h : ¬(if budget > current then budget - current else current - budget) > step) :
    budget.toNat ≤ current.toNat + step.toNat ∧ current.toNat ≤ budget.toNat + step.toNat := by
  split at h
  next hgt =>
    have hsub := UInt32.toNat_sub_of_le _ _ (UInt32.le_of_lt hgt)
    have hgt := UInt32.lt_iff_toNat_lt.mp hgt
    have hle := UInt32.le_iff_toNat_le.mp (UInt32.not_lt.mp h)
    omega
  next hle =>
    have hle := UInt32.not_lt.mp hle
    have hsub := UInt32.toNat_sub_of_le _ _ hle
    have hle := UInt32.le_iff_toNat_le.mp hle
    have hstep := UInt32.le_iff_toNat_le.mp (UInt32.not_lt.mp h)
    omega

theorem aiCheckEntries_spec :
    ∀ {entries : List AiSchedEntry} {seen seen' : BitVec 64} {used used' : UInt64},
      used.toNat ≤ 1000000 →
      aiCheckEntries cfg pool active entries seen used = .ok (seen', used') →
      EntriesChecked cfg pool active entries seen seen' used used' := by
  intro entries
  induction entries with
  | nil =>
    intro seen seen' used used' hused h
    cases h
    exact ⟨by simp, by simp, by simp, by simp, by simp, by simp, rfl, hused⟩
  | cons entry rest ih =>
    intro seen seen' used used' hused h
    rw [aiCheckEntries] at h
    split at h
    next => exact absurd h (by simp)
    next hentry =>
    simp only [ge_iff_le, ne_eq, not_or, not_not, Nat.not_le, Bool.not_eq_false,
      Bool.not_eq_true, gt_iff_lt] at hentry
    obtain ⟨-, hmax, h64, hactive, hfresh, hlow, hhigh⟩ := hentry
    dsimp only at h
    generalize hchange : (if entry.budgetUs > cfg.configuredBudget pool entry.vmid then _ else _) =
      delta at h
    split at h
    next => exact absurd h (by simp)
    next hdelta =>
    split at h
    next => exact absurd h (by simp)
    next hfits =>
    have hppm := entryPpm_toNat pool entry hused
    have hnext := UInt64.le_iff_toNat_le.mp (UInt64.not_lt.mp hfits)
    have hrec := ih hnext h
    obtain ⟨hraise, hlower⟩ := step_bounds (hchange ▸ hdelta)
    have hlawful : EntryLawful cfg pool entry :=
      ⟨UInt32.not_lt.mp hlow, UInt32.not_lt.mp hhigh, hraise, hlower⟩
    -- an entry further on has another VM, since this one is now seen
    have hother : ∀ entry' ∈ rest, entry'.vmid ≠ entry.vmid := by
      intro entry' hmem heq
      have hseen := hrec.fresh entry' hmem
      rw [heq, bitmapTest_set] at hseen
      exact Bool.false_ne_true hseen.symm
    have hmod : ∀ {vmid : Nat}, vmid < 64 → vmid ≠ entry.vmid →
        bitmapTest vmid (bitmapSet entry.vmid seen) = bitmapTest vmid seen :=
      fun hlt hne => bitmapTest_set_of_ne (by omega) seen
    refine ⟨?_, ?_, ?_, ?_, ?_, ?_, ?_, hrec.fits⟩
    · exact List.forall_mem_cons.mpr ⟨hlawful, hrec.lawful⟩
    · exact List.forall_mem_cons.mpr ⟨hmax, hrec.range⟩
    · exact List.forall_mem_cons.mpr ⟨hactive, hrec.active⟩
    · refine List.forall_mem_cons.mpr ⟨hfresh, fun entry' hmem => ?_⟩
      have hlt : entry'.vmid < 64 := Nat.lt_of_lt_of_le (hrec.range entry' hmem) (by decide)
      rw [← hmod hlt (hother entry' hmem)]
      exact hrec.fresh entry' hmem
    · refine List.nodup_cons.mpr ⟨fun hmem => ?_, hrec.nodup⟩
      obtain ⟨entry', hmem, heq⟩ := List.mem_map.mp hmem
      exact hother entry' hmem heq
    · intro vmid hlt
      rw [hrec.seen vmid hlt, List.map_cons, List.mem_cons]
      by_cases heq : vmid = entry.vmid
      · subst heq
        simp [bitmapTest_set]
      · rw [hmod hlt heq]
        simp [heq]
    · rw [hrec.used, hppm]
      simp only [ppmSum, List.map_cons, List.sum_cons]
      omega

/-- A sum of products, as its quotients and its remainders. -/
theorem sum_div_mod (amounts : List Nat) (scale period : Nat) :
    amounts.sum * scale = period * (amounts.map (· * scale / period)).sum +
      (amounts.map (· * scale % period)).sum := by
  induction amounts with
  | nil => simp
  | cons amount rest ih =>
    have hdiv := Nat.div_add_mod (amount * scale) period
    simp only [List.map_cons, List.sum_cons, Nat.add_mul, Nat.mul_add, ih]
    omega

/-- **Rounding.**  Parts per million that fit, with little lost, mean budgets that fit. -/
theorem sum_le_period {entries : List AiSchedEntry}
    (hfits : ppmSum pool entries ≤ 1000000) (hloss : roundingLoss pool entries < 1000000) :
    (entries.map (·.budgetUs.toNat)).sum ≤ pool.periodUs.toNat := by
  have hsum := sum_div_mod (entries.map (·.budgetUs.toNat)) 1000000 pool.periodUs.toNat
  rw [List.map_map, List.map_map] at hsum
  have hsum : (entries.map (·.budgetUs.toNat)).sum * 1000000 =
      pool.periodUs.toNat * ppmSum pool entries + roundingLoss pool entries := hsum
  have hmul := Nat.mul_le_mul_left pool.periodUs.toNat hfits
  omega

theorem mem_vmsOn {pcpuId vmid : Nat} (h : aiActiveMask cfg pcpuId = .ok active) :
    vmid ∈ cfg.vmsOn pcpuId ↔ vmid < configMaxVmNum ∧ bitmapTest vmid active = true := by
  unfold aiActiveMask at h
  dsimp only at h
  split at h
  next => exact absurd h (by simp)
  next =>
  cases h
  unfold AiPlatform.vmsOn
  rw [List.mem_filter, List.mem_range]
  refine and_congr_right fun hlt => ?_
  rw [bitmapTest_bitmapOf (by decide) (Nat.lt_of_lt_of_le hlt (by decide))]
  simp [hlt]

/-- What an accepted request satisfies; the request itself is kept but for two results. -/
structure RequestChecked (cfg : AiPlatform) (ioc ioc' : AiSchedIoc) (pool : SchedCpupoolConfig) :
    Prop where
  configured : cfg.pool ioc.pcpuId = some pool
  named : (ioc.proposed.map (·.vmid)).Perm (cfg.vmsOn ioc.pcpuId)
  limits : ∀ entry ∈ ioc.proposed, EntryLawful cfg pool entry
  fits : ppmSum pool ioc.proposed ≤ 1000000
  same_pcpu : ioc'.pcpuId = ioc.pcpuId
  same_minimum : ioc'.minUpdateMs = ioc.minUpdateMs

theorem aiSchedPool_spec {ioc : AiSchedIoc} (h : aiSchedPool cfg ioc = .ok pool) :
    cfg.pool ioc.pcpuId = some pool := by
  unfold aiSchedPool at h
  split at h
  next => exact absurd h (by simp)
  next =>
  split at h
  next => exact absurd h (by simp)
  next pool' hpool =>
  split at h
  next => exact absurd h (by simp)
  next =>
  cases h
  exact hpool

theorem aiSchedValidateProposal_spec {ioc ioc' : AiSchedIoc}
    (h : aiSchedValidateProposal cfg ioc = .ok ioc') :
    ∃ pool, RequestChecked cfg ioc ioc' pool := by
  simp only [aiSchedValidateProposal, bind, Except.bind] at h
  split at h
  next => exact absurd h (by simp)
  next pool hpool =>
  split at h
  next => exact absurd h (by simp)
  next =>
  split at h
  next => exact absurd h (by simp)
  next active hactive =>
  split at h
  next => exact absurd h (by simp)
  next result hcheck =>
  obtain ⟨seen, used⟩ := result
  split at h
  next => exact absurd h (by simp)
  next hseen =>
  cases h
  rw [ne_eq, not_not] at hseen
  have hseen : seen = active := hseen
  have hspec := aiCheckEntries_spec (by decide) hcheck
  subst hseen
  refine ⟨pool, aiSchedPool_spec hpool, ?_, hspec.lawful, ?_, rfl, rfl⟩
  · refine (List.perm_ext_iff_of_nodup hspec.nodup (List.nodup_range.filter _)).mpr fun vmid => ?_
    show vmid ∈ _ ↔ vmid ∈ cfg.vmsOn ioc.pcpuId
    rw [mem_vmsOn hactive]
    constructor
    · intro hmem
      obtain ⟨entry, hentry, rfl⟩ := List.mem_map.mp hmem
      exact ⟨hspec.range entry hentry, hspec.active entry hentry⟩
    · rintro ⟨hlt, hbit⟩
      rcases (hspec.seen vmid (Nat.lt_of_lt_of_le hlt (by decide))).mp hbit with hzero | hmem
      · exact absurd (hzero.symm.trans (bitmapTest_zero vmid)) (by decide)
      · exact hmem
  · have hused := hspec.used
    have hfits := hspec.fits
    have hzero : (0 : UInt64).toNat = 0 := rfl
    omega

end Validation

/-! ### Steps -/

section Steps

variable {cfg : AiPlatform} {x : AiRun}

inductive HcallKind (cfg : AiPlatform) (call : AiCall) (gate : AiSchedGate) :
    AiSchedGate → Option UInt64 → Option Nat → Prop
  /-- A denied, failed or reading call. -/
  | same : HcallKind cfg call gate gate none none
  /-- A registration, answered with a new capability. -/
  | register {capability next : UInt64} :
      HcallKind cfg call gate ⟨call.vmid, capability, next, fun _ => 0⟩ (some capability) none
  /-- A proposal that passes; the reply may still be lost. -/
  | propose {ioc ioc' : AiSchedIoc} {pool : SchedCpupoolConfig} {done : Option Nat}
      (hioc : call.ioc = some ioc) (hop : ioc.op = aiSchedOpPropose)
      (howner : gate.advisorVmid = call.vmid) (hset : gate.capability ≠ 0)
      (hcap : ioc.capability = gate.capability) (hchecked : RequestChecked cfg ioc ioc' pool)
      (htime : gate.lastProposalTicks ioc.pcpuId = 0 ∨
        usToTicks cfg.tickrate (ioc.minUpdateMs * 1000).toNat ≤
          (call.now - gate.lastProposalTicks ioc.pcpuId).toNat)
      (hdone : done = none ∨ done = some ioc.pcpuId) :
      HcallKind cfg call gate
        { gate with
          lastProposalTicks := Function.update gate.lastProposalTicks ioc.pcpuId call.now }
        none done

/-- The same for the part under the lock: a lost reply hides that a proposal passed. -/
theorem aiLocked_kind {call : AiCall} {ioc : AiSchedIoc} (hioc : call.ioc = some ioc)
    (gate : AiSchedGate) (status : UInt32) (copyOut : Bool) :
    let reply := aiLocked cfg call.vmid call.now { ioc with status := status } gate
    HcallKind cfg call gate reply.gate
      (if ioc.op = aiSchedOpRegister ∧ aiStatus reply.ret = aiSchedStatusOk then
        some reply.ioc.capability else none)
      (if ioc.op = aiSchedOpPropose ∧ (if copyOut then reply.ret else some .einval) = none then
        some ioc.pcpuId else none) := by
  intro reply
  have hreply : reply = aiLocked cfg call.vmid call.now { ioc with status := status } gate := rfl
  clear_value reply
  unfold aiLocked at hreply
  dsimp only at hreply
  split at hreply
  next hop =>
    -- REGISTER
    have hpropose : ¬aiSchedOpRegister = aiSchedOpPropose := by decide
    unfold aiRegister at hreply
    split at hreply
    next =>
      rw [hreply]
      simp only [hop, hpropose, aiStatus, false_and, if_false, true_and]
      exact .same
    next =>
      rw [hreply]
      simp only [hop, hpropose, aiStatus, false_and, if_false, true_and, if_true]
      exact .register
  next hreg =>
  simp only [hreg, false_and, if_false]
  -- a failed call is no accepted proposal
  have hfailed : ∀ {e ioc'}, reply = ⟨some e, ioc', gate⟩ →
      HcallKind cfg call gate reply.gate none
        (if ioc.op = aiSchedOpPropose ∧ (if copyOut then reply.ret else some .einval) = none then
          some ioc.pcpuId else none) := by
    intro e ioc' h
    rw [h, if_neg]
    · exact .same
    · rintro ⟨-, h⟩
      cases copyOut <;> simp at h
  split at hreply
  next => exact hfailed hreply
  next hadvisor =>
  simp only [ne_eq, not_or, not_not] at hadvisor
  split at hreply
  next hop =>
    -- SNAPSHOT
    rw [hreply, if_neg]
    · exact .same
    · rintro ⟨h, -⟩
      rw [hop] at h
      exact absurd h (by decide)
  next =>
  split at hreply
  next hop =>
    unfold aiPropose at hreply
    split at hreply
    next => exact hfailed hreply
    next ioc' hvalid =>
    obtain ⟨pool, hchecked⟩ := aiSchedValidateProposal_spec hvalid
    have hpcpu : ioc'.pcpuId = ioc.pcpuId := hchecked.same_pcpu
    have hmin : ioc'.minUpdateMs = ioc.minUpdateMs := hchecked.same_minimum
    dsimp only at hreply
    rw [hpcpu, hmin] at hreply
    split at hreply
    next => exact hfailed hreply
    next htime =>
      rw [hreply]
      refine .propose hioc hop hadvisor.1 hadvisor.2.1 hadvisor.2.2
        ⟨hchecked.configured, hchecked.named, hchecked.limits, hchecked.fits, hpcpu, hmin⟩ ?_ ?_
      · rw [not_and_or, not_not, Nat.not_lt] at htime
        exact htime
      · exact (ite_eq_or_eq _ _ _).symm
  next => exact hfailed hreply

theorem hcall_kind (cfg : AiPlatform) (call : AiCall) (gate : AiSchedGate) :
    HcallKind cfg call gate (hcallAiSched cfg call gate).2.2 (call.issued cfg gate)
      (call.accepted cfg gate) := by
  unfold AiCall.issued AiCall.accepted hcallAiSched
  cases hioc : call.ioc with
  | none => exact .same
  | some ioc =>
    dsimp only
    cases call.isServiceVm with
    | false =>
      simp only [Bool.not_false, if_true, reduceCtorEq, and_false, if_false]
      exact .same
    | true =>
      simp only [Bool.not_true, Bool.false_eq_true, if_false]
      by_cases hheader : ioc.HeaderOk
      · simp only [if_pos hheader]
        exact aiLocked_kind hioc gate _ _
      simp only [if_neg hheader, reduceCtorEq, and_false, if_false]
      rw [if_neg]
      · exact .same
      · rintro ⟨-, h⟩
        exact absurd h (by decide : ¬aiSchedStatusBadParam = aiSchedStatusOk)

/-- The gate holds the registration that stands and is not earlier than what it granted. -/
structure GateInv (x : AiRun) : Prop where
  idle : x.current = none → x.gate.capability = 0
  owner : ∀ reg ∈ x.current, x.gate.advisorVmid = reg.vmid
  capability : ∀ reg ∈ x.current, x.gate.capability = reg.capability
  times : ∀ reg ∈ x.current, ∀ pcpuId time, (pcpuId, time) ∈ reg.accepted →
    x.gate.lastProposalTicks pcpuId ≠ 0 ∧ time ≤ x.gate.lastProposalTicks pcpuId
  clock : ∀ pcpuId, x.gate.lastProposalTicks pcpuId ≤ x.clock

theorem GateInv.start : GateInv .start :=
  ⟨fun _ => rfl, by simp [AiRun.start], by simp [AiRun.start], by simp [AiRun.start],
    fun _ => UInt64.le_refl 0⟩

theorem GateInv.step (h : GateInv x) (event : AiEvent) (hcareful : event.Careful cfg)
    (horder : event.InOrder x) : GateInv (x.step cfg event) := by
  have hclock : ∀ pcpuId, x.gate.lastProposalTicks pcpuId ≤ event.now :=
    fun pcpuId => UInt64.le_trans (h.clock pcpuId) horder
  cases event with
  | invalidate vmid =>
    unfold AiRun.step aiSchedInvalidateVm
    dsimp only
    split
    next hself =>
      have hnone : x.current.filter (fun reg => reg.vmid ≠ vmid) = none := by
        rw [Option.filter_eq_none_iff]
        intro reg hreg
        simp [← h.owner reg hreg, hself]
      rw [hnone]
      exact ⟨fun _ => rfl, by simp, by simp, by simp, fun _ => UInt64.zero_le⟩
    next hother =>
      have hkeep : x.current.filter (fun reg => reg.vmid ≠ vmid) = x.current := by
        cases hcurrent : x.current with
        | none => rfl
        | some reg => simp [Option.filter_some, ← h.owner reg hcurrent, hother]
      rw [hkeep]
      exact ⟨h.idle, h.owner, h.capability, h.times, hclock⟩
  | hcall call =>
    have hkind := hcall_kind cfg call x.gate
    unfold AiRun.step AiRun.account
    dsimp only
    generalize (hcallAiSched cfg call x.gate).2.2 = gate' at hkind ⊢
    generalize call.issued cfg x.gate = issued at hkind ⊢
    generalize call.accepted cfg x.gate = accepted at hkind ⊢
    cases hkind with
    | same => exact ⟨h.idle, h.owner, h.capability, h.times, hclock⟩
    | register =>
      exact ⟨by simp, by simp, by simp, by simp, fun _ => UInt64.zero_le⟩
    | @propose ioc _ _ _ hioc hop _ _ _ _ _ hdone =>
      have hnow : call.now ≠ 0 := (hcareful ioc hioc hop).1
      -- the new time is no earlier than any before it
      have htimes : ∀ reg ∈ x.current, ∀ pcpuId time, (pcpuId, time) ∈ reg.accepted →
          Function.update x.gate.lastProposalTicks ioc.pcpuId call.now pcpuId ≠ 0 ∧
            time ≤ Function.update x.gate.lastProposalTicks ioc.pcpuId call.now pcpuId := by
        intro reg hreg pcpuId time hmem
        obtain ⟨hne, hle⟩ := h.times reg hreg pcpuId time hmem
        by_cases heq : pcpuId = ioc.pcpuId
        · subst heq
          rw [Function.update_self]
          exact ⟨hnow, UInt64.le_trans hle (hclock _)⟩
        · rw [Function.update_of_ne heq]
          exact ⟨hne, hle⟩
      have hclock' : ∀ pcpuId,
          Function.update x.gate.lastProposalTicks ioc.pcpuId call.now pcpuId ≤ call.now := by
        intro pcpuId
        by_cases heq : pcpuId = ioc.pcpuId
        · subst heq
          rw [Function.update_self]
          exact UInt64.le_refl _
        · rw [Function.update_of_ne heq]
          exact hclock pcpuId
      rcases hdone with rfl | rfl
      · exact ⟨h.idle, h.owner, h.capability, htimes, hclock'⟩
      refine ⟨?_, ?_, ?_, ?_, hclock'⟩
      · intro hnone
        exact h.idle (Option.map_eq_none_iff.mp hnone)
      · intro reg' hreg'
        obtain ⟨reg, hreg, rfl⟩ := Option.map_eq_some_iff.mp hreg'
        exact h.owner reg hreg
      · intro reg' hreg'
        obtain ⟨reg, hreg, rfl⟩ := Option.map_eq_some_iff.mp hreg'
        exact h.capability reg hreg
      · intro reg' hreg' pcpuId time hmem
        obtain ⟨reg, hreg, rfl⟩ := Option.map_eq_some_iff.mp hreg'
        rcases List.mem_cons.mp hmem with heq | hmem
        · cases heq
          dsimp only
          rw [Function.update_self]
          exact ⟨hnow, UInt64.le_refl _⟩
        · exact htimes reg hreg pcpuId time hmem

/-- The minimum in ticks is exact for whole milliseconds. -/
theorem usToTicks_ms (khz ms : Nat) : usToTicks khz (ms * 1000) = ms * khz := by
  unfold usToTicks
  rw [Nat.mul_right_comm]
  exact Nat.mul_div_cancel _ (by decide)

/-- An accepted proposal in a state that the invariant holds in. -/
theorem GateInv.lawful (h : GateInv x) {call : AiCall} {ioc : AiSchedIoc}
    (hcareful : (AiEvent.hcall call).Careful cfg) (horder : (AiEvent.hcall call).InOrder x)
    (hioc : call.ioc = some ioc) (hop : ioc.op = aiSchedOpPropose)
    (hret : (hcallAiSched cfg call x.gate).1 = none) :
    ∃ pool reg, ProposalLawful cfg x call ioc pool reg := by
  have haccepted : call.accepted cfg x.gate = some ioc.pcpuId := by
    unfold AiCall.accepted
    rw [hioc]
    exact if_pos ⟨hop, hret⟩
  have hkind := hcall_kind cfg call x.gate
  rw [haccepted] at hkind
  generalize (hcallAiSched cfg call x.gate).2.2 = gate' at hkind
  generalize call.issued cfg x.gate = issued at hkind
  generalize hdone : some ioc.pcpuId = done at hkind
  cases hkind with
  | same | register => cases hdone
  | @propose _ _ pool _ hioc' _ howner hset hcap hchecked htime =>
    cases hioc.symm.trans hioc'
    obtain ⟨-, hpool⟩ := hcareful ioc hioc hop
    obtain ⟨hmin, hloss⟩ := hpool pool hchecked.configured
    cases hcurrent : x.current with
    | none => exact absurd (h.idle hcurrent) hset
    | some reg =>
      refine ⟨pool, reg, hchecked.configured, hcurrent, (h.owner reg hcurrent).symm.trans howner,
        hcap.trans (h.capability reg hcurrent), hchecked.named, hchecked.limits,
        sum_le_period hchecked.fits hloss, fun time hmem => ?_⟩
      obtain ⟨hne, hle⟩ := h.times reg hcurrent ioc.pcpuId time hmem
      have htime := htime.resolve_left hne
      have hlast : x.gate.lastProposalTicks ioc.pcpuId ≤ call.now :=
        UInt64.le_trans (h.clock _) horder
      rw [UInt64.toNat_sub_of_le _ _ hlast] at htime
      have hticks : pool.aiMinUpdateMs.toNat * cfg.tickrate ≤
          usToTicks cfg.tickrate (ioc.minUpdateMs * 1000).toNat := by
        rw [← usToTicks_ms]
        exact Nat.div_le_div_right (Nat.mul_le_mul_right _ hmin)
      have hle := UInt64.le_iff_toNat_le.mp hle
      have hlast := UInt64.le_iff_toNat_le.mp hlast
      omega

end Steps

/-! ### Main result -/

/--
**A careful advisor keeps to the law.**  Along every history of registrations, snapshots, proposals
and invalidations in which time does not go back and every proposal is careful, a proposal that
returns 0 carries the capability of the registration that stands, names the VMs of its pCPU once
each with budgets in the limits and within the period, and comes no earlier than the minimum of
the pool after the ones before it.
-/
theorem proposal_lawful (cfg : AiPlatform) (history : List AiEvent)
    (hhistory : Run.Along (AiRun.step cfg) (fun x event => event.Careful cfg ∧ event.InOrder x)
      .start history)
    (call : AiCall) (ioc : AiSchedIoc) (hioc : call.ioc = some ioc)
    (hop : ioc.op = aiSchedOpPropose) (hcareful : (AiEvent.hcall call).Careful cfg)
    (horder : (AiEvent.hcall call).InOrder (Run.exec (AiRun.step cfg) .start history))
    (hret : (hcallAiSched cfg call (Run.exec (AiRun.step cfg) .start history).gate).1 = none) :
    ∃ pool reg,
      ProposalLawful cfg (Run.exec (AiRun.step cfg) .start history) call ioc pool reg := by
  have hinv : GateInv (Run.exec (AiRun.step cfg) .start history) :=
    Run.inv_exec (fun x event hx hok => hx.step event hok.1 hok.2) GateInv.start hhistory
  exact hinv.lawful hcareful horder hioc hop hret

/-- One pCPU with a period of ten seconds and two VMs of half the time each. -/
def twoVmPlatform : AiPlatform where
  tickrate := 1000
  pcpuNums := 1
  pool := fun pcpuId => if pcpuId = 0 then
    some ⟨.cbs, 10000000, 5000000, true, 1000000, 9000000, 1000, 100⟩ else none
  vmConfig := fun vmid => ⟨vmid < 2, 1#64, [], 0⟩

/-- A request of the advisor for the pCPU. -/
def advisorIoc (op : UInt32) (capability sequence : UInt64) (minUpdateMs : UInt32)
    (budgets : List UInt32) : AiSchedIoc where
  op := op
  status := 0
  abiVersion := 1
  iocSize := 224
  capability := capability
  sequence := sequence
  pcpuId := 0
  entryCount := budgets.length
  reserved0 := 0
  sampleTicks := 0
  policy := 0
  periodUs := 0
  poolBudgetUs := 0
  minBudgetUs := 0
  maxBudgetUs := 0
  maxStepUs := 0
  minUpdateMs := minUpdateMs
  activeVmMask := 0#64
  utilizationPpm := 0
  entries := fun vmid => ⟨vmid, 0, budgets.getD vmid 0⟩

def advisorCall (ioc : AiSchedIoc) (now : UInt64) : AiCall := ⟨0, true, some ioc, now, true⟩

/-- A registration at tick 5 and a proposal a millisecond later. -/
def advisorHistory (minUpdateMs : UInt32) (budgets : List UInt32) : List AiEvent :=
  [.hcall (advisorCall (advisorIoc 0 0 0 0 []) 5),
    .hcall (advisorCall (advisorIoc 2 7 1 minUpdateMs budgets) 1005)]

theorem proposal_lawful_twoVm :
    ∃ pool reg, ProposalLawful twoVmPlatform
      (Run.exec (AiRun.step twoVmPlatform) .start (advisorHistory 100 [5000010, 4999990]))
      (advisorCall (advisorIoc 2 7 2 100 [5000000, 5000000]) 101005)
      (advisorIoc 2 7 2 100 [5000000, 5000000]) pool reg :=
  proposal_lawful twoVmPlatform (advisorHistory 100 [5000010, 4999990]) (by decide +kernel)
    (advisorCall (advisorIoc 2 7 2 100 [5000000, 5000000]) 101005) _ rfl rfl (by decide +kernel)
    (by decide +kernel) (by decide +kernel)

/--
**Too soon and too much.**  A request that names a minimum of zero is accepted one tick after the
last one, on a pool that asks for 100 ms between them, and with budgets that add up to six
microseconds more than the period.
-/
theorem proposal_too_soon_and_too_much :
    let budgets : List UInt32 := [5000001, 5000005]
    let x := Run.exec (AiRun.step twoVmPlatform) .start (advisorHistory 0 budgets)
    let ioc := advisorIoc 2 7 2 0 budgets
    x.current = some ⟨0, 7, [(0, 1005)]⟩ ∧
      (hcallAiSched twoVmPlatform (advisorCall ioc 1006) x.gate).1 = none ∧
      (ioc.proposed.map (·.budgetUs.toNat)).sum = 10000006 ∧
      ¬∃ pool reg, ProposalLawful twoVmPlatform x (advisorCall ioc 1006) ioc pool reg := by
  intro budgets x ioc
  have hcurrent : x.current = some ⟨0, 7, [(0, 1005)]⟩ := by decide +kernel
  refine ⟨hcurrent, by decide +kernel, by decide +kernel, ?_⟩
  rintro ⟨pool, reg, h⟩
  have hpool := h.configured
  cases hpool
  exact absurd h.sum (by decide)

end BeauOs.Sched

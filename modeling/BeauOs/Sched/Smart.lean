/-
The gate of the scheduling advisor, `core/sched/smart.c`.

A service VM registers as advisor and gets a capability.  With it the VM reads a snapshot of the
budgets on a pCPU and proposes other ones.  A proposal is checked against the configuration of the
pool and against the time of the last one, and is then only recorded: nothing of the scheduler
reads it.

A hypercall runs under the lock of the gate, so a history is a list of whole calls.  The request is
whatever the guest wrote; its fields keep the widths they have in `struct acrn_ai_sched_ioc`.
-/
import BeauOs.Sched.Thread

namespace BeauOs.Sched

inductive AiErrno where
  | eperm
  | einval
  | ebusy
  | enotsup
  deriving DecidableEq, Repr

inductive SchedPolicyId where
  | none
  | noop
  | iorr
  | bvt
  | rtds
  | cbs
  | prio
  | arinc653
  | bfp
  deriving DecidableEq, Repr

def SchedPolicyId.toUInt32 (policy : SchedPolicyId) : UInt32 :=
  match policy with
  | .none => 0
  | .noop => 1
  | .iorr => 2
  | .bvt => 3
  | .rtds => 4
  | .cbs => 5
  | .prio => 6
  | .arinc653 => 7
  | .bfp => 8

/-! ### Configuration -/

def acrnInvalidVmid : Nat := 0xffff

/-- `struct sched_cpupool_config`, as far as the gate reads it. -/
structure SchedCpupoolConfig where
  policy : SchedPolicyId
  periodUs : UInt32
  budgetUs : UInt32
  aiAssist : Bool
  aiMinBudgetUs : UInt32
  aiMaxBudgetUs : UInt32
  aiMaxStepUs : UInt32
  aiMinUpdateMs : UInt32
  deriving DecidableEq

/-- `struct acrn_vm_config`, as far as the gate reads it. -/
structure AiVmConfig where
  /-- The name is not empty. -/
  named : Bool
  cpuAffinity : BitVec 64
  /-- The first `cpu_affinity_num` entries. -/
  cpuAffinityOrder : List Nat
  cbsBudgetUs : UInt32

structure AiPlatform where
  tickrate : Nat
  pcpuNums : Nat
  /-- `sched_get_pcpu_pool_config` -/
  pool : Nat → Option SchedCpupoolConfig
  vmConfig : Nat → AiVmConfig

def aiSchedVmUsesPcpu (config : AiVmConfig) (pcpuId : Nat) : Bool :=
  if !config.named then false
  else if config.cpuAffinityOrder.length ≠ 0 then config.cpuAffinityOrder.contains pcpuId
  else bitmapTest pcpuId config.cpuAffinity

/-- The budget a VM has without the advisor. -/
def AiPlatform.configuredBudget (cfg : AiPlatform) (pool : SchedCpupoolConfig) (vmid : Nat) :
    UInt32 :=
  if (cfg.vmConfig vmid).cbsBudgetUs ≠ 0 then (cfg.vmConfig vmid).cbsBudgetUs else pool.budgetUs

/-! ### Requests -/

def aiSchedAbiVersion : UInt32 := 1

def aiSchedMaxEntries : Nat := 16

def aiSchedIocSize : UInt32 := 224

def aiSchedOpRegister : UInt32 := 0
def aiSchedOpSnapshot : UInt32 := 1
def aiSchedOpPropose : UInt32 := 2

def aiSchedStatusOk : UInt32 := 0
def aiSchedStatusDenied : UInt32 := 1
def aiSchedStatusBadParam : UInt32 := 2
def aiSchedStatusUnsupported : UInt32 := 3

structure AiSchedEntry where
  vmid : Nat
  reserved : Nat
  budgetUs : UInt32
  deriving DecidableEq, Repr

structure AiSchedIoc where
  op : UInt32
  status : UInt32
  abiVersion : UInt32
  iocSize : UInt32
  capability : UInt64
  sequence : UInt64
  pcpuId : Nat
  entryCount : Nat
  reserved0 : UInt32
  sampleTicks : UInt64
  policy : UInt32
  periodUs : UInt32
  poolBudgetUs : UInt32
  minBudgetUs : UInt32
  maxBudgetUs : UInt32
  maxStepUs : UInt32
  minUpdateMs : UInt32
  activeVmMask : BitVec 64
  utilizationPpm : UInt64
  entries : Nat → AiSchedEntry

def AiSchedIoc.proposed (ioc : AiSchedIoc) : List AiSchedEntry :=
  (List.range ioc.entryCount).map ioc.entries

/-! ### The gate -/

structure AiSchedGate where
  advisorVmid : Nat
  capability : UInt64
  nextCapability : UInt64
  lastProposalTicks : Nat → UInt64

def AiSchedGate.init : AiSchedGate := ⟨acrnInvalidVmid, 0, 1, fun _ => 0⟩

def aiSchedPool (cfg : AiPlatform) (ioc : AiSchedIoc) : Except AiErrno SchedCpupoolConfig :=
  if ioc.pcpuId ≥ cfg.pcpuNums then .error .einval
  else
    match cfg.pool ioc.pcpuId with
    | none => .error .enotsup
    | some pool =>
      if !pool.aiAssist ∨ pool.policy ≠ .cbs ∨ pool.periodUs = 0 then .error .enotsup
      else .ok pool

/-- The loop of `ai_sched_snapshot`: one entry for each VM of the pCPU. -/
def aiSnapshotEntries (cfg : AiPlatform) (pool : SchedCpupoolConfig) :
    List Nat → AiSchedIoc → Option AiErrno × AiSchedIoc
  | [], ioc => (none, ioc)
  | vmid :: rest, ioc =>
    if !aiSchedVmUsesPcpu (cfg.vmConfig vmid) ioc.pcpuId then aiSnapshotEntries cfg pool rest ioc
    else if ioc.entryCount ≥ aiSchedMaxEntries then (some .einval, ioc)
    else
      let entry := { ioc.entries ioc.entryCount with
        vmid := vmid, budgetUs := cfg.configuredBudget pool vmid }
      aiSnapshotEntries cfg pool rest
        { ioc with
          entries := Function.update ioc.entries ioc.entryCount entry
          entryCount := ioc.entryCount + 1
          activeVmMask :=
            if vmid < 64 then bitmapSet vmid ioc.activeVmMask else ioc.activeVmMask }

def aiSchedSnapshot (cfg : AiPlatform) (now : UInt64) (ioc : AiSchedIoc) :
    Option AiErrno × AiSchedIoc :=
  match aiSchedPool cfg ioc with
  | .error e => (some e, ioc)
  | .ok pool =>
    aiSnapshotEntries cfg pool (List.range configMaxVmNum)
      { ioc with
        sampleTicks := now
        policy := pool.policy.toUInt32
        periodUs := pool.periodUs
        poolBudgetUs := pool.budgetUs
        minBudgetUs := pool.aiMinBudgetUs
        maxBudgetUs := pool.aiMaxBudgetUs
        maxStepUs := pool.aiMaxStepUs
        minUpdateMs := pool.aiMinUpdateMs
        entryCount := 0
        activeVmMask := 0#64 }

/-- The first loop of `ai_sched_validate_proposal`: the VMs of the pCPU as a mask. -/
def aiActiveMask (cfg : AiPlatform) (pcpuId : Nat) : Except AiErrno (BitVec 64) :=
  let uses := fun vmid => aiSchedVmUsesPcpu (cfg.vmConfig vmid) pcpuId
  if (List.range configMaxVmNum).any fun vmid => uses vmid && 64 ≤ vmid then .error .enotsup
  else .ok (bitmapOf configMaxVmNum uses)

/-- The second loop of `ai_sched_validate_proposal`: the VMs seen and the utilisation in ppm. -/
def aiCheckEntries (cfg : AiPlatform) (pool : SchedCpupoolConfig) (active : BitVec 64) :
    List AiSchedEntry → BitVec 64 → UInt64 → Except AiErrno (BitVec 64 × UInt64)
  | [], seen, utilization => .ok (seen, utilization)
  | entry :: rest, seen, utilization =>
    if entry.reserved ≠ 0 ∨ entry.vmid ≥ configMaxVmNum ∨ entry.vmid ≥ 64 ∨
        bitmapTest entry.vmid active = false ∨ bitmapTest entry.vmid seen = true ∨
        entry.budgetUs < pool.aiMinBudgetUs ∨ entry.budgetUs > pool.aiMaxBudgetUs then
      .error .einval
    else
      let current := cfg.configuredBudget pool entry.vmid
      let delta :=
        if entry.budgetUs > current then entry.budgetUs - current else current - entry.budgetUs
      if delta > pool.aiMaxStepUs then .error .einval
      else
        let utilization :=
          utilization + entry.budgetUs.toUInt64 * 1000000 / pool.periodUs.toUInt64
        if utilization > 1000000 then .error .ebusy
        else aiCheckEntries cfg pool active rest (bitmapSet entry.vmid seen) utilization

variable (cfg : AiPlatform)

/-- `ai_sched_validate_proposal`: the request with its results filled in. -/
def aiSchedValidateProposal (ioc : AiSchedIoc) : Except AiErrno AiSchedIoc := do
  let pool ← aiSchedPool cfg ioc
  if ioc.sequence = 0 ∨ ioc.entryCount = 0 ∨ ioc.entryCount > aiSchedMaxEntries then
    .error .einval
  else
    let active ← aiActiveMask cfg ioc.pcpuId
    let (seen, utilization) ← aiCheckEntries cfg pool active ioc.proposed 0#64 0
    if seen ≠ active then .error .einval
    else .ok { ioc with activeVmMask := active, utilizationPpm := utilization }

def aiSchedInvalidateVm (vmid : Nat) (gate : AiSchedGate) : AiSchedGate :=
  if gate.advisorVmid = vmid then
    { gate with advisorVmid := acrnInvalidVmid, capability := 0, lastProposalTicks := fun _ => 0 }
  else gate

/-- One hypercall: who calls, what it reads from the guest, and the time it finds. -/
structure AiCall where
  vmid : Nat
  isServiceVm : Bool
  /-- The request, if `copy_from_gpa` can read it. -/
  ioc : Option AiSchedIoc
  /-- `cpu_ticks`, which each operation reads at most once. -/
  now : UInt64
  /-- Whether `copy_to_gpa` succeeds. -/
  copyOut : Bool

/-- What a hypercall leaves: the code it returns, the reply it built and the gate. -/
structure AiReply where
  /-- `none` is 0. -/
  ret : Option AiErrno
  ioc : AiSchedIoc
  gate : AiSchedGate

/-- The REGISTER branch of `hcall_ai_sched`. -/
def aiRegister (vmid : Nat) (now : UInt64) (ioc : AiSchedIoc) (gate : AiSchedGate) : AiReply :=
  if ioc.capability ≠ 0 ∨ ioc.sequence ≠ 0 ∨ ioc.entryCount ≠ 0 then ⟨some .einval, ioc, gate⟩
  else
    let next := gate.nextCapability + 1
    let drawn := next ^^^ now
    -- zero means that nobody is registered
    let next' := if drawn = 0 then next + 1 else next
    let capability := if drawn = 0 then next + 1 else drawn
    ⟨none, { ioc with capability := capability }, ⟨vmid, capability, next', fun _ => 0⟩⟩

/-- The PROPOSE branch of `hcall_ai_sched`. -/
def aiPropose (now : UInt64) (ioc : AiSchedIoc) (gate : AiSchedGate) : AiReply :=
  match aiSchedValidateProposal cfg ioc with
  | .error e => ⟨some e, ioc, gate⟩
  | .ok ioc =>
    -- the minimum is the one of the request, and the product has 32 bits
    let minimum := usToTicks cfg.tickrate (ioc.minUpdateMs * 1000).toNat
    if gate.lastProposalTicks ioc.pcpuId ≠ 0 ∧
        (now - gate.lastProposalTicks ioc.pcpuId).toNat < minimum then
      ⟨some .ebusy, ioc, gate⟩
    else
      ⟨none, ioc, { gate with
        lastProposalTicks := Function.update gate.lastProposalTicks ioc.pcpuId now }⟩

/-- The part of `hcall_ai_sched` that runs under the lock. -/
def aiLocked (vmid : Nat) (now : UInt64) (ioc : AiSchedIoc) (gate : AiSchedGate) : AiReply :=
  if ioc.op = aiSchedOpRegister then aiRegister vmid now ioc gate
  else if gate.advisorVmid ≠ vmid ∨ gate.capability = 0 ∨ ioc.capability ≠ gate.capability then
    ⟨some .eperm, ioc, gate⟩
  else if ioc.op = aiSchedOpSnapshot then
    ⟨(aiSchedSnapshot cfg now ioc).1, (aiSchedSnapshot cfg now ioc).2, gate⟩
  else if ioc.op = aiSchedOpPropose then aiPropose cfg now ioc gate
  else ⟨some .einval, ioc, gate⟩

def aiStatus (ret : Option AiErrno) : UInt32 :=
  match ret with
  | none => aiSchedStatusOk
  | some .eperm => aiSchedStatusDenied
  | some .enotsup => aiSchedStatusUnsupported
  | some _ => aiSchedStatusBadParam

/-- The request is for this version of the interface. -/
def AiSchedIoc.HeaderOk (ioc : AiSchedIoc) : Prop :=
  ioc.abiVersion = aiSchedAbiVersion ∧ ioc.iocSize = aiSchedIocSize ∧ ioc.reserved0 = 0

instance (ioc : AiSchedIoc) : Decidable ioc.HeaderOk := inferInstanceAs (Decidable (_ ∧ _))

/-- `hcall_ai_sched`; without a request there is no reply. -/
def hcallAiSched (call : AiCall) (gate : AiSchedGate) :
    Option AiErrno × Option AiSchedIoc × AiSchedGate :=
  match call.ioc with
  | none => (some .einval, none, gate)
  | some ioc =>
    if !call.isServiceVm then (some .einval, none, gate)
    else if ioc.HeaderOk then
      let reply := aiLocked cfg call.vmid call.now { ioc with status := aiSchedStatusOk } gate
      (if call.copyOut then reply.ret else some .einval,
        some { reply.ioc with status := aiStatus reply.ret }, reply.gate)
    else (some .einval, some { ioc with status := aiSchedStatusBadParam }, gate)

end BeauOs.Sched

/-
The admission tests of CBS and BFP: `cbs_validate_pcpu_admission` and `bfp_validate_response_time`.

Both run when the scheduler of a pCPU is set up and panic on a configuration that is too much for
the pCPU.  CBS adds up the utilisation of the VMs in parts per million.  BFP iterates the
response-time recurrence of each task.  A panic is an error with its text.
-/
import BeauOs.Sched.Bfp
import BeauOs.Sched.Cbs

namespace BeauOs.Sched

/-- What the test of CBS reads of `struct acrn_vm_config`. -/
structure VmSchedConfig where
  /-- the first `cpu_affinity_num` entries of `cpu_affinity_order` -/
  cpuAffinityOrder : List Nat
  cpuAffinity : BitVec 64
  cbsPeriodUs : Nat
  cbsBudgetUs : Nat

def cbsVmUsesPcpu (vm : VmSchedConfig) (pcpuId : Nat) : Bool :=
  if vm.cpuAffinityOrder.length ≠ 0 then vm.cpuAffinityOrder.any fun id => id = pcpuId
  else bitmapTest pcpuId vm.cpuAffinity

/-! ### Utilisation -/

def cbsUtilScale : Nat := 1000000

/-- The loop of `cbs_validate_pcpu_admission`; the products of 32-bit values fit into its words. -/
def cbsAdmissionLoop (pcpuId : Nat) (pool : Option PoolConfig) :
    List VmSchedConfig → Nat → Nat → Except String Nat
  | [], _, utilization => .ok utilization
  | vm :: rest, vmId, utilization =>
    if !cbsVmUsesPcpu vm pcpuId then cbsAdmissionLoop pcpuId pool rest (vmId + 1) utilization
    else
      match cbsNormalizeUs pcpuId pool vm.cbsPeriodUs vm.cbsBudgetUs with
      | .error text => .error text
      | .ok us =>
        let utilization := utilization + us.val.2 * cbsUtilScale / us.val.1
        if utilization > cbsUtilScale then
          .error (s!"CBS admission failed on pCPU{pcpuId} vm{vmId} util={utilization} ppm " ++
            s!"budget={us.val.2} period={us.val.1}")
        else cbsAdmissionLoop pcpuId pool rest (vmId + 1) utilization

/-- `cbs_validate_pcpu_admission`, with the table of all VMs. -/
def cbsValidatePcpuAdmission (pcpuId : Nat) (pool : Option PoolConfig) (vms : List VmSchedConfig) :
    Except String Nat := cbsAdmissionLoop pcpuId pool vms 0 0

/-! ### Response times -/

/-- `struct bfp_admission_task`; period and budget have 32 bits. -/
structure BfpAdmissionTask where
  vmId : Nat
  priority : Nat
  us : NormalizedUs
  fits : us.val.1 < 2 ^ 32

namespace BfpAdmissionTask

def periodUs (task : BfpAdmissionTask) : Nat := task.us.val.1

def budgetUs (task : BfpAdmissionTask) : Nat := task.us.val.2

end BfpAdmissionTask

def bfpRtaMaxIterations : Nat := 64

/-- `jobs`: the quotient, and one more for a remainder. -/
def bfpJobs (response periodUs : Nat) : Nat :=
  if response % periodUs ≠ 0 then response / periodUs + 1 else response / periodUs

/-- The inner loop of `bfp_validate_response_time`, from the task `idx` on. -/
def bfpDemandLoop (pcpuId : Nat) (task : BfpAdmissionTask) (taskIdx response : Nat) :
    List BfpAdmissionTask → Nat → Nat → Except String Nat
  | [], _, demand => .ok demand
  | other :: rest, idx, demand =>
    if idx = taskIdx ∨ other.priority < task.priority then
      bfpDemandLoop pcpuId task taskIdx response rest (idx + 1) demand
    else
      let jobs := bfpJobs response other.periodUs
      if jobs > uint64Max / other.budgetUs then
        .error s!"BFP pCPU{pcpuId} vm{task.vmId} response interference overflow"
      else
        let interference := jobs * other.budgetUs
        if demand > uint64Max - interference then
          .error s!"BFP pCPU{pcpuId} vm{task.vmId} response demand overflow"
        else bfpDemandLoop pcpuId task taskIdx response rest (idx + 1) (demand + interference)

/-- The outer loop of `bfp_validate_response_time`, with the iterations that are left. -/
def bfpResponseLoop (pcpuId : Nat) (tasks : List BfpAdmissionTask) (task : BfpAdmissionTask)
    (taskIdx : Nat) : Nat → Nat → Except String Nat
  | 0, _ => .error (s!"BFP admission did not converge pCPU{pcpuId} vm{task.vmId} " ++
      s!"iterations={bfpRtaMaxIterations}")
  | left + 1, response =>
    match bfpDemandLoop pcpuId task taskIdx response tasks 0 task.budgetUs with
    | .error text => .error text
    | .ok demand =>
      if demand > task.periodUs then
        .error (s!"BFP admission failed pCPU{pcpuId} vm{task.vmId} response={demand} " ++
          s!"period={task.periodUs}")
      else if demand = response then .ok response
      else bfpResponseLoop pcpuId tasks task taskIdx left demand

/-- `bfp_validate_response_time`, with the response it converges to. -/
def bfpValidateResponseTime (pcpuId : Nat) (tasks : List BfpAdmissionTask)
    (taskIdx : Fin tasks.length) : Except String Nat :=
  bfpResponseLoop pcpuId tasks (tasks.get taskIdx) taskIdx bfpRtaMaxIterations
    (tasks.get taskIdx).budgetUs

end BeauOs.Sched

/-
The scheduler pools and the placement of vCPUs in the platform tree, `sdk/bsp/arm64/platform_dts.c`.

The tree names an exclusive and a shared pool of pCPUs, and for each VM an ordered list of pCPUs:
its entry number `i` is the pCPU of vCPU `i`.  Everything that is wrong with them is a panic at boot,
so a function here returns `none`, or `false`, where the source panics.

`MAX_PCPU_NUM` is a number of the build, between 1 and 64; the VM table has `CONFIG_MAX_VM_NUM`
slots, and a slot that no VM node fills has an empty affinity.
-/
import BeauOs.Lib.Weight
import BeauOs.Sched.Thread

namespace BeauOs.Platform

open BeauOs.Sched (configMaxVmNum)

/-- `CONFIG_MAX_PCPU_NUM` with its range. -/
structure PcpuLimit where
  maxPcpuNum : Nat
  pos : 1 ≤ maxPcpuNum
  le : maxPcpuNum ≤ 64

/-- The two pools of `struct sched_platform_config`. -/
structure SchedPools where
  exclusive : BitVec 64
  shared : BitVec 64
  strictPlacement : Bool

/-- The `cpu-affinity` of a VM node, which names at least the pCPU of vCPU 0. -/
structure CpuAffinity where
  vcpu0 : Nat
  others : List Nat

def CpuAffinity.cells (affinity : CpuAffinity) : List Nat := affinity.vcpu0 :: affinity.others

/-- What the placement is read from: the pools and the VM nodes by their number. -/
structure PlatformTree where
  pools : SchedPools
  vm : Nat → Option CpuAffinity

/-- The affinity fields of `struct acrn_vm_config`. -/
structure VmAffinity where
  cpuAffinity : BitVec 64
  cpuAffinityOrder : List Nat

/-- A slot after the `memset`. -/
def VmAffinity.zero : VmAffinity := ⟨0#64, []⟩

/-! ### Parsing -/

def dtsAllPcpusMask (limit : PcpuLimit) : BitVec 64 :=
  if limit.maxPcpuNum ≥ 64 then BitVec.allOnes 64 else (1#64 <<< limit.maxPcpuNum) - 1#64

def dtsValidateSchedConfig (limit : PcpuLimit) (pools : SchedPools) : Bool :=
  let allMask := dtsAllPcpusMask limit
  if pools.exclusive &&& pools.shared ≠ 0#64 ∨
      (pools.exclusive ||| pools.shared) &&& ~~~allMask ≠ 0#64 then false
  else if pools.exclusive = 0#64 ∧ pools.shared = 0#64 then false
  else if pools.exclusive ||| pools.shared ≠ allMask then false
  else true

/-- The loop of `dts_parse_cpu_affinity`. -/
def parseAffinityCells (limit : PcpuLimit) :
    List Nat → List Nat → BitVec 64 → Option (List Nat × BitVec 64)
  | [], order, affinity => some (order, affinity)
  | pcpuId :: rest, order, affinity =>
    if pcpuId ≥ limit.maxPcpuNum then none
    else if bitmapTest pcpuId affinity then none
    else parseAffinityCells limit rest (order ++ [pcpuId]) (bitmapSet pcpuId affinity)

variable (limit : PcpuLimit)

/-- `dts_parse_cpu_affinity`: the ordered list and its set. -/
def dtsParseCpuAffinity (cells : List Nat) : Option (List Nat × BitVec 64) :=
  if cells.length = 0 then none
  else if cells.length > limit.maxPcpuNum then none
  else parseAffinityCells limit cells [] 0#64

/-- The affinity part of `dts_parse_vm_node`, for one slot. -/
def dtsParseVm (tree : PlatformTree) (vmId : Nat) : Option VmAffinity :=
  match tree.vm vmId with
  | none => some .zero
  | some affinity =>
    (dtsParseCpuAffinity limit affinity.cells).map fun parsed => ⟨parsed.2, parsed.1⟩

/-! ### Placement -/

/-- The locals of `dts_validate_sched_vm_placement`. -/
structure PlacementState where
  /-- Eight bits each. -/
  exclusiveVcpuCount : Nat → Nat
  /-- Eight bits each. -/
  sharedVcpuCount : Nat → Nat
  sharedVmMasks : Nat → BitVec 64
  exclusiveBspMask : BitVec 64
  configuredVmCount : Nat
  exclusiveBspCount : Nat

def PlacementState.init : PlacementState := ⟨fun _ => 0, fun _ => 0, fun _ => 0#64, 0#64, 0, 0⟩

/-- The checks of vCPU 0 before the loop over the vCPUs. -/
def placeBsp (pools : SchedPools) (bspPcpu : Nat) (st : PlacementState) : Option PlacementState :=
  if bitmapTest bspPcpu pools.exclusive then
    if bitmapTest bspPcpu st.exclusiveBspMask then none
    else some { st with
      exclusiveBspMask := bitmapSet bspPcpu st.exclusiveBspMask
      exclusiveBspCount := st.exclusiveBspCount + 1 }
  else if bitmapTest bspPcpu pools.shared = false then none
  else some st

/-- One more vCPU on a shared pCPU; the mask has room for 64 VMs. -/
def addShared (vmId pcpuId : Nat) (st : PlacementState) : PlacementState :=
  { st with
    sharedVcpuCount :=
      Function.update st.sharedVcpuCount pcpuId ((st.sharedVcpuCount pcpuId + 1) % 256)
    sharedVmMasks :=
      if vmId < 64 then
        Function.update st.sharedVmMasks pcpuId (bitmapSet vmId (st.sharedVmMasks pcpuId))
      else st.sharedVmMasks }

/-- One round of the loop over the vCPUs of a VM. -/
def placeVcpu (pools : SchedPools) (vmId idx pcpuId : Nat) (st : PlacementState) :
    Option PlacementState :=
  if bitmapTest pcpuId pools.exclusive then
    if idx ≠ 0 then none
    else
      let count := (st.exclusiveVcpuCount pcpuId + 1) % 256
      if count > 1 then none
      else some { st with
        exclusiveVcpuCount := Function.update st.exclusiveVcpuCount pcpuId count }
  else if bitmapTest pcpuId pools.shared then some (addShared vmId pcpuId st)
  else none

def placeVcpus (pools : SchedPools) (vmId : Nat) :
    List Nat → Nat → PlacementState → Option PlacementState
  | [], _, st => some st
  | pcpuId :: rest, idx, st =>
    (placeVcpu pools vmId idx pcpuId st).bind (placeVcpus pools vmId rest (idx + 1))

/-- One round of the loop over the VM table. -/
def placeVm (pools : SchedPools) (vmId : Nat) (config : VmAffinity) (st : PlacementState) :
    Option PlacementState :=
  if config.cpuAffinity = 0#64 then some st
  else
    match config.cpuAffinityOrder with
    | [] => none
    | bspPcpu :: others =>
      (placeBsp pools bspPcpu { st with configuredVmCount := st.configuredVmCount + 1 }).bind
        (placeVcpus pools vmId (bspPcpu :: others) 0)

def placeVms (pools : SchedPools) (vmConfigs : Nat → VmAffinity) :
    List Nat → PlacementState → Option PlacementState
  | [], st => some st
  | vmId :: rest, st =>
    (placeVm pools vmId (vmConfigs vmId) st).bind (placeVms pools vmConfigs rest)

/-- The checks after the loop over the VM table. -/
def placementComplete (pools : SchedPools) (st : PlacementState) : Bool :=
  let exclusiveCapacity := bitmapWeight pools.exclusive
  let expectedExclusiveBsp :=
    if st.configuredVmCount < exclusiveCapacity then st.configuredVmCount else exclusiveCapacity
  ((List.range limit.maxPcpuNum).all fun pcpuId =>
    !(st.sharedVcpuCount pcpuId > st.configuredVmCount ||
      st.sharedVcpuCount pcpuId ≠ bitmapWeight (st.sharedVmMasks pcpuId))) &&
    !(st.exclusiveBspCount < expectedExclusiveBsp)

def dtsValidateSchedVmPlacement (pools : SchedPools) (vmConfigs : Nat → VmAffinity) : Bool :=
  if !pools.strictPlacement then true
  else
    match placeVms pools vmConfigs (List.range configMaxVmNum) .init with
    | none => false
    | some st => placementComplete limit pools st

/-- The boot goes on: the pools are valid, every VM node parses and the placement is valid. -/
def dtsAcceptsPlacement (tree : PlatformTree) : Bool :=
  dtsValidateSchedConfig limit tree.pools &&
    (List.range configMaxVmNum).all (fun vmId => (dtsParseVm limit tree vmId).isSome) &&
    dtsValidateSchedVmPlacement limit tree.pools
      fun vmId => (dtsParseVm limit tree vmId).getD .zero

end BeauOs.Platform

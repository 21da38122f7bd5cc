/-
The memory of the VMs in the platform tree, `sdk/bsp/arm64/platform_dts.c`, and its stage-2 map,
`init_stage2_identity_map` in `arch/arm64/guest/vm.c`.

Host RAM and the retained log are parsed first, then the VM nodes in the order of the tree, each
into the slot of its number, and at the end the slots are compared pairwise.  What is wrong is a
panic at boot; here it is `none` or `false`.  Addresses and sizes are 64-bit words.
-/
import BeauOs.Sched.Thread

namespace BeauOs.Platform

open BeauOs.Sched (configMaxVmNum)

structure MemRange where
  start : UInt64
  size : UInt64
  deriving DecidableEq

def memAlignedCheck (value reqAlign : UInt64) : Bool := value &&& (reqAlign - 1) = 0

def pageSize : UInt64 := 0x1000

def pgtl1Size : UInt64 := 0x200000

def dtsRangeEnd (range : MemRange) : Option UInt64 :=
  if range.size ≠ 0 ∧ range.start ≤ UInt64.ofNat uint64Max - range.size then
    some (range.start + range.size)
  else none

def dtsRangesOverlap (a b : MemRange) : Bool :=
  match dtsRangeEnd a, dtsRangeEnd b with
  | some endA, some endB => a.start < endB && b.start < endA
  | _, _ => false

def insideHost (host range : MemRange) : Bool :=
  match dtsRangeEnd range, dtsRangeEnd host with
  | some rangeEnd, some hostEnd => !(range.start < host.start) && !(rangeEnd > hostEnd)
  | _, _ => false

/-! ### The retained log -/

def ramlogVmSlotCount : UInt32 := 5

/-- The `beau,ramlog` node. -/
structure RamlogNode where
  range : MemRange
  headerSize : UInt32
  rtosVmCount : UInt32
  linuxVmCount : UInt32
  rtosSize : UInt32
  linuxSize : UInt32
  noMap : Bool

/-- `dts_parse_ramlog`, for the nodes it finds and the window of the hypervisor. -/
def dtsParseRamlog (host hv : MemRange) : List RamlogNode → Option MemRange
  | [node] =>
    if !node.noMap then none
    else if node.headerSize ≠ 0x1000 ∨ node.rtosVmCount > ramlogVmSlotCount ∨
        node.linuxVmCount > ramlogVmSlotCount ∨
        node.rtosVmCount + node.linuxVmCount ≠ ramlogVmSlotCount ∨ node.rtosSize ≠ 0x40000 ∨
        node.linuxSize ≠ 0x840000 ∨ !memAlignedCheck node.range.start pageSize ∨
        !memAlignedCheck node.range.size pageSize ∨ !insideHost host node.range then none
    else if node.range.size ≠ node.headerSize.toUInt64 +
        node.rtosVmCount.toUInt64 * node.rtosSize.toUInt64 +
        node.linuxVmCount.toUInt64 * node.linuxSize.toUInt64 then none
    else if dtsRangesOverlap node.range hv then none
    else some node.range
  | _ => none

/-! ### VM nodes -/

/-- A VM node: `reg` and `beau,static-mem`. -/
structure VmMemNode where
  vmId : Nat
  staticMem : MemRange

def dtsParseStaticMem (host ramlog range : MemRange) : Bool :=
  if (dtsRangeEnd range).isNone then false
  else if !memAlignedCheck range.start pageSize ∨ !memAlignedCheck range.size pageSize then false
  else if !memAlignedCheck range.start pgtl1Size ∨ !memAlignedCheck range.size pgtl1Size then false
  else if !insideHost host range then false
  else if dtsRangesOverlap range ramlog then false
  else true

/-- The memory part of `dts_parse_vm_node`, for the nodes in their order. -/
def dtsParseVmNodes (host ramlog : MemRange) :
    List VmMemNode → (Nat → MemRange) → Option (Nat → MemRange)
  | [], regions => some regions
  | node :: rest, regions =>
    if node.vmId ≥ configMaxVmNum then none
    else if !dtsParseStaticMem host ramlog node.staticMem then none
    else dtsParseVmNodes host ramlog rest (Function.update regions node.vmId node.staticMem)

def dtsValidateStaticMemRegions (regions : Nat → MemRange) : Bool :=
  (List.range configMaxVmNum).all fun a => (List.range configMaxVmNum).all fun b =>
    !(a < b && (regions a).size ≠ 0 && (regions b).size ≠ 0 &&
      dtsRangesOverlap (regions a) (regions b))

/-- What the memory map is read from; `hv` is the window of the build's configuration. -/
structure MemTree where
  hv : MemRange
  hv_fits : (dtsRangeEnd hv).isSome = true
  host : MemRange
  ramlogs : List RamlogNode
  vms : List VmMemNode

/-- What a tree without a panic leaves: the retained log and the region of each VM. -/
def dtsParseMemory (tree : MemTree) : Option (MemRange × (Nat → MemRange)) := do
  let ramlog ← dtsParseRamlog tree.host tree.hv tree.ramlogs
  let regions ← dtsParseVmNodes tree.host ramlog tree.vms fun _ => ⟨0, 0⟩
  if dtsValidateStaticMemRegions regions then some (ramlog, regions) else none

/-! ### The initial stage-2 table -/

/-- A request to the table walker: pages of `[ipa, ipa + size)` are sent to `hpa` and on. -/
structure Stage2Map where
  hpa : UInt64
  ipa : UInt64
  size : UInt64
  writable : Bool

def stage2AddressLimit : UInt64 := 0x1000000000000

def validateStage2RamIdentity (memStart memHpa memSize : UInt64) : Bool :=
  if memHpa ≠ memStart then false
  else if memSize = 0 ∨ memStart ≥ stage2AddressLimit ∨ memHpa ≥ stage2AddressLimit ∨
      memSize > stage2AddressLimit - memStart ∨ memSize > stage2AddressLimit - memHpa then false
  else memAlignedCheck memStart pageSize && memAlignedCheck memHpa pageSize &&
    memAlignedCheck memSize pageSize

/--
`init_stage2_identity_map`: the RAM of the VM, whose guest address and host address `dts_parse_arch`
both takes from the region, and a read-only page of zeros at address 0.
-/
def initStage2IdentityMap (region : MemRange) (zeroPage : UInt64) : Option (List Stage2Map) :=
  if validateStage2RamIdentity region.start region.start region.size then
    some [⟨region.start, region.start, region.size, true⟩, ⟨zeroPage, 0, pageSize, false⟩]
  else none

end BeauOs.Platform

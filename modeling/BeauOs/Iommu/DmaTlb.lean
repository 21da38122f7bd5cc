/-
Stage-2 tables, the SMMU's translation cache and the broker.

The SMMU may cache what it walks for a VMID while some stage-2 entry with that VMID is live, and it
drops it only when it has consumed an invalidation of the VMID with a synchronization behind it;
which commands a call issued is read off the command queue (`complete`).  A VM's stage-2 table is a
function on intermediate addresses; where its root is counts only because the broker compares it and
because the entries hold it: a walk from the root of another table may find anything.

A change of a VM's table is one step with the synchronization after it, and with the walks that the
hardware makes between the two.
-/
import BeauOs.Iommu.Domain

namespace BeauOs.Iommu

structure CachedEntry where
  hwVmid : BitVec 16
  ipa : BitVec 64
  pa : BitVec 64
  deriving DecidableEq

structure Walk where
  streamId : BitVec 32
  ipa : BitVec 64
  pa : BitVec 64

structure DmaState where
  broker : Broker
  tlb : List CachedEntry
  /-- `root_stg2ptp` of each VM -/
  roots : Fin maxVmNum → BitVec 64
  /-- what the stage-2 table of each VM maps -/
  tables : Fin maxVmNum → BitVec 64 → Option (BitVec 64)
  /-- whether a stream has ever been attached for the VM, or tried to be -/
  exposed : Fin maxVmNum → Bool

namespace DmaState

/-- `hw_vmid` of a VM. -/
def vmHwVmid (v : Fin maxVmNum) : BitVec 16 := BitVec.ofNat 16 (v + 1)

/-- A walk with this VMID from this root may end at this address. -/
def yields (s : DmaState) (hwVmid : BitVec 16) (root ipa pa : BitVec 64) : Bool :=
  (List.finRange maxVmNum).all fun v =>
    !(decide (hwVmid = vmHwVmid v) && decide (root = s.roots v)) ||
      decide (s.tables v ipa = some pa)

def isLive (pr : Probe) (s : DmaState) (streamId : BitVec 32) : Bool :=
  s.broker.smmu.inStrtab pr streamId && decide (s.broker.smmu.strtab streamId).Translates

/-- The hardware walks for a stream and caches what it finds. -/
def walk (pr : Probe) (s : DmaState) (w : Walk) : DmaState :=
  let ste := s.broker.smmu.strtab w.streamId
  if s.isLive pr w.streamId && s.yields ste.s2vmid ste.s2ttb w.ipa w.pa then
    { s with tlb := ⟨ste.s2vmid, w.ipa, w.pa⟩ :: s.tlb }
  else s

/-- What the hardware caches while `arm_smmu_assign_stream` has an entry of the domain published. -/
def cachedDuring (s : DmaState) (config : S2Config) (walks : List (BitVec 64 × BitVec 64)) :
    List CachedEntry :=
  (walks.filter fun w => s.yields config.hwVmid config.rootTableHpa w.1 w.2).map fun w =>
    ⟨config.hwVmid, w.1, w.2⟩

/-! ### Invalidation -/

/-- The commands from a position of the queue to another, with the positions left. -/
def issued (cmdq : BitVec 32 → Option Command) (stop : BitVec 32) : Nat → BitVec 32 → List Command
  | 0, _ => []
  | n + 1, ptr =>
    if ptr = stop then []
    else (cmdq (ptr &&& 63#32)).toList ++ issued cmdq stop n (Smmu.queueNext ptr)

/-- When the driver last read a register the hardware had consumed all commands without an error. -/
def consumed (hw : Hardware) (s : Smmu) : Bool :=
  let cons := hw { s with clock := s.clock - 1 } .cmdqCons
  decide (cons &&& qErrMask = 0#32) && decide (cons &&& qPtrMask = s.cmdqProd)

/-- The call drops what is cached for the VMID: it issued `TLBI_S12_VMALL` and `CMD_SYNC`, and the
hardware has consumed both. -/
def invalidates (hw : Hardware) (before after : Smmu) (hwVmid : BitVec 16) : Bool :=
  consumed hw after && [Command.tlbiS12Vmall hwVmid, .sync].isSublist
    (issued after.cmdq after.cmdqProd queueEntries before.cmdqProd)

/-- What a call of the driver leaves in the cache. -/
def complete (hw : Hardware) (before after : Smmu) (tlb : List CachedEntry) : List CachedEntry :=
  tlb.filter fun e => !invalidates hw before after e.hwVmid

/-- The broker after a call, and what the call leaves in the cache. -/
def called (s : DmaState) (hw : Hardware) (b : Broker) : DmaState :=
  { s with broker := b, tlb := complete hw s.broker.smmu b.smmu s.tlb }

/-! ### Actions -/

inductive DmaAction where
  | create (v : Fin maxVmNum) (addrWidth : Nat)
  | destroy (v : Fin maxVmNum) (hw : Hardware)
  /-- with what the hardware walks while the entry is published -/
  | assign (v : Fin maxVmNum) (streamId : BitVec 32) (walks : List (BitVec 64 × BitVec 64))
      (hw : Hardware)
  | unassign (v : Fin maxVmNum) (streamId : BitVec 32) (hw : Hardware)
  /-- a new table for the VM, walks before it is synchronized, and `arm_smmu_sync_vm_stage2` -/
  | change (v : Fin maxVmNum) (root : BitVec 64) (table : BitVec 64 → Option (BitVec 64))
      (walks : List Walk) (hw : Hardware)
  | walk (w : Walk)

def setTable (s : DmaState) (v : Fin maxVmNum) (root : BitVec 64)
    (table : BitVec 64 → Option (BitVec 64)) : DmaState :=
  { s with roots := Function.update s.roots v root, tables := Function.update s.tables v table }

/-- `arm_smmu_sync_vm_stage2` -/
def sync (pr : Probe) (hw : Hardware) (v : Fin maxVmNum) (root : BitVec 64) (s : DmaState) :
    Int × DmaState :=
  let out := Broker.syncVmStage2 pr hw v root s.broker
  (out.1, s.called hw out.2)

def step (pr : Probe) (s : DmaState) : DmaAction → DmaState
  | .create v addrWidth =>
    { s with broker := (Broker.createDomain pr v (s.roots v) addrWidth s.broker).2 }
  | .destroy v hw => s.called hw (Broker.destroyDomain pr hw (some v) s.broker)
  | .assign v streamId walks hw =>
    if (s.broker.domains v).used then
      let b := (Broker.assignStream pr hw (some v) streamId s.broker).2
      { s with
        broker := b
        tlb := s.cachedDuring (s.broker.domains v).s2 walks ++ (s.called hw b).tlb
        exposed := Function.update s.exposed v true }
    else s
  | .unassign v streamId hw =>
    s.called hw (Broker.unassignStream pr hw (some v) streamId s.broker).2
  | .change v root table walks hw =>
    (sync pr hw v root (walks.foldl (walk pr) (s.setTable v root table))).2
  | .walk w => walk pr s w

def changeRet (pr : Probe) (s : DmaState) (v : Fin maxVmNum) (root : BitVec 64)
    (table : BitVec 64 → Option (BitVec 64)) (walks : List Walk) (hw : Hardware) : Int :=
  (sync pr hw v root (walks.foldl (walk pr) (s.setTable v root table))).1

/-- Nothing is attached and nothing is cached. -/
structure Booted (pr : Probe) (s : DmaState) : Prop where
  smmu : s.broker.smmu.Booted pr
  domains : ∀ v, s.broker.domains v = Domain.zero
  tlb : s.tlb = []

end DmaState

end BeauOs.Iommu

/-
The broker between VMs and the SMMU (`arch/arm64/iommu/iommu.c`).

The pool has one domain for each VM.  A domain is a value that the driver gets a copy of; the broker
remembers beside it whether some stream is bound (`hw_bound`), and invalidates the translations of
a VM only if one is.  A pointer to a domain is NULL or points into the pool, so it is an optional
index.  All functions run under `iommu_lock`.
-/
import BeauOs.Iommu.Smmu

namespace BeauOs.Iommu

open BeauOs.Pm (ePerm eInval)

structure Domain where
  s2 : S2Config
  used : Bool
  hwBound : Bool
  deriving DecidableEq

/-- A domain cleared by `memset`. -/
def Domain.zero : Domain := ⟨S2Config.zero, false, false⟩

structure Broker where
  smmu : Smmu
  domains : Fin maxVmNum → Domain

namespace Broker

variable (pr : Probe) (hw : Hardware)

def setDomain (b : Broker) (v : Fin maxVmNum) (domain : Domain) : Broker :=
  { b with domains := Function.update b.domains v domain }

/-- The configuration that `create_iommu_domain` asks for. -/
def vmConfig (v : Fin maxVmNum) (rootTableHpa : BitVec 64) (addrWidth : Nat) : S2Config :=
  ⟨rootTableHpa, addrWidth, v, BitVec.ofNat 16 (v + 1)⟩

/-- `create_iommu_domain` for a VM identifier in range. -/
def createDomain (v : Fin maxVmNum) (rootTableHpa : BitVec 64) (addrWidth : Nat) (b : Broker) :
    Option (Fin maxVmNum) × Broker :=
  let prepared := Smmu.hwPrepareS2 pr (vmConfig v rootTableHpa addrWidth) b.smmu
  if prepared.1 ≠ 0 then (none, b)
  else if (b.domains v).used = false then (some v, b.setDomain v ⟨prepared.2, true, false⟩)
  else if (b.domains v).s2.rootTableHpa ≠ prepared.2.rootTableHpa ∨
      (b.domains v).s2.ipaWidth ≠ prepared.2.ipaWidth ∨
      (b.domains v).s2.hwVmid ≠ prepared.2.hwVmid then (none, b)
  else (some v, b)

variable (domain : Option (Fin maxVmNum))

def destroyDomain (b : Broker) : Broker :=
  match domain with
  | none => b
  | some v =>
    if (b.domains v).used = false then b
    else
      let out := Smmu.hwDetachDomain pr hw (b.domains v).s2 b.smmu
      if out.1 = 0 then { b.setDomain v Domain.zero with smmu := out.2 }
      else { b with smmu := out.2 }

def assignStream (streamId : BitVec 32) (b : Broker) : Int × Broker :=
  match domain with
  | none => (-eInval, b)
  | some v =>
    if (b.domains v).used = false then (-eInval, b)
    else
      let out := Smmu.hwAttachStream pr hw (b.domains v).s2 streamId b.smmu
      if out.1 = 0 then
        (0, { b.setDomain v { b.domains v with hwBound := true } with smmu := out.2 })
      else (out.1, { b with smmu := out.2 })

def unassignStream (streamId : BitVec 32) (b : Broker) : Int × Broker :=
  match domain with
  | none => (-eInval, b)
  | some v =>
    if (b.domains v).used = false then (-eInval, b)
    else
      let out := Smmu.hwDetachStream pr hw (b.domains v).s2 streamId b.smmu
      if out.1 = 0 then
        (0, { b.setDomain v
          { b.domains v with hwBound := Smmu.hwDomainBound (b.domains v).s2 out.2 } with
            smmu := out.2 })
      else (out.1, { b with smmu := out.2 })

/-- `arm_smmu_sync_vm_stage2` for a VM identifier in range. -/
def syncVmStage2 (v : Fin maxVmNum) (rootTableHpa : BitVec 64) (b : Broker) : Int × Broker :=
  if rootTableHpa = 0#64 ∨ rootTableHpa &&& 0xfff#64 ≠ 0#64 then (-eInval, b)
  else if (b.domains v).used = false then (0, b)
  else if (b.domains v).s2.ownerVmid ≠ v ∨ (b.domains v).s2.rootTableHpa ≠ rootTableHpa then
    (-ePerm, b)
  else if (b.domains v).hwBound = true then
    let out := Smmu.hwSyncS2 pr hw (b.domains v).s2 b.smmu
    (out.1, { b with smmu := out.2 })
  else (0, b)

end Broker

end BeauOs.Iommu

/-
The ownership ledger of passthrough devices (`sdk/bsp/passthrough.c`).

The table says who owns a StreamID; the broker and the SMMU have their own records of it.  The calls
take `bsp_pt_lock` for one section at a time and are not atomic: check, SMMU call, publish.  A pCPU
is therefore a program counter with the locals that live across the sections, and one step of the
machine is one section or one call of the broker, by any of the pCPUs, in any order.  Between them
the SMMU may take faults, suspend and resume, and its assignment gate may open and close.
-/
import BeauOs.Iommu.Domain

namespace BeauOs.Iommu

open BeauOs.Pm (ePerm eBusy eNoDev eInval)

def maxPtDevices : Nat := 16

def invalidVmid : Nat := 0xffff

inductive PtOwner where
  | free
  | host
  | vm
  deriving DecidableEq

structure PtDevice where
  streamId : BitVec 32
  ownerVmid : Nat
  policyOwnerVmid : Nat
  owner : PtOwner
  valid : Bool
  writable : Bool
  deriving DecidableEq

inductive PtPc where
  /-- no call in progress; the status the last one returned -/
  | idle (ret : Int)
  | assignCheck (v : Fin maxVmNum) (streamId : BitVec 32) (writable : Bool)
  | assignBind (v : Fin maxVmNum) (streamId : BitVec 32)
  | assignPublish (v : Fin maxVmNum) (streamId : BitVec 32)
  | assignRollback (v : Fin maxVmNum) (streamId : BitVec 32)
  /-- `next` is where the loop of `passthrough_deassign_vm` goes on, if it made the call -/
  | deassignCheck (v : Fin maxVmNum) (streamId : BitVec 32) (next : Option Nat)
  | deassignRevoke (v : Fin maxVmNum) (streamId : BitVec 32) (next : Option Nat)
  | deassignPublish (v : Fin maxVmNum) (streamId : BitVec 32) (next : Option Nat)
  | sweep (v : Fin maxVmNum) (i : Nat)
  deriving DecidableEq

/-- The three ledgers and `n` pCPUs. -/
structure Ledgers (n : Nat) where
  broker : Broker
  devices : Fin maxPtDevices → PtDevice
  /-- `vm->iommu` is not NULL -/
  hasIommu : Fin maxVmNum → Bool
  pc : Fin n → PtPc

namespace Ledgers

variable {n : Nat} (pr : Probe) (hw : Hardware)

section

variable (s : Ledgers n)

def findDevice (streamId : BitVec 32) : Option (Fin maxPtDevices) :=
  (List.finRange maxPtDevices).find? fun i =>
    (s.devices i).valid && decide ((s.devices i).streamId = streamId)

variable (v : Fin maxVmNum)

def iommu : Option (Fin maxVmNum) :=
  if s.hasIommu v then some v else none

def goto (p : Fin n) (pc : PtPc) : Ledgers n :=
  { s with pc := Function.update s.pc p pc }

variable (streamId : BitVec 32)

/-- The first section of `passthrough_assign_device`. -/
def assignRet (writable : Bool) : Int :=
  match s.findDevice streamId with
  | none => -eNoDev
  | some i =>
    let dev := s.devices i
    if dev.owner = .vm ∧ dev.ownerVmid ≠ v then -eBusy
    else if dev.policyOwnerVmid ≠ invalidVmid ∧ dev.policyOwnerVmid ≠ v then -ePerm
    else if writable = true ∧ dev.writable = false then -ePerm
    else 0

/-- The first section of `passthrough_deassign_device`. -/
def deassignRet : Int :=
  match s.findDevice streamId with
  | none => -eNoDev
  | some i =>
    if (s.devices i).owner ≠ .vm ∨ (s.devices i).ownerVmid ≠ v then -ePerm else 0

/-- Both calls check their arguments first. -/
def argsOk : Bool :=
  s.hasIommu v && decide (streamId ≠ streamIdInvalid)

def publish (i : Fin maxPtDevices) (owner : PtOwner) (vmid : Nat) : Ledgers n :=
  { s with
    devices := Function.update s.devices i { s.devices i with owner := owner, ownerVmid := vmid } }

end

def returnTo (v : Fin maxVmNum) (next : Option Nat) (ret : Int) : PtPc :=
  match next with
  | none => .idle ret
  | some i => .sweep v i

def runSection (p : Fin n) (s : Ledgers n) : Ledgers n :=
  match s.pc p with
  | .idle _ => s
  | .assignCheck v streamId writable =>
    if s.argsOk v streamId = false then s.goto p (.idle (-eInval))
    else if s.assignRet v streamId writable ≠ 0 then
      s.goto p (.idle (s.assignRet v streamId writable))
    else s.goto p (.assignBind v streamId)
  | .assignBind v streamId =>
    let out := Broker.assignStream pr hw (s.iommu v) streamId s.broker
    { s with broker := out.2 }.goto p
      (if out.1 ≠ 0 then .idle out.1 else .assignPublish v streamId)
  | .assignPublish v streamId =>
    match s.findDevice streamId with
    | none => s.goto p (.assignRollback v streamId)
    | some i => (s.publish i .vm v).goto p (.idle 0)
  | .assignRollback v streamId =>
    { s with broker := (Broker.unassignStream pr hw (s.iommu v) streamId s.broker).2 }.goto p
      (.idle (-eNoDev))
  | .deassignCheck v streamId next =>
    if s.argsOk v streamId = false then s.goto p (returnTo v next (-eInval))
    else if s.deassignRet v streamId ≠ 0 then
      s.goto p (returnTo v next (s.deassignRet v streamId))
    else s.goto p (.deassignRevoke v streamId next)
  | .deassignRevoke v streamId next =>
    let out := Broker.unassignStream pr hw (s.iommu v) streamId s.broker
    { s with broker := out.2 }.goto p
      (if out.1 ≠ 0 then returnTo v next out.1 else .deassignPublish v streamId next)
  | .deassignPublish v streamId next =>
    match s.findDevice streamId with
    | none => s.goto p (returnTo v next 0)
    | some i => (s.publish i .host invalidVmid).goto p (returnTo v next 0)
  | .sweep v i =>
    if h : i < maxPtDevices then
      let dev := s.devices ⟨i, h⟩
      if dev.valid = true ∧ dev.owner = .vm ∧ dev.ownerVmid = v then
        s.goto p (.deassignCheck v dev.streamId (some (i + 1)))
      else s.goto p (.sweep v (i + 1))
    else s.goto p (.idle 0)

inductive PtCall where
  | assignDevice (v : Fin maxVmNum) (streamId : BitVec 32) (writable : Bool)
  | deassignDevice (v : Fin maxVmNum) (streamId : BitVec 32)
  | deassignVm (v : Fin maxVmNum)

def PtCall.entry (s : Ledgers n) : PtCall → PtPc
  | .assignDevice v streamId writable => .assignCheck v streamId writable
  | .deassignDevice v streamId => .deassignCheck v streamId none
  | .deassignVm v => if s.hasIommu v then .sweep v 0 else .idle 0

/-- What else happens to the SMMU. -/
inductive SmmuEvent where
  | poll (evtq : BitVec 32 → Smmu.EventRecord)
  | suspend (epoch : Nat)
  | resume (epoch : Nat)
  | gate (isOpen : Bool)

def smmuEvent (e : SmmuEvent) (s : Smmu) : Smmu :=
  match e with
  | .poll evtq => Smmu.pollEvents pr hw evtq s
  | .suspend epoch => (Smmu.pmSuspend pr hw epoch s).2
  | .resume epoch => (Smmu.pmResume pr hw epoch s).2
  | .gate isOpen => { s with assignmentHwReady := isOpen }

inductive PtAction (n : Nat) where
  /-- an idle pCPU makes a call -/
  | call (p : Fin n) (c : PtCall)
  | runSection (p : Fin n) (hw : Hardware)
  | smmu (e : SmmuEvent) (hw : Hardware)

def isIdle : PtPc → Bool
  | .idle _ => true
  | _ => false

def step (s : Ledgers n) : PtAction n → Ledgers n
  | .call p c => if isIdle (s.pc p) then s.goto p (c.entry s) else s
  | .runSection p hw => runSection pr hw p s
  | .smmu e hw => { s with broker := { s.broker with smmu := smmuEvent pr hw e s.broker.smmu } }

end Ledgers

end BeauOs.Iommu

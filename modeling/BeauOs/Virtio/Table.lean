/-
All proxy devices, and the hypercall by which backends reach them (`sdk/bsp/virtio/virtio_proxy.c`).

A hypercall names a frontend VM and a device id.  A registration looks the device up by these
alone; every other operation finds only a device for which the calling VM is registered.
-/
import BeauOs.Virtio.Proxy

namespace BeauOs.Virtio

open BeauOs.Pm

def virtioProxyMax : Nat := 32

/-- `virtio_proxy_devs`; a device without a VM (`mmio.vm == NULL`) is not there. -/
structure ProxyTable where
  dev : Nat → Nat → Option ProxyRun

namespace ProxyTable

open ProxyRun (Ioc Op)

/-- The devices the platform configures. -/
def boot (cfgs : Nat → Nat → Option (ProxyConfig × List Byte)) : ProxyTable where
  dev vm index := (cfgs vm index).map fun c => ProxyRun.boot { c.1 with vmId := vm } c.2

section

variable (tbl : ProxyTable)

def set (vm index : Nat) (r : ProxyRun) : ProxyTable where
  dev i j := if i = vm ∧ j = index then some r else tbl.dev i j

def devMatches (vm index deviceId : Nat) : Bool :=
  match tbl.dev vm index with
  | none => false
  | some r => decide (deviceId = 0) || decide (r.dev.cfg.deviceId = deviceId)

/-- `virtio_proxy_find_dev_by_device_id`: the index of the device -/
def findDevByDeviceId (vm deviceId : Nat) : Option Nat :=
  if vm ≥ configMaxVmNum then none
  else (List.range virtioProxyMax).find? fun index => tbl.devMatches vm index deviceId

/-- Whether the VM is registered as the backend of a device. -/
def serves (backendVmid vm index : Nat) : Bool :=
  match tbl.dev vm index with
  | none => false
  | some r => r.dev.hcallBackendRegistered && decide (r.dev.backendVmid = backendVmid)

/-- `virtio_proxy_find_hcall_target`: the VM and the index of the device -/
def findHcallTarget (backendVmid frontendVmid deviceId : Nat) : Option (Nat × Nat) :=
  if frontendVmid < configMaxVmNum then
    match tbl.findDevByDeviceId frontendVmid deviceId with
    | none => none
    | some index =>
      if tbl.serves backendVmid frontendVmid index then some (frontendVmid, index) else none
  else
    (List.range configMaxVmNum).findSome? fun i =>
      ((List.range virtioProxyMax).find? fun j =>
        tbl.devMatches i j deviceId && tbl.serves backendVmid i j).map fun j => (i, j)

/-- What a call finds outside the table. -/
structure Env where
  mem : Nat → GuestView
  /-- what `hv_pm_vm_io_is_gated` says of a VM -/
  gated : Nat → Bool
  /-- whether the operands of a hypercall can be read, and written back at its end -/
  iocRead : Bool
  iocWrite : Bool

/-- The operations of `struct acrn_virtio_proxy_ioc`. -/
inductive HcallOp
  | register
  | poll
  | reply
  | heartbeat
  | batchPoll
  | batchReply
  deriving DecidableEq

/-- `ACRN_VIRTIO_PROXY_OP_*` -/
def HcallOp.decode : Nat → Option HcallOp
  | 0 => some .register
  | 1 => some .poll
  | 2 => some .reply
  | 3 => some .heartbeat
  | 4 => some .batchPoll
  | 5 => some .batchReply
  | _ => none

/-- An operation on the device that was found. -/
def hcallOn (front back : GuestView) (caller : Nat) (ioc : Ioc) (r : ProxyRun) :
    HcallOp → Int × Ioc × ProxyRun
  | .register => r.hcallRegister back caller ioc
  | .poll => r.hcallPoll front back ioc
  | .reply => ((r.hcallReply front back ioc).1, ioc, (r.hcallReply front back ioc).2)
  | .heartbeat => (0,
      { ioc with
        abiVersion := ProxyRun.proxyAbiVersion
        iocSize := ProxyRun.sizeofIoc
        backendCaps := r.dev.backendCaps }, r)
  | .batchPoll => r.hcallBatchPoll front back ioc
  | .batchReply =>
    ((r.hcallBatchReply front back ioc).1, ioc, (r.hcallBatchReply front back ioc).2)

def hcallTarget (caller : Nat) (ioc : Ioc) : HcallOp → Option (Nat × Nat)
  | .register =>
    (tbl.findDevByDeviceId ioc.frontendVmid ioc.deviceId).map fun index => (ioc.frontendVmid, index)
  | _ => tbl.findHcallTarget caller ioc.frontendVmid ioc.deviceId

end

def dispatch (env : Env) (caller : Nat) (ioc : Ioc) (tbl : ProxyTable) : Int × ProxyTable :=
  match HcallOp.decode ioc.op with
  | none => (-eInval, tbl)
  | some op =>
    match tbl.hcallTarget caller ioc op with
    | none => (-eNoDev, tbl)
    | some (vm, index) =>
      match tbl.dev vm index with
      | none => (-eNoDev, tbl)
      | some r =>
        match hcallOn (env.mem vm) (env.mem caller) caller ioc r op with
        | (status, _, r') => (status, tbl.set vm index r')

/-- `virtio_proxy_backend_hcall`, with the operands that were read at `iocGpa`.  They are written
back there, in the caller's own memory, whatever happened. -/
def backendHcall (env : Env) (caller : Nat) (iocGpa : Gpa) (ioc : Ioc) (tbl : ProxyTable) :
    Int × ProxyTable :=
  if iocGpa = 0#64 ∨ env.iocRead = false then (-eFault, tbl)
  else (if env.iocWrite then (tbl.dispatch env caller ioc).1 else -eFault,
    (tbl.dispatch env caller ioc).2)

def releaseVm (vmId : Nat) (tbl : ProxyTable) : ProxyTable where
  dev vm index := (tbl.dev vm index).map fun r =>
    if r.dev.hcallBackendRegistered ∧ r.dev.backendVmid = vmId then
      { r with dev := r.dev.dropBackend }
    else r

def resetVm (vmId : Nat) (tbl : ProxyTable) : ProxyTable where
  dev vm index := (tbl.dev vm index).map fun r =>
    if vm = vmId then { r with dev := { r.dev with mmio := r.dev.mmio.resetState }.reset } else r

def writeReg (env : Env) (vm index : Nat) (reg : MmioDev.Reg) (value : BitVec 32)
    (tbl : ProxyTable) : ProxyTable :=
  match tbl.dev vm index with
  | none => tbl
  | some r => tbl.set vm index (r.writeReg (env.mem vm) (env.gated vm) reg value)

/-! ### Runs -/

inductive TableOp
  | hcall (caller : Nat) (iocGpa : Gpa) (ioc : Ioc)
  | writeReg (vm index : Nat) (reg : MmioDev.Reg) (value : BitVec 32)
  | releaseVm (vm : Nat)
  | resetVm (vm : Nat)

def step (tbl : ProxyTable) (call : Env × TableOp) : ProxyTable :=
  match call.2 with
  | .hcall caller iocGpa ioc => (tbl.backendHcall call.1 caller iocGpa ioc).2
  | .writeReg vm index reg value => tbl.writeReg call.1 vm index reg value
  | .releaseVm vm => tbl.releaseVm vm
  | .resetVm vm => tbl.resetVm vm

end ProxyTable

end BeauOs.Virtio

/-
The virtio devices under a transaction of the power management (`sdk/bsp/pm.c`,
`sdk/bsp/virtio/virtio_mmio.c`).

The proxies are suspended and resumed by a hook of the transaction, so their calls run inside
`hv_pm_process_from_idle` and the other pCPUs go on meanwhile.  A frontend's `QueueNotify` is handled
on its own pCPU: first it is decided whether the notification is deferred, from the flag of the
device and the gate of its VM, then it is done, and the boot pCPU may get anywhere in between.  The
other devices on the transport, those of vsock and of the console, have no hook.

`RetentionRun` keeps beside the machine what became of the notifications and whether the proxies are
suspended; neither is part of the hypervisor.
-/
import BeauOs.Pm.Process
import BeauOs.Virtio.ProxyPm

namespace BeauOs.Virtio

open BeauOs.Pm

/-- A device on the transport: a proxy, or one of vsock or the console. -/
inductive DevId
  | proxy (vm index : Nat)
  | other (i : Nat)
  deriving DecidableEq

namespace MmioDev

def deferNotify (dev : MmioDev) (queueId : Nat) : MmioDev :=
  { dev with deferredQueueMask := bitmapSet queueId dev.deferredQueueMask }

/-- The callback of a vsock or console device, which uses its queues and may raise its interrupt. -/
def callback (dev : MmioDev) (queues : Nat → MmioQueue) (interruptStatus : BitVec 32) : MmioDev :=
  updateIrq
    { dev with
      queues := queues
      interruptStatus := interruptStatus }

end MmioDev

/-- The hook "virtio-proxy" of `bsp_pm_register_retention_hooks` -/
def virtioHook : PmOps := ⟨"virtio-proxy", 200, true, false, true, true⟩

/-- A handler of `QueueNotify` that has decided what to do. -/
structure Notification where
  dev : DevId
  queueId : Nat
  defer : Bool

/-- The transaction, the devices and who is in the middle of what. -/
structure Retention where
  pm : PmMachine
  proxies : ProxyPm
  /-- the call that the boot pCPU is in, if it is in the hook of the proxies -/
  call : Option (PmTarget × ProxyPm.Place)
  others : Nat → Option MmioDev
  handler : Nat → Option Notification

namespace Retention

/-- What a step finds elsewhere. -/
structure Env where
  pm : PmEnv
  table : ProxyTable.Env
  /-- what a callback of a vsock or console device leaves behind -/
  queues : Nat → MmioQueue
  interruptStatus : BitVec 32

def mmio (s : Retention) : DevId → Option MmioDev
  | .proxy vm index => (s.proxies.table.dev vm index).map fun r => r.dev.mmio
  | .other i => s.others i

/-! ### The hook of the proxies -/

/-- The callbacks of the hook; `abort` is `resume`. -/
inductive HookCall
  | suspend
  | resume
  deriving DecidableEq

/-- The callback of the proxies' hook that the boot pCPU is at, with its epoch.  The names of the
hooks in the table differ, so at most one of them is this one. -/
def hookCall (m : PmMachine) : Option (Nat × HookCall) :=
  match m.frame with
  | some (epoch, .forward suspendPhase count idx) =>
    if idx < count ∧ m.host.hook idx = virtioHook ∧ virtioHook.forward suspendPhase = true then
      some (epoch, .suspend)
    else none
  | some (epoch, .reverse u completed (hookIdx + 1) _) =>
    if bitmapTest hookIdx completed = true ∧ m.host.hook hookIdx = virtioHook ∧
        virtioHook.reverse u.abortPhase = true then
      some (epoch, .resume)
    else none
  | _ => none

/-- `bsp_pm_get_epoch_snapshot` and `bsp_pm_get_vm_target` -/
def hookTarget (epoch : Nat) (d : PmSnapshot) : Except Int PmTarget :=
  if epoch = 0 ∨ d.epoch ≠ epoch then .error (-eInval)
  else if d.scope = .vm then
    if d.targetVmid ≥ configMaxVmNum ∨ bitmapTest d.targetVmid d.requiredVmMask = false then
      .error (-eInval)
    else .ok (.vm d.targetVmid)
  else .ok .system

/-- `bsp_pm_virtio_suspend` or `bsp_pm_virtio_resume`, up to the first step of the call -/
def hookEntry (s : Retention) (epoch : Nat) (kind : HookCall) :
    PmTarget × (ProxyPm.Place ⊕ Int) :=
  match hookTarget epoch s.pm.host.data with
  | .error status => (.system, .inr status)
  | .ok target =>
    (target, match kind with
      | .suspend => s.proxies.suspendEntry target epoch
      | .resume => s.proxies.resumeEntry target epoch none)

def hookStep (env : Env) (s : Retention) (epoch : Nat) (kind : HookCall) :
    ProxyPm × PmTarget × (ProxyPm.Place ⊕ Int) :=
  match s.call with
  | none => (s.proxies, s.hookEntry epoch kind)
  | some (target, place) =>
    match s.proxies.step env.table.mem (fun vm => decide (env.pm.vmState vm = .running)) target
        epoch place with
    | (p, out) => (p, target, out)

def process (env : Env) (s : Retention) : Retention :=
  match hookCall s.pm with
  | none => { s with pm := processOp env.pm s.pm }
  | some (epoch, kind) =>
    match s.hookStep env epoch kind with
    | (p, target, .inl place) =>
      { s with
        proxies := p
        call := some (target, place) }
    | (p, _, .inr status) =>
      { s with
        proxies := p
        call := none
        pm := processOp { env.pm with status := status } s.pm }

/-! ### The devices -/

/-- The first half of a write of `QueueNotify`; a pCPU is in one at a time. -/
def beginNotify (cpu : Nat) (dev : DevId) (value : BitVec 32) (s : Retention) : Retention :=
  match s.handler cpu, s.mmio dev with
  | none, some mmio =>
    if value.toNat ≥ mmio.queueNum then s
    else
      { s with
        handler := Function.update s.handler cpu (some
          { dev := dev
            queueId := value.toNat
            defer := mmio.pmSuspended || hvPmVmIoIsGated mmio.vmId s.pm.host.data }) }
  | _, _ => s

/-- The second half. -/
def finishNotify (env : Env) (cpu : Nat) (s : Retention) : Retention :=
  match s.handler cpu with
  | none => s
  | some n =>
    let s := { s with handler := Function.update s.handler cpu none }
    match n.dev with
    | .proxy vm index =>
      match s.proxies.table.dev vm index with
      | none => s
      | some r =>
        { s with
          proxies :=
            if n.defer then
              s.proxies.setMmio (vm, index) r (r.dev.mmio.deferNotify n.queueId)
            else s.proxies.setDev (vm, index) (r.notifyQueue (env.table.mem vm) n.queueId) }
    | .other i =>
      { s with
        others := Function.update s.others i ((s.others i).map fun mmio =>
          if n.defer then mmio.deferNotify n.queueId
          else mmio.callback env.queues env.interruptStatus) }

/-- Any other write to a vsock or console device.  Behind the transport a reset only sets flags. -/
def otherWrite (i : Nat) (reg : MmioDev.Reg) (value : BitVec 32) (s : Retention) : Retention :=
  { s with others := Function.update s.others i ((s.others i).map fun mmio =>
      (mmio.writeReg false reg value).1) }

/-! ### Runs -/

inductive Op
  /-- a call into the power management, or the boot pCPU goes on in it -/
  | pm (op : PmOp)
  /-- a hypercall of a backend, a VM that goes away, or a register write other than `QueueNotify` -/
  | table (op : ProxyTable.TableOp)
  | otherWrite (i : Nat) (reg : MmioDev.Reg) (value : BitVec 32)
  | beginNotify (cpu : Nat) (dev : DevId) (value : BitVec 32)
  | finishNotify (cpu : Nat)

/-- The write to a proxy is one of `QueueNotify`. -/
def writesNotify : ProxyTable.TableOp → Bool
  | .writeReg _ _ .queueNotify _ => true
  | _ => false

def step (s : Retention) (call : Env × Op) : Retention :=
  match call.2 with
  | .pm .process => s.process call.1
  | .pm op => { s with pm := s.pm.step (call.1.pm, op) }
  | .table op =>
    if writesNotify op then s
    else { s with proxies := { s.proxies with table := s.proxies.table.step (call.1.table, op) } }
  | .otherWrite _ .queueNotify _ => s
  | .otherWrite i reg value => s.otherWrite i reg value
  | .beginNotify cpu dev value => s.beginNotify cpu dev value
  | .finishNotify cpu => s.finishNotify call.1 cpu

/-- `VIRTIO_MMIO_MAX_QUEUES`; `virtio_mmio_init` does not set up a device with more queues. -/
def virtioMmioMaxQueues : Nat := 4

/-- The proxies that are set up. -/
def accepted (cfgs : Nat → Nat → Option (ProxyConfig × List Byte)) (vm index : Nat) :
    Option (ProxyConfig × List Byte) :=
  if vm < configMaxVmNum ∧ index < virtioProxyMax then
    (cfgs vm index).filter fun c => decide (c.1.queueNum ≤ virtioMmioMaxQueues)
  else none

/-- The machine at boot; `others` are the vsock and console devices, each with its VM, the number of
its queues and their size. -/
def boot (tickrate : Nat) (vcpus : Nat → VcpuCount)
    (cfgs : Nat → Nat → Option (ProxyConfig × List Byte))
    (others : Nat → Option (Nat × Nat × Nat)) : Retention where
  pm := .boot tickrate vcpus
  proxies := .boot (accepted cfgs)
  call := none
  others := fun i => ((others i).filter fun c => decide (c.2.1 ≤ virtioMmioMaxQueues)).map fun c =>
    .init c.1 c.2.1 c.2.2 0#64
  handler := fun _ => none

end Retention

/-! ### The record beside the machine -/

/-- What becomes of a notification of a queue. -/
inductive Note
  | deferred (queueId : Nat)
  /-- it is passed to `notify_queue` -/
  | passed (queueId : Nat)
  /-- the frontend, or the end of its VM, resets the device -/
  | reset
  deriving DecidableEq

structure RetentionRun where
  sys : Retention
  /-- the devices for which the hook has returned zero and has not begun to resume -/
  window : Option PmTarget
  notes : List (DevId × Note)

namespace RetentionRun

open Retention (Env Op HookCall)

/-- The window behind a step of the boot pCPU: it opens when the hook returns zero, and closes when
the callback that undoes it starts. -/
def processWindow (x : RetentionRun) (env : Env) : Option PmTarget :=
  match Retention.hookCall x.sys.pm with
  | none => x.window
  | some (_, .resume) => none
  | some (epoch, .suspend) =>
    match x.sys.hookStep env epoch .suspend with
    | (_, target, .inr status) => if status = 0 then some target else x.window
    | (_, _, .inl _) => x.window

/-- What a step does with notifications. -/
def notesOf (s : Retention) : Op → List (DevId × Note)
  | .pm .process =>
    match Retention.hookCall s.pm, s.call with
    | some _, some (_, .notify d queueId _ _ _) => [(.proxy d.1 d.2, .passed queueId)]
    | _, _ => []
  | .pm _ => []
  | .table (.writeReg vm index .status value) =>
    if value = 0#32 then [(.proxy vm index, .reset)] else []
  | .table (.resetVm vm) =>
    (List.range virtioProxyMax).map fun index => (.proxy vm index, .reset)
  | .table _ => []
  | .otherWrite i .status value => if value = 0#32 then [(.other i, .reset)] else []
  | .otherWrite _ _ _ => []
  | .beginNotify _ _ _ => []
  | .finishNotify cpu =>
    match s.handler cpu with
    | none => []
    | some n => [(n.dev, if n.defer then .deferred n.queueId else .passed n.queueId)]

def step (x : RetentionRun) (call : Env × Op) : RetentionRun where
  sys := x.sys.step call
  window :=
    match call.2 with
    | .pm .process => x.processWindow call.1
    | _ => x.window
  notes := x.notes ++ notesOf x.sys call.2

def boot (tickrate : Nat) (vcpus : Nat → VcpuCount)
    (cfgs : Nat → Nat → Option (ProxyConfig × List Byte))
    (others : Nat → Option (Nat × Nat × Nat)) : RetentionRun :=
  ⟨.boot tickrate vcpus cfgs others, none, []⟩

end RetentionRun

end BeauOs.Virtio

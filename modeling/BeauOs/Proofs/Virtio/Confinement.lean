/-
A backend reaches the memory of a frontend only through the requests it was handed.

The only writes to a frontend's memory are those of a reply.  A reply finds its device only if the
calling VM is registered for it, only the VM that the platform configured can be registered, and it
finds a slot only if the request in it has been polled and not been completed.
-/
import BeauOs.Proofs.Virtio.Conservation
import BeauOs.Virtio.Table

namespace BeauOs.Virtio

open BeauOs.Pm

namespace ProxyRun

variable {r' : ProxyRun}

/-! ### Who is registered -/

def Owned (r : ProxyRun) : Prop :=
  r.dev.hcallBackendRegistered = true → r.dev.backendVmid = r.dev.cfg.configuredBackendVmid

theorem Owned.of_same {r : ProxyRun} (h : r.Owned) (hsame : SameBackend r r') : r'.Owned := by
  intro hreg
  rw [hsame.backendVmid, hsame.cfg]
  exact h (hsame.registered ▸ hreg)

theorem Owned.register {r : ProxyRun} (h : r.Owned) (back : GuestView) (caller : Nat) (ioc : Ioc) :
    (hcallRegister back caller ioc r).2.2.Owned := by
  rcases hcallRegister_cases back caller ioc r with heq | ⟨hconfigured, caps, config, mmio, -, heq⟩
  · rw [heq]
    exact h
  · rw [heq]
    exact fun _ => hconfigured.symm

end ProxyRun

/-! ### The table -/

namespace ProxyTable

open ProxyRun

variable {tbl : ProxyTable} {vm index : Nat}

theorem set_dev (tbl : ProxyTable) (vm index : Nat) (r : ProxyRun) (i j : Nat) :
    (tbl.set vm index r).dev i j = if i = vm ∧ j = index then some r else tbl.dev i j := rfl

theorem findHcallTarget_serves {backendVmid frontendVmid deviceId : Nat}
    (h : tbl.findHcallTarget backendVmid frontendVmid deviceId = some (vm, index)) :
    tbl.serves backendVmid vm index = true := by
  unfold findHcallTarget at h
  split at h
  · split at h
    · cases h
    split at h
    · next hserves =>
      obtain ⟨rfl, rfl⟩ := Prod.mk.inj (Option.some.inj h)
      exact hserves
    · cases h
  · obtain ⟨i, -, hfind⟩ := List.exists_of_findSome?_eq_some h
    obtain ⟨j, hj, heq⟩ := Option.map_eq_some_iff.mp hfind
    obtain ⟨rfl, rfl⟩ := Prod.mk.inj heq
    have := List.find?_some hj
    simp only [Bool.and_eq_true] at this
    exact this.2

variable {r : ProxyRun} {caller : Nat} {ioc : Ioc}

theorem serves_iff {backendVmid : Nat} (hr : tbl.dev vm index = some r) :
    tbl.serves backendVmid vm index = true ↔
      r.dev.hcallBackendRegistered = true ∧ r.dev.backendVmid = backendVmid := by
  simp [serves, hr]

/-- Every device is served by its own backend, if by any. -/
def Owned (tbl : ProxyTable) : Prop := ∀ vm index r, tbl.dev vm index = some r → r.Owned

theorem Owned.set (h : tbl.Owned) {r' : ProxyRun} (hr' : r'.Owned) (vm index : Nat) :
    (tbl.set vm index r').Owned := by
  intro i j r hr
  rw [set_dev] at hr
  split at hr
  · exact Option.some.inj hr ▸ hr'
  · exact h i j r hr

/-- One device is changed by what `f` does to it. -/
theorem Owned.map (h : tbl.Owned) {f : Nat → ProxyRun → ProxyRun}
    (hf : ∀ vm r, r.Owned → (f vm r).Owned) :
    Owned ⟨fun vm index => (tbl.dev vm index).map (f vm)⟩ := by
  intro i j r hr
  obtain ⟨r₀, hr₀, rfl⟩ := Option.map_eq_some_iff.mp hr
  exact hf i r₀ (h i j r₀ hr₀)

theorem hcallOn_owned (h : r.Owned) (front back : GuestView) (caller : Nat) (ioc : Ioc)
    (op : HcallOp) : (hcallOn front back caller ioc r op).2.2.Owned := by
  cases op with
  | register => exact h.register back caller ioc
  | poll => exact h.of_same (hcallPoll_quiet front back ioc r).same.toSameBackend
  | reply => exact h.of_same (hcallReply_replies front back ioc r).same.toSameBackend
  | heartbeat => exact h
  | batchPoll => exact h.of_same (hcallBatchPoll_quiet front back ioc r).same.toSameBackend
  | batchReply => exact h.of_same (hcallBatchReply_replies front back ioc r).same.toSameBackend

theorem Owned.step (h : tbl.Owned) (call : Env × TableOp) : (tbl.step call).Owned := by
  obtain ⟨env, op⟩ := call
  cases op with
  | hcall caller iocGpa ioc =>
    show (tbl.backendHcall env caller iocGpa ioc).2.Owned
    unfold backendHcall dispatch
    split
    · exact h
    dsimp only
    split
    · exact h
    split
    · exact h
    split
    · exact h
    next r hr => exact h.set (hcallOn_owned (h _ _ r hr) _ _ _ _ _) _ _
  | writeReg vm index reg value =>
    show (tbl.writeReg env vm index reg value).Owned
    unfold ProxyTable.writeReg
    split
    · exact h
    next r hr => exact h.set ((h _ _ r hr).of_same (writeReg_frame _ _ _ _ r).1) _ _
  | releaseVm =>
    refine h.map fun vm r hr => ?_
    split
    · exact nofun
    · exact hr
  | resetVm =>
    refine h.map fun vm r hr => ?_
    split <;> exact hr

/-- What a hypercall of `caller` may do for a device: its writes to the frontend's memory are those
of replies of the registered and configured backend to requests it has polled, and it replies to
none of them again that it has completed. -/
def HcallConfined (back : GuestView) (caller : Nat) (ioc : Ioc) (r r' : ProxyRun) : Prop :=
  WritesReplies (fun replies =>
    (r.dev.hcallBackendRegistered = true ∧ r.dev.backendVmid = caller ∧
      r.dev.cfg.configuredBackendVmid = caller) ∧
    (∀ g ∈ replies, g.Allowed back ioc r) ∧
    replies.Pairwise fun g g' => g.completed = true → g'.slot ≠ g.slot) r r'

/-- A hypercall is confined on every device of the table. -/
def Confined (tbl : ProxyTable) (env : Env) (caller : Nat) (iocGpa : Gpa) (ioc : Ioc) : Prop :=
  ∀ vm index r, tbl.dev vm index = some r →
    ∃ r', (tbl.backendHcall env caller iocGpa ioc).2.dev vm index = some r' ∧
      HcallConfined (env.mem caller) caller ioc r r'

theorem hcallOn_confined {env : Env} {op : HcallOp} (howned : r.Owned)
    (hserved : op ≠ .register → r.dev.hcallBackendRegistered = true ∧ r.dev.backendVmid = caller) :
    HcallConfined (env.mem caller) caller ioc r
      (hcallOn (env.mem vm) (env.mem caller) caller ioc r op).2.2 := by
  have hreplies {r' : ProxyRun} (hop : op ≠ .register)
      (h : RepliesOnly (env.mem caller) ioc r r') :
      HcallConfined (env.mem caller) caller ioc r r' := by
    obtain ⟨hreg, hvm⟩ := hserved hop
    obtain ⟨replies, hlog, hall, hpairs⟩ := h.replies
    exact ⟨_, hlog, fun _ => ⟨replies, rfl, ⟨hreg, hvm, (howned hreg).symm.trans hvm⟩,
      fun g hg => (hall g hg).1, hpairs⟩⟩
  cases op with
  | register => exact .of_log_eq (hcallRegister_log (env.mem caller) caller ioc r)
  | poll => exact .of_quiet (hcallPoll_quiet _ _ ioc r).log
  | heartbeat => exact .of_log_eq rfl
  | batchPoll => exact .of_quiet (hcallBatchPoll_quiet _ _ ioc r).log
  | reply => exact hreplies nofun (hcallReply_replies _ _ ioc r)
  | batchReply => exact hreplies nofun (hcallBatchReply_replies _ _ ioc r)

theorem hcallTarget_serves {op : HcallOp} (h : tbl.hcallTarget caller ioc op = some (vm, index))
    (hop : op ≠ .register) : tbl.serves caller vm index = true := by
  cases op with
  | register => exact absurd rfl hop
  | _ => exact findHcallTarget_serves h

theorem Owned.confined (howned : tbl.Owned) (env : Env) (caller : Nat) (iocGpa : Gpa) (ioc : Ioc) :
    tbl.Confined env caller iocGpa ioc := by
  intro vm index r hr
  have hrefl : HcallConfined (env.mem caller) caller ioc r r := .of_log_eq rfl
  unfold backendHcall dispatch
  split
  · exact ⟨r, hr, hrefl⟩
  dsimp only
  split
  · exact ⟨r, hr, hrefl⟩
  next op _ =>
  split
  · exact ⟨r, hr, hrefl⟩
  next vm' index' htarget =>
  split
  · exact ⟨r, hr, hrefl⟩
  next r₀ hr₀ =>
  dsimp only
  rw [set_dev]
  by_cases hsame : vm = vm' ∧ index = index'
  · obtain ⟨rfl, rfl⟩ := hsame
    obtain rfl : r₀ = r := Option.some.inj (hr₀.symm.trans hr)
    rw [if_pos ⟨rfl, rfl⟩]
    exact ⟨_, rfl, hcallOn_confined (howned _ _ r₀ hr) fun hop =>
      (serves_iff hr).mp (hcallTarget_serves htarget hop)⟩
  · rw [if_neg hsame]
    exact ⟨r, hr, hrefl⟩

/-- **A backend is confined**: whatever was done before, a hypercall writes the memory of a frontend
only as the registered and configured backend of a device, and then only the beginning of a reply
to the descriptors of a request it has polled, all of it if the request is completed, and the used
ring of that request's queue. -/
theorem proxy_backend_confined (cfgs : Nat → Nat → Option (ProxyConfig × List Byte))
    (calls : List (Env × TableOp)) (env : Env) (caller : Nat) (iocGpa : Gpa) (ioc : Ioc) :
    (Run.exec step (boot cfgs) calls).Confined env caller iocGpa ioc := by
  refine Owned.confined (Run.inv_always Owned (fun _ call h => h.step call) calls ?_) env caller
    iocGpa ioc
  intro vm index r hr
  obtain ⟨c, -, rfl⟩ := Option.map_eq_some_iff.mp hr
  exact nofun

/-! ### A reply that fails halfway -/

/-- VM 0 has published a request with two writable descriptors of one byte each, and the second one
lies outside its memory. -/
def splitReply (vm : Nat) : GuestView where
  byte _ gpa :=
    if gpa = 0x2002#64 then 1#8 else if gpa = 0x1001#64 then 0x60#8 else if gpa = 0x1008#64 then 1#8
    else if gpa = 0x100c#64 then 3#8 else if gpa = 0x100e#64 then 1#8
    else if gpa = 0x1011#64 then 0x70#8 else if gpa = 0x1018#64 then 1#8
    else if gpa = 0x101c#64 then 2#8 else 0#8
  mapped _ gpa _ := decide (vm ≠ 0) || decide (gpa ≠ 0x7000#64)

def splitEnv : Env := ⟨splitReply, fun _ => false, true, true⟩

/-- VM 0 sets up its queue, and VM 1 registers and polls the request. -/
def polled : List (Env × TableOp) :=
  [(splitEnv, .writeReg 0 0 .queueNum 2#32),
    (splitEnv, .writeReg 0 0 (.queueAddr .descLow) 0x1000#32),
    (splitEnv, .writeReg 0 0 (.queueAddr .availLow) 0x2000#32),
    (splitEnv, .writeReg 0 0 (.queueAddr .usedLow) 0x3000#32),
    (splitEnv, .writeReg 0 0 .queueReady 1#32),
    (splitEnv, .hcall 1 0x4000#64 emptyIoc),
    (splitEnv, .hcall 1 0x4000#64
      { emptyIoc with
        op := 1
        inGpa := 0x5000#64 })]

def twoBytes : Ioc :=
  { emptyIoc with
    op := 2
    outGpa := 0x8000#64
    outLen := 2 }

def oneDevice (vm index : Nat) : Option (ProxyConfig × List Byte) :=
  if vm = 0 ∧ index = 0 then some (smallProxy, []) else none

/-- One of the two bytes has been written when the reply fails. -/
theorem proxy_reply_partial :
    ((Run.exec step (boot oneDevice) polled).backendHcall splitEnv 1 0x4000#64 twoBytes).1 =
      -eFault ∧
    (((Run.exec step (boot oneDevice) polled).backendHcall splitEnv 1 0x4000#64
        twoBytes).2.dev 0 0).map ProxyRun.log =
      ((Run.exec step (boot oneDevice) polled).dev 0 0).map fun r =>
        r.log ++ [.wroteDesc 0 ⟨0x6000#64, [0#8]⟩] := by
  decide +kernel

end ProxyTable

end BeauOs.Virtio

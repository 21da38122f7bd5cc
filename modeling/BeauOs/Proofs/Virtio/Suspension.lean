/-
The proxies are suspended only inside a transaction.

The hook of the proxies finds them as they were booted: no flag is set and no device is marked
(`Clean`).  From there `virtio_proxy_pm_suspend` cannot fail once it has begun to mark devices, it
marks only devices of its own scope (`Within`), and a resume that returns zero has taken all marks
off.  So the proxies are clean whenever the hook is not wound up, in particular in `PM_RUNNING`.

What frontends and backends do meanwhile leaves the marks alone.  It is said for the table as a
whole (`step_dev`): what an operation does to a device is nothing, or one call of that device.
-/
import BeauOs.Proofs.Pm.HookState
import BeauOs.Proofs.Virtio.Confinement
import BeauOs.Virtio.Retention

namespace BeauOs.Virtio

open BeauOs.Pm Retention

/-! ### What an operation on the table does to a device -/

namespace ProxyTable

/-- The call of the device that a hypercall ends in. -/
def HcallOp.onDevice (caller : Nat) (ioc : ProxyRun.Ioc) : HcallOp → Option ProxyRun.Op
  | .register => some (.register caller ioc)
  | .poll => some (.poll ioc)
  | .reply => some (.reply ioc)
  | .heartbeat => none
  | .batchPoll => some (.batchPoll ioc)
  | .batchReply => some (.batchReply ioc)

/-- The call that an operation makes of a device, if it makes one. -/
def deviceOp (tbl : ProxyTable) (iocRead : Bool) (op : TableOp) (vm index : Nat) :
    Option ProxyRun.Op :=
  match op with
  | .hcall caller iocGpa ioc =>
    if iocGpa = 0#64 ∨ iocRead = false then none
    else
      match HcallOp.decode ioc.op with
      | none => none
      | some hcall =>
        if tbl.hcallTarget caller ioc hcall = some (vm, index) then hcall.onDevice caller ioc
        else none
  | .writeReg vm' index' reg value =>
    if vm = vm' ∧ index = index' then some (.writeReg reg value) else none
  | .releaseVm vmId => if tbl.serves vmId vm index then some .dropBackend else none
  | .resetVm vmId => if vm = vmId then some (.writeReg .status 0#32) else none

def deviceEnv (env : Env) (op : TableOp) (vm : Nat) : ProxyRun.Env where
  front := env.mem vm
  back :=
    match op with
    | .hcall caller _ _ => env.mem caller
    | _ => env.mem vm
  gated := env.gated vm

/-- The device behind the operation. -/
def deviceStep (tbl : ProxyTable) (call : Env × TableOp) (vm index : Nat) (r : ProxyRun) : ProxyRun :=
  match tbl.deviceOp call.1.iocRead call.2 vm index with
  | none => r
  | some op => r.step (deviceEnv call.1 call.2 vm, op)

theorem hcallOn_eq (front back : GuestView) (gated : Bool) (caller : Nat) (ioc : ProxyRun.Ioc)
    (r : ProxyRun) (op : HcallOp) :
    (hcallOn front back caller ioc r op).2.2 =
      match op.onDevice caller ioc with
      | none => r
      | some deviceOp => r.step (⟨front, back, gated⟩, deviceOp) := by
  cases op with
  | _ => rfl

/-- **An operation does nothing to a device, or makes one call of it.** -/
theorem step_dev (tbl : ProxyTable) (call : Env × TableOp) (vm index : Nat) :
    (tbl.step call).dev vm index = (tbl.dev vm index).map (tbl.deviceStep call vm index) := by
  obtain ⟨env, op⟩ := call
  unfold deviceStep
  cases op with
  | hcall caller iocGpa ioc =>
    show (tbl.backendHcall env caller iocGpa ioc).2.dev vm index = _
    unfold backendHcall dispatch deviceOp
    by_cases hread : iocGpa = 0#64 ∨ env.iocRead = false
    · simp only [if_pos hread, Option.map_id']
    simp only [if_neg hread]
    cases hop : HcallOp.decode ioc.op with
    | none => simp
    | some hcall =>
      simp only
      cases htarget : tbl.hcallTarget caller ioc hcall with
      | none => simp
      | some target =>
        obtain ⟨vm', index'⟩ := target
        simp only [Option.some.injEq, Prod.mk.injEq]
        by_cases hsame : vm' = vm ∧ index' = index
        · obtain ⟨rfl, rfl⟩ := hsame
          cases hr : tbl.dev vm' index' with
          | none => simp [hr]
          | some r =>
            simp only [and_self, if_true, Option.map_some]
            rw [set_dev, if_pos ⟨rfl, rfl⟩, hcallOn_eq _ _ (env.gated vm')]
            rfl
        · rw [if_neg hsame]
          cases hr : tbl.dev vm' index' with
          | none => simp
          | some r =>
            simp only [Option.map_id']
            rw [set_dev, if_neg fun h => hsame ⟨h.1.symm, h.2.symm⟩]
  | writeReg vm' index' reg value =>
    show (tbl.writeReg env vm' index' reg value).dev vm index = _
    unfold ProxyTable.writeReg deviceOp
    by_cases hsame : vm = vm' ∧ index = index'
    · obtain ⟨rfl, rfl⟩ := hsame
      cases hr : tbl.dev vm index with
      | none => simp [hr]
      | some r =>
        simp only [and_self, if_true, Option.map_some]
        rw [set_dev, if_pos ⟨rfl, rfl⟩]
        rfl
    · simp only [if_neg hsame, Option.map_id']
      split
      · rfl
      · rw [set_dev, if_neg hsame]
  | releaseVm vmId =>
    show (tbl.dev vm index).map _ = _
    unfold deviceOp
    cases hr : tbl.dev vm index with
    | none => rfl
    | some r =>
      simp only [Option.map_some, serves, hr]
      by_cases hserves : r.dev.hcallBackendRegistered = true ∧ r.dev.backendVmid = vmId
      · simp [hserves]
        rfl
      · simp [hserves]
  | resetVm vmId =>
    show (tbl.dev vm index).map _ = _
    unfold deviceOp
    by_cases hvm : vm = vmId
    · simp only [if_pos hvm]
      rfl
    · simp only [if_neg hvm]

/-- A register is written by its own operation, or by the reset of the VM. -/
theorem deviceOp_writeReg {tbl : ProxyTable} {iocRead : Bool} {op : TableOp} {vm index : Nat}
    {reg : MmioDev.Reg} {value : BitVec 32}
    (h : tbl.deviceOp iocRead op vm index = some (.writeReg reg value)) :
    op = .writeReg vm index reg value ∨ op = .resetVm vm ∧ reg = .status ∧ value = 0#32 := by
  unfold deviceOp at h
  split at h
  next caller iocGpa ioc =>
    split at h
    · cases h
    split at h
    · cases h
    next hcall _ =>
    split at h
    · cases hcall <;> cases h
    · cases h
  all_goals split_ifs at h with heq
  · cases h
    rw [heq.1, heq.2]
    exact .inl rfl
  · cases h
  · cases h
    rw [heq]
    exact .inr ⟨rfl, rfl, rfl⟩

theorem deviceOp_ne_notify {tbl : ProxyTable} {iocRead : Bool} {op : TableOp} {vm index : Nat}
    {deviceCall : ProxyRun.Op} (hnotify : writesNotify op = false)
    (h : tbl.deviceOp iocRead op vm index = some deviceCall) (value : BitVec 32) :
    deviceCall ≠ .writeReg .queueNotify value := by
  rintro rfl
  rcases deviceOp_writeReg h with rfl | ⟨-, hreg, -⟩
  · cases hnotify
  · cases hreg

end ProxyTable

/-! ### What a device keeps -/

namespace ProxyRun

theorem hcallRegister_samePm (back : GuestView) (caller : Nat) (ioc : Ioc) (r : ProxyRun) :
    MmioDev.SamePm r.dev.mmio (hcallRegister back caller ioc r).2.2.dev.mmio := by
  rcases hcallRegister_cases back caller ioc r with heq | ⟨-, caps, config, mmio, hsame, heq⟩
  · rw [heq]
    exact .refl _
  · rw [heq]
    exact hsame

/-- A call other than a notification or a reset leaves alone what is deferred or suspended. -/
theorem step_samePm {r : ProxyRun} {call : Env × Op}
    (hnotify : ∀ value, call.2 ≠ .writeReg .queueNotify value) (hreset : ¬call.2.Resets) :
    MmioDev.SamePm r.dev.mmio (r.step call).dev.mmio := by
  obtain ⟨env, op⟩ := call
  cases op with
  | writeReg reg value =>
    show MmioDev.SamePm r.dev.mmio (writeReg env.front env.gated reg value r).dev.mmio
    have hreg : reg ≠ .queueNotify := fun h => hnotify value (by rw [h])
    have hstatus : ¬(reg = .status ∧ value = 0#32) :=
      fun h => hreset (by rw [h.1, h.2]; rfl)
    obtain ⟨hsame, hquiet⟩ := MmioDev.writeReg_quiet r.dev.mmio env.gated hreg hstatus
    unfold writeReg
    generalize r.dev.mmio.writeReg env.gated reg value = out at hsame hquiet
    obtain ⟨mmio, opsCall⟩ := out
    rcases hquiet with hquiet | ⟨queueId, hquiet⟩
    · subst hquiet
      exact hsame
    · subst hquiet
      exact hsame
  | replay queueId => exact (notifyQueue_quiet env.front queueId r).same.pm
  | register caller ioc => exact hcallRegister_samePm env.back caller ioc r
  | poll ioc => exact (hcallPoll_quiet env.front env.back ioc r).same.pm
  | batchPoll ioc => exact (hcallBatchPoll_quiet env.front env.back ioc r).same.pm
  | reply ioc => exact (hcallReply_replies env.front env.back ioc r).same.pm
  | batchReply ioc => exact (hcallBatchReply_replies env.front env.back ioc r).same.pm
  | dropBackend => exact .refl _

/-- A reset drops what is deferred, and leaves the device suspended if it is. -/
theorem step_reset {r : ProxyRun} {call : Env × Op} (hreset : call.2.Resets) :
    (r.step call).dev.mmio = r.dev.mmio.resetState := by
  obtain ⟨env, op⟩ := call
  obtain rfl : op = .writeReg .status 0#32 := hreset
  rfl

end ProxyRun

/-! ### Marks -/

theorem PmTarget.mem_ids_vm {vmid : Nat} {d : Nat × Nat} :
    d ∈ (PmTarget.vm vmid).ids ↔ d.1 = vmid ∧ d.2 < virtioProxyMax := by
  obtain ⟨vm, index⟩ := d
  simp [PmTarget.ids, eq_comm, and_comm]

theorem PmTarget.mem_ids_system {d : Nat × Nat} :
    d ∈ PmTarget.system.ids ↔ d.1 < configMaxVmNum ∧ d.2 < virtioProxyMax := by
  obtain ⟨vm, index⟩ := d
  simp [PmTarget.ids]

/-- The devices of the target are among those of the host. -/
def PmTarget.Valid (target : PmTarget) : Prop := ∀ d ∈ target.ids, d ∈ PmTarget.system.ids

theorem PmTarget.valid_system : PmTarget.system.Valid := fun _ h => h

theorem PmTarget.valid_vm {vmid : Nat} (h : vmid < configMaxVmNum) : (PmTarget.vm vmid).Valid := by
  intro d hd
  obtain ⟨rfl, hindex⟩ := PmTarget.mem_ids_vm.mp hd
  exact PmTarget.mem_ids_system.mpr ⟨h, hindex⟩

namespace ProxyPm

def Unmarked (p : ProxyPm) (d : Nat × Nat) : Prop :=
  ∀ r, p.table.dev d.1 d.2 = some r → r.dev.mmio.pmSuspended = false

structure Clean (p : ProxyPm) : Prop where
  host : p.suspended = false
  guest : ∀ vm, p.vmSuspended vm = false
  devs : ∀ d ∈ PmTarget.system.ids, p.Unmarked d

/-- Nothing is suspended but what belongs to the target. -/
structure Within (target : PmTarget) (p : ProxyPm) : Prop where
  host : p.suspended = true → target = .system
  guest : ∀ vm, p.vmSuspended vm = true → target = .vm vm
  devs : ∀ d ∈ PmTarget.system.ids, d ∉ target.ids → p.Unmarked d
  /-- for a VM no device is marked unless the flag of the VM is set -/
  flagged : ∀ vm, target = .vm vm → p.vmSuspended vm = false →
    ∀ d ∈ PmTarget.system.ids, p.Unmarked d

/-- `virtio_mmio_pm_suspend` succeeds on the device. -/
def Markable (p : ProxyPm) (epoch : Nat) (d : Nat × Nat) : Prop :=
  ∀ r, p.table.dev d.1 d.2 = some r →
    r.dev.mmio.pmSuspended = false ∨ r.dev.mmio.pmEpoch = epoch

/-- No flag changes and no mark comes up. -/
structure Keeps (p p' : ProxyPm) : Prop where
  suspended : p'.suspended = p.suspended
  vmSuspended : p'.vmSuspended = p.vmSuspended
  unmarked : ∀ d, p.Unmarked d → p'.Unmarked d
  markable : ∀ epoch d, p.Markable epoch d → p'.Markable epoch d

variable {p p' : ProxyPm} {target : PmTarget} {epoch : Nat} {d : Nat × Nat} {r r' : ProxyRun}

theorem Keeps.refl (p : ProxyPm) : Keeps p p := ⟨rfl, rfl, fun _ h => h, fun _ _ h => h⟩

theorem Keeps.clean (h : Keeps p p') (hc : p.Clean) : p'.Clean :=
  ⟨h.suspended.trans hc.host, fun vm => h.vmSuspended ▸ hc.guest vm,
    fun d hd => h.unmarked d (hc.devs d hd)⟩

theorem Keeps.within (h : Keeps p p') (hw : Within target p) : Within target p' where
  host hs := hw.host (h.suspended ▸ hs)
  guest vm hs := hw.guest vm (h.vmSuspended ▸ hs)
  devs d hd hout := h.unmarked d (hw.devs d hd hout)
  flagged vm ht hs d hd := h.unmarked d (hw.flagged vm ht (h.vmSuspended ▸ hs) d hd)

theorem setDev_dev (p : ProxyPm) (d : Nat × Nat) (r : ProxyRun) (d' : Nat × Nat) :
    (p.setDev d r).table.dev d'.1 d'.2 = if d' = d then some r else p.table.dev d'.1 d'.2 := by
  obtain ⟨vm, index⟩ := d
  obtain ⟨vm', index'⟩ := d'
  simp only [setDev, ProxyTable.set_dev, Prod.mk.injEq]

/-- No device is marked that was not marked so before. -/
theorem Keeps.of_dev {table : ProxyTable} (h : ∀ (d : Nat × Nat) r', table.dev d.1 d.2 = some r' →
    r'.dev.mmio.pmSuspended = false ∨ ∃ r, p.table.dev d.1 d.2 = some r ∧
      r'.dev.mmio.pmSuspended = r.dev.mmio.pmSuspended ∧
      r'.dev.mmio.pmEpoch = r.dev.mmio.pmEpoch) : Keeps p { p with table } := by
  refine ⟨rfl, rfl, fun d hd r' hr' => ?_, fun epoch d hd r' hr' => ?_⟩
  · rcases h d r' hr' with hfalse | ⟨r, hr, hsame, -⟩
    · exact hfalse
    · exact hsame.trans (hd r hr)
  · rcases h d r' hr' with hfalse | ⟨r, hr, hsame, hepoch⟩
    · exact .inl hfalse
    · rw [hsame, hepoch]
      exact hd r hr

/-- One device is exchanged for one that is not marked, or marked as before. -/
theorem Keeps.setDev (hr : p.table.dev d.1 d.2 = some r)
    (hmark : r'.dev.mmio.pmSuspended = false ∨
      r'.dev.mmio.pmSuspended = r.dev.mmio.pmSuspended ∧ r'.dev.mmio.pmEpoch = r.dev.mmio.pmEpoch) :
    Keeps p (p.setDev d r') := by
  refine .of_dev fun d' r₀ hr₀ => ?_
  replace hr₀ := (setDev_dev p d r' d').symm.trans hr₀
  split at hr₀
  · next heq =>
    subst heq
    obtain rfl := Option.some.inj hr₀
    exact hmark.imp_right fun h => ⟨r, hr, h⟩
  · exact .inr ⟨r₀, hr₀, rfl, rfl⟩

/-- Requests are served, or the frontend uses its registers. -/
theorem Keeps.of_samePm (hr : p.table.dev d.1 d.2 = some r)
    (hsame : MmioDev.SamePm r.dev.mmio r'.dev.mmio) : Keeps p (p.setDev d r') :=
  .setDev hr (.inr ⟨hsame.suspended, hsame.epoch⟩)

theorem Keeps.table (call : ProxyTable.Env × ProxyTable.TableOp)
    (hnotify : writesNotify call.2 = false) :
    Keeps p { p with table := p.table.step call } := by
  refine .of_dev fun d r' hr' => .inr ?_
  rw [ProxyTable.step_dev] at hr'
  obtain ⟨r, hr, rfl⟩ := Option.map_eq_some_iff.mp hr'
  refine ⟨r, hr, ?_⟩
  unfold ProxyTable.deviceStep
  split
  · exact ⟨rfl, rfl⟩
  next op hop =>
  by_cases hreset : op.Resets
  · rw [ProxyRun.step_reset hreset]
    exact ⟨rfl, rfl⟩
  have hsame : MmioDev.SamePm r.dev.mmio
      (r.step (ProxyTable.deviceEnv call.1 call.2 d.1, op)).dev.mmio :=
    ProxyRun.step_samePm (ProxyTable.deviceOp_ne_notify hnotify hop) hreset
  exact ⟨hsame.suspended, hsame.epoch⟩

theorem Clean.within (hc : p.Clean) (target : PmTarget) : Within target p where
  host hs := absurd (hc.host.symm.trans hs) (by decide)
  guest vm hs := absurd ((hc.guest vm).symm.trans hs) (by decide)
  devs d hd _ := hc.devs d hd
  flagged _ _ _ d hd := hc.devs d hd

/-- Where the flag of the VM is down, nothing is suspended. -/
theorem Within.clean_of_flag {vmid : Nat} (hw : Within (.vm vmid) p)
    (hflag : p.vmSuspended vmid = false) : p.Clean where
  host := Bool.eq_false_iff.mpr fun hs => by cases hw.host hs
  guest vm := Bool.eq_false_iff.mpr fun hs => by
    cases hw.guest vm hs
    exact absurd (hflag.symm.trans hs) (by decide)
  devs := hw.flagged vmid rfl hflag

/-! ### The calls -/

open Retention (HookCall)

/-- What is known in a resume: it is the one that a drain gives up with, and nothing is suspended, or
it is that of the hook, and the devices it has passed are unmarked or it will fail. -/
def ResumeOk (kind : HookCall) (target : PmTarget) (p : ProxyPm) (left : List (Nat × Nat))
    (firstError : Int) (after : Option Int) : Prop :=
  (kind = .suspend ∧ (∃ status, after = some status ∧ status ≠ 0) ∧ p.Clean) ∨
  (kind = .resume ∧ after = none ∧ Within target p ∧
    (firstError ≠ 0 ∨ ∀ d ∈ target.ids, d ∉ left → p.Unmarked d))

def PlaceOk (kind : HookCall) (target : PmTarget) (epoch : Nat) (p : ProxyPm) : Place → Prop
  | .dependents _ | .drain _ _ _ | .recount _ _ => kind = .suspend ∧ epoch ≠ 0 ∧ p.Clean
  | .mark left =>
    kind = .suspend ∧ epoch ≠ 0 ∧ Within target p ∧
      (∀ vm, target = .vm vm → p.vmSuspended vm = true) ∧
      ∀ d ∈ left, d ∈ target.ids ∧ p.Markable epoch d
  | .resume left firstError after => ResumeOk kind target p left firstError after
  | .replay _ _ left firstError after => ResumeOk kind target p left firstError after
  | .notify _ _ left firstError after => ResumeOk kind target p left firstError after

theorem Keeps.resumeOk {kind : HookCall} {left : List (Nat × Nat)} {firstError : Int}
    {after : Option Int} (h : Keeps p p') (hok : ResumeOk kind target p left firstError after) :
    ResumeOk kind target p' left firstError after := by
  rcases hok with ⟨hkind, hafter, hc⟩ | ⟨hkind, hafter, hw, hpassed⟩
  · exact .inl ⟨hkind, hafter, h.clean hc⟩
  · refine .inr ⟨hkind, hafter, h.within hw, hpassed.imp_right fun hun d hd hleft => ?_⟩
    exact h.unmarked d (hun d hd hleft)

theorem Keeps.placeOk {kind : HookCall} {place : Place} (h : Keeps p p')
    (hok : PlaceOk kind target epoch p place) : PlaceOk kind target epoch p' place := by
  cases place with
  | dependents | drain | recount => exact ⟨hok.1, hok.2.1, h.clean hok.2.2⟩
  | mark =>
    obtain ⟨hkind, hepoch, hw, hflag, hleft⟩ := hok
    refine ⟨hkind, hepoch, h.within hw, fun vm ht => h.vmSuspended ▸ hflag vm ht, fun d hd => ?_⟩
    exact ⟨(hleft d hd).1, h.markable epoch d (hleft d hd).2⟩
  | resume | replay | notify => exact h.resumeOk hok

/-- How a step of a call ends: it stays within its target, a suspend that fails leaves nothing
suspended, and neither does a resume that succeeds. -/
structure StepOk (kind : HookCall) (target : PmTarget) (epoch : Nat) (out : ProxyPm × (Place ⊕ Int)) :
    Prop where
  within : Within target out.1
  next : ∀ place, out.2 = .inl place → PlaceOk kind target epoch out.1 place
  failed : ∀ status, out.2 = .inr status → kind = .suspend → status ≠ 0 → out.1.Clean
  undone : ∀ status, out.2 = .inr status → kind = .resume → status = 0 → out.1.Clean

section StepOk

variable {kind : HookCall}

theorem StepOk.goto {place : Place} (hw : Within target p)
    (hok : PlaceOk kind target epoch p place) : StepOk kind target epoch (p, .inl place) :=
  ⟨hw, fun _ h => Sum.inl.inj h ▸ hok, nofun, nofun⟩

theorem StepOk.of_clean (hc : p.Clean) (status : Int) :
    StepOk kind target epoch (p, .inr status) :=
  ⟨hc.within target, nofun, fun _ _ _ _ => hc, fun _ _ _ _ => hc⟩

theorem StepOk.suspended (hw : Within target p) : StepOk .suspend target epoch (p, .inr 0) :=
  ⟨hw, nofun, fun _ h _ hne => absurd (Sum.inr.inj h).symm hne,
    nofun⟩

theorem StepOk.not_undone {status : Int} (hw : Within target p) (hne : status ≠ 0) :
    StepOk .resume target epoch (p, .inr status) :=
  ⟨hw, nofun, nofun,
    fun _ h _ hzero => absurd ((Sum.inr.inj h).trans hzero) hne⟩

theorem mem_present {d : Nat × Nat} :
    d ∈ p.present target ↔ d ∈ target.ids ∧ (p.table.dev d.1 d.2).isSome = true := by
  simp [present]

theorem suspendEntry_ok (hc : p.Clean) :
    StepOk .suspend target epoch (p, p.suspendEntry target epoch) := by
  unfold suspendEntry
  split
  · split
    · exact .of_clean hc _
    next hepoch =>
    split
    · exact .of_clean hc _
    · exact .goto (hc.within _) ⟨rfl, hepoch, hc⟩
  · split
    · exact .of_clean hc _
    next hepoch =>
    split
    · exact .of_clean hc _
    split
    · exact .of_clean hc _
    · exact .goto (hc.within _) ⟨rfl, fun h => hepoch (.inr h), hc⟩

/-- The resume that a suspend gives up with. -/
theorem resumeEntry_gaveUp (hc : p.Clean) {status : Int} (hne : status ≠ 0) :
    StepOk .suspend target epoch (p, p.resumeEntry target epoch (some status)) := by
  have hresume : ∀ left, StepOk .suspend target epoch (p, .inl (.resume left 0 (some status))) :=
    fun left => .goto (hc.within _) (.inl ⟨rfl, ⟨status, rfl, hne⟩, hc⟩)
  unfold resumeEntry
  split
  · split
    · exact .of_clean hc _
    split
    · exact .of_clean hc _
    · exact hresume _
  · split
    · exact .of_clean hc _
    split
    · exact .of_clean hc _
    split
    · exact .of_clean hc _
    · exact hresume _

theorem resumeEntry_ok (hw : Within target p) :
    StepOk .resume target epoch (p, p.resumeEntry target epoch none) := by
  have hinval : -eInval ≠ 0 := by decide
  have hresume : StepOk .resume target epoch (p, .inl (.resume (p.present target) 0 none)) := by
    refine .goto hw (.inr ⟨rfl, rfl, hw, .inr fun d hd hleft r hr => ?_⟩)
    exact absurd (mem_present.mpr ⟨hd, by rw [hr]; rfl⟩) hleft
  unfold resumeEntry
  split
  · split
    · exact .not_undone hw hinval
    split
    · exact .not_undone hw hinval
    · exact hresume
  next vmid =>
  split
  · exact .not_undone hw hinval
  split
  · next hflag =>
    -- the VM is not suspended
    have hc := hw.clean_of_flag hflag
    exact ⟨hw, nofun, fun _ _ _ _ => hc, fun _ _ _ _ => hc⟩
  split
  · exact .not_undone hw hinval
  · exact hresume

theorem Within.setSuspended (hc : p.Clean) (target : PmTarget) (epoch : Nat) :
    Within target (p.setSuspended target epoch) ∧
      ∀ vm, target = .vm vm → (p.setSuspended target epoch).vmSuspended vm = true := by
  have hw := hc.within target
  cases target with
  | system =>
    exact ⟨⟨fun _ => rfl, hw.guest, hw.devs, nofun⟩, nofun⟩
  | vm vmid =>
    have hself : ∀ vm, PmTarget.vm vmid = .vm vm →
        (p.setSuspended (.vm vmid) epoch).vmSuspended vm = true := by
      intro vm ht
      cases ht
      exact Function.update_self vmid true p.vmSuspended
    refine ⟨⟨hw.host, fun vm hs => ?_, hw.devs, fun vm ht hs => ?_⟩, hself⟩
    · by_cases hvm : vm = vmid
      · rw [hvm]
      · have hs' : Function.update p.vmSuspended vmid true vm = true := hs
        rw [Function.update_of_ne hvm] at hs'
        exact hw.guest vm hs'
    · exact absurd ((hself vm ht).symm.trans hs) (by decide)

theorem drained_ok (hc : p.Clean) (hepoch : epoch ≠ 0) (hvalid : target.Valid) (active : Nat) :
    StepOk .suspend target epoch (p.drained target epoch active) := by
  have htimedOut : -eTimedOut ≠ 0 := by decide
  unfold drained
  split
  · cases target with
    | system => exact resumeEntry_gaveUp hc htimedOut
    | vm => exact .of_clean hc _
  obtain ⟨hw, hflag⟩ := Within.setSuspended hc target epoch
  refine .goto hw ⟨rfl, hepoch, hw, hflag, fun d hd => ?_⟩
  have hids := (mem_present.mp hd).1
  refine ⟨hids, fun r hr => .inl ?_⟩
  refine hc.devs d (hvalid d hids) r ?_
  cases target <;> exact hr

/-- Marking a device succeeds, and leaves it marked for the epoch. -/
theorem pmSuspend_markable {dev : MmioDev} (hepoch : epoch ≠ 0)
    (h : dev.pmSuspended = false ∨ dev.pmEpoch = epoch) :
    (dev.pmSuspend epoch).1 = 0 ∧ (dev.pmSuspend epoch).2.pmEpoch = epoch := by
  unfold MmioDev.pmSuspend
  rw [if_neg hepoch]
  split
  · next hs =>
    have heq : dev.pmEpoch = epoch := h.resolve_left fun hf => absurd (hf.symm.trans hs) (by decide)
    exact ⟨if_pos heq, heq⟩
  · exact ⟨rfl, rfl⟩

variable {left : List (Nat × Nat)} {firstError : Int} {after : Option Int}

theorem markDev_ok (hok : PlaceOk kind target epoch p (.mark (d :: left))) :
    StepOk kind target epoch (p.markDev target epoch d left) := by
  obtain ⟨rfl, hepoch, hw, hflag, hleft⟩ := hok
  obtain ⟨hd, hmark⟩ := hleft d (List.mem_cons_self ..)
  have hrest : ∀ d' ∈ left, d' ∈ target.ids ∧ p.Markable epoch d' :=
    fun d' hd' => hleft d' (List.mem_cons_of_mem _ hd')
  unfold markDev
  split
  · exact .goto hw ⟨rfl, hepoch, hw, hflag, hrest⟩
  next r hr =>
  obtain ⟨hstatus, hmarked⟩ := pmSuspend_markable hepoch (hmark r hr)
  generalize r.dev.mmio.pmSuspend epoch = out at hstatus hmarked
  obtain ⟨status, mmio⟩ := out
  obtain rfl : status = 0 := hstatus
  have hdev := p.setDev_dev d { r with dev := { r.dev with mmio := mmio } }
  -- the marks of other devices stay as they are
  have hother : ∀ d', d' ≠ d → p.Unmarked d' → (p.setMmio d r mmio).Unmarked d' := by
    intro d' hne hun r' hr'
    refine hun r' ?_
    have := (hdev d').symm.trans hr'
    rwa [if_neg hne] at this
  have hw' : Within target (p.setMmio d r mmio) := by
    refine ⟨hw.host, hw.guest, fun d' hd' hout => ?_, fun vm ht hs => ?_⟩
    · exact hother d' (fun heq => hout (heq ▸ hd)) (hw.devs d' hd' hout)
    · exact absurd ((hflag vm ht).symm.trans hs) (by decide)
  dsimp only
  rw [if_neg (not_not.mpr rfl)]
  refine .goto hw' ⟨rfl, hepoch, hw', hflag, fun d' hd' => ⟨(hrest d' hd').1, fun r' hr' => ?_⟩⟩
  have hr'' := (hdev d').symm.trans hr'
  by_cases heq : d' = d
  · rw [if_pos heq] at hr''
    obtain rfl := Option.some.inj hr''
    exact .inr hmarked
  · rw [if_neg heq] at hr''
    exact (hrest d' hd').2 r' hr''

theorem pmResume_marks (dev : MmioDev) (epoch : Nat) :
    ((dev.pmResume epoch).1 = 0 → (dev.pmResume epoch).2.pmSuspended = false) ∧
    ((dev.pmResume epoch).2.pmSuspended = false ∨
      (dev.pmResume epoch).2.pmSuspended = dev.pmSuspended ∧
        (dev.pmResume epoch).2.pmEpoch = dev.pmEpoch) := by
  unfold MmioDev.pmResume
  split
  · exact ⟨fun h => absurd h (show -eInval ≠ 0 by decide), .inr ⟨rfl, rfl⟩⟩
  split
  · exact ⟨fun h => absurd h (show -eInval ≠ 0 by decide), .inr ⟨rfl, rfl⟩⟩
  split
  · exact ⟨fun _ => rfl, .inl rfl⟩
  · next hs => exact ⟨fun _ => Bool.eq_false_iff.mpr hs, .inr ⟨rfl, rfl⟩⟩

theorem ResumeOk.within (hok : ResumeOk kind target p left firstError after) : Within target p := by
  rcases hok with ⟨-, -, hc⟩ | ⟨-, -, hw, -⟩
  · exact hc.within target
  · exact hw

/-- The resume passes a device that is not marked now. -/
theorem ResumeOk.pass (hok : ResumeOk kind target p (d :: left) firstError after)
    (hd : p.Unmarked d) : ResumeOk kind target p left firstError after := by
  rcases hok with hgaveUp | ⟨hkind, hafter, hw, hpassed⟩
  · exact .inl hgaveUp
  refine .inr ⟨hkind, hafter, hw, hpassed.imp_right fun hun d' hd' hleft => ?_⟩
  by_cases heq : d' = d
  · rw [heq]
    exact hd
  · exact hun d' hd' fun hmem => (List.mem_cons.mp hmem).elim heq hleft

theorem resumeDev_ok (hok : ResumeOk kind target p (d :: left) firstError after) :
    StepOk kind target epoch (p.resumeDev epoch d left firstError after) := by
  unfold resumeDev
  split
  · next hnone =>
    have hpass := hok.pass fun r hr => absurd (hnone.symm.trans hr) (by simp)
    exact .goto hpass.within hpass
  next r hr =>
  obtain ⟨hunmarked, hmark⟩ := pmResume_marks r.dev.mmio epoch
  generalize r.dev.mmio.pmResume epoch = out at hunmarked hmark
  obtain ⟨status, mmio⟩ := out
  have hkeeps : Keeps p (p.setMmio d r mmio) := .setDev hr hmark
  have hok' := hkeeps.resumeOk hok
  dsimp only
  split
  · next hne =>
    refine .goto hok'.within ?_
    rcases hok' with hgaveUp | ⟨hkind, hafter, hw, -⟩
    · exact .inl hgaveUp
    refine .inr ⟨hkind, hafter, hw, .inl ?_⟩
    split
    · exact hne
    · next hfirst => exact hfirst
  · next hzero =>
    have hpass := hok'.pass fun r' hr' => by
      have hr'' := (p.setDev_dev d { r with dev := { r.dev with mmio := mmio } } d).symm.trans hr'
      rw [if_pos rfl] at hr''
      obtain rfl := Option.some.inj hr''
      exact hunmarked (not_not.mp hzero)
    exact .goto hpass.within hpass

theorem pmReplay_marks (dev : MmioDev) (queueId : Nat) :
    (dev.pmReplay queueId).2.pmSuspended = dev.pmSuspended ∧
      (dev.pmReplay queueId).2.pmEpoch = dev.pmEpoch := by
  unfold MmioDev.pmReplay
  split
  · exact ⟨rfl, rfl⟩
  · exact ⟨rfl, rfl⟩

theorem replayDev_ok {queueId : Nat} (hok : ResumeOk kind target p left firstError after) :
    StepOk kind target epoch (p.replayDev d queueId left firstError after) := by
  unfold replayDev
  split
  · exact .goto hok.within hok
  next r hr =>
  split
  · have hmarks := pmReplay_marks r.dev.mmio queueId
    generalize r.dev.mmio.pmReplay queueId = out at hmarks
    obtain ⟨replayed, mmio⟩ := out
    have hkeeps : Keeps p (p.setMmio d r mmio) := .setDev hr (.inr hmarks)
    have hok' := hkeeps.resumeOk hok
    cases replayed with
    | true => exact .goto hok'.within hok'
    | false => exact .goto hok.within hok
  · exact .goto hok.within hok

theorem clearSuspended_marks (p : ProxyPm) (target : PmTarget) :
    (p.clearSuspended target).table = p.table ∧
      ((p.clearSuspended target).suspended = true → p.suspended = true ∧ target ≠ .system) ∧
      ∀ vm, (p.clearSuspended target).vmSuspended vm = true →
        p.vmSuspended vm = true ∧ target ≠ .vm vm := by
  cases target with
  | system => exact ⟨rfl, nofun, fun vm h => ⟨h, nofun⟩⟩
  | vm vmid =>
    refine ⟨rfl, fun h => ⟨h, nofun⟩, fun vm h => ?_⟩
    have h' : Function.update p.vmSuspended vmid false vm = true := h
    by_cases hvm : vm = vmid
    · rw [hvm, Function.update_self] at h'
      cases h'
    rw [Function.update_of_ne hvm] at h'
    refine ⟨h', fun ht => ?_⟩
    cases ht
    exact hvm rfl

/-- Where no device of the target is marked, taking the flags down leaves nothing suspended. -/
theorem Within.clearSuspended (hw : Within target p)
    (hdevs : ∀ d ∈ PmTarget.system.ids, d ∈ target.ids → p.Unmarked d) :
    (p.clearSuspended target).Clean := by
  obtain ⟨htable, hhost, hguest⟩ := p.clearSuspended_marks target
  have hun : ∀ d, p.Unmarked d → (p.clearSuspended target).Unmarked d := by
    intro d hd r hr
    rw [htable] at hr
    exact hd r hr
  refine ⟨Bool.eq_false_iff.mpr fun hs => ?_, fun vm => Bool.eq_false_iff.mpr fun hs => ?_,
    fun d hd => hun d ?_⟩
  · obtain ⟨hs', hne⟩ := hhost hs
    exact hne (hw.host hs')
  · obtain ⟨hs', hne⟩ := hguest vm hs
    exact hne (hw.guest vm hs')
  · by_cases hin : d ∈ target.ids
    · exact hdevs d hd hin
    · exact hw.devs d hd hin

theorem resumeEnd_ok (hok : ResumeOk kind target p [] firstError after) :
    StepOk kind target epoch (if firstError = 0 then p.clearSuspended target else p,
      .inr (after.getD firstError)) := by
  rcases hok with ⟨rfl, -, hc⟩ | ⟨rfl, rfl, hw, hpassed⟩
  · refine .of_clean ?_ _
    split
    · exact (hc.within target).clearSuspended fun d hd _ => hc.devs d hd
    · exact hc
  · by_cases hzero : firstError = 0
    · rw [if_pos hzero]
      refine .of_clean (hw.clearSuspended fun d _ hd => ?_) _
      exact hpassed.resolve_left (not_not.mpr hzero) d hd (by simp)
    · rw [if_neg hzero]
      exact .not_undone hw hzero

/-- **A step of a call keeps to its target.** -/
theorem step_ok {place : Place} (hok : PlaceOk kind target epoch p place) (hvalid : target.Valid)
    (mem : Nat → GuestView) (vmRunning : Nat → Bool) :
    StepOk kind target epoch (p.step mem vmRunning target epoch place) := by
  cases place with
  | dependents left =>
    obtain ⟨rfl, hepoch, hc⟩ := hok
    have hw := hc.within target
    cases left with
    | nil => exact .goto hw ⟨rfl, hepoch, hc⟩
    | cons d left =>
      simp only [step]
      split
      · exact .goto hw ⟨rfl, hepoch, hc⟩
      · split
        · exact .of_clean hc _
        · exact .goto hw ⟨rfl, hepoch, hc⟩
  | drain _ left =>
    obtain ⟨rfl, hepoch, hc⟩ := hok
    have hw := hc.within target
    cases left with
    | nil =>
      simp only [step]
      split
      · exact .goto hw ⟨rfl, hepoch, hc⟩
      · exact .goto hw ⟨rfl, hepoch, hc⟩
    | cons d left => exact .goto hw ⟨rfl, hepoch, hc⟩
  | recount left active =>
    obtain ⟨rfl, hepoch, hc⟩ := hok
    cases left with
    | nil => exact drained_ok hc hepoch hvalid active
    | cons d left => exact .goto (hc.within _) ⟨rfl, hepoch, hc⟩
  | mark left =>
    cases left with
    | nil =>
      obtain ⟨rfl, -, hw, -⟩ := hok
      exact .suspended hw
    | cons d left => exact markDev_ok hok
  | resume left =>
    cases left with
    | nil => exact resumeEnd_ok hok
    | cons d left => exact resumeDev_ok hok
  | replay => exact replayDev_ok hok
  | notify d queueId =>
    have hkeeps : Keeps p (notifyDev mem p d queueId) := by
      unfold notifyDev
      split
      · exact .refl p
      · next r hr => exact .of_samePm hr (ProxyRun.notifyQueue_quiet _ queueId r).same.pm
    have hok' := hkeeps.resumeOk hok
    exact .goto hok'.within hok'

end StepOk

end ProxyPm

/-! ### The hook in the transaction -/

namespace Retention

open ProxyPm (Keeps PlaceOk StepOk Within)

variable {s s' : Retention} {m : PmMachine} {epoch : Nat} {kind : HookCall}

/-- The devices that the transaction is about. -/
def pmTarget (d : PmSnapshot) : PmTarget := if d.scope = .vm then .vm d.targetVmid else .system

variable {d : PmSnapshot} {target : PmTarget} {op : PmOp}

theorem hookTarget_ok (h : hookTarget epoch d = .ok target) :
    target = pmTarget d ∧ target.Valid := by
  unfold hookTarget at h
  unfold pmTarget
  split at h
  · cases h
  split at h
  · next hscope =>
    rw [if_pos hscope]
    split at h
    · cases h
    next hvmid =>
    cases h
    exact ⟨rfl, PmTarget.valid_vm (Nat.lt_of_not_le fun hle => hvmid (.inl hle))⟩
  · next hscope =>
    rw [if_neg hscope]
    cases h
    exact ⟨rfl, PmTarget.valid_system⟩

theorem hookTarget_error {status : Int} (h : hookTarget epoch d = .error status) : status ≠ 0 := by
  have hinval : -eInval ≠ 0 := by decide
  unfold hookTarget at h
  split at h
  · cases h
    exact hinval
  split at h
  · split at h
    · cases h
      exact hinval
    · cases h
  · cases h

theorem virtioHook_reverse (abortPhase : Bool) : virtioHook.reverse abortPhase = true := by
  cases abortPhase <;> rfl

theorem outsideHook_of_hookCall (h : hookCall m = none) : m.OutsideHook virtioHook := by
  intro epoch pc hframe hat
  unfold hookCall at h
  rw [hframe] at h
  cases pc with
  | forward =>
    simp only [AtHook] at hat
    simp only [hat, and_self, if_true] at h
    cases h
  | reverse _ _ idx =>
    cases idx with
    | zero => exact hat.elim
    | succ hookIdx =>
      simp only [AtHook] at hat
      simp only [hat, and_self, if_true] at h
      cases h
  | _ => exact hat.elim

theorem hookCall_suspend (h : hookCall m = some (epoch, .suspend)) :
    ∃ count idx, m.frame = some (epoch, .forward false count idx) ∧ idx < count ∧
      m.host.hook idx = virtioHook := by
  unfold hookCall at h
  split at h
  · next epoch' suspendPhase count idx hframe =>
    split at h
    · next hat =>
      cases h
      obtain ⟨hidx, hop, hforward⟩ := hat
      cases suspendPhase with
      | true => cases hforward
      | false => exact ⟨count, idx, hframe, hidx, hop⟩
    · cases h
  · split at h
    · cases h
    · cases h
  · cases h

theorem hookCall_resume (h : hookCall m = some (epoch, .resume)) :
    ∃ u completed hookIdx firstError,
      m.frame = some (epoch, .reverse u completed (hookIdx + 1) firstError) ∧
      bitmapTest hookIdx completed = true ∧ m.host.hook hookIdx = virtioHook := by
  unfold hookCall at h
  split at h
  · split at h
    · cases h
    · cases h
  · next epoch' u completed hookIdx firstError hframe =>
    split at h
    · next hat =>
      cases h
      exact ⟨u, completed, hookIdx, firstError, hframe, hat.1, hat.2.1⟩
    · cases h
  · cases h

theorem hookCall_frame (h : hookCall m = some (epoch, kind)) : ∃ pc, m.frame = some (epoch, pc) := by
  cases kind with
  | suspend =>
    obtain ⟨count, idx, hframe, -⟩ := hookCall_suspend h
    exact ⟨_, hframe⟩
  | resume =>
    obtain ⟨u, completed, hookIdx, firstError, hframe, -⟩ := hookCall_resume h
    exact ⟨_, hframe⟩

/-- The hook is wound up when it has returned zero. -/
theorem mayHold_of_suspended (h : hookCall m = some (epoch, .suspend)) (env : PmEnv)
    (hstatus : env.status = 0) : MayHold virtioHook (processOp env m) := by
  obtain ⟨count, idx, hframe, hidx, hop⟩ := hookCall_suspend h
  obtain ⟨host, frame⟩ := m
  obtain rfl : frame = some (epoch, .forward false count idx) := hframe
  have hhook : host.hook idx = virtioHook := hop
  simp only [processOp, processStep, forwardStep, if_pos hidx, hhook, if_pos hstatus]
  exact .inr hop

/-- A hook that cannot be undone is not undone. -/
theorem mayHold_of_not_resumed (h : hookCall m = some (epoch, .resume)) (env : PmEnv)
    (hstatus : env.status ≠ 0) : MayHold virtioHook (processOp env m) := by
  obtain ⟨u, completed, hookIdx, firstError, hframe, hbit, hop⟩ := hookCall_resume h
  obtain ⟨host, frame⟩ := m
  obtain rfl : frame = some (epoch, .reverse u completed (hookIdx + 1) firstError) := hframe
  have hhook : host.hook hookIdx = virtioHook := hop
  simp only [processOp, processStep, reverseStep, hbit, hhook, virtioHook_reverse, if_true]
  refine .inl ?_
  split
  · exact hstatus
  · next hfirst => exact hfirst

theorem pmTarget_congr {d' : PmSnapshot} (h : d'.scope = d.scope ∧ d'.targetVmid = d.targetVmid) :
    pmTarget d' = pmTarget d := by
  unfold pmTarget
  rw [h.1, h.2]

/-- A call into the power management leaves the boot pCPU where it is. -/
theorem hookCall_request (hflow : m.HookFlow) (hne : m.host.data.state ≠ .running) (env : PmEnv)
    (hop : op ≠ .process) : hookCall (m.step (env, op)) = hookCall m := by
  have hhook := hflow.request_hook hne env hop
  unfold hookCall
  rw [PmMachine.step_of_ne m env hop] at hhook ⊢
  simp only [hhook]

/-- **What a step can do**: the boot pCPU goes on, or another pCPU makes a call or is refused. -/
inductive Steps (s : Retention) (env : Env) : Op → Retention → Prop
  | process : Steps s env (.pm .process) (s.process env)
  | request {op : PmOp} (hop : op ≠ .process) :
      Steps s env (.pm op) { s with pm := s.pm.step (env.pm, op) }
  | table {op : ProxyTable.TableOp} (hnotify : writesNotify op = false) :
      Steps s env (.table op)
        { s with proxies := { s.proxies with table := s.proxies.table.step (env.table, op) } }
  | other (i : Nat) {reg : MmioDev.Reg} (value : BitVec 32) (hreg : reg ≠ .queueNotify) :
      Steps s env (.otherWrite i reg value) (s.otherWrite i reg value)
  | begins (cpu : Nat) {dev : DevId} {value : BitVec 32} {mmio : MmioDev} (defer : Bool)
      (hdev : s.mmio dev = some mmio) (hqueue : value.toNat < mmio.queueNum) :
      Steps s env (.beginNotify cpu dev value)
        { s with handler := Function.update s.handler cpu (some ⟨dev, value.toNat, defer⟩) }
  | finish (cpu : Nat) : Steps s env (.finishNotify cpu) (s.finishNotify env cpu)
  | noTable {op : ProxyTable.TableOp} (hnotify : writesNotify op = true) : Steps s env (.table op) s
  | noWrite (i : Nat) (value : BitVec 32) : Steps s env (.otherWrite i .queueNotify value) s
  | noBegin (cpu : Nat) (dev : DevId) (value : BitVec 32) : Steps s env (.beginNotify cpu dev value) s

theorem step_cases (s : Retention) (env : Env) (op : Op) : Steps s env op (s.step (env, op)) := by
  cases op with
  | pm op => cases op <;> first | exact .process | exact .request nofun
  | table =>
    simp only [step]
    split
    · next hnotify => exact .noTable hnotify
    · next hnotify => exact .table (Bool.eq_false_iff.mpr hnotify)
  | otherWrite i reg value => cases reg <;> first | exact .noWrite i value | exact .other i value nofun
  | beginNotify cpu dev value =>
    simp only [step, beginNotify]
    split
    next hdev =>
      split
      · exact .noBegin cpu dev value
      · next hqueue => exact .begins cpu _ hdev (Nat.lt_of_not_le hqueue)
    · exact .noBegin cpu dev value
  | finishNotify cpu => exact .finish cpu

theorem process_proxies (hhook : hookCall s.pm = some (epoch, kind))
    (env : Env) : (s.process env).proxies = (s.hookStep env epoch kind).1 := by
  unfold process
  rw [hhook]
  dsimp only
  generalize s.hookStep env epoch kind = out
  obtain ⟨p, target, place | status⟩ := out
  · rfl
  · rfl

theorem hookStep_entry (hcall : s.call = none) (env : Env) (epoch : Nat) (kind : HookCall) :
    s.hookStep env epoch kind = (s.proxies, s.hookEntry epoch kind) := by
  unfold hookStep
  rw [hcall]

theorem hookStep_call {place : ProxyPm.Place} (hcall : s.call = some (target, place)) (env : Env)
    (epoch : Nat) (kind : HookCall) :
    (s.hookStep env epoch kind).2 = (target, (s.proxies.step env.table.mem
      (fun vm => decide (env.pm.vmState vm = .running)) target epoch place).2) := by
  unfold hookStep
  rw [hcall]

theorem process_call (hhook : hookCall s.pm = some (epoch, kind)) {env : Env}
    {place : ProxyPm.Place} (h : (s.process env).call = some (target, place)) :
    (s.hookStep env epoch kind).2 = (target, .inl place) := by
  unfold process at h
  rw [hhook] at h
  dsimp only at h
  generalize s.hookStep env epoch kind = out at h ⊢
  obtain ⟨p, target', place' | status⟩ := out
  · cases h
    rfl
  · cases h

/-- What the other pCPUs leave alone; all they do to the transaction is a request. -/
theorem step_of_ne {call : Env × Op} (hop : call.2 ≠ .pm .process) :
    (s.step call).call = s.call ∧ ((s.step call).pm = s.pm ∨
      ∃ op, op ≠ .process ∧ (s.step call).pm = s.pm.step (call.1.pm, op)) := by
  obtain ⟨env, op⟩ := call
  have hstep := step_cases s env op
  generalize s.step (env, op) = s' at hstep
  cases hstep with
  | process => exact absurd rfl hop
  | request hop' => exact ⟨rfl, .inr ⟨_, hop', rfl⟩⟩
  | finish =>
    simp only [finishNotify]
    split
    · exact ⟨rfl, .inl rfl⟩
    split
    · split
      · exact ⟨rfl, .inl rfl⟩
      · exact ⟨rfl, .inl rfl⟩
    · exact ⟨rfl, .inl rfl⟩
  | _ => exact ⟨rfl, .inl rfl⟩

/-- Only a transaction suspends the proxies. -/
structure Inv (s : Retention) : Prop where
  flow : s.pm.HookFlow
  within : s.pm.host.data.state ≠ .running → Within (pmTarget s.pm.host.data) s.proxies
  clean : s.call = none → ¬MayHold virtioHook s.pm → s.proxies.Clean
  call : ∀ target place, s.call = some (target, place) → ∃ epoch kind,
    hookCall s.pm = some (epoch, kind) ∧ target = pmTarget s.pm.host.data ∧ target.Valid ∧
      PlaceOk kind target epoch s.proxies place

section

variable (hinv : Inv s)

include hinv

theorem Inv.not_running (h : hookCall s.pm = some (epoch, kind)) :
    s.pm.host.data.state ≠ .running := by
  obtain ⟨pc, hframe⟩ := hookCall_frame h
  exact hinv.flow.inv.active hframe

theorem Inv.call_eq_none (h : hookCall s.pm = none) : s.call = none := by
  cases hcall : s.call with
  | none => rfl
  | some c =>
    obtain ⟨epoch, kind, hsome, -⟩ := hinv.call c.1 c.2 hcall
    exact absurd (h.symm.trans hsome) (by simp)

/-- **The proxies are as at boot in `PM_RUNNING`.** -/
theorem Inv.clean_of_running (hrun : s.pm.host.data.state = .running) : s.proxies.Clean := by
  have hframe := hinv.flow.inv.frame_eq_none hrun
  have hcall : hookCall s.pm = none := by
    unfold hookCall
    rw [hframe]
  exact hinv.clean (hinv.call_eq_none hcall) (not_mayHold_of_running hframe hrun)

/-- The transaction goes on, and is about the same devices. -/
theorem Inv.within_step (call : PmEnv × PmOp) {p : ProxyPm}
    (hw : Within (pmTarget s.pm.host.data) p) (hne : s.pm.host.data.state ≠ .running)
    (hne' : (s.pm.step call).host.data.state ≠ .running) :
    Within (pmTarget (s.pm.step call).host.data) p := by
  rw [pmTarget_congr (hinv.flow.scope call hne hne')]
  exact hw

/-- The devices change, and what is suspended stays. -/
theorem Inv.keeps (hpm : s'.pm = s.pm) (hcall : s'.call = s.call)
    (hkeeps : Keeps s.proxies s'.proxies) : Inv s' where
  flow := hpm ▸ hinv.flow
  within hne := by
    rw [hpm] at hne ⊢
    exact hkeeps.within (hinv.within hne)
  clean hnone hhold := by
    rw [hcall] at hnone
    rw [hpm] at hhold
    exact hkeeps.clean (hinv.clean hnone hhold)
  call target place hsome := by
    rw [hcall] at hsome
    obtain ⟨epoch, kind, hhook, htarget, hvalid, hok⟩ := hinv.call target place hsome
    rw [hpm]
    exact ⟨epoch, kind, hhook, htarget, hvalid, hkeeps.placeOk hok⟩

end

theorem Inv.request (hinv : Inv s) (env : PmEnv) (hop : op ≠ .process) :
    Inv { s with pm := s.pm.step (env, op) } := by
  refine ⟨hinv.flow.step (env, op), fun hne => ?_, fun hnone hhold => ?_, fun target place hsome => ?_⟩
  · by_cases hrun : s.pm.host.data.state = .running
    · exact (hinv.clean_of_running hrun).within _
    · exact hinv.within_step (env, op) (hinv.within hrun) hrun hne
  · exact hinv.clean hnone fun hold => hhold (hold.request hinv.flow env hop)
  · obtain ⟨epoch, kind, hhook, htarget, hvalid, hok⟩ := hinv.call target place hsome
    have hne := hinv.not_running hhook
    refine ⟨epoch, kind, (hookCall_request hinv.flow hne env hop).trans hhook, ?_, hvalid, hok⟩
    rw [htarget]
    refine (pmTarget_congr (hinv.flow.scope (env, op) hne ?_)).symm
    exact hinv.flow.active_request hne env hop

/-- A step of the hook keeps to the devices of the transaction. -/
theorem Inv.hookStep (hinv : Inv s) (hhook : hookCall s.pm = some (epoch, kind)) (env : Env) :
    StepOk kind (pmTarget s.pm.host.data) epoch
        ((s.hookStep env epoch kind).1, (s.hookStep env epoch kind).2.2) ∧
      ∀ place, (s.hookStep env epoch kind).2.2 = .inl place →
        (s.hookStep env epoch kind).2.1 = pmTarget s.pm.host.data ∧
          (s.hookStep env epoch kind).2.1.Valid := by
  have hw := hinv.within (hinv.not_running hhook)
  unfold Retention.hookStep
  cases hcall : s.call with
  | none =>
    -- where the hook is prepared, nothing has been suspended yet
    have hclean : kind = .suspend → s.proxies.Clean := by
      rintro rfl
      obtain ⟨count, idx, hframe, hidx, hop⟩ := hookCall_suspend hhook
      exact hinv.clean hcall (hinv.flow.not_mayHold_of_prepare hframe hidx hop)
    dsimp only
    unfold hookEntry
    cases htarget : hookTarget epoch s.pm.host.data with
    | error status =>
      refine ⟨⟨hw, nofun, fun _ _ hk _ => hclean hk, fun _ h _ hzero => ?_⟩,
        nofun⟩
      exact absurd ((Sum.inr.inj h).trans hzero) (hookTarget_error htarget)
    | ok target =>
      obtain ⟨heq, hvalid⟩ := hookTarget_ok htarget
      refine ⟨?_, fun _ _ => ⟨heq, hvalid⟩⟩
      rw [← heq] at hw ⊢
      cases kind with
      | suspend => exact ProxyPm.suspendEntry_ok (hclean rfl)
      | resume => exact ProxyPm.resumeEntry_ok hw
  | some c =>
    obtain ⟨target, place⟩ := c
    obtain ⟨epoch', kind', hhook', heq, hvalid, hok⟩ := hinv.call target place hcall
    obtain ⟨rfl, rfl⟩ : epoch = epoch' ∧ kind = kind' := by
      rw [hhook] at hhook'
      cases hhook'
      exact ⟨rfl, rfl⟩
    rw [← heq]
    refine ⟨?_, fun _ _ => ⟨rfl, hvalid⟩⟩
    exact ProxyPm.step_ok hok hvalid env.table.mem fun vm => decide (env.pm.vmState vm = .running)

theorem Inv.process (hinv : Inv s) (env : Env) : Inv (s.process env) := by
  unfold Retention.process
  cases hhook : hookCall s.pm with
  | none =>
    have hnone := hinv.call_eq_none hhook
    have hflow : (processOp env.pm s.pm).HookFlow := hinv.flow.step (env.pm, .process)
    refine ⟨hflow, fun hne => ?_, fun _ hhold => ?_, fun target place hsome => ?_⟩
    · have hne' := hinv.flow.active_process env.pm hne
      exact hinv.within_step (env.pm, .process) (hinv.within hne') hne' hne
    · refine hinv.clean hnone fun hold => hhold ?_
      exact hold.process hinv.flow virtioHook_reverse (outsideHook_of_hookCall hhook) env.pm
    · exact absurd (hnone.symm.trans hsome) (by simp)
  | some c =>
    obtain ⟨epoch, kind⟩ := c
    obtain ⟨hok, hgoto⟩ := hinv.hookStep hhook env
    dsimp only
    generalize s.hookStep env epoch kind = out at hok hgoto
    obtain ⟨p, target, place | status⟩ := out
    · obtain ⟨heq, hvalid⟩ := hgoto place rfl
      refine ⟨hinv.flow, fun _ => hok.within, nofun, fun target' place' h => ?_⟩
      cases h
      rw [← heq] at hok
      exact ⟨epoch, kind, hhook, heq, hvalid, hok.next place rfl⟩
    · dsimp only
      generalize hstatus : ({ env.pm with status := status } : PmEnv) = pmEnv
      have hflow : (processOp pmEnv s.pm).HookFlow := hinv.flow.step (pmEnv, .process)
      refine ⟨hflow, fun hne => ?_, fun _ hhold => ?_, nofun⟩
      · exact hinv.within_step (pmEnv, .process) hok.within (hinv.not_running hhook) hne
      · subst hstatus
        cases kind with
        | suspend =>
          refine hok.failed status rfl rfl fun hzero => hhold ?_
          exact mayHold_of_suspended hhook _ hzero
        | resume =>
          refine hok.undone status rfl rfl (not_not.mp fun hne => hhold ?_)
          exact mayHold_of_not_resumed hhook _ hne

theorem Inv.finishNotify (hinv : Inv s) (env : Env) (cpu : Nat) : Inv (s.finishNotify env cpu) := by
  unfold Retention.finishNotify
  split
  · exact hinv
  next n _ =>
  dsimp only
  split
  · split
    · exact hinv.keeps rfl rfl (.refl _)
    next r hr =>
    refine hinv.keeps rfl rfl ?_
    dsimp only
    split
    · exact Keeps.setDev hr (.inr ⟨rfl, rfl⟩)
    · exact Keeps.of_samePm hr (ProxyRun.notifyQueue_quiet _ n.queueId r).same.pm
  · exact hinv.keeps rfl rfl (.refl _)

/-- **A step keeps the proxies' suspension to the transaction.** -/
theorem Inv.step (hinv : Inv s) (call : Env × Op) : Inv (s.step call) := by
  obtain ⟨env, op⟩ := call
  have hstep := step_cases s env op
  generalize s.step (env, op) = s' at hstep ⊢
  cases hstep with
  | process => exact hinv.process env
  | request hop => exact hinv.request env.pm hop
  | table hnotify => exact hinv.keeps rfl rfl (.table (env.table, _) hnotify)
  | other | begins => exact hinv.keeps rfl rfl (.refl _)
  | finish cpu => exact hinv.finishNotify env cpu
  | _ => exact hinv

theorem Inv.boot (tickrate : Nat) (vcpus : Nat → VcpuCount)
    (cfgs : Nat → Nat → Option (ProxyConfig × List Byte))
    (others : Nat → Option (Nat × Nat × Nat)) : Inv (boot tickrate vcpus cfgs others) where
  flow := .boot tickrate vcpus
  within hne := absurd rfl hne
  clean _ _ := by
    refine ⟨rfl, fun _ => rfl, fun d _ r hr => ?_⟩
    obtain ⟨cfg, -, rfl⟩ := Option.map_eq_some_iff.mp hr
    rfl
  call _ _ h := by cases h

/--
**Only a transaction suspends the proxies.**  Whatever the pCPUs do, in `PM_RUNNING` no proxy is
marked and no flag is up, and otherwise nothing is suspended but what the transaction is about.
-/
theorem proxies_suspended_by_transaction (tickrate : Nat) (vcpus : Nat → VcpuCount)
    (cfgs : Nat → Nat → Option (ProxyConfig × List Byte))
    (others : Nat → Option (Nat × Nat × Nat)) (calls : List (Env × Op)) :
    let s := Run.exec step (boot tickrate vcpus cfgs others) calls
    (s.pm.host.data.state = .running → s.proxies.Clean) ∧
      (s.pm.host.data.state ≠ .running → Within (pmTarget s.pm.host.data) s.proxies) := by
  have hinv := Run.inv_always Inv (fun _ call h => h.step call) calls
    (.boot tickrate vcpus cfgs others)
  exact ⟨hinv.clean_of_running, hinv.within⟩

end Retention

end BeauOs.Virtio

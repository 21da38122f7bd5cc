/-
Deferred notifications are passed on, as long as they are deferred where the resume looks for them.

While the I/O of a VM is gated or a device is marked, a `QueueNotify` is put on record in the mask of
the device.  The resume of the proxies takes the marks off and replays the masks, so a transaction
that comes back to `PM_RUNNING` leaves no mask behind if every mask it finds on its way back is that
of a marked proxy.  This is what the runs of `deferred_notifications_passed` are asked for: at the
first reverse callback, and wherever a notification is deferred after it.

Nothing else looks at the masks.  A vsock or console device has no hook, a hook that was not prepared
is not undone, and the gate opens only when the frontends run again, behind the resume
(`deferred_notification_lost`).
-/
import BeauOs.Proofs.Virtio.Suspension

namespace BeauOs.Virtio

open BeauOs.Pm Retention

/-- What is there stays as it is. -/
theorem rel_self {α : Type} {R : α → α → Prop} (hrefl : ∀ a, R a a) (o : Option α) :
    Option.Rel R o o := by
  cases o with
  | none => exact .none
  | some a => exact .some (hrefl a)

theorem MmioDev.SamePm.callback (dev : MmioDev) (queues : Nat → MmioQueue)
    (interruptStatus : BitVec 32) : SamePm dev (dev.callback queues interruptStatus) := by
  have hirq := SamePm.updateIrq
    { dev with
      queues := queues
      interruptStatus := interruptStatus }
  exact ⟨hirq.suspended, hirq.epoch, hirq.deferred, hirq.queueNum⟩

/-! ### What a call of the hook does to a device -/

namespace ProxyPm

/-- The device whose mask is being replayed. -/
def Place.replays : Place → Option (Nat × Nat)
  | .replay d _ _ _ _ | .notify d _ _ _ _ => some d
  | _ => none

/-- What a step of a call may do to the mark and the mask of a device. -/
inductive Touch (place : Place) (out : Place ⊕ Int) (d : Nat × Nat) (m m' : MmioDev) : Prop
  | same (hpm : MmioDev.SamePm m m') (hplace : place.replays ≠ some d)
  | mark (left : List (Nat × Nat)) (hplace : place = .mark (d :: left))
      (hmask : m'.deferredQueueMask = m.deferredQueueMask) (hnum : m'.queueNum = m.queueNum)
  | unmark (left : List (Nat × Nat)) (firstError : Int) (after : Option Int)
      (hplace : place = .resume (d :: left) firstError after)
      (hout : out = .inl (.replay d 0 left firstError after))
      (hmask : m'.deferredQueueMask = m.deferredQueueMask) (hnum : m'.queueNum = m.queueNum)
  /-- the notification of a queue is taken from the mask -/
  | clear (queueId : Nat) (left : List (Nat × Nat)) (firstError : Int) (after : Option Int)
      (hplace : place = .replay d queueId left firstError after)
      (hout : out = .inl (.notify d queueId left firstError after))
      (hqueue : queueId < m.queueNum)
      (hmask : m'.deferredQueueMask = bitmapClear queueId m.deferredQueueMask)
      (hmark : m'.pmSuspended = m.pmSuspended) (hnum : m'.queueNum = m.queueNum)
  /-- the queue has none -/
  | skip (queueId : Nat) (left : List (Nat × Nat)) (firstError : Int) (after : Option Int)
      (hplace : place = .replay d queueId left firstError after)
      (hout : out = .inl (.replay d (queueId + 1) left firstError after))
      (hbit : bitmapTest queueId m.deferredQueueMask = false) (hpm : MmioDev.SamePm m m')
  /-- the last queue is done -/
  | finish (queueId : Nat) (left : List (Nat × Nat)) (firstError : Int) (after : Option Int)
      (hplace : place = .replay d queueId left firstError after)
      (hqueue : m.queueNum ≤ queueId) (hpm : MmioDev.SamePm m m')
  /-- the notification is passed on -/
  | pass (queueId : Nat) (left : List (Nat × Nat)) (firstError : Int) (after : Option Int)
      (hplace : place = .notify d queueId left firstError after)
      (hout : out = .inl (.replay d (queueId + 1) left firstError after))
      (hpm : MmioDev.SamePm m m')

variable {p p' : ProxyPm} {target : PmTarget} {epoch : Nat} {place : Place} {out : Place ⊕ Int}

/-- Each device is touched as `R` says. -/
def Devices (R : Nat × Nat → MmioDev → MmioDev → Prop) (p p' : ProxyPm) : Prop :=
  ∀ d : Nat × Nat, Option.Rel (fun r r' : ProxyRun => R d r.dev.mmio r'.dev.mmio)
    (p.table.dev d.1 d.2) (p'.table.dev d.1 d.2)

variable {R : Nat × Nat → MmioDev → MmioDev → Prop}

theorem Devices.of_eq (htable : p'.table = p.table)
    (hsame : ∀ d r, p.table.dev d.1 d.2 = some r → R d r.dev.mmio r.dev.mmio) : Devices R p p' := by
  intro d
  rw [htable]
  cases hr : p.table.dev d.1 d.2 with
  | none => exact .none
  | some r => exact .some (hsame d r hr)

theorem Devices.mono {R' : Nat × Nat → MmioDev → MmioDev → Prop} (h : Devices R p p')
    (himp : ∀ d m m', R d m m' → R' d m m') : Devices R' p p' := by
  intro d
  have hd := h d
  generalize p.table.dev d.1 d.2 = before at hd ⊢
  generalize p'.table.dev d.1 d.2 = after at hd ⊢
  cases hd with
  | none => exact .none
  | some hR => exact .some (himp d _ _ hR)

theorem Devices.setDev {d : Nat × Nat} {r r' : ProxyRun} (hr : p.table.dev d.1 d.2 = some r)
    (hself : R d r.dev.mmio r'.dev.mmio) (hsame : ∀ d', d' ≠ d → ∀ m, R d' m m) :
    Devices R p (p.setDev d r') := by
  intro d'
  rw [setDev_dev]
  by_cases heq : d' = d
  · rw [if_pos heq, heq, hr]
    exact .some hself
  · rw [if_neg heq]
    exact rel_self (fun r => hsame d' heq r.dev.mmio) _

theorem pmSuspend_mask (dev : MmioDev) (epoch : Nat) :
    (dev.pmSuspend epoch).2.deferredQueueMask = dev.deferredQueueMask ∧
      (dev.pmSuspend epoch).2.queueNum = dev.queueNum := by
  unfold MmioDev.pmSuspend
  split
  · exact ⟨rfl, rfl⟩
  split
  · exact ⟨rfl, rfl⟩
  · exact ⟨rfl, rfl⟩

/-- A device that cannot be resumed stays as it is, and a resume leaves the mask to its loop. -/
theorem pmResume_mask (dev : MmioDev) (epoch : Nat) :
    ((dev.pmResume epoch).1 ≠ 0 → (dev.pmResume epoch).2 = dev) ∧
      (dev.pmResume epoch).2.deferredQueueMask = dev.deferredQueueMask ∧
      (dev.pmResume epoch).2.queueNum = dev.queueNum := by
  unfold MmioDev.pmResume
  split
  · exact ⟨fun _ => rfl, rfl, rfl⟩
  split
  · exact ⟨fun _ => rfl, rfl, rfl⟩
  split
  · exact ⟨fun h => absurd rfl h, rfl, rfl⟩
  · exact ⟨fun h => absurd rfl h, rfl, rfl⟩

/-- The mask stays, or the notification that is passed on next is taken from it. -/
theorem Touch.mask {d : Nat × Nat} {m m' : MmioDev} (h : Touch place out d m m') :
    m'.queueNum = m.queueNum ∧ (m'.deferredQueueMask = m.deferredQueueMask ∨
      ∃ queueId left firstError after, out = .inl (.notify d queueId left firstError after) ∧
        queueId < m.queueNum ∧ m'.deferredQueueMask = bitmapClear queueId m.deferredQueueMask) := by
  cases h with
  | same hpm => exact ⟨hpm.queueNum, .inl hpm.deferred⟩
  | mark _ _ hmask hnum | unmark _ _ _ _ _ hmask hnum => exact ⟨hnum, .inl hmask⟩
  | clear queueId left firstError after _ hout hqueue hmask _ hnum =>
    exact ⟨hnum, .inr ⟨queueId, left, firstError, after, hout, hqueue, hmask⟩⟩
  | skip _ _ _ _ _ _ _ hpm | finish _ _ _ _ _ _ hpm | pass _ _ _ _ _ _ hpm =>
    exact ⟨hpm.queueNum, .inl hpm.deferred⟩

/-- The device is not the one that the call is about. -/
theorem Touch.away {d d' : Nat × Nat} (h : place.replays = some d) (hne : d' ≠ d) (m : MmioDev) :
    Touch place out d' m m := .same (.refl m) fun h' => hne (Option.some.inj (h'.symm.trans h))

theorem Touch.idle (h : place.replays = none) (d : Nat × Nat) (m : MmioDev) :
    Touch place out d m m := .same (.refl m) fun h' => nomatch h'.symm.trans h

/-- **A call touches one device in a step.** -/
theorem step_touch (mem : Nat → GuestView) (vmRunning : Nat → Bool) :
    Devices (Touch place (p.step mem vmRunning target epoch place).2) p
      (p.step mem vmRunning target epoch place).1 := by
  cases place with
  | dependents left | drain _ left => cases left <;> exact .of_eq rfl fun d r _ => .idle rfl d _
  | recount left =>
    cases left with
    | nil =>
      simp only [step, drained]
      split
      · exact .of_eq rfl fun d r _ => .idle rfl d _
      · cases target <;> exact .of_eq rfl fun d r _ => .idle rfl d _
    | cons d left => exact .of_eq rfl fun d r _ => .idle rfl d _
  | mark left =>
    cases left with
    | nil => exact .of_eq rfl fun d r _ => .idle rfl d _
    | cons d left =>
      simp only [step, markDev]
      split
      · exact .of_eq rfl fun d r _ => .idle rfl d _
      next r hr =>
      obtain ⟨hmask, hnum⟩ := pmSuspend_mask r.dev.mmio epoch
      exact .setDev hr (.mark left rfl hmask hnum) fun d' _ => .idle rfl d'
  | resume left firstError after =>
    cases left with
    | nil =>
      simp only [step]
      split
      · exact .of_eq (clearSuspended_marks p target).1 fun d r _ => .idle rfl d _
      · exact .of_eq rfl fun d r _ => .idle rfl d _
    | cons d left =>
      simp only [step, resumeDev]
      split
      · exact .of_eq rfl fun d r _ => .idle rfl d _
      next r hr =>
      refine .setDev hr ?_ fun d' _ => .idle rfl d'
      obtain ⟨hfailed, hmask, hnum⟩ := pmResume_mask r.dev.mmio epoch
      by_cases hstatus : (r.dev.mmio.pmResume epoch).1 = 0
      · exact .unmark left firstError after rfl (if_neg (not_not.mpr hstatus)) hmask hnum
      · dsimp only
        rw [hfailed hstatus]
        exact .idle rfl d _
  | replay d queueId left firstError after =>
    simp only [step, replayDev]
    split
    · next hnone =>
      refine .of_eq rfl fun d' r hr => .away rfl (fun heq => ?_) _
      rw [heq, hnone] at hr
      cases hr
    next r hr =>
    split
    · next hqueue =>
      by_cases hbit : bitmapTest queueId r.dev.mmio.deferredQueueMask = true
      · rw [show r.dev.mmio.pmReplay queueId = _ from if_pos hbit]
        exact .setDev hr (.clear queueId left firstError after rfl rfl hqueue rfl rfl rfl)
          fun d' hne => .away rfl hne
      rw [show r.dev.mmio.pmReplay queueId = _ from if_neg hbit]
      refine .of_eq rfl fun d' r' hr' => ?_
      by_cases heq : d' = d
      · rw [heq, hr] at hr'
        cases hr'
        rw [heq]
        exact .skip queueId left firstError after rfl rfl (Bool.eq_false_iff.mpr hbit) (.refl _)
      · exact .away rfl heq _
    · next hqueue =>
      refine .of_eq rfl fun d' r' hr' => ?_
      by_cases heq : d' = d
      · rw [heq, hr] at hr'
        cases hr'
        rw [heq]
        exact .finish queueId left firstError after rfl (Nat.le_of_not_lt hqueue) (.refl _)
      · exact .away rfl heq _
  | notify d queueId left firstError after =>
    simp only [step, notifyDev]
    split
    · next hnone =>
      refine .of_eq rfl fun d' r hr => .away rfl (fun heq => ?_) _
      rw [heq, hnone] at hr
      cases hr
    · next r hr =>
      refine .setDev hr ?_ fun d' hne => .away rfl hne
      exact .pass queueId left firstError after rfl rfl
        (ProxyRun.notifyQueue_quiet _ queueId r).same.pm

end ProxyPm

/-! ### What a step does to a device -/

namespace Retention

open ProxyPm (Devices Place)

/-- The boot pCPU does not take a step of the hook, or the device is none of the proxies. -/
def OutsideCall (s : Retention) (call : Env × Op) (dev : DevId) : Prop :=
  call.2 = .pm .process → s.call = none ∨ ∃ i, dev = .other i

/-- What a step may do to the mark and the mask of a device. -/
inductive Touch (s : Retention) (call : Env × Op) (dev : DevId) (m m' : MmioDev) : Prop
  | same (hpm : MmioDev.SamePm m m') (hout : s.OutsideCall call dev)
  | reset (hmask : m'.deferredQueueMask = 0#64) (hmark : m'.pmSuspended = m.pmSuspended)
      (hnum : m'.queueNum = m.queueNum) (hnote : (dev, .reset) ∈ RetentionRun.notesOf s call.2)
  | deferred (cpu : Nat) (n : Notification) (hop : call.2 = .finishNotify cpu)
      (hhandler : s.handler cpu = some n) (hdev : n.dev = dev) (hdefer : n.defer = true)
      (hm : m' = m.deferNotify n.queueId)
  | hook (target : PmTarget) (place : Place) (epoch : Nat) (kind : HookCall) (d : Nat × Nat)
      (hop : call.2 = .pm .process) (hhook : hookCall s.pm = some (epoch, kind))
      (hcall : s.call = some (target, place)) (hdev : dev = .proxy d.1 d.2)
      (htouch : ProxyPm.Touch place (s.proxies.step call.1.table.mem
        (fun vm => decide (call.1.pm.vmState vm = .running)) target epoch place).2 d m m')

variable {s : Retention} {call : Env × Op}

theorem Touch.refl {dev : DevId} (h : s.OutsideCall call dev) (m : MmioDev) :
    Touch s call dev m m := .same (.refl m) h

theorem OutsideCall.of_ne (h : call.2 ≠ .pm .process) (dev : DevId) : s.OutsideCall call dev :=
  fun hop => absurd hop h

theorem OutsideCall.other (i : Nat) : s.OutsideCall call (.other i) := fun _ => .inr ⟨i, rfl⟩

theorem OutsideCall.of_call (h : s.call = none) (dev : DevId) : s.OutsideCall call dev :=
  fun _ => .inl h

theorem mmio_proxy (s : Retention) (vm index : Nat) :
    s.mmio (.proxy vm index) = (s.proxies.table.dev vm index).map fun r => r.dev.mmio := rfl

theorem mmio_other (s : Retention) (i : Nat) : s.mmio (.other i) = s.others i := rfl

/-- The proxies that are there are those that the platform can have. -/
def Present (s : Retention) : Prop :=
  ∀ d : Nat × Nat, s.proxies.table.dev d.1 d.2 ≠ none → d ∈ PmTarget.system.ids

theorem touch_of_proxies {s' : Retention} (hothers : s'.others = s.others)
    (hproxies : Devices (fun d => Touch s call (.proxy d.1 d.2)) s.proxies s'.proxies) (dev : DevId) :
    Option.Rel (Touch s call dev) (s.mmio dev) (s'.mmio dev) := by
  cases dev with
  | proxy vm index =>
    have hdev := hproxies (vm, index)
    rw [mmio_proxy, mmio_proxy]
    dsimp only at hdev
    generalize s.proxies.table.dev vm index = before at hdev
    generalize s'.proxies.table.dev vm index = after at hdev
    cases hdev with
    | none => exact .none
    | some htouch => exact .some htouch
  | other i =>
    rw [mmio_other, mmio_other, hothers]
    exact rel_self (Touch.refl (.other i)) _

/-- A step that touches one vsock or console device. -/
theorem touch_of_other {s' : Retention} (i : Nat) (f : MmioDev → MmioDev)
    (hproxies : s'.proxies = s.proxies)
    (hothers : s'.others = Function.update s.others i ((s.others i).map f))
    (htouch : ∀ m, Touch s call (.other i) m (f m)) (hop : call.2 ≠ .pm .process) (dev : DevId) :
    Option.Rel (Touch s call dev) (s.mmio dev) (s'.mmio dev) := by
  cases dev with
  | proxy =>
    rw [mmio_proxy, mmio_proxy, hproxies]
    exact rel_self (Touch.refl (.of_ne hop _)) _
  | other j =>
    rw [mmio_other, mmio_other, hothers]
    by_cases hj : j = i
    · rw [hj, Function.update_self]
      cases s.others i with
      | none => exact .none
      | some m => exact .some (htouch m)
    · rw [Function.update_of_ne hj]
      exact rel_self (Touch.refl (.other j)) _

/-- The boot pCPU leaves alone what belongs to the other pCPUs. -/
theorem process_rest (s : Retention) (env : Env) :
    (s.process env).others = s.others ∧ (s.process env).handler = s.handler := by
  unfold process
  cases hookCall s.pm with
  | none => exact ⟨rfl, rfl⟩
  | some c =>
    dsimp only
    generalize s.hookStep env c.1 c.2 = out
    obtain ⟨p, target, place | status⟩ := out
    · exact ⟨rfl, rfl⟩
    · exact ⟨rfl, rfl⟩

theorem process_touch (hinv : s.Inv) (env : Env) (dev : DevId) :
    Option.Rel (Touch s (env, .pm .process) dev) (s.mmio dev) ((s.process env).mmio dev) := by
  refine touch_of_proxies (process_rest s env).1 ?_ dev
  cases hhook : hookCall s.pm with
  | none =>
    refine .of_eq ?_ fun d r _ => .refl (.of_call (hinv.call_eq_none hhook) _) _
    unfold process
    rw [hhook]
  | some c =>
    obtain ⟨epoch, kind⟩ := c
    rw [process_proxies hhook env]
    unfold hookStep
    cases hcall : s.call with
    | none => exact .of_eq rfl fun d r _ => .refl (.of_call hcall _) _
    | some c =>
      obtain ⟨target, place⟩ := c
      refine (ProxyPm.step_touch env.table.mem _).mono fun d m m' htouch => ?_
      exact .hook target place epoch kind d rfl hhook hcall rfl htouch

theorem finishNotify_touch (s : Retention) (env : Env) (cpu : Nat) (dev : DevId) :
    Option.Rel (Touch s (env, .finishNotify cpu) dev) (s.mmio dev)
      ((s.finishNotify env cpu).mmio dev) := by
  have hout : ∀ dev, s.OutsideCall (env, .finishNotify cpu) dev := .of_ne nofun
  unfold finishNotify
  cases hhandler : s.handler cpu with
  | none => exact rel_self (Touch.refl (hout dev)) _
  | some n =>
    obtain ⟨ndev, queueId, defer⟩ := n
    cases ndev with
    | proxy vm index =>
      dsimp only
      cases hr : s.proxies.table.dev vm index with
      | none => exact rel_self (Touch.refl (hout dev)) _
      | some r =>
        refine touch_of_proxies ?_ ?_ dev
        · rfl
        cases defer with
        | true =>
          refine .setDev (d := (vm, index)) hr ?_ fun d _ => .refl (hout _)
          exact .deferred cpu _ rfl hhandler rfl rfl rfl
        | false =>
          refine .setDev (d := (vm, index)) hr ?_ fun d _ => .refl (hout _)
          exact .same (ProxyRun.notifyQueue_quiet _ queueId r).same.pm (hout _)
    | other i =>
      refine touch_of_other i (fun mmio => if defer then mmio.deferNotify queueId
        else mmio.callback env.queues env.interruptStatus) ?_ ?_ (fun m => ?_)
        (fun h => by cases h) dev
      · rfl
      · rfl
      cases defer with
      | true => exact .deferred cpu _ rfl hhandler rfl rfl rfl
      | false => exact .same (.callback m env.queues env.interruptStatus) (.other i)

variable {m m' : MmioDev} {d : Nat × Nat} {mask : BitVec 64} {epoch : Nat} {target : PmTarget}
    {place : Place}

theorem reset_note {iocRead : Bool} {op : ProxyTable.TableOp} {deviceOp : ProxyRun.Op}
    (hreset : deviceOp.Resets) (h : s.proxies.table.deviceOp iocRead op d.1 d.2 = some deviceOp)
    (hd : d ∈ PmTarget.system.ids) :
    (.proxy d.1 d.2, .reset) ∈ RetentionRun.notesOf s (.table op) := by
  obtain rfl : deviceOp = .writeReg .status 0#32 := hreset
  rcases ProxyTable.deviceOp_writeReg h with rfl | ⟨rfl, -, -⟩
  · exact List.mem_singleton_self _
  · exact List.mem_map.mpr ⟨d.2, List.mem_range.mpr (PmTarget.mem_ids_system.mp hd).2, rfl⟩

theorem table_touch (s : Retention) (env : Env) {op : ProxyTable.TableOp}
    (hnotify : writesNotify op = false) (hpresent : s.Present) (dev : DevId) :
    Option.Rel (Touch s (env, .table op) dev) (s.mmio dev)
      (mmio { s with proxies := { s.proxies with table := s.proxies.table.step (env.table, op) } }
        dev) := by
  refine touch_of_proxies ?_ (fun d => ?_) dev
  · rfl
  show Option.Rel _ (s.proxies.table.dev d.1 d.2) ((s.proxies.table.step (env.table, op)).dev d.1 d.2)
  rw [ProxyTable.step_dev]
  cases hr : s.proxies.table.dev d.1 d.2 with
  | none => exact .none
  | some r =>
    have hout : s.OutsideCall (env, .table op) (.proxy d.1 d.2) := .of_ne (fun h => by cases h) _
    refine .some ?_
    unfold ProxyTable.deviceStep
    split
    · exact .refl hout _
    next deviceOp hdevice =>
    by_cases hreset : deviceOp.Resets
    · have hmmio : (r.step (ProxyTable.deviceEnv env.table op d.1, deviceOp)).dev.mmio =
          r.dev.mmio.resetState := ProxyRun.step_reset hreset
      refine .reset ?_ ?_ ?_ ?_
      · rw [hmmio]
        rfl
      · rw [hmmio]
        rfl
      · rw [hmmio]
        rfl
      · exact reset_note hreset hdevice (hpresent d (by rw [hr]; simp))
    · exact .same (ProxyRun.step_samePm (ProxyTable.deviceOp_ne_notify hnotify hdevice) hreset) hout

theorem otherWrite_touch (s : Retention) (env : Env) (i : Nat) {reg : MmioDev.Reg}
    (value : BitVec 32) (hreg : reg ≠ .queueNotify) (dev : DevId) :
    Option.Rel (Touch s (env, .otherWrite i reg value) dev) (s.mmio dev)
      ((s.otherWrite i reg value).mmio dev) := by
  refine touch_of_other i (fun mmio => (mmio.writeReg false reg value).1) ?_ ?_ (fun m => ?_)
    (fun h => by cases h) dev
  · rfl
  · rfl
  by_cases hreset : reg = .status ∧ value = 0#32
  · obtain ⟨rfl, rfl⟩ := hreset
    exact .reset rfl rfl rfl (List.mem_singleton_self _)
  · exact .same (MmioDev.writeReg_quiet m false hreg hreset).1 (.other i)

theorem step_touch (hinv : s.Inv) (hpresent : s.Present) (call : Env × Op) (dev : DevId) :
    Option.Rel (Touch s call dev) (s.mmio dev) ((s.step call).mmio dev) := by
  obtain ⟨env, op⟩ := call
  have hstep := step_cases s env op
  generalize s.step (env, op) = s' at hstep ⊢
  cases hstep with
  | process => exact process_touch hinv env dev
  | request hop => exact rel_self (Touch.refl (.of_ne (fun h => hop (Op.pm.inj h)) dev)) _
  | table hnotify => exact table_touch s env hnotify hpresent dev
  | other i value hreg => exact otherWrite_touch s env i value hreg dev
  | finish cpu => exact finishNotify_touch s env cpu dev
  | _ => exact rel_self (Touch.refl (.of_ne (fun h => by cases h) dev)) _

theorem mmio_before (hinv : s.Inv) (hpresent : s.Present) {dev : DevId}
    (h : (s.step call).mmio dev = some m') : ∃ m, s.mmio dev = some m ∧ Touch s call dev m m' := by
  have hrel := step_touch hinv hpresent call dev
  rw [h] at hrel
  generalize s.mmio dev = before at hrel
  cases hrel with
  | some htouch => exact ⟨_, rfl, htouch⟩

theorem mmio_after (hinv : s.Inv) (hpresent : s.Present) {dev : DevId} (h : s.mmio dev = some m)
    (call : Env × Op) : ∃ m', (s.step call).mmio dev = some m' ∧ Touch s call dev m m' := by
  have hrel := step_touch hinv hpresent call dev
  rw [h] at hrel
  generalize (s.step call).mmio dev = after at hrel
  cases hrel with
  | some htouch => exact ⟨_, rfl, htouch⟩

theorem Present.step (h : s.Present) (hinv : s.Inv) (call : Env × Op) : (s.step call).Present := by
  intro d hd
  have hrel := step_touch hinv h call (.proxy d.1 d.2)
  rw [mmio_proxy, mmio_proxy] at hrel
  refine h d fun hnone => hd ?_
  rw [hnone] at hrel
  cases hafter : (s.step call).proxies.table.dev d.1 d.2 with
  | none => rfl
  | some r =>
    rw [hafter] at hrel
    cases hrel

/-! ### Queues -/

theorem Touch.queueNum {dev : DevId} (h : Touch s call dev m m') : m'.queueNum = m.queueNum := by
  cases h with
  | same hpm => exact hpm.queueNum
  | reset _ _ hnum => exact hnum
  | deferred _ _ _ _ _ _ hm =>
    rw [hm]
    rfl
  | hook _ _ _ _ _ _ _ _ _ htouch => exact htouch.mask.1

/-- A handler is at a queue of its device. -/
def HandlersOk (s : Retention) : Prop :=
  ∀ cpu n, s.handler cpu = some n → ∃ m, s.mmio n.dev = some m ∧ n.queueId < m.queueNum

theorem step_handler {cpu : Nat} {n : Notification} (h : (s.step call).handler cpu = some n) :
    s.handler cpu = some n ∨ ∃ m, s.mmio n.dev = some m ∧ n.queueId < m.queueNum := by
  obtain ⟨env, op⟩ := call
  have hstep := step_cases s env op
  generalize s.step (env, op) = s' at hstep h
  cases hstep with
  | process =>
    rw [(process_rest s env).2] at h
    exact .inl h
  | begins cpu' _ hdev hqueue =>
    dsimp only at h
    by_cases hcpu : cpu = cpu'
    · rw [hcpu, Function.update_self] at h
      cases h
      exact .inr ⟨_, hdev, hqueue⟩
    · rw [Function.update_of_ne hcpu] at h
      exact .inl h
  | finish cpu' =>
    refine .inl ?_
    have hsame : ∀ n', Function.update s.handler cpu' none cpu = some n' → s.handler cpu = some n' := by
      intro n' hn'
      by_cases hcpu : cpu = cpu'
      · rw [hcpu, Function.update_self] at hn'
        cases hn'
      · rwa [Function.update_of_ne hcpu] at hn'
    unfold finishNotify at h
    split at h
    · exact h
    dsimp only at h
    split at h
    · split at h
      · exact hsame n h
      · exact hsame n h
    · exact hsame n h
  | _ => exact .inl h

theorem HandlersOk.step (h : s.HandlersOk) (hinv : s.Inv) (hpresent : s.Present) (call : Env × Op) :
    (s.step call).HandlersOk := by
  intro cpu n hn
  have hbefore : ∃ m, s.mmio n.dev = some m ∧ n.queueId < m.queueNum := by
    rcases step_handler hn with hold | hnew
    · exact h cpu n hold
    · exact hnew
  obtain ⟨m, hm, hqueue⟩ := hbefore
  obtain ⟨m', hm', htouch⟩ := mmio_after hinv hpresent hm call
  exact ⟨m', hm', htouch.queueNum ▸ hqueue⟩

/-- Only queues of the device have bits in its mask. -/
def MasksOk (s : Retention) : Prop :=
  ∀ dev m, s.mmio dev = some m → m.queueNum ≤ virtioMmioMaxQueues ∧
    ∀ k < 64, bitmapTest k m.deferredQueueMask = true → k < m.queueNum

theorem MasksOk.step (h : s.MasksOk) (hinv : s.Inv) (hpresent : s.Present) (hhandlers : s.HandlersOk)
    (call : Env × Op) : (s.step call).MasksOk := by
  intro dev m' hm'
  obtain ⟨m, hm, htouch⟩ := mmio_before hinv hpresent hm'
  obtain ⟨hmax, hbits⟩ := h dev m hm
  rw [htouch.queueNum]
  refine ⟨hmax, fun k hk htest => ?_⟩
  have hfour : virtioMmioMaxQueues = 4 := rfl
  cases htouch with
  | same hpm => exact hbits k hk (hpm.deferred ▸ htest)
  | reset hmask =>
    rw [hmask, bitmapTest_zero] at htest
    cases htest
  | deferred cpu n _ hhandler hdev _ hdm =>
    obtain ⟨m₀, hm₀, hqueue⟩ := hhandlers cpu n hhandler
    rw [hdev, hm] at hm₀
    cases hm₀
    by_cases heq : k % 64 = n.queueId % 64
    · rw [Nat.mod_eq_of_lt hk, Nat.mod_eq_of_lt (by omega)] at heq
      exact heq ▸ hqueue
    · refine hbits k hk ?_
      rw [← bitmapTest_set_of_ne heq, ← htest, hdm]
      rfl
  | hook _ _ _ _ _ _ _ _ _ htouch =>
    rcases htouch.mask.2 with hmask | ⟨queueId, left, firstError, after, -, -, hmask⟩
    · exact hbits k hk (hmask ▸ htest)
    · rw [hmask] at htest
      exact hbits k hk (bitmapTest_of_clear htest)

/-! ### Masks on the way back -/

def NoneBelow (queueId : Nat) (mask : BitVec 64) : Prop :=
  ∀ k < 64, bitmapTest k mask = true → queueId ≤ k

/-- The call that the boot pCPU is in replays the mask. -/
def Replays (s : Retention) (d : Nat × Nat) (mask : BitVec 64) : Prop :=
  ∃ target queueId left firstError after,
    s.call = some (target, .replay d queueId left firstError after) ∧ NoneBelow queueId mask ∨
    s.call = some (target, .notify d queueId left firstError after) ∧ NoneBelow (queueId + 1) mask

/-- What is deferred for a device will be passed on. -/
def Kept (s : Retention) (dev : DevId) (m : MmioDev) : Prop :=
  m.deferredQueueMask = 0#64 ∨
    ∃ d : Nat × Nat, dev = .proxy d.1 d.2 ∧ (m.pmSuspended = true ∨ s.Replays d m.deferredQueueMask)

theorem mask_eq_zero (h : ∀ k < 64, bitmapTest k mask = true → False) : mask = 0#64 := by
  refine BitVec.eq_of_getLsbD_eq fun k hk => ?_
  have htest : bitmapTest k mask = mask.getLsbD k := by
    unfold bitmapTest
    rw [Nat.mod_eq_of_lt hk]
  rw [← htest, BitVec.getLsbD_zero]
  exact Bool.eq_false_iff.mpr (h k hk)

def Marked (s : Retention) : DevId → Bool
  | .proxy vm index => (s.proxies.table.dev vm index).any fun r => r.dev.mmio.pmSuspended
  | .other _ => false

theorem Kept.of_marked {dev : DevId} (hm : s.mmio dev = some m) (h : s.Marked dev = true) :
    ∃ d : Nat × Nat, dev = .proxy d.1 d.2 ∧ m.pmSuspended = true := by
  cases dev with
  | proxy vm index =>
    obtain ⟨r, hr, rfl⟩ := Option.map_eq_some_iff.mp hm
    refine ⟨(vm, index), rfl, ?_⟩
    simp only [Marked, hr, Option.any_some] at h
    exact h
  | other => cases h

/-- Behind the first reverse callback only a proxy that is marked defers notifications, and before it
no other device has a notification deferred. -/
structure DefersMarked (s : Retention) (call : Env × Op) : Prop where
  defer : ∀ cpu n, call.2 = .finishNotify cpu → s.handler cpu = some n → n.defer = true →
    s.pm.Unwinding → s.Marked n.dev = true
  start : ∀ epoch u, call.2 = .pm .process → s.pm.frame = some (epoch, .reverseStart u) →
    ∀ dev m, s.mmio dev = some m → m.deferredQueueMask ≠ 0#64 → s.Marked dev = true

theorem Kept.other {dev : DevId} (h : s.Kept dev m) (hm : s.mmio dev = some m)
    (htouch : Touch s call dev m m') (hop : call.2 ≠ .pm .process) (hun : s.pm.Unwinding)
    (hok : s.DefersMarked call) : (s.step call).Kept dev m' := by
  have hreplays : ∀ d mask, s.Replays d mask → (s.step call).Replays d mask := by
    intro d mask hrep
    unfold Replays at hrep ⊢
    rwa [(step_of_ne hop).1]
  cases htouch with
  | same hpm =>
    unfold Kept
    rw [hpm.deferred, hpm.suspended]
    refine h.imp_right ?_
    rintro ⟨d, hd, hmark⟩
    exact ⟨d, hd, hmark.imp_right (hreplays d _)⟩
  | reset hmask => exact .inl hmask
  | deferred cpu n hfinish hhandler hdev hdefer hdm =>
    obtain ⟨d, hd, hmark⟩ := Kept.of_marked hm (hdev ▸ hok.defer cpu n hfinish hhandler hdefer hun)
    refine .inr ⟨d, hd, .inl ?_⟩
    rw [hdm]
    exact hmark
  | hook _ _ _ _ _ hprocess => exact absurd hprocess hop

theorem process_goto {kind : HookCall} {env : Env} {place' : Place}
    (hhook : hookCall s.pm = some (epoch, kind)) (hcall : s.call = some (target, place))
    (hout : (s.proxies.step env.table.mem (fun vm => decide (env.pm.vmState vm = .running))
      target epoch place).2 = .inl place') :
    (s.process env).call = some (target, place') := by
  have hstep := hookStep_call hcall env epoch kind
  rw [hout] at hstep
  unfold process
  rw [hhook]
  dsimp only
  generalize s.hookStep env epoch kind = out at hstep ⊢
  obtain ⟨p, out⟩ := out
  cases hstep
  rfl

/-- The hook is undone on the way back. -/
theorem hookCall_of_unwinding {kind : HookCall} (hhook : hookCall s.pm = some (epoch, kind))
    (hun : s.pm.Unwinding) : kind = .resume := by
  cases kind with
  | resume => rfl
  | suspend =>
    obtain ⟨count, idx, hframe, -⟩ := hookCall_suspend hhook
    unfold PmMachine.Unwinding at hun
    rw [hframe] at hun
    cases hun

/-- A proxy stays kept if one that was being replayed does. -/
theorem Kept.follow {s' : Retention} (h : s.Kept (.proxy d.1 d.2) m)
    (hcall : s.call = some (target, place))
    (hzero : m.deferredQueueMask = 0#64 → m'.deferredQueueMask = 0#64)
    (hmark : m'.pmSuspended = m.pmSuspended)
    (hrep : ∀ queueId left firstError after,
      place = .replay d queueId left firstError after ∧ NoneBelow queueId m.deferredQueueMask ∨
      place = .notify d queueId left firstError after ∧
        NoneBelow (queueId + 1) m.deferredQueueMask → s'.Kept (.proxy d.1 d.2) m') :
    s'.Kept (.proxy d.1 d.2) m' := by
  rcases h with hmask | ⟨⟨vm, index⟩, hd, hmarked | ⟨target', queueId, left, firstError, after, h⟩⟩
  · exact .inl (hzero hmask)
  · exact .inr ⟨d, rfl, .inl (hmark.trans hmarked)⟩
  · obtain rfl : d = (vm, index) := by
      cases hd
      rfl
    refine hrep queueId left firstError after ?_
    rw [hcall] at h
    exact h.imp (And.imp_left fun h => congrArg Prod.snd (Option.some.inj h))
      (And.imp_left fun h => congrArg Prod.snd (Option.some.inj h))

theorem NoneBelow.succ {queueId : Nat} (h : NoneBelow queueId mask)
    (hbit : bitmapTest queueId mask = false) : NoneBelow (queueId + 1) mask := by
  intro k hk htest
  rcases Nat.lt_or_eq_of_le (h k hk htest) with hlt | rfl
  · exact hlt
  · exact absurd (hbit.symm.trans htest) (by decide)

theorem NoneBelow.clear {queueId : Nat} (h : NoneBelow queueId mask) :
    NoneBelow (queueId + 1) (bitmapClear queueId mask) :=
  NoneBelow.succ (fun k hk htest => h k hk (bitmapTest_of_clear htest)) (bitmapTest_clear queueId mask)

theorem Kept.hook (hinv : s.Inv) (hmasks : s.MasksOk) {env : Env} (h : s.Kept (.proxy d.1 d.2) m)
    (hm : s.mmio (.proxy d.1 d.2) = some m) (hhook : hookCall s.pm = some (epoch, .resume))
    (hcall : s.call = some (target, place))
    (htouch : ProxyPm.Touch place (s.proxies.step env.table.mem
      (fun vm => decide (env.pm.vmState vm = .running)) target epoch place).2 d m m') :
    (s.process env).Kept (.proxy d.1 d.2) m' := by
  cases htouch with
  | same hpm hplace =>
    refine h.follow hcall hpm.deferred.trans hpm.suspended ?_
    rintro queueId left firstError after (⟨heq, -⟩ | ⟨heq, -⟩)
    · exact absurd (congrArg Place.replays heq) hplace
    · exact absurd (congrArg Place.replays heq) hplace
  | mark _ hplace =>
    obtain ⟨epoch', kind, hhook', -, -, hok⟩ := hinv.call target place hcall
    rw [hhook] at hhook'
    cases hhook'
    rw [hplace] at hok
    cases hok.1
  | unmark left firstError after _ hout =>
    refine .inr ⟨d, rfl, .inr ⟨target, 0, left, firstError, after, .inl ⟨?_, ?_⟩⟩⟩
    · exact process_goto hhook hcall hout
    · exact fun k _ _ => Nat.zero_le k
  | clear queueId left firstError after hplace hout _ hmask hmark =>
    subst hplace
    refine h.follow hcall (fun hzero => ?_) hmark ?_
    · rw [hmask, hzero]
      exact bitmapClear_zero queueId
    rintro _ _ _ _ (⟨⟨⟩, hnone⟩ | ⟨⟨⟩, -⟩)
    refine .inr ⟨d, rfl, .inr ⟨target, queueId, left, firstError, after, .inr ⟨?_, ?_⟩⟩⟩
    · exact process_goto hhook hcall hout
    · exact hmask ▸ hnone.clear
  | skip queueId left firstError after hplace hout hbit hpm =>
    subst hplace
    refine h.follow hcall hpm.deferred.trans hpm.suspended ?_
    rintro _ _ _ _ (⟨⟨⟩, hnone⟩ | ⟨⟨⟩, -⟩)
    refine .inr ⟨d, rfl, .inr ⟨target, queueId + 1, left, firstError, after, .inl ⟨?_, ?_⟩⟩⟩
    · exact process_goto hhook hcall hout
    · exact hpm.deferred ▸ hnone.succ hbit
  | finish _ _ _ _ hplace _ hpm =>
    subst hplace
    refine h.follow hcall hpm.deferred.trans hpm.suspended ?_
    rintro _ _ _ _ (⟨⟨⟩, hnone⟩ | ⟨⟨⟩, -⟩)
    refine .inl (hpm.deferred.trans (mask_eq_zero fun k hk htest => ?_))
    have hbelow := (hmasks _ m hm).2 k hk htest
    have habove := hnone k hk htest
    omega
  | pass queueId left firstError after hplace hout hpm =>
    subst hplace
    refine h.follow hcall hpm.deferred.trans hpm.suspended ?_
    rintro _ _ _ _ (⟨⟨⟩, -⟩ | ⟨⟨⟩, hnone⟩)
    refine .inr ⟨d, rfl, .inr ⟨target, queueId + 1, left, firstError, after, .inl ⟨?_, ?_⟩⟩⟩
    · exact process_goto hhook hcall hout
    · exact hpm.deferred ▸ hnone

theorem Kept.process (hinv : s.Inv) (hmasks : s.MasksOk) {env : Env} {dev : DevId}
    (h : s.Kept dev m) (hm : s.mmio dev = some m) (htouch : Touch s (env, .pm .process) dev m m')
    (hun : s.pm.Unwinding) : (s.process env).Kept dev m' := by
  cases htouch with
  | same hpm hout =>
    unfold Kept
    rw [hpm.deferred, hpm.suspended]
    refine h.imp_right ?_
    rintro ⟨d, rfl, hmark | ⟨target, queueId, left, firstError, after, hrep⟩⟩
    · exact ⟨d, rfl, .inl hmark⟩
    · -- no mask is replayed outside the hook
      rcases hout rfl with hnone | ⟨i, hi⟩
      · rcases hrep with ⟨hcall, -⟩ | ⟨hcall, -⟩
        · exact absurd (hnone.symm.trans hcall) (by simp)
        · exact absurd (hnone.symm.trans hcall) (by simp)
      · cases hi
  | reset hmask => exact .inl hmask
  | deferred _ _ hfinish => cases hfinish
  | hook _ _ _ _ _ _ hhook hcall hdev htouch =>
    obtain rfl := hookCall_of_unwinding hhook hun
    subst hdev
    exact Kept.hook hinv hmasks h hm hhook hcall htouch

theorem boot_mmio {tickrate : Nat} {vcpus : Nat → VcpuCount}
    {cfgs : Nat → Nat → Option (ProxyConfig × List Byte)} {others : Nat → Option (Nat × Nat × Nat)}
    {dev : DevId} {m : MmioDev} (hm : (boot tickrate vcpus cfgs others).mmio dev = some m) :
    m.queueNum ≤ virtioMmioMaxQueues ∧ m.deferredQueueMask = 0#64 := by
  cases dev with
  | proxy =>
    obtain ⟨r, hr, rfl⟩ := Option.map_eq_some_iff.mp hm
    obtain ⟨cfg, hcfg, rfl⟩ := Option.map_eq_some_iff.mp hr
    unfold accepted at hcfg
    split at hcfg
    · exact ⟨of_decide_eq_true (Option.filter_eq_some_iff.mp hcfg).2, rfl⟩
    · cases hcfg
  | other =>
    obtain ⟨c, hc, rfl⟩ := Option.map_eq_some_iff.mp hm
    exact ⟨of_decide_eq_true (Option.filter_eq_some_iff.mp hc).2, rfl⟩

theorem boot_present (tickrate : Nat) (vcpus : Nat → VcpuCount)
    (cfgs : Nat → Nat → Option (ProxyConfig × List Byte))
    (others : Nat → Option (Nat × Nat × Nat)) : (boot tickrate vcpus cfgs others).Present := by
  intro d hd
  refine PmTarget.mem_ids_system.mpr (by_contra fun hout => hd ?_)
  show (accepted cfgs d.1 d.2).map _ = none
  rw [accepted, if_neg hout]
  rfl

end Retention

/-! ### Notifications on record -/

/-- A notification of the queue was deferred, and neither one that was passed nor a reset of the
device has come after it. -/
def Outstanding (notes : List (DevId × Note)) (dev : DevId) (queueId : Nat) : Prop :=
  ∃ before after, notes = before ++ (dev, .deferred queueId) :: after ∧
    (dev, .passed queueId) ∉ after ∧ (dev, .reset) ∉ after

theorem Outstanding.append {notes new : List (DevId × Note)} {dev : DevId} {queueId : Nat}
    (h : Outstanding (notes ++ new) dev queueId) :
    Outstanding notes dev queueId ∧ (dev, .passed queueId) ∉ new ∧ (dev, .reset) ∉ new ∨
      (dev, .deferred queueId) ∈ new := by
  obtain ⟨before, after, heq, hpassed, hreset⟩ := h
  rcases List.append_eq_append_iff.mp heq with ⟨rest, -, hnew⟩ | ⟨rest, hnotes, hafter⟩
  · rw [hnew]
    exact .inr (List.mem_append_right _ (List.mem_cons_self ..))
  cases rest with
  | nil =>
    rw [List.nil_append] at hafter
    rw [← hafter]
    exact .inr (List.mem_cons_self ..)
  | cons note rest =>
    obtain ⟨rfl, rfl⟩ := List.cons.inj hafter
    refine .inl ⟨⟨before, rest, hnotes, fun hmem => hpassed ?_, fun hmem => hreset ?_⟩,
      fun hmem => hpassed ?_, fun hmem => hreset ?_⟩
    · exact List.mem_append_left _ hmem
    · exact List.mem_append_left _ hmem
    · exact List.mem_append_right _ hmem
    · exact List.mem_append_right _ hmem

namespace RetentionRun

open Retention (Env Op)

variable {x : RetentionRun} {s : Retention}

variable {dev : DevId} {env : Env}

theorem deferred_mem_notesOf {op : Op} {queueId : Nat}
    (h : (dev, .deferred queueId) ∈ notesOf s op) :
    ∃ cpu n, op = .finishNotify cpu ∧ s.handler cpu = some n ∧ n.defer = true ∧ n.dev = dev ∧
      n.queueId = queueId := by
  unfold notesOf at h
  split at h
  · split at h
    · simp at h
    · cases h
  · cases h
  · split at h
    · simp at h
    · cases h
  · simp at h
  · cases h
  · split at h
    · simp at h
    · cases h
  · cases h
  · cases h
  · next cpu =>
    split at h
    · cases h
    · next n hn =>
      refine ⟨cpu, n, rfl, hn, ?_⟩
      cases hdefer : n.defer with
      | true =>
        rw [hdefer] at h
        have heq := List.mem_singleton.mp h
        simp only [if_true, Prod.mk.injEq, Note.deferred.injEq] at heq
        exact ⟨rfl, heq.1.symm, heq.2.symm⟩
      | false =>
        rw [hdefer] at h
        simp at h

def Passing (s : Retention) (dev : DevId) (queueId : Nat) : Prop :=
  ∃ target d left firstError after,
    s.call = some (target, .notify d queueId left firstError after) ∧ dev = .proxy d.1 d.2

theorem passing_note {queueId : Nat} (hinv : s.Inv) (h : Passing s dev queueId) :
    (dev, .passed queueId) ∈ notesOf s (.pm .process) := by
  obtain ⟨target, d, left, firstError, after, hcall, rfl⟩ := h
  obtain ⟨epoch, kind, hhook, -⟩ := hinv.call _ _ hcall
  simp [notesOf, hhook, hcall]

theorem finishNotify_deferred {cpu : Nat} {n : Notification} {m : MmioDev}
    (hhandler : s.handler cpu = some n) (hdefer : n.defer = true) (hm : s.mmio n.dev = some m) :
    (s.finishNotify env cpu).mmio n.dev = some (m.deferNotify n.queueId) := by
  obtain ⟨dev, queueId, defer⟩ := n
  obtain rfl : defer = true := hdefer
  cases dev with
  | proxy =>
    obtain ⟨r, hr, rfl⟩ := Option.map_eq_some_iff.mp hm
    simp [finishNotify, hhandler, hr, mmio, ProxyPm.setMmio, ProxyPm.setDev,
      ProxyTable.set_dev]
  | other i =>
    have hi : s.others i = some m := hm
    simp [finishNotify, hhandler, hi, mmio]

/-- A notification that is outstanding is in the mask of its device, or passed on next. -/
def NotesOk (x : RetentionRun) : Prop :=
  ∀ dev queueId, Outstanding x.notes dev queueId → ∃ m, x.sys.mmio dev = some m ∧
    queueId < m.queueNum ∧
    (bitmapTest queueId m.deferredQueueMask = true ∨ Passing x.sys dev queueId)

/-- What is known of the notifications at any time. -/
structure DeferredInv (x : RetentionRun) : Prop where
  sys : x.sys.Inv
  present : x.sys.Present
  handlers : x.sys.HandlersOk
  masks : x.sys.MasksOk
  notes : x.NotesOk
  /-- on the way back what is deferred will be passed on -/
  kept : x.sys.pm.Unwinding → ∀ dev m, x.sys.mmio dev = some m → x.sys.Kept dev m

theorem DeferredInv.notes_step (hinv : DeferredInv x) (call : Env × Op) : (x.step call).NotesOk := by
  intro dev queueId hout
  obtain ⟨env, op⟩ := call
  have hfour : virtioMmioMaxQueues = 4 := rfl
  rcases Outstanding.append hout with ⟨hold, hnotPassed, hnotReset⟩ | hnew
  · obtain ⟨m, hm, hqueue, hkept⟩ := hinv.notes dev queueId hold
    obtain ⟨m', hm', htouch⟩ := mmio_after hinv.sys hinv.present hm (env, op)
    refine ⟨m', hm', htouch.queueNum ▸ hqueue, ?_⟩
    rcases hkept with hbit | hpassing
    · cases htouch with
      | same hpm => exact .inl (hpm.deferred ▸ hbit)
      | reset _ _ _ hnote => exact absurd hnote hnotReset
      | deferred _ n _ _ _ _ hdm =>
        rw [hdm]
        exact .inl (bitmapTest_set_of_test hbit n.queueId)
      | hook target _ _ _ d hop hhook hcall hdev htouch =>
        obtain rfl : op = .pm .process := hop
        rcases htouch.mask.2 with hmask | ⟨cleared, left, firstError, after, hout, hcleared, hmask⟩
        · exact .inl (hmask ▸ hbit)
        by_cases heq : queueId = cleared
        · subst heq
          exact .inr ⟨target, d, left, firstError, after,
            process_goto hhook hcall hout, hdev⟩
        · have hmax := (hinv.masks dev m hm).1
          refine .inl ?_
          rw [hmask, bitmapTest_clear_of_ne (by omega)]
          exact hbit
    · by_cases hop : op = .pm .process
      · subst hop
        exact absurd (passing_note hinv.sys hpassing) hnotPassed
      · refine .inr ?_
        unfold Passing at hpassing ⊢
        have hcall : (x.step (env, op)).sys.call = x.sys.call := (step_of_ne hop).1
        rwa [hcall]
  · obtain ⟨cpu, n, hop, hhandler, hdefer, rfl, rfl⟩ := deferred_mem_notesOf hnew
    obtain rfl : op = .finishNotify cpu := hop
    obtain ⟨m, hm, hqueue⟩ := hinv.handlers cpu n hhandler
    exact ⟨_, finishNotify_deferred hhandler hdefer hm, hqueue, .inl (bitmapTest_set n.queueId _)⟩

/-- The way back starts at a step of the boot pCPU. -/
theorem unwinding_process (hinv : s.Inv) (hun : (s.process env).pm.Unwinding) :
    s.pm.Unwinding ∨ ∃ epoch u, s.pm.frame = some (epoch, .reverseStart u) := by
  unfold process at hun
  cases hhook : hookCall s.pm with
  | none =>
    rw [hhook] at hun
    exact hinv.flow.unwinding_process env.pm hun
  | some c =>
    rw [hhook] at hun
    dsimp only at hun
    generalize s.hookStep env c.1 c.2 = out at hun
    obtain ⟨p, target, place | status⟩ := out
    · exact .inl hun
    · exact hinv.flow.unwinding_process _ hun

theorem unwinding_of_ne (hinv : s.Inv) {call : Env × Op} (hop : call.2 ≠ .pm .process)
    (hun : (s.step call).pm.Unwinding) : s.pm.Unwinding := by
  rcases (step_of_ne hop).2 with hsame | ⟨op, hop', hreq⟩
  · rwa [hsame] at hun
  · rw [hreq] at hun
    exact hinv.flow.unwinding_request _ hop' hun

/-- The masks that the first reverse callback finds. -/
theorem kept_of_start {epoch : Nat} {u : Unwind}
    (hframe : s.pm.frame = some (epoch, .reverseStart u)) {m m' : MmioDev}
    (hm : s.mmio dev = some m) (htouch : Retention.Touch s (env, .pm .process) dev m m')
    (hok : s.DefersMarked (env, .pm .process)) : (s.process env).Kept dev m' := by
  have hhook : hookCall s.pm = none := by
    unfold hookCall
    rw [hframe]
  cases htouch with
  | same hpm =>
    unfold Retention.Kept
    rw [hpm.deferred, hpm.suspended]
    by_cases hmask : m.deferredQueueMask = 0#64
    · exact .inl hmask
    · obtain ⟨d, hd, hmark⟩ := Retention.Kept.of_marked hm (hok.start epoch u rfl hframe dev m hm hmask)
      exact .inr ⟨d, hd, .inl hmark⟩
  | reset hmask => exact .inl hmask
  | deferred _ _ hop => cases hop
  | hook _ _ _ _ _ _ hhook' =>
    exact absurd (hhook.symm.trans hhook') (by simp)

theorem DeferredInv.step (hinv : DeferredInv x) (call : Env × Op) (hok : x.sys.DefersMarked call) :
    DeferredInv (x.step call) where
  sys := hinv.sys.step call
  present := hinv.present.step hinv.sys call
  handlers := hinv.handlers.step hinv.sys hinv.present call
  masks := hinv.masks.step hinv.sys hinv.present hinv.handlers call
  notes := hinv.notes_step call
  kept hun dev m' hm' := by
    obtain ⟨m, hm, htouch⟩ := mmio_before hinv.sys hinv.present hm'
    by_cases hop : call.2 = .pm .process
    · obtain ⟨env, op⟩ := call
      obtain rfl : op = .pm .process := hop
      rcases unwinding_process hinv.sys hun with hbefore | ⟨epoch, u, hframe⟩
      · exact (hinv.kept hbefore dev m hm).process hinv.sys hinv.masks hm htouch hbefore
      · exact kept_of_start hframe hm htouch hok
    · have hbefore := unwinding_of_ne hinv.sys hop hun
      exact (hinv.kept hbefore dev m hm).other hm htouch hop hbefore hok

/-- No notification is deferred, and every one that was has been passed on or dropped by a reset. -/
structure NothingDeferred (x : RetentionRun) : Prop where
  masks : ∀ dev m, x.sys.mmio dev = some m → m.deferredQueueMask = 0#64
  passed : ∀ dev queueId, ¬Outstanding x.notes dev queueId

theorem DeferredInv.nothingDeferred (hinv : DeferredInv x)
    (hrun : x.sys.pm.host.data.state = .running) : x.NothingDeferred := by
  have hframe := hinv.sys.flow.inv.frame_eq_none hrun
  have hcall : x.sys.call = none := by
    refine hinv.sys.call_eq_none ?_
    unfold hookCall
    rw [hframe]
  have hun : x.sys.pm.Unwinding := by
    unfold PmMachine.Unwinding
    rw [hframe]
    exact hrun
  have hmasks : ∀ dev m, x.sys.mmio dev = some m → m.deferredQueueMask = 0#64 := by
    intro dev m hm
    rcases hinv.kept hun dev m hm with hzero | ⟨d, rfl, hmark | hrep⟩
    · exact hzero
    · -- no proxy is marked in `PM_RUNNING`
      obtain ⟨r, hr, rfl⟩ := Option.map_eq_some_iff.mp hm
      have hids := hinv.present d (by rw [hr]; simp)
      have hclean := (hinv.sys.clean_of_running hrun).devs d hids r hr
      exact absurd (hclean.symm.trans hmark) (by decide)
    · obtain ⟨target, queueId, left, firstError, after, ⟨h, -⟩ | ⟨h, -⟩⟩ := hrep
      · exact absurd (hcall.symm.trans h) (by simp)
      · exact absurd (hcall.symm.trans h) (by simp)
  refine ⟨hmasks, fun dev queueId hout => ?_⟩
  obtain ⟨m, hm, -, hbit | ⟨target, d, left, firstError, after, h, -⟩⟩ := hinv.notes dev queueId hout
  · rw [hmasks dev m hm, bitmapTest_zero] at hbit
    cases hbit
  · exact absurd (hcall.symm.trans h) (by simp)

theorem DeferredInv.boot (tickrate : Nat) (vcpus : Nat → VcpuCount)
    (cfgs : Nat → Nat → Option (ProxyConfig × List Byte))
    (others : Nat → Option (Nat × Nat × Nat)) :
    DeferredInv (RetentionRun.boot tickrate vcpus cfgs others) := by
  have hdev := @boot_mmio tickrate vcpus cfgs others
  refine ⟨.boot tickrate vcpus cfgs others, boot_present tickrate vcpus cfgs others,
    nofun, fun dev m hm => ⟨(hdev hm).1, fun k _ htest => ?_⟩,
    fun dev queueId hout => ?_, fun _ dev m hm => .inl (hdev hm).2⟩
  · rw [(hdev hm).2, bitmapTest_zero] at htest
    cases htest
  · obtain ⟨before, after, heq, -⟩ := hout
    exact absurd heq.symm (by simp [RetentionRun.boot])

/-- **Deferred notifications are not lost**: in `PM_RUNNING` no mask has a bit and every notification
that was deferred has been passed on, in every run that defers them only where the resume looks. -/
theorem deferred_notifications_passed (tickrate : Nat) (vcpus : Nat → VcpuCount)
    (cfgs : Nat → Nat → Option (ProxyConfig × List Byte))
    (others : Nat → Option (Nat × Nat × Nat)) (calls : List (Env × Op))
    (hcalls : Run.Along step (fun x call => x.sys.DefersMarked call)
      (boot tickrate vcpus cfgs others) calls)
    (hrun : (Run.exec step (boot tickrate vcpus cfgs others) calls).sys.pm.host.data.state
      = .running) :
    (Run.exec step (boot tickrate vcpus cfgs others) calls).NothingDeferred := by
  have hinv : DeferredInv (Run.exec step (boot tickrate vcpus cfgs others) calls) :=
    Run.inv_exec (fun x call hx hok => hx.step call hok) (.boot tickrate vcpus cfgs others) hcalls
  exact hinv.nothingDeferred hrun

/-! ### Notifications that are passed, and some that are lost -/

/-- All VMs run, and their memory is zero. -/
def idleEnv : Env :=
  ⟨calm, ⟨fun _ => ⟨fun _ _ => 0#8, fun _ _ _ => true⟩, fun _ => false, true, true⟩,
    fun _ => .zero, 0#32⟩

def suspendRequested : List (Env × Op) :=
  [(idleEnv, .pm (.registerHook virtioHook)), (idleEnv, .pm (.setPolicy ⟨1#64, 1, 1, 2, 1, 1⟩)),
    (idleEnv, .pm (.requestVmSuspend 0))]

/-- VM 0 notifies queue 0 of a device. -/
def notified (dev : DevId) : List (Env × Op) :=
  [(idleEnv, .beginNotify 1 dev 0#32), (idleEnv, .finishNotify 1)]

def processed (steps : Nat) : List (Env × Op) := List.replicate steps (idleEnv, .pm .process)

def resumeRequested : List (Env × Op) := [(idleEnv, .pm (.requestVmResume 0))]

/-- VM 0 has a proxy, and a vsock device if there is one. -/
def guestBoot (vsock : Bool) : RetentionRun :=
  boot 1 oneVcpu ProxyTable.oneDevice fun i => if i = 0 ∧ vsock then some (0, 3, 8) else none

/-- A proxy is notified while the suspend waits for the boot pCPU. -/
def notifiedEarly : List (Env × Op) :=
  suspendRequested ++ notified (.proxy 0 0) ++ processed 61 ++ resumeRequested ++ processed 30

/-- Notifications are deferred before the way back, and the proxy is marked there. -/
def marksProxy (x : RetentionRun) (call : Env × Op) : Bool :=
  match call.2 with
  | .finishNotify _ => !decide x.sys.pm.Unwinding
  | .pm .process =>
    match x.sys.pm.frame with
    | some (_, .reverseStart _) => x.sys.Marked (.proxy 0 0)
    | _ => true
  | _ => true

/-- There is no device but the one proxy. -/
structure OneProxy (x : RetentionRun) : Prop where
  sys : x.sys.Inv
  present : x.sys.Present
  only : ∀ dev m, x.sys.mmio dev = some m → dev = .proxy 0 0

theorem OneProxy.step (h : OneProxy x) (call : Env × Op) : OneProxy (x.step call) where
  sys := h.sys.step call
  present := h.present.step h.sys call
  only dev m hm := by
    obtain ⟨m₀, hm₀, -⟩ := mmio_before h.sys h.present hm
    exact h.only dev m₀ hm₀

theorem OneProxy.defersMarked (h : OneProxy x) {call : Env × Op} (hok : x.marksProxy call = true) :
    x.sys.DefersMarked call := by
  obtain ⟨env, op⟩ := call
  refine ⟨fun cpu n hop _ _ hun => ?_, fun epoch u hop hframe dev m hm _ => ?_⟩
  · obtain rfl : op = .finishNotify cpu := hop
    simp only [marksProxy, decide_eq_true hun] at hok
    cases hok
  · obtain rfl : op = .pm .process := hop
    rw [h.only dev m hm]
    simpa only [marksProxy, hframe] using hok

theorem oneProxy_boot : OneProxy (guestBoot false) := by
  refine ⟨.boot .., boot_present _ _ _ _, fun dev m hm => ?_⟩
  cases dev with
  | proxy =>
    obtain ⟨r, hr, -⟩ := Option.map_eq_some_iff.mp hm
    obtain ⟨cfg, hcfg, -⟩ := Option.map_eq_some_iff.mp hr
    unfold accepted ProxyTable.oneDevice at hcfg
    split at hcfg
    · split at hcfg
      · next heq => rw [heq.1, heq.2]
      · cases hcfg
    · cases hcfg
  | other =>
    obtain ⟨c, hc, -⟩ := Option.map_eq_some_iff.mp hm
    have hc' := (Option.filter_eq_some_iff.mp hc).1
    simp at hc'

theorem deferred_notifications_passed_early :
    (Run.exec step (guestBoot false) notifiedEarly).notes =
        [(.proxy 0 0, .deferred 0), (.proxy 0 0, .passed 0)] ∧
      (Run.exec step (guestBoot false) notifiedEarly).NothingDeferred := by
  have hmarks : Run.Along step (fun x call => x.marksProxy call = true) (guestBoot false)
      notifiedEarly := by decide +kernel
  have hcalls : Run.Along step (fun x call => x.sys.DefersMarked call) (guestBoot false)
      notifiedEarly :=
    Run.Along.mono (fun _ call h => OneProxy.step h call) (fun _ _ h hok => h.defersMarked hok)
      oneProxy_boot hmarks
  exact ⟨by decide +kernel, deferred_notifications_passed 1 oneVcpu ProxyTable.oneDevice _ _ hcalls
    (by decide +kernel)⟩

/-- The mask of a device in `PM_RUNNING` between two transactions. -/
def maskWhenRunning (x : RetentionRun) (dev : DevId) : Option (BitVec 64) :=
  if x.sys.pm.host.data.state = .running ∧ x.sys.pm.frame.isNone then
    (x.sys.mmio dev).map MmioDev.deferredQueueMask
  else none

/-- A vsock device is notified while its VM is suspended and resumed; a proxy is notified before a
suspend that is aborted; a proxy is notified behind its resume, before the gate opens. -/
theorem deferred_notification_lost :
    maskWhenRunning (Run.exec step (guestBoot true) (suspendRequested ++ notified (.other 0) ++
        processed 61 ++ resumeRequested ++ processed 30)) (.other 0) = some 1#64 ∧
      maskWhenRunning (Run.exec step (guestBoot true) (suspendRequested ++ notified (.proxy 0 0) ++
        [(idleEnv, .pm (.abort 1 (-4)))] ++ processed 30)) (.proxy 0 0) = some 1#64 ∧
      maskWhenRunning (Run.exec step (guestBoot true) (suspendRequested ++ processed 61 ++
        resumeRequested ++ processed 20 ++ notified (.proxy 0 0) ++ processed 30)) (.proxy 0 0) =
        some 1#64 := by
  decide +kernel

end RetentionRun

end BeauOs.Virtio

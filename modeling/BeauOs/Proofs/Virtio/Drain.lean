/-
Suspended proxies hold no request, as long as none is taken from their rings.

`virtio_proxy_pm_suspend` counts the requests in pending slots once more behind its drain loop, and
goes on to mark the devices only when it has found none.  From its count on a device is guarded
(`Guarded`): by the rest of the call, and by the window that opens when the call has returned zero.
No step of the hypervisor gives a guarded device a request except by taking one from an avail ring,
so the slots stay free until the hook is undone (`suspend_window_drained`).

That nothing is taken is not enforced.  The mark and the gate of the VM make `QueueNotify` defer, but
a poll looks at neither, and the backend runs on where only the frontend's VM is suspended
(`suspend_window_poll`).
-/
import BeauOs.Proofs.Virtio.Conservation
import BeauOs.Proofs.Virtio.Suspension

namespace BeauOs.Virtio

open BeauOs.Pm

/-! ### Slots that stay free -/

/-- A move that brings no request in. -/
def SlotView.Emptying (_ : SlotView) (m : Move) : Prop := ∀ slot p, m ≠ .keep slot p

/-- Only the slots that the platform allows are used. -/
def SlotView.Bounded (v : SlotView) : Prop := ∀ i, v.limit ≤ i → (v.pending i).valid = false

theorem SlotView.Bounded.apply {v : SlotView} (h : v.Bounded) {m : Move} (hm : v.Enabled m) :
    (v.apply m).Bounded := by
  -- a slot above the limit is not the one the move is about
  have hset : ∀ {slot p}, slot < v.limit → (v.setSlot slot p).Bounded := by
    intro slot p hslot i hi
    rw [v.setSlot_of_ne p (Nat.ne_of_gt (Nat.lt_of_lt_of_le hslot hi))]
    exact h i hi
  cases m with
  | keep => exact hset (SlotView.findSlot_eq_some.mp hm.1).2.1
  | lose => exact hset (SlotView.findSlot_eq_some.mp hm).2.1
  | hand =>
    obtain ⟨queueId, hfound⟩ := hm
    exact hset (SlotView.findSlot_eq_some.mp hfound).2.1
  | settle =>
    obtain ⟨queueId, head, hfound⟩ := hm
    exact hset (SlotView.findSlot_eq_some.mp hfound).2.1
  | unsend =>
    intro i hi
    have hsame : v.unsent i = v.pending i :=
      if_neg fun hsent => absurd hsent.1 (Nat.not_lt_of_le hi)
    show (v.unsent i).valid = false
    rw [hsame]
    exact h i hi

def SlotView.Drained (v : SlotView) : Prop := ∀ i, (v.pending i).valid = false

theorem SlotView.Drained.apply {v : SlotView} (h : v.Drained) {m : Move} (hm : v.Emptying m) :
    (v.apply m).Drained := by
  have hset : ∀ {slot p}, p.valid = false → (v.setSlot slot p).Drained := by
    intro slot p hp i
    by_cases hi : i = slot
    · rw [hi, v.setSlot_self]
      exact hp
    · rw [v.setSlot_of_ne p hi]
      exact h i
  cases m with
  | keep slot p => exact absurd rfl (hm slot p)
  | lose => exact hset rfl
  | hand slot => exact hset (h slot)
  | settle => exact hset rfl
  | unsend =>
    intro i
    show (v.unsent i).valid = false
    unfold SlotView.unsent
    dsimp only
    split
    · exact h i
    · exact h i

namespace ProxyRun

variable {r : ProxyRun} {call : Env × Op}

def TakesNothing (r : ProxyRun) (call : Env × Op) : Prop :=
  ∀ queueId, r.TakesFrom call queueId → ∀ t, r.dev.mmio.popAvail call.1.front t queueId = none

theorem takesOk_of_empty {front : GuestView} {queueId : Nat} {I J : ProxyRun → Prop}
    (hI : ∀ r, I r → ∀ t, r.dev.mmio.popAvail front t queueId = none) :
    TakesOk (Moves SlotView.Emptying) front queueId I J := by
  intro r t slot taken r' hr _ hspec
  cases hspec with
  | empty => exact ⟨.refl r.view, nofun⟩
  | failed hpop | kept hpop => exact absurd ((hI r hr t).symm.trans hpop) (by simp)

theorem accepts_emptying (h : r.TakesNothing call) : Accepts SlotView.Emptying r call where
  hand _ _ _ _ _ h := by cases h
  settle _ _ _ _ _ h := by cases h
  unsend _ _ _ h := by cases h
  notify queueId htakes := ⟨_, h queueId (.inl htakes), takesOk_of_empty fun _ h => h⟩
  poll ioc hpoll := by
    by_cases hunsent : r.dev.unsentPendingSlot ioc.queueId = none
    · exact ⟨_, h ioc.queueId (.inr (.inl ⟨ioc, hpoll, rfl, hunsent⟩)),
        takesOk_of_empty fun _ h => h.1⟩
    · exact ⟨_, hunsent, fun _ _ _ _ _ h => absurd h.2 h.1⟩
  batchPoll ioc hpoll :=
    ⟨_, h ioc.queueId (.inr (.inr ⟨ioc, hpoll, rfl⟩)), takesOk_of_empty fun _ h => h.1,
      fun _ _ _ h => h⟩

theorem takesOk_enabled {front : GuestView} {queueId : Nat} {I : ProxyRun → Prop} :
    TakesOk (Moves SlotView.Enabled) front queueId I fun _ => True := by
  intro r t slot taken r' _ hfree hspec
  refine ⟨?_, fun _ => trivial⟩
  cases hspec with
  | empty => exact .refl r.view
  | failed _ _ hview => exact .single hview hfree
  | kept _ hcopy hview =>
    obtain ⟨hvalid, hsent, hdone, -, -⟩ := copyChainToPending_new hcopy
    exact .single hview ⟨hfree, hvalid, hsent, hdone⟩

theorem accepts_enabled (r : ProxyRun) (call : Env × Op) : Accepts SlotView.Enabled r call where
  hand _ _ hen := hen
  settle _ _ hen := hen
  unsend _ := trivial
  notify _ _ := ⟨_, trivial, takesOk_enabled⟩
  poll _ _ := ⟨_, trivial, takesOk_enabled⟩
  batchPoll _ _ := ⟨_, trivial, takesOk_enabled, fun _ _ _ _ => trivial⟩

theorem reset_drained (hreset : call.2.Resets) : (r.step call).view.Drained := by
  obtain ⟨env, op⟩ := call
  obtain rfl : op = .writeReg .status 0#32 := hreset
  exact fun _ => rfl

theorem step_bounded (call : Env × Op) (h : r.view.Bounded) : (r.step call).view.Bounded := by
  by_cases hreset : call.2.Resets
  · exact fun i _ => reset_drained hreset i
  · exact (step_reaches (accepts_enabled r call) hreset).inv _ (fun v m hv hm => hv.apply hm) h

theorem step_drained (h : r.view.Drained) (hcall : r.TakesNothing call) :
    (r.step call).view.Drained := by
  by_cases hreset : call.2.Resets
  · exact reset_drained hreset
  · exact (step_reaches (accepts_emptying hcall) hreset).inv _ (fun v m hv hm => hv.apply hm) h

def afterCall (r : ProxyRun) : Option (Env × Op) → ProxyRun
  | none => r
  | some call => r.step call

end ProxyRun

/-! ### What a step does to the slots of a device -/

namespace ProxyPm

variable {p p' : ProxyPm} {target : PmTarget} {epoch : Nat} {d : Nat × Nat} {r : ProxyRun}

def SameSlots (p p' : ProxyPm) : Prop :=
  ∀ d : Nat × Nat, (p'.table.dev d.1 d.2).map ProxyRun.view = (p.table.dev d.1 d.2).map ProxyRun.view

theorem SameSlots.refl (p : ProxyPm) : SameSlots p p := fun _ => rfl

theorem SameSlots.setMmio (hr : p.table.dev d.1 d.2 = some r) (mmio : MmioDev) :
    SameSlots p (p.setMmio d r mmio) := by
  intro d'
  unfold ProxyPm.setMmio
  rw [setDev_dev]
  split
  · next heq =>
    rw [heq, hr]
    rfl
  · rfl

/-- The device and the queue whose deferred notification is passed on next. -/
def Place.notifies : Place → Option ((Nat × Nat) × Nat)
  | .notify d queueId _ _ _ => some (d, queueId)
  | _ => none

theorem step_sameSlots {mem : Nat → GuestView} {vmRunning : Nat → Bool} {place : Place}
    (hplace : place.notifies = none) :
    SameSlots p (p.step mem vmRunning target epoch place).1 := by
  cases place with
  | dependents left | drain _ left => cases left <;> exact .refl p
  | recount left =>
    cases left with
    | nil =>
      simp only [step, drained]
      split
      · exact .refl p
      · cases target <;> exact .refl p
    | cons d left => exact .refl p
  | mark left =>
    cases left with
    | nil => exact .refl p
    | cons d left =>
      simp only [step, markDev]
      split
      · exact .refl p
      · next r hr => exact .setMmio hr _
  | resume left =>
    cases left with
    | nil =>
      simp only [step]
      split
      · cases target <;> exact .refl p
      · exact .refl p
    | cons d left =>
      simp only [step, resumeDev]
      split
      · exact .refl p
      · next r hr => exact .setMmio hr _
  | replay _ queueId =>
    simp only [step, replayDev]
    split
    · exact .refl p
    next r hr =>
    split
    · generalize r.dev.mmio.pmReplay queueId = out
      obtain ⟨replayed, mmio⟩ := out
      cases replayed with
      | true => exact .setMmio hr mmio
      | false => exact .refl p
    · exact .refl p
  | notify => cases hplace

end ProxyPm

/-! ### The count -/

/-- The device has been counted, and so far no request was found. -/
def ProxyPm.Place.counted (d : Nat × Nat) : ProxyPm.Place → Prop
  | .recount left active => active = 0 ∧ d ∉ left
  | .mark _ => True
  | _ => False

namespace ProxyPm

variable {p : ProxyPm} {target : PmTarget} {epoch : Nat} {place : Place}
  {mem : Nat → GuestView} {vmRunning : Nat → Bool}

theorem suspendEntry_status (hc : p.Clean) {status : Int}
    (h : p.suspendEntry target epoch = .inr status) : status ≠ 0 := by
  have hinval : -eInval ≠ 0 := by decide
  unfold suspendEntry at h
  split at h
  · rw [hc.host] at h
    split at h
    · cases h
      exact hinval
    · cases h
  · next vmid =>
    rw [hc.host, hc.guest vmid] at h
    split at h
    · cases h
      exact hinval
    · cases h

variable {d : Nat × Nat}

theorem suspendEntry_not_counted (h : p.suspendEntry target epoch = .inl place) :
    ¬place.counted d := by
  unfold suspendEntry at h
  split at h
  · split_ifs at h
    cases h
    exact fun hc => hc
  · split_ifs at h
    cases h
    exact fun hc => hc

/-- The resume that a suspend gives up with returns the error of the suspend. -/
theorem resumeEntry_status {status status' : Int} (hne : status ≠ 0)
    (h : p.resumeEntry target epoch (some status) = .inr status') : status' ≠ 0 := by
  unfold resumeEntry at h
  split at h
  · split_ifs at h <;> cases h <;> exact hne
  · split_ifs at h <;> cases h <;> exact hne

theorem resumeEntry_not_counted {after : Option Int}
    (h : p.resumeEntry target epoch after = .inl place) : ¬place.counted d := by
  unfold resumeEntry at h
  split at h
  · split_ifs at h
    cases h
    exact fun hc => hc
  · split_ifs at h
    cases h
    exact fun hc => hc

theorem PlaceOk.eq_suspend {kind : Retention.HookCall}
    (hok : PlaceOk kind target epoch p place) (hcounted : place.counted d) : kind = .suspend := by
  cases place with
  | recount | mark => exact hok.1
  | _ => exact hcounted.elim

/-- A suspend returns zero only behind the last device it marks. -/
theorem step_eq_zero (hok : PlaceOk .suspend target epoch p place)
    (h : (p.step mem vmRunning target epoch place).2 = .inr 0) : place = .mark [] := by
  cases place with
  | dependents left =>
    cases left with
    | nil => cases h
    | cons d left =>
      simp only [step] at h
      split at h
      · cases h
      · split at h
        · exact absurd (Sum.inr.inj h) (by decide)
        · cases h
  | drain _ left => cases left <;> cases h
  | recount left =>
    cases left with
    | nil =>
      have htimedOut : -eTimedOut ≠ 0 := by decide
      simp only [step, drained] at h
      split at h
      · cases target with
        | system =>
          have hentry : p.resumeEntry .system epoch (some (-eTimedOut)) = .inr 0 := h
          exact absurd rfl (resumeEntry_status htimedOut hentry)
        | vm => exact absurd (Sum.inr.inj h) htimedOut
      · cases h
    | cons d left => cases h
  | mark left =>
    cases left with
    | nil => rfl
    | cons d left =>
      simp only [step, markDev] at h
      split at h
      · cases h
      dsimp only at h
      split at h
      · next hne => exact absurd rfl (resumeEntry_status hne h)
      · cases h
  | resume left =>
    cases left with
    | nil =>
      rcases hok with ⟨-, ⟨status, rfl, hne⟩, -⟩ | ⟨hkind, -⟩
      · exact absurd (Sum.inr.inj h) hne
      · cases hkind
    | cons d left =>
      simp only [step, resumeDev] at h
      split at h
      · cases h
      dsimp only at h
      split at h
      · cases h
      · cases h
  | replay =>
    simp only [step, replayDev] at h
    split at h
    · cases h
    split at h
    · split at h
      · cases h
      · cases h
    · cases h
  | notify => cases h

/-- A device is counted when its slots are free. -/
theorem step_counted {place' : Place} (hd : d ∈ target.ids)
    (h : (p.step mem vmRunning target epoch place).2 = .inl place') (hcounted : place'.counted d) :
    place.counted d ∨ place.notifies = none ∧ p.activeAt d = 0 := by
  cases place with
  | dependents left =>
    cases left with
    | nil =>
      cases h
      exact hcounted.elim
    | cons d' left =>
      simp only [step] at h
      split at h
      · cases h
        exact hcounted.elim
      split at h
      · cases h
      · cases h
        exact hcounted.elim
  | drain _ left =>
    cases left with
    | nil =>
      refine .inr ⟨rfl, ?_⟩
      simp only [step] at h
      split at h
      · cases h
        exact hcounted.elim
      cases h
      -- a device that is not counted is not there
      unfold activeAt
      cases hr : p.table.dev d.1 d.2 with
      | none => rfl
      | some r => exact absurd (mem_present.mpr ⟨hd, by rw [hr]; rfl⟩) hcounted.2
    | cons d' left =>
      cases h
      exact hcounted.elim
  | recount left =>
    cases left with
    | nil =>
      refine .inl ?_
      simp only [step, drained] at h
      split at h
      · cases target with
        | system =>
          have hentry : p.resumeEntry .system epoch (some (-eTimedOut)) = .inl place' := h
          exact absurd hcounted (resumeEntry_not_counted hentry)
        | vm => cases h
      · next hzero => exact ⟨not_not.mp hzero, by simp⟩
    | cons d' left =>
      cases h
      obtain ⟨hsum, hleft⟩ := hcounted
      by_cases heq : d = d'
      · exact .inr ⟨rfl, heq ▸ Nat.eq_zero_of_add_eq_zero_left hsum⟩
      · refine .inl ⟨Nat.eq_zero_of_add_eq_zero_right hsum, fun hmem => ?_⟩
        exact (List.mem_cons.mp hmem).elim heq hleft
  | mark => exact .inl trivial
  | resume left =>
    cases left with
    | nil => cases h
    | cons d' left =>
      simp only [step, resumeDev] at h
      split at h
      · cases h
        exact hcounted.elim
      dsimp only at h
      split at h
      · cases h
        exact hcounted.elim
      · cases h
        exact hcounted.elim
  | replay =>
    simp only [step, replayDev] at h
    split at h
    · cases h
      exact hcounted.elim
    split at h
    · split at h
      · cases h
        exact hcounted.elim
      · cases h
        exact hcounted.elim
    · cases h
      exact hcounted.elim
  | notify =>
    cases h
    exact hcounted.elim

end ProxyPm

/-! ### Steps -/

namespace Retention

variable {s : Retention} {call : Env × Op} {d : Nat × Nat}

/-- A notification is passed to a proxy of a VM. -/
def passes (env : Env) (vm queueId : Nat) : ProxyRun.Env × ProxyRun.Op :=
  (⟨env.table.mem vm, env.table.mem vm, false⟩, .replay queueId)

/-- The call that a step makes of a proxy, if it makes one. -/
def deviceCall (s : Retention) (call : Env × Op) (d : Nat × Nat) :
    Option (ProxyRun.Env × ProxyRun.Op) :=
  match call.2 with
  | .table op =>
    if writesNotify op then none
    else (s.proxies.table.deviceOp call.1.table.iocRead op d.1 d.2).map fun deviceOp =>
      (ProxyTable.deviceEnv call.1.table op d.1, deviceOp)
  | .finishNotify cpu =>
    (s.handler cpu).bind fun n =>
      if n.dev = .proxy d.1 d.2 ∧ n.defer = false then some (passes call.1 d.1 n.queueId) else none
  | .pm .process =>
    if (hookCall s.pm).isSome then
      (s.call.bind fun c => c.2.notifies).bind fun n =>
        if n.1 = d then some (passes call.1 d.1 n.2) else none
    else none
  | _ => none

def SlotsAfter (s : Retention) (call : Env × Op) (d : Nat × Nat) (dev : Option ProxyRun) : Prop :=
  dev.map ProxyRun.view =
    (s.proxies.table.dev d.1 d.2).map fun r => (r.afterCall (s.deviceCall call d)).view

theorem SlotsAfter.of_same {p : ProxyPm} (hcall : s.deviceCall call d = none)
    (hsame : s.proxies.SameSlots p) : SlotsAfter s call d (p.table.dev d.1 d.2) := by
  unfold SlotsAfter
  rw [hcall]
  exact hsame d

theorem process_slots (s : Retention) (env : Env) (d : Nat × Nat) :
    SlotsAfter s (env, .pm .process) d ((s.process env).proxies.table.dev d.1 d.2) := by
  cases hhook : hookCall s.pm with
  | none =>
    have hsame : (s.process env).proxies = s.proxies := by
      unfold Retention.process
      rw [hhook]
    rw [hsame]
    exact .of_same (by simp [deviceCall, hhook]) (.refl _)
  | some c =>
    obtain ⟨epoch, kind⟩ := c
    rw [process_proxies hhook env]
    unfold Retention.hookStep
    cases hcall : s.call with
    | none => exact .of_same (by simp [deviceCall, hhook, hcall]) (.refl _)
    | some c =>
      obtain ⟨target, place⟩ := c
      dsimp only
      cases hplace : place.notifies with
      | none =>
        exact .of_same (by simp [deviceCall, hhook, hcall, hplace])
          (ProxyPm.step_sameSlots hplace)
      | some n =>
        cases place with
        | notify d' queueId =>
          cases hplace
          have hdevice : s.deviceCall (env, .pm .process) d =
              if d' = d then some (passes env d.1 queueId) else none := by
            simp [deviceCall, hhook, hcall, ProxyPm.Place.notifies]
          unfold SlotsAfter
          rw [hdevice]
          simp only [ProxyPm.step, ProxyPm.notifyDev]
          by_cases heq : d' = d
          · subst heq
            rw [if_pos rfl]
            split
            · next hnone =>
              rw [hnone]
              rfl
            · next r hr =>
              rw [ProxyPm.setDev_dev, if_pos rfl, hr]
              rfl
          · rw [if_neg heq]
            split
            · rfl
            · rw [ProxyPm.setDev_dev, if_neg (Ne.symm heq)]
              rfl
        | _ => cases hplace

theorem finishNotify_slots (s : Retention) (env : Env) (cpu : Nat) (d : Nat × Nat) :
    SlotsAfter s (env, .finishNotify cpu) d ((s.finishNotify env cpu).proxies.table.dev d.1 d.2) := by
  unfold Retention.finishNotify
  cases hhandler : s.handler cpu with
  | none => exact .of_same (by simp [deviceCall, hhandler]) (.refl _)
  | some n =>
    obtain ⟨dev, queueId, defer⟩ := n
    cases dev with
    | other => exact .of_same (by simp [deviceCall, hhandler]) (.refl _)
    | proxy vm index =>
      have hdevice : s.deviceCall (env, .finishNotify cpu) d =
          if (vm, index) = d ∧ defer = false then some (passes env d.1 queueId) else none := by
        obtain ⟨vm', index'⟩ := d
        simp [deviceCall, hhandler]
      dsimp only
      cases hr : s.proxies.table.dev vm index with
      | none =>
        unfold SlotsAfter
        rw [hdevice]
        by_cases heq : (vm, index) = d
        · subst heq
          show (s.proxies.table.dev vm index).map _ = (s.proxies.table.dev vm index).map _
          rw [hr]
          rfl
        · rw [if_neg fun h => heq h.1]
          rfl
      | some r =>
        cases defer with
        | true => exact .of_same (by simp [hdevice]) (.setMmio hr _)
        | false =>
          unfold SlotsAfter
          rw [hdevice]
          dsimp only
          rw [if_neg (by decide), ProxyPm.setDev_dev]
          by_cases heq : d = (vm, index)
          · subst heq
            rw [if_pos rfl, if_pos ⟨rfl, rfl⟩, hr]
            rfl
          · rw [if_neg heq, if_neg fun h => heq h.1.symm]
            rfl

/-- A suspend that begins with nothing suspended has its devices to count. -/
theorem hookEntry_suspend {epoch : Nat} (hclean : s.proxies.Clean) {status : Int}
    (h : (s.hookEntry epoch .suspend).2 = .inr status) : status ≠ 0 := by
  unfold hookEntry at h
  split at h
  · next herror =>
    cases h
    exact hookTarget_error herror
  · exact ProxyPm.suspendEntry_status hclean h

theorem hookEntry_not_counted {epoch : Nat} {place : ProxyPm.Place}
    (h : (s.hookEntry epoch .suspend).2 = .inl place) : ¬place.counted d := by
  unfold hookEntry at h
  split at h
  · cases h
  · exact ProxyPm.suspendEntry_not_counted h

/-- **A step leaves the slots of a device alone, or makes one call of it.** -/
theorem step_slots (s : Retention) (call : Env × Op) (d : Nat × Nat) :
    SlotsAfter s call d ((s.step call).proxies.table.dev d.1 d.2) := by
  obtain ⟨env, op⟩ := call
  have hstep := step_cases s env op
  generalize s.step (env, op) = s' at hstep ⊢
  cases hstep with
  | process => exact process_slots s env d
  | @request op hop =>
    refine .of_same ?_ (.refl _)
    cases op with
    | process => exact absurd rfl hop
    | _ => rfl
  | @table op hnotify =>
    have hdevice : s.deviceCall (env, .table op) d =
        (s.proxies.table.deviceOp env.table.iocRead op d.1 d.2).map fun deviceOp =>
          (ProxyTable.deviceEnv env.table op d.1, deviceOp) := if_neg (by simp [hnotify])
    unfold SlotsAfter
    rw [hdevice, ProxyTable.step_dev, Option.map_map]
    congr 1
    funext r
    simp only [Function.comp, ProxyTable.deviceStep]
    cases s.proxies.table.deviceOp env.table.iocRead op d.1 d.2 with
    | none | some deviceOp => rfl
  | finish cpu => exact finishNotify_slots s env cpu d
  | noTable hnotify => exact .of_same (if_pos hnotify) (.refl _)
  | _ => exact .of_same rfl (.refl _)

end Retention

/-! ### Devices that are guarded -/

namespace RetentionRun

open Retention (Env Op HookCall)

variable {x : RetentionRun} {d : Nat × Nat}

/-- The call that the boot pCPU is in has counted the device. -/
def Counted (x : RetentionRun) (d : Nat × Nat) : Prop :=
  ∃ target place, x.sys.call = some (target, place) ∧ d ∈ target.ids ∧ place.counted d

/-- The device is suspended, or the hook has counted it and has found no request so far. -/
def Guarded (x : RetentionRun) (d : Nat × Nat) : Prop :=
  (∃ target, x.window = some target ∧ d ∈ target.ids) ∨ x.Counted d

def TakesNothing (x : RetentionRun) (call : Env × Op) : Prop :=
  ∀ d, x.Guarded d → ∀ r, x.sys.proxies.table.dev d.1 d.2 = some r →
    ∀ deviceCall, x.sys.deviceCall call d = some deviceCall → r.TakesNothing deviceCall

/-- The window opens behind a call that has counted all devices. -/
theorem guarded_of_window (hinv : x.sys.Inv) {env : Env} {target : PmTarget}
    (h : x.processWindow env = some target) (hd : d ∈ target.ids) : x.Guarded d := by
  unfold processWindow at h
  split at h
  · exact .inl ⟨target, h, hd⟩
  · cases h
  next epoch hhook =>
  split at h
  · next p target' status hstep =>
    split at h
    · next hzero =>
      cases h
      subst hzero
      refine .inr ?_
      have hout := congrArg (fun out => out.2) hstep
      cases hcall : x.sys.call with
      | none =>
        -- the hook does not return zero at once
        obtain ⟨count, idx, hframe, hidx, hops⟩ := Retention.hookCall_suspend hhook
        have hclean := hinv.clean hcall (hinv.flow.not_mayHold_of_prepare hframe hidx hops)
        rw [Retention.hookStep_entry hcall] at hout
        exact absurd rfl (Retention.hookEntry_suspend hclean (congrArg Prod.snd hout))
      | some c =>
        obtain ⟨target', place⟩ := c
        obtain ⟨epoch', kind, hhook', -, -, hok⟩ := hinv.call target' place hcall
        rw [hhook] at hhook'
        cases hhook'
        rw [Retention.hookStep_call hcall] at hout
        obtain ⟨rfl, hzero⟩ := Prod.mk.inj hout
        obtain rfl := ProxyPm.step_eq_zero hok hzero
        exact ⟨_, _, hcall, hd, trivial⟩
    · exact .inl ⟨target, h, hd⟩
  · exact .inl ⟨target, h, hd⟩

/-- The call goes on to count a device. -/
theorem guarded_of_counted (hinv : x.sys.Inv) {env : Env} {target : PmTarget}
    {place : ProxyPm.Place} (h : (x.sys.process env).call = some (target, place))
    (hd : d ∈ target.ids) (hcounted : place.counted d) :
    x.Guarded d ∨ x.sys.deviceCall (env, .pm .process) d = none ∧ x.sys.proxies.activeAt d = 0 := by
  cases hhook : Retention.hookCall x.sys.pm with
  | none =>
    refine .inl (.inr ⟨target, place, ?_, hd, hcounted⟩)
    unfold Retention.process at h
    rwa [hhook] at h
  | some c =>
    obtain ⟨epoch, kind⟩ := c
    have hstep := Retention.process_call hhook h
    obtain ⟨hok, -⟩ := hinv.hookStep hhook env
    have hplace : x.sys.hookStep env epoch kind =
        ((x.sys.hookStep env epoch kind).1, target, .inl place) := by rw [← hstep]
    obtain rfl : kind = .suspend := by
      rw [hplace] at hok
      exact (hok.next place rfl).eq_suspend hcounted
    cases hcall : x.sys.call with
    | none =>
      rw [Retention.hookStep_entry hcall] at hstep
      exact absurd hcounted (Retention.hookEntry_not_counted (congrArg Prod.snd hstep))
    | some c =>
      obtain ⟨target', place'⟩ := c
      rw [Retention.hookStep_call hcall] at hstep
      obtain ⟨rfl, hout⟩ := Prod.mk.inj hstep
      rcases ProxyPm.step_counted hd hout hcounted with hbefore | ⟨hnotifies, hzero⟩
      · exact .inl (.inr ⟨_, _, hcall, hd, hbefore⟩)
      · exact .inr ⟨by simp [Retention.deviceCall, hhook, hcall, hnotifies], hzero⟩

/-- **A device is guarded once its slots are counted and found free.** -/
theorem guarded_step (hinv : x.sys.Inv) (call : Env × Op) (h : (x.step call).Guarded d) :
    x.Guarded d ∨ x.sys.deviceCall call d = none ∧ x.sys.proxies.activeAt d = 0 := by
  by_cases hop : call.2 = .pm .process
  · obtain ⟨env, op⟩ := call
    obtain rfl : op = .pm .process := hop
    rcases h with ⟨target, hwindow, hd⟩ | ⟨target, place, hcall, hd, hcounted⟩
    · exact .inl (guarded_of_window hinv hwindow hd)
    · exact guarded_of_counted hinv hcall hd hcounted
  · refine .inl ?_
    have hwindow : (x.step call).window = x.window := by
      obtain ⟨env, op⟩ := call
      cases op with
      | pm op =>
        cases op with
        | process => exact absurd rfl hop
        | _ => rfl
      | _ => rfl
    have hcall : (x.step call).sys.call = x.sys.call := (Retention.step_of_ne hop).1
    unfold Guarded Counted at h
    rw [hwindow, hcall] at h
    exact h

structure DrainInv (x : RetentionRun) : Prop where
  sys : x.sys.Inv
  bounded : ∀ d : Nat × Nat, ∀ r, x.sys.proxies.table.dev d.1 d.2 = some r → r.view.Bounded
  drained : ∀ d, x.Guarded d → ∀ r, x.sys.proxies.table.dev d.1 d.2 = some r → r.view.Drained

theorem drained_of_activeAt {p : ProxyPm} {r : ProxyRun} (hr : p.table.dev d.1 d.2 = some r)
    (hbounded : r.view.Bounded) (hzero : p.activeAt d = 0) : r.view.Drained := by
  unfold ProxyPm.activeAt at hzero
  rw [hr] at hzero
  intro i
  by_cases hi : i < r.dev.cfg.pendingLimit
  · have hempty := List.length_eq_zero_iff.mp hzero
    rw [List.filter_eq_nil_iff] at hempty
    exact Bool.eq_false_iff.mpr (hempty i (List.mem_range.mpr hi))
  · exact hbounded i (Nat.le_of_not_lt hi)

theorem DrainInv.step (hinv : DrainInv x) (call : Env × Op) (hcall : x.TakesNothing call) :
    DrainInv (x.step call) := by
  -- every device comes from one before the step
  have hbefore : ∀ (d : Nat × Nat) r', (x.step call).sys.proxies.table.dev d.1 d.2 = some r' →
      ∃ r, x.sys.proxies.table.dev d.1 d.2 = some r ∧
        r'.view = (r.afterCall (x.sys.deviceCall call d)).view := by
    intro d r' hr'
    have hslots := x.sys.step_slots call d
    unfold Retention.SlotsAfter at hslots
    have hr'' : (x.sys.step call).proxies.table.dev d.1 d.2 = some r' := hr'
    rw [hr''] at hslots
    obtain ⟨r, hr, hview⟩ := Option.map_eq_some_iff.mp hslots.symm
    exact ⟨r, hr, hview.symm⟩
  refine ⟨hinv.sys.step call, fun d r' hr' => ?_, fun d hguarded r' hr' => ?_⟩
  · obtain ⟨r, hr, hview⟩ := hbefore d r' hr'
    rw [hview]
    cases x.sys.deviceCall call d with
    | none => exact hinv.bounded d r hr
    | some deviceCall => exact ProxyRun.step_bounded deviceCall (hinv.bounded d r hr)
  · obtain ⟨r, hr, hview⟩ := hbefore d r' hr'
    rw [hview]
    rcases guarded_step hinv.sys call hguarded with hbefore | ⟨hnone, hzero⟩
    · cases hdevice : x.sys.deviceCall call d with
      | none => exact hinv.drained d hbefore r hr
      | some deviceCall =>
        exact ProxyRun.step_drained (hinv.drained d hbefore r hr)
          (hcall d hbefore r hr deviceCall hdevice)
    · rw [hnone]
      exact drained_of_activeAt hr (hinv.bounded d r hr) hzero

theorem DrainInv.boot (tickrate : Nat) (vcpus : Nat → VcpuCount)
    (cfgs : Nat → Nat → Option (ProxyConfig × List Byte))
    (others : Nat → Option (Nat × Nat × Nat)) :
    DrainInv (boot tickrate vcpus cfgs others) where
  sys := .boot tickrate vcpus cfgs others
  bounded d r hr := by
    obtain ⟨cfg, -, rfl⟩ := Option.map_eq_some_iff.mp hr
    exact fun _ _ => rfl
  drained d hguarded := by
    rcases hguarded with ⟨target, h, -⟩ | ⟨target, place, h, -⟩
    · cases h
    · cases h

/-- No device that the window covers has a request in a slot. -/
def WindowDrained (x : RetentionRun) : Prop :=
  ∀ target, x.window = some target → ∀ d ∈ target.ids, ∀ r,
    x.sys.proxies.table.dev d.1 d.2 = some r → ∀ i, (r.dev.pending i).valid = false

/-- **Suspended proxies hold no request**, in every run that takes none from a device once the
suspending call has counted it. -/
theorem suspend_window_drained (tickrate : Nat) (vcpus : Nat → VcpuCount)
    (cfgs : Nat → Nat → Option (ProxyConfig × List Byte))
    (others : Nat → Option (Nat × Nat × Nat)) (calls : List (Env × Op))
    (hcalls : Run.Along step TakesNothing (boot tickrate vcpus cfgs others) calls) :
    (Run.exec step (boot tickrate vcpus cfgs others) calls).WindowDrained := by
  have hinv : DrainInv (Run.exec step (boot tickrate vcpus cfgs others) calls) :=
    Run.inv_exec (fun x call hx hok => hx.step call hok) (.boot tickrate vcpus cfgs others) hcalls
  exact fun target hwindow d hd r hr => hinv.drained d (.inl ⟨target, hwindow, hd⟩) r hr

/-! ### A request that is polled from a suspended device -/

/-- Nothing is suspended, or the boot pCPU takes a step that passes no notification on. -/
def onlyPm (x : RetentionRun) (call : Env × Op) : Bool :=
  (x.window.isNone && x.sys.call.isNone) ||
    match call.2 with
    | .pm .process => (x.sys.call.bind fun c => c.2.notifies).isNone
    | _ => false

theorem takesNothing_of_onlyPm {call : Env × Op} (h : x.onlyPm call = true) :
    x.TakesNothing call := by
  rintro d hguarded r - deviceCall hdevice
  rcases Bool.or_eq_true_iff.mp h with hnone | hpm
  · obtain ⟨hwindow, hcall⟩ := Bool.and_eq_true_iff.mp hnone
    rw [Option.isNone_iff_eq_none] at hwindow hcall
    rcases hguarded with ⟨target, hsome, -⟩ | ⟨target, place, hsome, -⟩
    · exact absurd (hwindow.symm.trans hsome) (by simp)
    · exact absurd (hcall.symm.trans hsome) (by simp)
  · obtain ⟨env, op⟩ := call
    dsimp only at hpm
    split at hpm
    · rw [Option.isNone_iff_eq_none] at hpm
      simp [Retention.deviceCall, hpm] at hdevice
    · cases hpm

variable (front : GuestView)

/-- All VMs run, and this is in the memory of VM 0. -/
def runningEnv : Env :=
  ⟨calm, ⟨fun _ => front, fun _ => false, true, true⟩, fun _ => .zero, 0#32⟩

/-- VM 0 sets up its queue, VM 1 registers as the backend, and VM 0 is suspended. -/
def suspendFrontend : List Op :=
  [.table (.writeReg 0 0 .queueNum 1#32),
    .table (.writeReg 0 0 (.queueAddr .descLow) 0x1000#32),
    .table (.writeReg 0 0 (.queueAddr .availLow) 0x2000#32),
    .table (.writeReg 0 0 (.queueAddr .usedLow) 0x3000#32),
    .table (.writeReg 0 0 .queueReady 1#32),
    .table (.hcall 1 0x4000#64 ProxyRun.emptyIoc),
    .pm (.registerHook virtioHook),
    .pm (.setPolicy ⟨1#64, 1, 1, 2, 1, 1⟩),
    .pm (.requestVmSuspend 0)] ++ List.replicate 61 (.pm .process)

def suspendedFrontend : List (Env × Op) :=
  suspendFrontend.map fun op => (runningEnv front, op)

/-- The backend, which runs on, polls while VM 0 is suspended and its I/O is gated. -/
def poll : Env × Op :=
  (runningEnv front, .table (.hcall 1 0x4000#64
    { ProxyRun.emptyIoc with
      op := 1
      inGpa := 0x5000#64
      inLen := 256 }))

def frontendBoot : RetentionRun := boot 1 oneVcpu ProxyTable.oneDevice fun _ => none

/-- The avail ring is empty. -/
def emptyRing : GuestView := ⟨fun _ _ => 0#8, fun _ _ _ => true⟩

theorem popAvail_emptyRing {dev : MmioDev} (hnum : dev.queueNum = 1)
    (hidx : (dev.queues 0).lastAvailIdx = 0) (t queueId : Nat) :
    dev.popAvail emptyRing t queueId = none := by
  unfold MmioDev.popAvail guard
  by_cases hq : queueId = 0
  · have hread (gpa : Gpa) : emptyRing.readU16 t gpa = some 0 := rfl
    simp [MmioDev.getQueue, hq, hnum, hidx, hread]
  · simp [MmioDev.getQueue, hq, hnum]

/-- The poll reaches a suspended device, and finds nothing in its ring. -/
theorem takesNothing_poll {target : PmTarget} (hwindow : x.window = some target)
    (hcall : x.sys.call = none)
    (hempty : ∀ d ∈ target.ids, ∀ r ∈ x.sys.proxies.table.dev d.1 d.2,
      r.dev.mmio.queueNum = 1 ∧ (r.dev.mmio.queues 0).lastAvailIdx = 0) :
    x.TakesNothing (poll emptyRing) := by
  rintro d (⟨target', hwindow', hd⟩ | ⟨target', place, hcall', -⟩) r hr deviceCall hdevice queueId - t
  · obtain rfl := Option.some.inj (hwindow.symm.trans hwindow')
    obtain ⟨hnum, hidx⟩ := hempty d hd r hr
    obtain ⟨deviceOp, -, rfl⟩ := Option.map_eq_some_iff.mp hdevice
    exact popAvail_emptyRing hnum hidx t queueId
  · cases hcall.symm.trans hcall'

theorem suspend_window_drained_frontend :
    (Run.exec step frontendBoot (suspendedFrontend emptyRing ++ [poll emptyRing])).window =
        some (.vm 0) ∧
      (Run.exec step frontendBoot (suspendedFrontend emptyRing ++ [poll emptyRing])).WindowDrained := by
  have honly : Run.Along step (fun x call => x.onlyPm call = true) frontendBoot
      (suspendedFrontend emptyRing) := by
    decide +kernel
  have hcalls : Run.Along step TakesNothing frontendBoot (suspendedFrontend emptyRing) :=
    @Run.Along.mono _ _ _ _ _ (fun _ => True) (fun _ _ _ => trivial)
      (fun _ _ _ h => takesNothing_of_onlyPm h) _ _ trivial honly
  have hwindow : (Run.exec step frontendBoot (suspendedFrontend emptyRing)).window = some (.vm 0) := by
    decide +kernel
  have hpoll := takesNothing_poll hwindow (by decide +kernel) (by decide +kernel)
  exact ⟨by decide +kernel, suspend_window_drained 1 oneVcpu ProxyTable.oneDevice (fun _ => none) _
    (Run.along_append.mpr ⟨hcalls, hpoll, trivial⟩)⟩

def polledWhileSuspended : RetentionRun :=
  Run.exec step frontendBoot
    (suspendedFrontend (ProxyRun.oneRequest 1#8) ++ [poll (ProxyRun.oneRequest 1#8)])

/-- The request that VM 0 has published is taken, although the device is suspended. -/
theorem suspend_window_poll :
    polledWhileSuspended.sys.pm.host.data.state = .suspended ∧
      polledWhileSuspended.sys.pm.frame = none ∧
      hvPmVmIoIsGated 0 polledWhileSuspended.sys.pm.host.data = true ∧
      polledWhileSuspended.window = some (.vm 0) ∧
      (polledWhileSuspended.sys.proxies.table.dev 0 0).map
        (fun r => (r.dev.mmio.pmSuspended, (r.dev.pending 0).valid)) = some (true, true) := by
  decide +kernel

end RetentionRun

end BeauOs.Virtio

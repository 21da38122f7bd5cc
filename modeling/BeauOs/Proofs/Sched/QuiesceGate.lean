/-
A quiesced thread stays off its pCPU.

The watchdog asks for a vCPU to be parked with a generation of its own and polls
`is_thread_quiesced` until the idle thread has acknowledged that generation.  From then on
it works on the VM as if nobody ran it, until it releases the request.

What a caller may conclude from a true answer is stated against a history kept beside the
pCPU: for every VM the latest request that was accepted, and whether the idle thread has
acknowledged it since (`Quiescing`).  The slot the scheduler keeps has to agree with that
history, and the owner of an acknowledged slot has to be asleep (`SlotOk`).

Two things can break this, and `QuiesceStep` excludes both: a thaw replays its wake without
asking whether a request is active, and a new request keeps the generation acknowledged
last, which matches if the caller asks for that generation again.
-/
import BeauOs.Proofs.Sched.ThreadGates

namespace BeauOs.Sched

open Function

variable {D P : Type}

/-! ### Requests as their callers know them -/

/-- An accepted request. -/
structure QuiesceRequest where
  thread : Tid
  generation : Nat
  acknowledged : Bool
  deriving DecidableEq

structure Quiescing (D P : Type) where
  pcpu : Pcpu D P
  latest : Nat → Option QuiesceRequest

def Quiescing.start (s : Pcpu D P) : Quiescing D P := ⟨s, fun _ => none⟩

/-- The latest requests after a call that led from `ctl` to `ctl'`. -/
def latestAfter (ctl ctl' : SchedControl) (op : Op) (latest : Nat → Option QuiesceRequest) :
    Nat → Option QuiesceRequest :=
  match op with
  | .requestQuiesce t generation =>
    if (requestThreadQuiesce t generation ctl).2 then
      Function.update latest (ctl.thread t).vmId (some ⟨t, generation, false⟩)
    else latest
  | .ackQuiesce => fun vmId =>
    -- the idle thread withdraws the request bit of every VM it acknowledges
    if bitmapTest vmId ctl.quiesceRequestVmMask && !bitmapTest vmId ctl'.quiesceRequestVmMask then
      (latest vmId).map fun request => { request with acknowledged := true }
    else latest vmId
  | _ => latest

/-- One call, and what it adds to the history. -/
def quiescingStep (sch : AcrnScheduler D P) (x : Quiescing D P) (call : Env × Op) :
    Quiescing D P :=
  let pcpu := step sch x.pcpu call
  ⟨pcpu, latestAfter x.pcpu.ctl pcpu.ctl call.2 x.latest⟩

/--
The call is admitted, it is no thaw with a wake to replay while a request on the thread is
active, and no request for the generation its slot has acknowledged last.
-/
def QuiesceStep (x : Quiescing D P) (call : Env × Op) : Prop :=
  call.2.Valid x.pcpu.ctl ∧
    match call.2 with
    | .thaw t epoch wakeOwned =>
      (x.pcpu.ctl.thread t).freezeEpoch = epoch → threadQuiesceActive x.pcpu.ctl t = true →
        wakeOwned = false ∧ (x.pcpu.ctl.thread t).deferredWake = false
    | .requestQuiesce t generation =>
      generation ≠ (x.pcpu.ctl.quiesceSlots (x.pcpu.ctl.thread t).vmId).ackGeneration
    | _ => True

instance QuiesceStep.decidable (x : Quiescing D P) : ∀ call, Decidable (QuiesceStep x call)
  | (_, .thaw _ _ _) => inferInstanceAs (Decidable (_ ∧ (_ → _ → _ ∧ _)))
  | (_, .requestQuiesce _ _) => inferInstanceAs (Decidable (_ ∧ _ ≠ _))
  | (_, .wake _) | (_, .sleep _) | (_, .requestPriority _) | (_, .freeze _ _) | (_, .ackQuiesce)
  | (_, .releaseQuiesce _) | (_, .timer) | (_, .schedule _ _) =>
    inferInstanceAs (Decidable (_ ∧ True))

/-! ### The walk of the idle thread -/

structure RequestKept (ctl ctl' : SchedControl) (vmId : Nat) : Prop where
  thread : ctl'.thread = ctl.thread
  currObj : ctl'.currObj = ctl.currObj
  slot : ctl'.quiesceSlots vmId = ctl.quiesceSlots vmId
  bit : bitmapTest vmId ctl'.quiesceRequestVmMask = bitmapTest vmId ctl.quiesceRequestVmMask

/-- The idle thread acknowledged the request of one VM, whose owner had left the pCPU. -/
structure RequestAcked (ctl ctl' : SchedControl) (vmId : Nat) : Prop where
  owner : ∀ t ∈ (ctl.quiesceSlots vmId).obj, (ctl.thread t).status = .blocked ∧ t ≠ ctl.currObj
  slot : ctl'.quiesceSlots vmId = { ctl.quiesceSlots vmId with
    ackGeneration := (ctl.quiesceSlots vmId).requestGeneration }
  raised : bitmapTest vmId ctl.quiesceRequestVmMask = true
  withdrawn : bitmapTest vmId ctl'.quiesceRequestVmMask = false

section Walk

variable {ctl ctl' ctl'' : SchedControl} {vmId : Nat}

theorem RequestKept.refl (ctl : SchedControl) (vmId : Nat) : RequestKept ctl ctl vmId :=
  ⟨rfl, rfl, rfl, rfl⟩

theorem RequestKept.trans (h : RequestKept ctl ctl' vmId) (h' : RequestKept ctl' ctl'' vmId) :
    RequestKept ctl ctl'' vmId :=
  ⟨h'.thread.trans h.thread, h'.currObj.trans h.currObj, h'.slot.trans h.slot, h'.bit.trans h.bit⟩

theorem RequestAcked.then_kept (h : RequestAcked ctl ctl' vmId)
    (h' : RequestKept ctl' ctl'' vmId) : RequestAcked ctl ctl'' vmId :=
  ⟨h.owner, h'.slot.trans h.slot, h.raised, h'.bit.trans h.withdrawn⟩

theorem RequestKept.then_acked (h : RequestKept ctl ctl' vmId)
    (h' : RequestAcked ctl' ctl'' vmId) : RequestAcked ctl ctl'' vmId := by
  obtain ⟨howner, hslot, hraised, hwithdrawn⟩ := h'
  rw [h.slot, h.thread, h.currObj] at howner
  rw [h.slot] at hslot
  exact ⟨howner, hslot, h.bit.symm.trans hraised, hwithdrawn⟩

theorem ackQuiesceVm_other (acc : SchedControl × Bool) {visited : Nat}
    (hvisited : visited < configMaxVmNum) (hvm : vmId < configMaxVmNum) (hne : visited ≠ vmId) :
    RequestKept acc.1 (ackQuiesceVm acc visited).1 vmId := by
  unfold ackQuiesceVm
  dsimp only
  split
  · exact .refl _ _
  next t hobj =>
    split_ifs
    · refine ⟨rfl, rfl, update_of_ne hne.symm _ _, bitmapTest_clear_of_ne ?_ _⟩
      unfold configMaxVmNum at hvisited hvm
      omega
    · exact .refl _ _

/-- A visit acknowledges the request or leaves it pending. -/
theorem ackQuiesceVm_self (acc : SchedControl × Bool)
    (hbit : bitmapTest vmId acc.1.quiesceRequestVmMask = true) :
    RequestKept acc.1 (ackQuiesceVm acc vmId).1 vmId ∨
      RequestAcked acc.1 (ackQuiesceVm acc vmId).1 vmId := by
  unfold ackQuiesceVm
  dsimp only
  split
  · exact .inl (.refl _ _)
  next t hobj =>
    split_ifs with hack
    · obtain ⟨-, -, -, -, -, hblocked, -, hcur⟩ := hack
      refine .inr ⟨?_, update_self .., hbit, bitmapTest_clear _ _⟩
      intro u hu
      rw [hobj] at hu
      obtain rfl := Option.some.inj hu
      exact ⟨of_decide_eq_true hblocked, hcur.symm⟩
    · exact .inl (.refl _ _)

theorem ackWalk_other (hvm : vmId < configMaxVmNum) :
    ∀ (l : List Nat) (acc : SchedControl × Bool), (∀ v ∈ l, v < configMaxVmNum) → vmId ∉ l →
      RequestKept acc.1 (l.foldl ackQuiesceVm acc).1 vmId := by
  intro l
  induction l with
  | nil => exact fun _ _ _ => .refl _ _
  | cons v rest ih =>
    intro acc hlt hnot
    obtain ⟨hv, hlt⟩ := List.forall_mem_cons.mp hlt
    exact (ackQuiesceVm_other acc hv hvm (List.ne_of_not_mem_cons hnot).symm).trans
      (ih _ hlt (List.not_mem_of_not_mem_cons hnot))

theorem ackWalk (hvm : vmId < configMaxVmNum) :
    ∀ (l : List Nat) (acc : SchedControl × Bool), l.Nodup → (∀ v ∈ l, v < configMaxVmNum) →
      (vmId ∈ l → bitmapTest vmId acc.1.quiesceRequestVmMask = true) →
      RequestKept acc.1 (l.foldl ackQuiesceVm acc).1 vmId ∨
        RequestAcked acc.1 (l.foldl ackQuiesceVm acc).1 vmId := by
  intro l
  induction l with
  | nil => exact fun _ _ _ _ => .inl (.refl _ _)
  | cons v rest ih =>
    intro acc hnodup hlt hbit
    obtain ⟨hv, hnodup⟩ := List.nodup_cons.mp hnodup
    obtain ⟨hvlt, hlt⟩ := List.forall_mem_cons.mp hlt
    by_cases heq : v = vmId
    · -- the rest of the walk does not come back to this VM
      subst heq
      have hrest := ackWalk_other hvm rest (ackQuiesceVm acc v) hlt hv
      rcases ackQuiesceVm_self acc (hbit List.mem_cons_self) with hkept | hacked
      · exact .inl (hkept.trans hrest)
      · exact .inr (hacked.then_kept hrest)
    · have hkept := ackQuiesceVm_other acc hvlt hvm heq
      have hbit' : vmId ∈ rest →
          bitmapTest vmId (ackQuiesceVm acc v).1.quiesceRequestVmMask = true :=
        fun hmem => hkept.bit.trans (hbit (List.mem_cons_of_mem _ hmem))
      rcases ih _ hnodup hlt hbit' with hrest | hacked
      · exact .inl (hkept.trans hrest)
      · exact .inr (hkept.then_acked hacked)

/-- **What an acknowledgement pass does**, VM by VM. -/
theorem schedAckQuiesceFromIdle_request (ctl : SchedControl) (hvm : vmId < configMaxVmNum) :
    RequestKept ctl (schedAckQuiesceFromIdle ctl).1 vmId ∨
      RequestAcked ctl (schedAckQuiesceFromIdle ctl).1 vmId := by
  unfold schedAckQuiesceFromIdle
  refine ackWalk hvm _ (ctl, false) (List.nodup_range.filter _) (fun v hv => ?_) fun hv => ?_
  · exact List.mem_range.mp (List.mem_filter.mp hv).1
  · exact (List.mem_filter.mp hv).2

end Walk

/-! ### Slots and history agree -/

/-- What a slot owned by `t` says, against the latest request of the VM. -/
structure SlotOk (ctl : SchedControl) (vmId : Nat) (slot : QuiesceSlot)
    (latest : Option QuiesceRequest) (t : Tid) : Prop where
  target : ctl.Target t
  vcpu : (ctl.thread t).isVcpu = true
  vm : (ctl.thread t).vmId = vmId
  inRange : vmId < configMaxVmNum
  requested : slot.requestGeneration ≠ 0
  recorded : ∃ acknowledged, latest = some ⟨t, slot.requestGeneration, acknowledged⟩ ∧
    (slot.ackGeneration = slot.requestGeneration → acknowledged = true)
  held : slot.ackGeneration = slot.requestGeneration → ctl.Asleep t ∧ t ≠ ctl.currObj

structure QuiesceInv (Inv : Pcpu D P → Prop) (x : Quiescing D P) : Prop where
  inv : Inv x.pcpu
  slots : ∀ vmId t, (x.pcpu.ctl.quiesceSlots vmId).obj = some t →
    SlotOk x.pcpu.ctl vmId (x.pcpu.ctl.quiesceSlots vmId) (x.latest vmId) t

section Keeps

variable {sch : AcrnScheduler D P} {Inv : Pcpu D P → Prop} {x : Quiescing D P} {call : Env × Op}
  {vmId : Nat} {t : Tid}

theorem SlotOk.active {ctl : SchedControl} {latest : Option QuiesceRequest}
    (h : SlotOk ctl vmId (ctl.quiesceSlots vmId) latest t)
    (hobj : (ctl.quiesceSlots vmId).obj = some t) : threadQuiesceActive ctl t = true := by
  have hgate : ¬((ctl.thread t).isVcpu = false ∨ configMaxVmNum ≤ (ctl.thread t).vmId) := by
    rw [h.vcpu, h.vm]
    exact fun hor => hor.elim (fun e => Bool.noConfusion e) fun hle => absurd h.inRange (by omega)
  unfold threadQuiesceActive
  dsimp only
  rw [if_neg hgate, h.vm]
  exact decide_eq_true ⟨hobj, h.requested⟩

/-- No wake gets past an active request. -/
theorem QuiesceStep.wake_held (hok : QuiesceStep x call) (sch : AcrnScheduler D P)
    (hactive : threadQuiesceActive x.pcpu.ctl t = true) (hcall : call.2.wakee = some t) :
    SameView x.pcpu.ctl (step sch x.pcpu call).ctl := by
  obtain ⟨env, op⟩ := call
  cases op with
  | wake u =>
    obtain rfl := Option.some.inj hcall
    show SameView _ (wakeThread sch env u x.pcpu).ctl
    unfold wakeThread
    rw [if_pos hactive]
    exact SameView.refl _
  | thaw u epoch wakeOwned =>
    obtain rfl := Option.some.inj hcall
    show SameView _ (thawThread sch env u epoch wakeOwned x.pcpu).1.ctl
    unfold thawThread
    dsimp only
    split_ifs with hzero hepoch hreplay
    · exact SameView.refl _
    · obtain ⟨hown, hdeferred⟩ := hok.2 hepoch hactive
      rw [hown, hdeferred] at hreplay
      cases hreplay
    · exact freezeGate_view x.pcpu.ctl u 0
    · exact SameView.refl _
  | _ => cases hcall

/-- A slot that a call leaves alone stays what it was, and its owner asleep. -/
theorem SlotOk.keeps (hpol : PolicyInv sch Inv) (hinv : Inv x.pcpu) (hok : QuiesceStep x call)
    (hobj : (x.pcpu.ctl.quiesceSlots vmId).obj = some t)
    (h : SlotOk x.pcpu.ctl vmId (x.pcpu.ctl.quiesceSlots vmId) (x.latest vmId) t) :
    SlotOk (step sch x.pcpu call).ctl vmId (x.pcpu.ctl.quiesceSlots vmId) (x.latest vmId) t := by
  have hid := (step_touched sch x.pcpu call).identity t
  refine ⟨h.target.step sch call, hid.isVcpu.trans h.vcpu, hid.vmId.trans h.vm, h.inRange,
    h.requested, h.recorded, fun hack => ?_⟩
  obtain ⟨hasleep, hcur⟩ := h.held hack
  obtain ⟨hasleep', hcur'⟩ := hpol.step_asleep hinv hok.1 h.target.here hasleep
    (hok.wake_held sch (h.active hobj))
  exact ⟨hasleep', hcur' hcur⟩

/-- An accepted request takes the slot over, and nothing but a release gives it up. -/
theorem requestThreadQuiesce_slots (ctl : SchedControl) (u : Tid) (generation : Nat) :
    let out := requestThreadQuiesce u generation ctl
    (out.1.quiesceSlots = ctl.quiesceSlots ∧ out.2 = false) ∨
    (out.1.quiesceSlots = Function.update ctl.quiesceSlots (ctl.thread u).vmId
        { ctl.quiesceSlots (ctl.thread u).vmId with
          obj := some u, requestGeneration := generation } ∧
      out.2 = true ∧ (ctl.thread u).isVcpu = true ∧ generation ≠ 0 ∧
      (ctl.thread u).vmId < configMaxVmNum) := by
  unfold requestThreadQuiesce
  dsimp only
  split_ifs with hgate hfree
  · exact .inl ⟨rfl, rfl⟩
  · obtain ⟨hvcpu, hgen, hvm⟩ := not_or.mp hgate |>.imp_right not_or.mp
    exact .inr ⟨rfl, rfl, Bool.not_eq_false _ ▸ hvcpu, hgen, not_le.mp hvm⟩
  · exact .inl ⟨rfl, rfl⟩

theorem releaseThreadQuiesce_slots (ctl : SchedControl) (u : Tid) (vmId : Nat) :
    (releaseThreadQuiesce u ctl).quiesceSlots vmId = ctl.quiesceSlots vmId ∨
    ((releaseThreadQuiesce u ctl).quiesceSlots vmId = QuiesceSlot.empty ∧
      (ctl.quiesceSlots vmId).obj = some u) := by
  unfold releaseThreadQuiesce
  dsimp only
  split_ifs with hgate hown
  · exact .inl rfl
  · by_cases heq : vmId = (ctl.thread u).vmId
    · subst heq
      exact .inr ⟨update_self .., hown⟩
    · exact .inl (update_of_ne heq _ _)
  · exact .inl rfl

theorem step_ackQuiesce_slots (sch : AcrnScheduler D P) (s : Pcpu D P) (env : Env) :
    (step sch s (env, .ackQuiesce)).ctl.quiesceSlots =
        (schedAckQuiesceFromIdle s.ctl).1.quiesceSlots ∧
      (step sch s (env, .ackQuiesce)).ctl.quiesceRequestVmMask =
        (schedAckQuiesceFromIdle s.ctl).1.quiesceRequestVmMask := by
  unfold step
  dsimp only
  split <;> exact ⟨rfl, rfl⟩

/-- The walk visits no VM whose slot could not be in use. -/
theorem schedAckQuiesceFromIdle_obj (ctl : SchedControl) (vmId : Nat) :
    ((schedAckQuiesceFromIdle ctl).1.quiesceSlots vmId).obj = (ctl.quiesceSlots vmId).obj := by
  have hone : ∀ (acc : SchedControl × Bool) v,
      ((ackQuiesceVm acc v).1.quiesceSlots vmId).obj = (acc.1.quiesceSlots vmId).obj := by
    intro acc v
    unfold ackQuiesceVm
    dsimp only
    split
    · rfl
    next t hobj =>
      split_ifs
      · by_cases heq : vmId = v
        · subst heq
          dsimp only
          rw [update_self]
        · exact congrArg QuiesceSlot.obj (update_of_ne heq _ _)
      · rfl
  exact schedAckQuiesceFromIdle_keeps ctl
    (R := fun acc => (acc.1.quiesceSlots vmId).obj = (ctl.quiesceSlots vmId).obj)
    (fun acc v h => (hone acc v).trans h) rfl

theorem quiescingStep_slots (h : call.2.onSlots = false) :
    (quiescingStep sch x call).pcpu.ctl.quiesceSlots = x.pcpu.ctl.quiesceSlots :=
  (step_touched sch x.pcpu call).slots h

/-- **One call keeps slots and history in agreement.** -/
theorem QuiesceInv.keeps (hpol : PolicyInv sch Inv) (h : QuiesceInv Inv x)
    (hok : QuiesceStep x call) : QuiesceInv Inv (quiescingStep sch x call) := by
  refine ⟨hpol.step call h.inv hok.1, fun vmId t hobj => ?_⟩
  have hkeeps := fun hobj => (h.slots vmId t hobj).keeps hpol h.inv hok hobj
  obtain ⟨env, op⟩ := call
  cases op with
  | requestQuiesce u generation =>
    have hslots := requestThreadQuiesce_slots x.pcpu.ctl u generation
    show SlotOk _ vmId ((requestThreadQuiesce u generation x.pcpu.ctl).1.quiesceSlots vmId)
      ((if (requestThreadQuiesce u generation x.pcpu.ctl).2 then
        Function.update x.latest (x.pcpu.ctl.thread u).vmId (some ⟨u, generation, false⟩)
        else x.latest) vmId) t
    replace hobj :
      ((requestThreadQuiesce u generation x.pcpu.ctl).1.quiesceSlots vmId).obj = some t := hobj
    rcases hslots with ⟨hslot, hres⟩ | ⟨hslot, hres, hvcpu, hgen, hvm⟩
    · rw [hslot] at hobj ⊢
      rw [hres]
      exact hkeeps hobj
    rw [hslot] at hobj ⊢
    rw [if_pos hres]
    by_cases heq : vmId = (x.pcpu.ctl.thread u).vmId
    · subst heq
      rw [update_self] at hobj ⊢
      rw [update_self]
      obtain rfl := Option.some.inj hobj
      have hid := (step_touched sch x.pcpu (env, .requestQuiesce u generation)).identity u
      -- the new generation is not the one acknowledged last
      have hnew : (x.pcpu.ctl.quiesceSlots (x.pcpu.ctl.thread u).vmId).ackGeneration ≠
        generation := hok.2.symm
      refine ⟨SchedControl.Target.step ?_ sch _, hid.isVcpu.trans hvcpu, hid.vmId, hvm, hgen,
        ⟨false, rfl, fun e => absurd e hnew⟩, fun e => absurd e hnew⟩
      obtain ⟨hidle, hmem, hlocal⟩ := hok.1 u rfl
      exact ⟨hidle, hmem, hlocal⟩
    · rw [update_of_ne heq] at hobj ⊢
      rw [update_of_ne heq]
      exact hkeeps hobj
  | ackQuiesce =>
    obtain ⟨hslots, hmask⟩ := step_ackQuiesce_slots sch x.pcpu env
    have hslot : (quiescingStep sch x (env, .ackQuiesce)).pcpu.ctl.quiesceSlots vmId =
      (schedAckQuiesceFromIdle x.pcpu.ctl).1.quiesceSlots vmId := congrFun hslots vmId
    have hlatest : (quiescingStep sch x (env, .ackQuiesce)).latest vmId =
        if bitmapTest vmId x.pcpu.ctl.quiesceRequestVmMask &&
          !bitmapTest vmId (schedAckQuiesceFromIdle x.pcpu.ctl).1.quiesceRequestVmMask then
          (x.latest vmId).map fun request => { request with acknowledged := true }
        else x.latest vmId := by
      rw [← hmask]
      rfl
    rw [hslot] at hobj ⊢
    rw [hlatest]
    have hobj' : (x.pcpu.ctl.quiesceSlots vmId).obj = some t := by
      rw [schedAckQuiesceFromIdle_obj] at hobj
      exact hobj
    have hold := hkeeps hobj'
    rcases schedAckQuiesceFromIdle_request x.pcpu.ctl hold.inRange with hkept | hacked
    · rw [hkept.slot, hkept.bit, Bool.and_not_self]
      exact hold
    rw [hacked.slot, hacked.raised, hacked.withdrawn]
    obtain ⟨acknowledged, hrec, -⟩ := hold.recorded
    rw [hrec]
    refine ⟨hold.target, hold.vcpu, hold.vm, hold.inRange, hold.requested,
      ⟨true, rfl, fun _ => rfl⟩, fun _ => ?_⟩
    obtain ⟨hblocked, hcur⟩ := hacked.owner t hobj'
    obtain ⟨hasleep, hcur'⟩ := hpol.step_asleep (t := t) h.inv hok.1
      (h.slots vmId t hobj').target.here (.inl hblocked) nofun
    exact ⟨hasleep, hcur' hcur⟩
  | releaseQuiesce u =>
    rcases releaseThreadQuiesce_slots x.pcpu.ctl u vmId with hslot | ⟨hslot, -⟩
    · replace hobj : ((releaseThreadQuiesce u x.pcpu.ctl).quiesceSlots vmId).obj = some t := hobj
      show SlotOk _ vmId ((releaseThreadQuiesce u x.pcpu.ctl).quiesceSlots vmId) _ t
      rw [hslot] at hobj ⊢
      exact hkeeps hobj
    · replace hobj : ((releaseThreadQuiesce u x.pcpu.ctl).quiesceSlots vmId).obj = some t := hobj
      rw [hslot] at hobj
      cases hobj
  | _ =>
    rw [quiescingStep_slots rfl] at hobj ⊢
    exact hkeeps hobj

/-! ### A request that stands -/

structure SchedControl.Parked (ctl : SchedControl) (t : Tid) : Prop where
  blocked : (ctl.thread t).status = .blocked
  not_blocking : (ctl.thread t).beBlocking = false
  not_current : ctl.currObj ≠ t

theorem isThreadQuiesced_iff {ctl : SchedControl} {generation : Nat} :
    isThreadQuiesced ctl t generation = true ↔
      ((ctl.thread t).isVcpu = true ∧ generation ≠ 0 ∧ (ctl.thread t).vmId < configMaxVmNum) ∧
        ctl.quiesceSlots (ctl.thread t).vmId = ⟨some t, generation, generation⟩ := by
  unfold isThreadQuiesced
  dsimp only
  split_ifs with hgate
  · refine iff_of_false id ?_
    rintro ⟨⟨hvcpu, hgen, hvm⟩, -⟩
    rcases hgate with hg | hg | hg
    · rw [hvcpu] at hg
      cases hg
    · exact hgen hg
    · omega
  · obtain ⟨hvcpu, hgen, hvm⟩ := not_or.mp hgate |>.imp_right not_or.mp
    rw [and_iff_right ⟨Bool.not_eq_false _ ▸ hvcpu, hgen, not_le.mp hvm⟩]
    generalize ctl.quiesceSlots (ctl.thread t).vmId = slot
    obtain ⟨obj, requested, acked⟩ := slot
    simp [and_assoc]

/-- The call neither releases the request on `t` nor is a request for its slot. -/
def Op.KeepsRequest (ctl : SchedControl) (t : Tid) : Op → Prop
  | .releaseQuiesce u => u ≠ t
  | .requestQuiesce u _ => (ctl.thread u).vmId ≠ (ctl.thread t).vmId
  | _ => True

instance Op.KeepsRequest.decidable (ctl : SchedControl) (t : Tid) :
    ∀ op, Decidable (Op.KeepsRequest ctl t op)
  | .releaseQuiesce u => inferInstanceAs (Decidable (u ≠ t))
  | .requestQuiesce u _ => inferInstanceAs (Decidable ((ctl.thread u).vmId ≠ (ctl.thread t).vmId))
  | .wake _ | .sleep _ | .requestPriority _ | .freeze _ _ | .thaw _ _ _ | .ackQuiesce | .timer
  | .schedule _ _ => isTrue trivial

/-- An acknowledged request stands until it is released or replaced. -/
theorem quiesced_keeps {generation : Nat}
    (hq : isThreadQuiesced x.pcpu.ctl t generation = true)
    (hstands : call.2.KeepsRequest x.pcpu.ctl t) :
    isThreadQuiesced (quiescingStep sch x call).pcpu.ctl t generation = true := by
  obtain ⟨⟨hvcpu, hgen, hvm⟩, hslot⟩ := isThreadQuiesced_iff.mp hq
  have hid : (x.pcpu.ctl.thread t).SameIdentity ((quiescingStep sch x call).pcpu.ctl.thread t) :=
    (step_touched sch x.pcpu call).identity t
  refine isThreadQuiesced_iff.mpr ⟨⟨hid.isVcpu.trans hvcpu, hgen, hid.vmId.trans_lt hvm⟩, ?_⟩
  rw [hid.vmId, ← hslot]
  obtain ⟨env, op⟩ := call
  cases op with
  | requestQuiesce u generation =>
    show (requestThreadQuiesce u generation x.pcpu.ctl).1.quiesceSlots _ = _
    rcases requestThreadQuiesce_slots x.pcpu.ctl u generation with ⟨h, -⟩ | ⟨h, -⟩
    · rw [h]
    · rw [h]
      exact update_of_ne (Ne.symm hstands) _ _
  | ackQuiesce =>
    have hslots := congrFun (step_ackQuiesce_slots sch x.pcpu env).1 (x.pcpu.ctl.thread t).vmId
    refine Eq.trans hslots ?_
    rcases schedAckQuiesceFromIdle_request x.pcpu.ctl hvm with hkept | hacked
    · exact hkept.slot
    · -- acknowledged once more, with the same generation
      rw [hacked.slot, hslot]
  | releaseQuiesce u =>
    rcases releaseThreadQuiesce_slots x.pcpu.ctl u (x.pcpu.ctl.thread t).vmId with h | ⟨-, hobj⟩
    · exact h
    · rw [hslot] at hobj
      exact absurd (Option.some.inj hobj).symm hstands
  | _ => rw [quiescingStep_slots rfl]

/-- Who is told that a thread is quiesced may rely on it. -/
theorem QuiesceInv.quiesced {generation : Nat} (hpol : PolicyInv sch Inv) (h : QuiesceInv Inv x)
    (hq : isThreadQuiesced x.pcpu.ctl t generation = true) :
    x.latest (x.pcpu.ctl.thread t).vmId = some ⟨t, generation, true⟩ ∧ x.pcpu.ctl.Parked t := by
  obtain ⟨-, hslot⟩ := isThreadQuiesced_iff.mp hq
  have hok := h.slots (x.pcpu.ctl.thread t).vmId t (by rw [hslot])
  rw [hslot] at hok
  obtain ⟨acknowledged, hrec, hack⟩ := hok.recorded
  obtain ⟨hasleep, hcur⟩ := hok.held rfl
  obtain ⟨hst, hnb⟩ := (hpol.ctl h.inv).blocked_of_asleep hok.target.here hasleep hcur
  rw [hack rfl] at hrec
  exact ⟨hrec, hst, hnb, hcur.symm⟩

end Keeps

/-! ### Runs -/

/--
A true answer of `is_thread_quiesced` means that the latest request is for this thread and
generation and has been acknowledged since, and from then on, until the request is released
or replaced, the thread is BLOCKED, not about to block and not current.
-/
def QuiesceGate (sch : AcrnScheduler D P) (s : Pcpu D P) : Prop :=
  ∀ calls, Run.Along (quiescingStep sch) QuiesceStep (.start s) calls →
    ∀ t generation,
      let x := Run.exec (quiescingStep sch) (.start s) calls
      isThreadQuiesced x.pcpu.ctl t generation = true →
      x.latest (x.pcpu.ctl.thread t).vmId = some ⟨t, generation, true⟩ ∧
      ∀ later, Run.Along (quiescingStep sch)
          (fun y c => QuiesceStep y c ∧ c.2.KeepsRequest y.pcpu.ctl t) x later →
        (Run.exec (quiescingStep sch) x later).pcpu.ctl.Parked t

theorem quiesceGate_of_policyInv {sch : AcrnScheduler D P} {Inv : Pcpu D P → Prop}
    (hpol : PolicyInv sch Inv) {s : Pcpu D P} (hinv : Inv s)
    (hempty : ∀ vmId, (s.ctl.quiesceSlots vmId).obj = none) : QuiesceGate sch s := by
  intro calls hrun t generation x hq
  have hstart : QuiesceInv Inv (.start s) := by
    refine ⟨hinv, fun vmId t hobj => ?_⟩
    have hnone : (s.ctl.quiesceSlots vmId).obj = some t := hobj
    rw [hempty vmId] at hnone
    cases hnone
  have hx : QuiesceInv Inv x := Run.inv_exec (fun _ _ h hok => h.keeps hpol hok) hstart hrun
  refine ⟨(hx.quiesced hpol hq).1, fun later hlater => ?_⟩
  have hkeeps : ∀ (y : Quiescing D P) (c : Env × Op),
      QuiesceInv Inv y ∧ isThreadQuiesced y.pcpu.ctl t generation = true →
      QuiesceStep y c ∧ c.2.KeepsRequest y.pcpu.ctl t →
      QuiesceInv Inv (quiescingStep sch y c) ∧
        isThreadQuiesced (quiescingStep sch y c).pcpu.ctl t generation = true := by
    rintro y c ⟨hy, hqy⟩ ⟨hok, hstands⟩
    exact ⟨hy.keeps hpol hok, quiesced_keeps hqy hstands⟩
  obtain ⟨hy, hqy⟩ := Run.inv_exec hkeeps ⟨hx, hq⟩ hlater
  exact (hy.quiesced hpol hqy).2

/--
**The quiesce gate holds** under every policy, from boot and along every run whose steps all
meet `QuiesceStep`: a thaw under an active request has no wake to replay, and a request is
not for the generation its slot has acknowledged last.
-/
theorem quiesce_gate (bvt : BootConfig BvtData) (cbs : BootConfig CbsData)
    (rtds : BootConfig RtdsData) (bfp : BootConfig BfpData) (arinc : BootConfig Unit) :
    QuiesceGate schedBvt (bvt.boot BvtControl.init) ∧
    QuiesceGate schedCbs (cbs.boot CbsControl.init) ∧
    (rtds.Fresh RtdsData.IsInit → QuiesceGate schedRtds (rtds.boot RtdsControl.init)) ∧
    (bfp.Fresh BfpData.IsInit → QuiesceGate schedBfp (bfp.boot BfpControl.init)) ∧
    ∀ p : ArincState, QuiesceGate schedArinc653 ⟨(arinc.boot p.priv).ctl, p⟩ :=
  PolicyInv.everyPolicy (fun hpol hinv hempty => quiesceGate_of_policyInv hpol hinv hempty)
    bvt cbs rtds bfp arinc

/-- A vCPU is put to sleep while it runs, and parked. -/
def parked : List (Env × Op) :=
  [(⟨1, true⟩, .wake 1), (⟨2, true⟩, .schedule false false), (⟨3, true⟩, .sleep 1),
    (⟨4, false⟩, .requestQuiesce 1 3), (⟨5, true⟩, .schedule false false),
    (⟨6, true⟩, .ackQuiesce)]

/-- A pCPU with one vCPU after some calls, under CBS. -/
def quiescedCbs (calls : List (Env × Op)) : Quiescing CbsData CbsControl :=
  Run.exec (quiescingStep schedCbs)
    (.start ((BootConfig.single (CbsData.init halfOfTen 0)).boot CbsControl.init)) calls

/-- Everybody tries to wake it. -/
def wokenWhileParked : List (Env × Op) :=
  [(⟨7, false⟩, .wake 1), (⟨8, false⟩, .freeze 1 7), (⟨9, false⟩, .wake 1),
    (⟨10, false⟩, .thaw 1 7 false), (⟨11, true⟩, .schedule false false)]

theorem quiesce_gate_parked :
    isThreadQuiesced (quiescedCbs parked).pcpu.ctl 1 3 = true ∧
      (quiescedCbs parked).latest ((quiescedCbs parked).pcpu.ctl.thread 1).vmId = some ⟨1, 3, true⟩ ∧
      (Run.exec (quiescingStep schedCbs) (quiescedCbs parked) wokenWhileParked).pcpu.ctl.Parked 1 := by
  obtain ⟨-, hcbs, -⟩ := quiesce_gate (.single plainBvt) (.single (CbsData.init halfOfTen 0))
    (.single (RtdsData.init halfOfTen 0)) (.single (BfpData.init halfOfTen 1 0)) (.single ())
  have hq : isThreadQuiesced (quiescedCbs parked).pcpu.ctl 1 3 = true := by decide
  obtain ⟨hlatest, hheld⟩ := hcbs parked (by decide) 1 3 hq
  exact ⟨hq, hlatest, hheld wokenWhileParked (by decide)⟩

/-- A vCPU is frozen while it runs, and parked; the freeze owns a wake. -/
def parkedFrozen : List (Env × Op) :=
  [(⟨1, true⟩, .wake 1), (⟨2, true⟩, .schedule false false), (⟨3, false⟩, .freeze 1 7),
    (⟨4, false⟩, .requestQuiesce 1 3), (⟨5, true⟩, .schedule false false),
    (⟨6, true⟩, .ackQuiesce)]

/-- The thaw with the wake the freeze owns. -/
def thawOwned : List (Env × Op) := [(⟨7, false⟩, .thaw 1 7 true)]

/-- A generation is requested once more after it was acknowledged. -/
def askedAgain : List (Env × Op) :=
  [(⟨1, false⟩, .requestQuiesce 1 3), (⟨2, true⟩, .ackQuiesce), (⟨3, false⟩, .requestQuiesce 1 3)]

/--
Without the condition the gate leaks: a thaw makes a quiesced thread RUNNABLE, and a request
counts as acknowledged before the idle thread has seen it.
-/
theorem quiesce_gate_leaks :
    (Admitted schedCbs (.single (CbsData.init halfOfTen 0)) CbsControl.init
        (parkedFrozen ++ thawOwned) ∧
      isThreadQuiesced (quiescedCbs parkedFrozen).pcpu.ctl 1 3 = true ∧
      isThreadQuiesced (quiescedCbs (parkedFrozen ++ thawOwned)).pcpu.ctl 1 3 = true ∧
      ((quiescedCbs (parkedFrozen ++ thawOwned)).pcpu.ctl.thread 1).status = .runnable) ∧
    (Admitted schedCbs (.single (CbsData.init halfOfTen 0)) CbsControl.init askedAgain ∧
      isThreadQuiesced (quiescedCbs askedAgain).pcpu.ctl 1 3 = true ∧
      (quiescedCbs askedAgain).latest 0 = some ⟨1, 3, false⟩) := by
  refine ⟨⟨?_, ?_, ?_, ?_⟩, ?_, ?_, ?_⟩ <;> decide

end BeauOs.Sched

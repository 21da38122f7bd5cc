/-
What the calls of a proxy device do to its pending slots.

Seen from the slots there are five moves: a request is taken from the avail ring and kept in the
first free slot, or taken and lost because its chain could not be copied; the first unsent request
of a queue is handed to the backend; a request that was handed out is settled; and all requests
that were handed out wait again when the backend is lost.  Every call, with all its failure exits,
is a sequence of these moves (`step_reaches`), and the laws about requests are proved of the moves.
-/
import BeauOs.Lib.Ledger
import BeauOs.Lib.Run
import BeauOs.Proofs.Virtio.Reply

namespace BeauOs.Virtio

/-! ### Register writes -/

namespace MmioDev

/-- What is deferred and whether the device is suspended are the same. -/
structure SamePm (dev dev' : MmioDev) : Prop where
  suspended : dev'.pmSuspended = dev.pmSuspended
  epoch : dev'.pmEpoch = dev.pmEpoch
  deferred : dev'.deferredQueueMask = dev.deferredQueueMask
  queueNum : dev'.queueNum = dev.queueNum

variable (dev : MmioDev)

theorem SamePm.refl : SamePm dev dev := ⟨rfl, rfl, rfl, rfl⟩

theorem SamePm.trans {dev dev' dev'' : MmioDev} (h : SamePm dev dev') (h' : SamePm dev' dev'') :
    SamePm dev dev'' :=
  ⟨h'.suspended.trans h.suspended, h'.epoch.trans h.epoch, h'.deferred.trans h.deferred,
    h'.queueNum.trans h.queueNum⟩

theorem SamePm.updateIrq : SamePm dev dev.updateIrq := by
  unfold MmioDev.updateIrq
  split
  · exact ⟨rfl, rfl, rfl, rfl⟩
  split
  · exact ⟨rfl, rfl, rfl, rfl⟩
  · exact .refl dev

theorem SamePm.raiseUsedIrq : SamePm dev dev.raiseUsedIrq := by
  have h := SamePm.updateIrq { dev with interruptStatus := dev.interruptStatus ||| 1#32 }
  exact ⟨h.suspended, h.epoch, h.deferred, h.queueNum⟩

/-- No register but the status and the notification reaches the device behind the transport. -/
theorem writeReg_quiet (gated : Bool) {reg : Reg} {value : BitVec 32} (hnotify : reg ≠ .queueNotify)
    (hreset : ¬(reg = .status ∧ value = 0#32)) :
    SamePm dev (dev.writeReg gated reg value).1 ∧
      ((dev.writeReg gated reg value).2 = .none ∨
        ∃ queueId, (dev.writeReg gated reg value).2 = .queueReady queueId) := by
  have hkeep : ∀ {dev' : MmioDev}, SamePm dev dev' → SamePm dev dev' ∧
      (OpsCall.none = .none ∨ ∃ queueId, OpsCall.none = .queueReady queueId) :=
    fun hsame => ⟨hsame, .inl rfl⟩
  cases reg with
  | queueNotify => exact absurd rfl hnotify
  | status =>
    simp only [writeReg, writeStatus, if_neg fun h => hreset ⟨rfl, h⟩]
    split
    · exact hkeep ⟨rfl, rfl, rfl, rfl⟩
    · exact hkeep ⟨rfl, rfl, rfl, rfl⟩
  | driverFeatures =>
    simp only [writeReg]
    split
    · exact hkeep ⟨rfl, rfl, rfl, rfl⟩
    · exact hkeep ⟨rfl, rfl, rfl, rfl⟩
  | queueNum =>
    simp only [writeReg]
    split
    · exact hkeep (.refl dev)
    split
    · exact hkeep ⟨rfl, rfl, rfl, rfl⟩
    · exact hkeep (.refl dev)
  | queueReady =>
    simp only [writeReg]
    split
    · exact hkeep (.refl dev)
    split
    · exact hkeep ⟨rfl, rfl, rfl, rfl⟩
    · exact ⟨⟨rfl, rfl, rfl, rfl⟩, .inr ⟨_, rfl⟩⟩
  | queueAddr =>
    simp only [writeReg]
    split
    · exact hkeep (.refl dev)
    · exact hkeep ⟨rfl, rfl, rfl, rfl⟩
  | interruptAck =>
    have hirq := SamePm.updateIrq { dev with interruptStatus := dev.interruptStatus &&& ~~~value }
    exact hkeep ⟨hirq.suspended, hirq.epoch, hirq.deferred, hirq.queueNum⟩
  | deviceFeaturesSel | driverFeaturesSel | queueSel => exact hkeep ⟨rfl, rfl, rfl, rfl⟩

end MmioDev

open BeauOs.Pm

variable {mem : GuestView} {t : Nat} {queueId head : Nat}

/-- Popping a head moves the index of its queue on, and changes nothing else. -/
theorem popAvail_eq_some {dev dev' : MmioDev}
    (h : dev.popAvail mem t queueId = some (head, dev')) :
    ∃ vq, dev.getQueue queueId = some vq ∧
      dev' = dev.setQueue queueId { vq with lastAvailIdx := (vq.lastAvailIdx + 1) % ringWrap } := by
  obtain ⟨vq, hvq, hvalid⟩ := Option.bind_eq_some_iff.mp h
  obtain ⟨_, -, havail⟩ := Option.bind_eq_some_iff.mp hvalid
  obtain ⟨availIdx, -, hnew⟩ := Option.bind_eq_some_iff.mp havail
  obtain ⟨_, -, hhead⟩ := Option.bind_eq_some_iff.mp hnew
  obtain ⟨head', -, hpure⟩ := Option.bind_eq_some_iff.mp hhead
  exact ⟨vq, hvq, (Prod.mk.inj (Option.some.inj hpure)).2.symm⟩

theorem MmioDev.SamePm.popAvail {dev dev' : MmioDev}
    (h : dev.popAvail mem t queueId = some (head, dev')) : SamePm dev dev' := by
  obtain ⟨vq, -, rfl⟩ := popAvail_eq_some h
  exact ⟨rfl, rfl, rfl, rfl⟩

/-- A head that was popped from the avail ring of a queue. -/
structure Request where
  queueId : Nat
  head : Nat
  deriving DecidableEq

/-- The books of a device, kept from its log. -/
def ledgerEvent (l : Ledger Request) : ProxyEvent → Ledger Request
  | .popped queueId head => l.take ⟨queueId, head⟩
  | .kept slot => l.keep slot
  | .handed slot => l.hand slot
  | .published slot queueId head => l.settle slot ⟨queueId, head⟩
  | .wroteDesc _ _ | .wroteUsed _ _ | .wroteCaller _ _ => l

def ProxyRun.ledger (r : ProxyRun) : Ledger Request := r.log.foldl ledgerEvent .empty

/-! ### The moves -/

/-- The slots of a device and its books. -/
structure SlotView where
  limit : Nat
  pending : Nat → Pending
  ledger : Ledger Request

inductive Move
  | keep (slot : Nat) (p : Pending)
  | lose (slot : Nat) (request : Request)
  | hand (slot : Nat)
  | settle (slot : Nat)
  | unsend

namespace SlotView

def findSlot (v : SlotView) (accept : Pending → Bool) : Option Nat :=
  (List.range v.limit).find? fun i => accept (v.pending i)

def setSlot (v : SlotView) (slot : Nat) (p : Pending) : SlotView :=
  { v with pending := fun i => if i = slot then p else v.pending i }

def unsent (v : SlotView) (i : Nat) : Pending :=
  let p := v.pending i
  if i < v.limit ∧ p.valid ∧ p.sent ∧ p.done = false then { p with sent := false } else p

def apply (v : SlotView) : Move → SlotView
  | .keep slot p =>
    { v.setSlot slot p with ledger := (v.ledger.take ⟨p.queueId, p.head⟩).keep slot }
  | .lose slot request => { v.setSlot slot .zero with ledger := v.ledger.take request }
  | .hand slot =>
    { v.setSlot slot { v.pending slot with sent := true } with ledger := v.ledger.hand slot }
  | .settle slot =>
    { v.setSlot slot { Pending.zero with done := true } with
      ledger := v.ledger.settle slot ⟨(v.pending slot).queueId, (v.pending slot).head⟩ }
  | .unsend => { v with pending := v.unsent }

/-- When the code makes a move. -/
def Enabled (v : SlotView) : Move → Prop
  | .keep slot p => v.findSlot Pending.isFree = some slot ∧
      p.valid = true ∧ p.sent = false ∧ p.done = false
  | .lose slot _ => v.findSlot Pending.isFree = some slot
  | .hand slot => ∃ queueId, v.findSlot (Pending.isUnsent · queueId) = some slot
  | .settle slot => ∃ queueId head, v.findSlot (Pending.isSent · queueId head) = some slot
  | .unsend => True

/-- `v'` comes from `v` by moves that `ok` accepts. -/
def Reaches (ok : SlotView → Move → Prop) (v v' : SlotView) : Prop :=
  ∃ moves, Run.Along apply ok v moves ∧ Run.exec apply v moves = v'

namespace Reaches

variable {ok : SlotView → Move → Prop} {v v' v'' : SlotView}

theorem refl (v : SlotView) : Reaches ok v v := ⟨[], trivial, rfl⟩

theorem of_eq (h : v' = v) : Reaches ok v v' := by
  rw [h]
  exact refl v

theorem single {m : Move} (h : ok v m) : Reaches ok v (v.apply m) := ⟨[m], ⟨h, trivial⟩, rfl⟩

theorem trans (h : Reaches ok v v') (h' : Reaches ok v' v'') : Reaches ok v v'' := by
  obtain ⟨ms, hms, rfl⟩ := h
  obtain ⟨ms', hms', rfl⟩ := h'
  exact ⟨ms ++ ms', Run.along_append.mpr ⟨hms, hms'⟩, Run.exec_append v ms ms'⟩

/-- What every accepted move keeps holds at the end. -/
theorem inv (h : Reaches ok v v') (Inv : SlotView → Prop)
    (hstep : ∀ v m, Inv v → ok v m → Inv (v.apply m)) (hv : Inv v) : Inv v' := by
  obtain ⟨ms, hms, rfl⟩ := h
  exact Run.inv_exec hstep hv hms

end Reaches

end SlotView

theorem SlotView.setSlot_self (v : SlotView) (slot : Nat) (p : Pending) :
    (v.setSlot slot p).pending slot = p := if_pos rfl

theorem SlotView.setSlot_of_ne (v : SlotView) {slot i : Nat} (p : Pending) (h : i ≠ slot) :
    (v.setSlot slot p).pending i = v.pending i := if_neg h

/-! ### Finding slots -/

section FindSlot

variable {v : SlotView} {accept : Pending → Bool} {slot : Nat}

theorem SlotView.findSlot_eq_some :
    v.findSlot accept = some slot ↔
      accept (v.pending slot) = true ∧ slot < v.limit ∧
        ∀ i < slot, accept (v.pending i) = false := by
  unfold SlotView.findSlot
  rw [List.find?_range_eq_some]
  simp

theorem SlotView.findSlot_eq_none :
    v.findSlot accept = none ↔ ∀ i < v.limit, accept (v.pending i) = false := by
  unfold SlotView.findSlot
  rw [List.find?_range_eq_none]
  simp

variable {p : Pending}

theorem Pending.isFree_iff : p.isFree = true ↔ p.valid = false ∧ p.sent = false := by
  simp [Pending.isFree]

theorem Pending.isUnsent_iff {queueId : Nat} :
    p.isUnsent queueId = true ↔ p.valid = true ∧ p.sent = false ∧ p.queueId = queueId := by
  simp [Pending.isUnsent, and_assoc]

theorem Pending.isSent_iff :
    p.isSent queueId head = true ↔
      p.valid = true ∧ p.sent = true ∧ p.queueId = queueId ∧ p.head = head := by
  simp [Pending.isSent, and_assoc]

end FindSlot

/-! ### What serving a request leaves alone -/

namespace ProxyRun

def view (r : ProxyRun) : SlotView := ⟨r.dev.cfg.pendingLimit, r.dev.pending, r.ledger⟩

variable {r r' r'' : ProxyRun} {front back : GuestView} {queueId slot : Nat}

theorem view_append (r : ProxyRun) (dev : ProxyDev) (events : List ProxyEvent) :
    (ProxyRun.mk dev (r.log ++ events)).view =
      ⟨dev.cfg.pendingLimit, dev.pending, events.foldl ledgerEvent r.ledger⟩ := by
  unfold view ProxyRun.ledger
  rw [List.foldl_append]

/-- The device is served by whom it was served before. -/
structure SameBackend (r r' : ProxyRun) : Prop where
  cfg : r'.dev.cfg = r.dev.cfg
  registered : r'.dev.hcallBackendRegistered = r.dev.hcallBackendRegistered
  backendVmid : r'.dev.backendVmid = r.dev.backendVmid

/-- Neither the backend nor what is deferred or suspended has changed. -/
structure SameDevice (r r' : ProxyRun) : Prop extends SameBackend r r' where
  pm : MmioDev.SamePm r.dev.mmio r'.dev.mmio

theorem SameDevice.refl (r : ProxyRun) : SameDevice r r := ⟨⟨rfl, rfl, rfl⟩, .refl _⟩

theorem SameDevice.trans (h : SameDevice r r') (h' : SameDevice r' r'') : SameDevice r r'' :=
  ⟨⟨h'.cfg.trans h.cfg, h'.registered.trans h.registered, h'.backendVmid.trans h.backendVmid⟩,
    h.pm.trans h'.pm⟩

/-- What is done to the memory of the frontend. -/
def IsFrontWrite : ProxyEvent → Bool
  | .wroteDesc _ _ | .wroteUsed _ _ | .published _ _ _ => true
  | .popped _ _ | .kept _ | .handed _ | .wroteCaller _ _ => false

/-- The memory of the frontend is left alone. -/
structure Quiet (r r' : ProxyRun) : Prop where
  same : SameDevice r r'
  log : ∃ events, r'.log = r.log ++ events ∧ ∀ e ∈ events, IsFrontWrite e = false

/-- Some events that write no frontend memory are logged. -/
theorem Quiet.of_append {dev : ProxyDev} (events : List ProxyEvent)
    (hsame : SameDevice r ⟨dev, r.log ++ events⟩) (hquiet : events.all (!IsFrontWrite ·) = true) :
    Quiet r ⟨dev, r.log ++ events⟩ :=
  ⟨hsame, events, rfl, fun e he => by simpa using List.all_eq_true.mp hquiet e he⟩

/-! ### Calls and their parts

Calls are loops over a few operations.  A relation that composes and holds of these operations
holds of the calls. -/

structure Composes (R : ProxyRun → ProxyRun → Prop) : Prop where
  refl : ∀ r, R r r
  trans : ∀ {r r' r''}, R r r' → R r' r'' → R r r''

theorem composes_quiet : Composes Quiet where
  refl r := ⟨.refl r, [], (List.append_nil _).symm, nofun⟩
  trans h h' := by
    obtain ⟨hsame, events, hlog, hquiet⟩ := h
    obtain ⟨hsame', events', hlog', hquiet'⟩ := h'
    refine ⟨hsame.trans hsame', events ++ events', by rw [hlog', hlog, List.append_assoc], ?_⟩
    intro e he
    rcases List.mem_append.mp he with he | he
    · exact hquiet e he
    · exact hquiet' e he

/-- Seen from the slots, the call is a sequence of moves that `ok` accepts. -/
def Moves (ok : SlotView → Move → Prop) (r r' : ProxyRun) : Prop :=
  SlotView.Reaches ok r.view r'.view

theorem composes_moves (ok : SlotView → Move → Prop) : Composes (Moves ok) :=
  ⟨fun r => .refl r.view, .trans⟩

theorem Moves.single {ok : SlotView → Move → Prop} {m : Move} (hview : r'.view = r.view.apply m)
    (hm : ok r.view m) : Moves ok r r' := by
  unfold Moves
  rw [hview]
  exact .single hm

variable {R : ProxyRun → ProxyRun → Prop}

/-! ### Taking requests -/

theorem copyChainToPending_new {dev : MmioDev} {t head : Nat} {p : Pending}
    (h : copyChainToPending dev front t queueId head = some p) :
    p.valid = true ∧ p.sent = false ∧ p.done = false ∧ p.queueId = queueId ∧ p.head = head := by
  unfold copyChainToPending at h
  split at h
  · cases h
  · obtain ⟨acc, -, rfl⟩ := Option.map_eq_some_iff.mp h
    exact ⟨rfl, rfl, rfl, rfl, rfl⟩

inductive TakeSpec (front : GuestView) (t queueId slot : Nat) (r : ProxyRun) :
    Taken → ProxyRun → Prop
  | empty : TakeSpec front t queueId slot r .empty r
  | failed {r' : ProxyRun} {head : Nat}
      (hpop : r.dev.mmio.popAvail front t queueId = some (head, r'.dev.mmio))
      (hcopy : copyChainToPending r'.dev.mmio front (t + 2) queueId head = none)
      (hview : r'.view = r.view.apply (.lose slot ⟨queueId, head⟩)) (hquiet : Quiet r r') :
      TakeSpec front t queueId slot r .failed r'
  | kept {r' : ProxyRun} {head : Nat} {p : Pending}
      (hpop : r.dev.mmio.popAvail front t queueId = some (head, r'.dev.mmio))
      (hcopy : copyChainToPending r'.dev.mmio front (t + 2) queueId head = some p)
      (hview : r'.view = r.view.apply (.keep slot p)) (hquiet : Quiet r r') :
      TakeSpec front t queueId slot r .kept r'

theorem takeAvail_spec (front : GuestView) (t queueId slot : Nat) (r : ProxyRun) :
    TakeSpec front t queueId slot r (takeAvail front t queueId slot r).1
      (takeAvail front t queueId slot r).2 := by
  unfold takeAvail
  split
  · exact .empty
  · next head mmio hpop =>
    have hpm := MmioDev.SamePm.popAvail hpop
    split
    · next hcopy =>
      exact .failed hpop hcopy (view_append r _ _) (.of_append _ ⟨⟨rfl, rfl, rfl⟩, hpm⟩ rfl)
    · next p hcopy =>
      obtain ⟨-, -, -, hq, hh⟩ := copyChainToPending_new hcopy
      refine .kept hpop hcopy ((view_append r _ _).trans ?_)
        (.of_append _ ⟨⟨rfl, rfl, rfl⟩, hpm⟩ rfl)
      subst hq hh
      rfl

/-- `R` holds of a take in a state that meets `I`, and a request that is kept leads to a state that
meets `J`. -/
def TakesOk (R : ProxyRun → ProxyRun → Prop) (front : GuestView) (queueId : Nat)
    (I J : ProxyRun → Prop) : Prop :=
  ∀ r t slot taken r', I r → r.dev.freePendingSlot = some slot →
    TakeSpec front t queueId slot r taken r' → R r r' ∧ (taken = .kept → J r')

theorem takesOk_quiet {I : ProxyRun → Prop} : TakesOk Quiet front queueId I fun _ => True := by
  intro r t slot taken r' _ _ hspec
  refine ⟨?_, fun _ => trivial⟩
  cases hspec with
  | empty => exact composes_quiet.refl r
  | failed _ _ _ hquiet | kept _ _ _ hquiet => exact hquiet

theorem prefetchAvail_rule (hR : Composes R) {I : ProxyRun → Prop}
    (htake : TakesOk R front queueId I I) :
    ∀ left t r, I r → R r (prefetchAvail front queueId left t r) := by
  intro left
  induction left with
  | zero => exact fun _ r _ => hR.refl r
  | succ left ih =>
    intro t r hI
    unfold prefetchAvail
    split
    · exact hR.refl r
    next slot hfree =>
    have hspec := takeAvail_spec front t queueId slot r
    obtain ⟨htaken, hkept⟩ := htake r t slot _ _ hI hfree hspec
    split
    · next r' heq => rwa [heq] at htaken
    · next r' heq => rwa [heq] at htaken
    · next r' heq =>
      rw [heq] at htaken hkept
      exact hR.trans htaken (ih _ r' (hkept rfl))

/-! ### Polls -/

/-- A slot that is filled while nothing of its queue waits is the first that waits. -/
theorem findSlot_unsent_keep {v : SlotView} {p : Pending}
    (hnone : v.findSlot (Pending.isUnsent · queueId) = none)
    (hfree : v.findSlot Pending.isFree = some slot)
    (hnew : p.isUnsent queueId = true) :
    (v.apply (.keep slot p)).findSlot (Pending.isUnsent · queueId) = some slot := by
  have hlt := (SlotView.findSlot_eq_some.mp hfree).2.1
  refine SlotView.findSlot_eq_some.mpr ⟨?_, hlt, fun i hi => ?_⟩
  · show ((v.setSlot slot p).pending slot).isUnsent queueId = true
    rwa [v.setSlot_self]
  · show ((v.setSlot slot p).pending i).isUnsent queueId = false
    rw [v.setSlot_of_ne p (Nat.ne_of_lt hi)]
    exact SlotView.findSlot_eq_none.mp hnone i (Nat.lt_trans hi hlt)

/-- What a poll finds: the first request that waits, or a new one if none does. -/
structure NextOk (R : ProxyRun → ProxyRun → Prop) (queueId : Nat) (J : ProxyRun → Prop)
    (r : ProxyRun) (found : Except Int Nat) (r' : ProxyRun) : Prop where
  rel : R r r'
  unsent : ∀ slot, found = .ok slot → r'.dev.unsentPendingSlot queueId = some slot
  inv : ∀ slot, found = .ok slot → J r'

theorem NextOk.of_error {J : ProxyRun → Prop} (h : R r r') (status : Int) :
    NextOk R queueId J r (.error status) r' :=
  ⟨h, nofun, nofun⟩

/-- Events that the books do not record and that leave the memory of the frontend alone. -/
structure Aside (events : List ProxyEvent) : Prop where
  books : ∀ l, events.foldl ledgerEvent l = l
  quiet : events.all (!IsFrontWrite ·) = true

/-- A batch entry is written as a whole and the request handed out, or it waits on. -/
theorem copyPendingToBatch_cases (back : GuestView) (t slot : Nat) (gpa : Gpa) (r : ProxyRun) :
    let out := copyPendingToBatch back t slot gpa r
    ∃ events, Aside events ∧
      ((out.1 = 0 ∧ out.2 = markSent slot events r) ∨
        (out.1 ≠ 0 ∧ out.2 = ⟨r.dev, r.log ++ events⟩)) := by
  unfold copyPendingToBatch
  dsimp only
  split
  · split
    · exact ⟨_, ⟨fun _ => rfl, rfl⟩, .inl ⟨rfl, rfl⟩⟩
    · exact ⟨_, ⟨fun _ => rfl, rfl⟩, .inr ⟨show -eFault ≠ 0 by decide, rfl⟩⟩
  · refine ⟨[], ⟨fun _ => rfl, rfl⟩, .inr ⟨show -eFault ≠ 0 by decide, ?_⟩⟩
    rw [List.append_nil]

section Poll

variable (hR : Composes R) (ioc : Ioc) {I : ProxyRun → Prop}
  (hhand : ∀ r slot events, r.dev.unsentPendingSlot ioc.queueId = some slot → Aside events →
    R r (markSent slot events r))
  (htake : TakesOk R front ioc.queueId
    (fun r => I r ∧ r.dev.unsentPendingSlot ioc.queueId = none) I)

include hR htake

theorem nextPending_ok (t : Nat) (hI : I r) :
    NextOk R ioc.queueId I r (nextPending front t ioc.queueId r).1
      (nextPending front t ioc.queueId r).2 := by
  unfold nextPending
  split
  · next slot hunsent =>
    exact ⟨hR.refl r, fun s hs => Except.ok.inj hs ▸ hunsent, fun _ _ => hI⟩
  next hnone =>
  split
  · exact .of_error (hR.refl r) _
  next slot hfree =>
  have hspec := takeAvail_spec front t ioc.queueId slot r
  obtain ⟨htaken, hkept⟩ := htake r t slot _ _ ⟨hI, hnone⟩ hfree hspec
  generalize takeAvail front t ioc.queueId slot r = out at hspec htaken hkept
  obtain ⟨taken, r'⟩ := out
  cases hspec with
  | empty | failed => exact .of_error htaken _
  | kept _ hcopy hview =>
    obtain ⟨hvalid, hsent, -, hq, -⟩ := copyChainToPending_new hcopy
    refine ⟨htaken, fun s hs => ?_, fun _ _ => hkept rfl⟩
    rw [← Except.ok.inj hs]
    show r'.view.findSlot (Pending.isUnsent · ioc.queueId) = some slot
    rw [hview]
    exact findSlot_unsent_keep hnone hfree (Pending.isUnsent_iff.mpr ⟨hvalid, hsent, hq⟩)

include hhand

theorem hcallPoll_rule (hI : I r) : R r (hcallPoll front back ioc r).2.2 := by
  have hnext := nextPending_ok hR ioc htake 0 hI
  unfold hcallPoll
  generalize nextPending front 0 ioc.queueId r = out at hnext
  obtain ⟨found, r'⟩ := out
  cases found with
  | error status => exact hnext.rel
  | ok slot =>
    dsimp only
    split
    · exact hnext.rel
    split
    · exact hR.trans hnext.rel (hhand r' slot _ (hnext.unsent slot rfl) ⟨fun _ => rfl, rfl⟩)
    · exact hnext.rel

variable (haside : ∀ r events, Aside events → R r ⟨r.dev, r.log ++ events⟩)
  (hsent : ∀ r slot events, I r → I (markSent slot events r))

include haside hsent

theorem batchPollLoop_rule :
    ∀ left i status count r, I r →
      R r (batchPollLoop front back ioc left i (status, count, r)).2.2 := by
  intro left
  induction left with
  | zero => exact fun _ _ _ r _ => hR.refl r
  | succ left ih =>
    intro i status count r hI
    have hnext := nextPending_ok hR ioc htake (i * (takeAccesses + 2)) hI
    unfold batchPollLoop
    dsimp only
    generalize nextPending front (i * (takeAccesses + 2)) ioc.queueId r = out at hnext
    obtain ⟨found, r'⟩ := out
    cases found with
    | error status => exact hnext.rel
    | ok slot =>
      dsimp only
      obtain ⟨events, hevents, ⟨hstatus, hrun⟩ | ⟨hstatus, hrun⟩⟩ := copyPendingToBatch_cases back
        (i * (takeAccesses + 2) + takeAccesses) slot (batchEntryGpa ioc i) r'
      · rw [if_pos hstatus, hrun]
        refine hR.trans hnext.rel (hR.trans ?_ (ih _ _ _ _ (hsent _ _ _ (hnext.inv slot rfl))))
        exact hhand r' slot events (hnext.unsent slot rfl) hevents
      · rw [if_neg hstatus, hrun]
        exact hR.trans hnext.rel (haside r' events hevents)

theorem hcallBatchPoll_rule (hI : I r) : R r (hcallBatchPoll front back ioc r).2.2 := by
  unfold hcallBatchPoll
  split
  · exact hR.refl r
  split
  · exact hR.refl r
  · exact batchPollLoop_rule hR ioc hhand htake haside hsent _ _ _ _ r hI

end Poll

variable {events : List ProxyEvent}

theorem Quiet.hand (r : ProxyRun) (slot : Nat) (h : Aside events) :
    Quiet r (markSent slot events r) :=
  .of_append _ ⟨⟨rfl, rfl, rfl⟩, .refl _⟩ (by rw [List.all_append, h.quiet]; rfl)

theorem notifyQueue_quiet (front : GuestView) (queueId : Nat) (r : ProxyRun) :
    Quiet r (notifyQueue front queueId r) := by
  unfold notifyQueue
  split
  · exact composes_quiet.refl r
  split
  · exact prefetchAvail_rule composes_quiet takesOk_quiet _ _ r trivial
  · exact composes_quiet.refl r

theorem hcallPoll_quiet (front back : GuestView) (ioc : Ioc) (r : ProxyRun) :
    Quiet r (hcallPoll front back ioc r).2.2 :=
  hcallPoll_rule composes_quiet ioc (fun r slot _ _ => .hand r slot) takesOk_quiet trivial

theorem hcallBatchPoll_quiet (front back : GuestView) (ioc : Ioc) (r : ProxyRun) :
    Quiet r (hcallBatchPoll front back ioc r).2.2 :=
  hcallBatchPoll_rule composes_quiet ioc (fun r slot _ _ => .hand r slot) takesOk_quiet
    (fun _ _ h => .of_append _ ⟨⟨rfl, rfl, rfl⟩, .refl _⟩ h.quiet) (fun _ _ _ _ => trivial) trivial

/-! ### Replies -/

/-- Where a hypercall asks a reply to be taken from. -/
def Asks (back : GuestView) (ioc : Ioc) (g : Reply) : Prop :=
  (g.outGpa = ioc.outGpa ∧ g.outLen = ioc.outLen) ∨
  ∃ i t bytes, i < ioc.batchCount ∧ back.copyFrom t (batchEntryGpa ioc i) sizeofMeta = some bytes ∧
    g.outGpa = batchEntryGpa ioc i + BitVec.ofNat 64 offsetofOut ∧
    g.outLen = (BatchMeta.ofBytes bytes).replyLen

section Replies

variable (hR : Composes R) (ioc : Ioc)
  (hirq : ∀ r, R r { r with dev := { r.dev with mmio := r.dev.mmio.raiseUsedIrq } })
  (hreply : ∀ {r r' g status queueId head}, Replied back g r status r' →
    g.request = r.dev.pending g.slot → r.dev.sentPendingSlot queueId head = some g.slot →
      Asks back ioc g → R r r')

include hR hreply

theorem batchReplyLoop_rule :
    ∀ left i t status count r, i + left = ioc.batchCount →
      R r (batchReplyLoop front back ioc left i t (status, count, r)).2.2 := by
  intro left
  induction left with
  | zero => exact fun _ _ _ _ r _ => hR.refl r
  | succ left ih =>
    intro i t status count r hi
    unfold batchReplyLoop
    split
    · exact hR.refl r
    next bytes hbytes =>
    dsimp only
    split
    · exact hR.refl r
    next slot hslot =>
    obtain ⟨data, used, completed, hreplied⟩ := completePending_replied front back (t + 1) slot
      (batchEntryGpa ioc i + BitVec.ofNat 64 offsetofOut) (BatchMeta.ofBytes bytes).replyLen r
    have hone := hreply hreplied rfl hslot (.inr ⟨i, t, bytes, by omega, hbytes, rfl, rfl⟩)
    split
    · exact hR.trans hone (ih _ _ _ _ _ (by omega))
    · exact hone

include hirq

theorem hcallReply_rule : R r (hcallReply front back ioc r).2 := by
  unfold hcallReply
  split
  · exact hR.refl r
  next slot hslot =>
  obtain ⟨data, used, completed, hreplied⟩ := completePending_replied front back 0 slot ioc.outGpa
    ioc.outLen r
  have hone := hreply hreplied rfl hslot (.inl ⟨rfl, rfl⟩)
  dsimp only
  split
  · exact hone
  · exact hR.trans hone (hirq _)

theorem hcallBatchReply_rule : R r (hcallBatchReply front back ioc r).2 := by
  unfold hcallBatchReply
  split
  · exact hR.refl r
  split
  · exact hR.refl r
  have hloop : R r (batchReplyLoop front back ioc ioc.batchCount 0 0 (-eNoDev, 0, r)).2.2 :=
    batchReplyLoop_rule hR ioc hreply ioc.batchCount 0 0 (-eNoDev) 0 r (Nat.zero_add _)
  dsimp only
  split
  · exact hR.trans hloop (hirq _)
  · exact hloop

end Replies

/-- The request in the slot has been polled and not been completed. -/
structure Reply.Open (r : ProxyRun) (slot : Nat) : Prop where
  lt : slot < r.dev.cfg.pendingLimit
  valid : (r.dev.pending slot).valid = true
  sent : (r.dev.pending slot).sent = true

/-- A reply finds only such requests. -/
theorem Reply.Open.of_find {head : Nat} (h : r.dev.sentPendingSlot queueId head = some slot) :
    Open r slot := by
  have hfind : r.view.findSlot (Pending.isSent · queueId head) = some slot := h
  obtain ⟨hsent, hlt, -⟩ := SlotView.findSlot_eq_some.mp hfind
  obtain ⟨hvalid, hsent, -, -⟩ := Pending.isSent_iff.mp hsent
  exact ⟨hlt, hvalid, hsent⟩

/-- A reply to a request that was open when the hypercall was made. -/
structure Reply.Allowed (back : GuestView) (ioc : Ioc) (r : ProxyRun) (g : Reply) : Prop where
  isOpen : Reply.Open r g.slot
  request : g.request = r.dev.pending g.slot
  contained : g.Contained back r.dev.mmio.queues
  asked : Asks back ioc g

/-- All a hypercall does for the device are such replies, and it does not reply to a slot again
whose request it has completed. -/
structure RepliesOnly (back : GuestView) (ioc : Ioc) (r r' : ProxyRun) : Prop where
  same : SameDevice r r'
  queues : r'.dev.mmio.queues = r.dev.mmio.queues
  pending : ∀ s, r'.dev.pending s = r.dev.pending s ∨ (r'.dev.pending s).valid = false
  replies : ∃ replies : List Reply, r'.log = r.log ++ replies.flatMap Reply.events ∧
    (∀ g ∈ replies, g.Allowed back ioc r ∧
      (g.completed = true → (r'.dev.pending g.slot).valid = false)) ∧
    replies.Pairwise fun g g' => g.completed = true → g'.slot ≠ g.slot

/-- What is open after some replies has been open before. -/
theorem RepliesOnly.allowed {ioc : Ioc} {g : Reply} (h : RepliesOnly back ioc r r')
    (hg : g.Allowed back ioc r') : g.Allowed back ioc r := by
  obtain ⟨⟨hlt, hvalid, hsent⟩, hrequest, hcontained, hasked⟩ := hg
  have hsame := (h.pending g.slot).resolve_right fun hgone =>
    absurd (hvalid.symm.trans hgone) (by decide)
  rw [hsame] at hvalid hsent hrequest
  rw [h.queues] at hcontained
  rw [h.same.cfg] at hlt
  exact ⟨⟨hlt, hvalid, hsent⟩, hrequest, hcontained, hasked⟩

theorem composes_repliesOnly (ioc : Ioc) : Composes (RepliesOnly back ioc) where
  refl r := ⟨.refl r, rfl, fun _ => .inl rfl, [], (List.append_nil _).symm, nofun, .nil⟩
  trans {r r' r''} h h' := by
    obtain ⟨replies, hlog, hall, hpairs⟩ := h.replies
    obtain ⟨replies', hlog', hall', hpairs'⟩ := h'.replies
    -- a slot that has been emptied stays empty
    have hgone : ∀ s, (r'.dev.pending s).valid = false → (r''.dev.pending s).valid = false := by
      intro s hs
      rcases h'.pending s with heq | hinvalid
      · rwa [heq]
      · exact hinvalid
    refine ⟨h.same.trans h'.same, h'.queues.trans h.queues, fun s => ?_, replies ++ replies', ?_,
      fun g hg => ?_, List.pairwise_append.mpr ⟨hpairs, hpairs', fun g hg g' hg' hdone heq => ?_⟩⟩
    · rcases h'.pending s with heq | hinvalid
      · rw [heq]
        exact h.pending s
      · exact .inr hinvalid
    · rw [hlog', hlog, List.flatMap_append, List.append_assoc]
    · rcases List.mem_append.mp hg with hg | hg
      · exact ⟨(hall g hg).1, fun hdone => hgone _ ((hall g hg).2 hdone)⟩
      · exact ⟨h.allowed (hall' g hg).1, (hall' g hg).2⟩
    · have hvalid := (hall' g' hg').1.isOpen.valid
      rw [heq, (hall g hg).2 hdone] at hvalid
      cases hvalid

theorem RepliesOnly.raiseUsedIrq (ioc : Ioc) (r : ProxyRun) :
    RepliesOnly back ioc r { r with dev := { r.dev with mmio := r.dev.mmio.raiseUsedIrq } } := by
  refine ⟨⟨⟨rfl, rfl, rfl⟩, .raiseUsedIrq _⟩, ?_, fun _ => .inl rfl, [], (List.append_nil _).symm,
    nofun, .nil⟩
  unfold MmioDev.raiseUsedIrq MmioDev.updateIrq
  dsimp only
  split
  · rfl
  split
  · rfl
  · rfl

theorem RepliesOnly.single {ioc : Ioc} {g : Reply} {status : Int} {head : Nat}
    (hreplied : Replied back g r status r') (hrequest : g.request = r.dev.pending g.slot)
    (hslot : r.dev.sentPendingSlot queueId head = some g.slot) (hasks : Asks back ioc g) :
    RepliesOnly back ioc r r' := by
  have hallowed : g.Allowed back ioc r := ⟨.of_find hslot, hrequest, hreplied.contained, hasks⟩
  obtain ⟨dev, log⟩ := r'
  obtain ⟨rfl, -, rfl, -⟩ := hreplied
  have hlog : r.log ++ g.events = r.log ++ [g].flatMap Reply.events := by
    rw [List.flatMap_singleton]
  by_cases hdone : g.completed = true
  · simp only [if_pos hdone]
    refine ⟨⟨⟨rfl, rfl, rfl⟩, .refl _⟩, rfl, fun s => ?_, [g], hlog, fun g' hg' => ?_,
      List.pairwise_singleton _ _⟩
    · by_cases hs : s = g.slot
      · exact .inr (congrArg Pending.valid (if_pos hs))
      · exact .inl (if_neg hs)
    · obtain rfl := List.mem_singleton.mp hg'
      exact ⟨hallowed, fun _ => congrArg Pending.valid (if_pos rfl)⟩
  · simp only [if_neg hdone]
    refine ⟨⟨⟨rfl, rfl, rfl⟩, .refl _⟩, rfl, fun _ => .inl rfl, [g], hlog, fun g' hg' => ?_,
      List.pairwise_singleton _ _⟩
    obtain rfl := List.mem_singleton.mp hg'
    exact ⟨hallowed, fun h => absurd h hdone⟩

theorem hcallReply_replies (front back : GuestView) (ioc : Ioc) (r : ProxyRun) :
    RepliesOnly back ioc r (hcallReply front back ioc r).2 :=
  hcallReply_rule (composes_repliesOnly ioc) ioc (.raiseUsedIrq ioc) .single

theorem hcallBatchReply_replies (front back : GuestView) (ioc : Ioc) (r : ProxyRun) :
    RepliesOnly back ioc r (hcallBatchReply front back ioc r).2 :=
  hcallBatchReply_rule (composes_repliesOnly ioc) ioc (.raiseUsedIrq ioc) .single

/-- What is written to the memory of the frontend are replies that `ok` accepts. -/
def WritesReplies (ok : List Reply → Prop) (r r' : ProxyRun) : Prop :=
  ∃ events, r'.log = r.log ++ events ∧ ((∃ e ∈ events, IsFrontWrite e = true) →
    ∃ replies, events = replies.flatMap Reply.events ∧ ok replies)

theorem WritesReplies.of_quiet {ok : List Reply → Prop}
    (hlog : ∃ events, r'.log = r.log ++ events ∧ ∀ e ∈ events, IsFrontWrite e = false) :
    WritesReplies ok r r' := by
  obtain ⟨events, hlog, hquiet⟩ := hlog
  refine ⟨events, hlog, fun ⟨e, he, hwrite⟩ => ?_⟩
  exact absurd (hwrite.symm.trans (hquiet e he)) (by decide)

theorem WritesReplies.of_log_eq {ok : List Reply → Prop} (h : r'.log = r.log) :
    WritesReplies ok r r' :=
  .of_quiet ⟨[], h.trans (List.append_nil _).symm, nofun⟩

/-- Writes are no part of the books. -/
theorem ledger_writes {event : GuestWrite → ProxyEvent}
    (hevent : ∀ w l, ledgerEvent l (event w) = l) (writes : List GuestWrite) (l : Ledger Request) :
    (writes.map event).foldl ledgerEvent l = l := by
  induction writes with
  | nil => rfl
  | cons w rest ih =>
    rw [List.map_cons, List.foldl_cons, hevent]
    exact ih

/-- A reply settles its request exactly if it succeeds. -/
theorem Replied.view {g : Reply} {status : Int} (h : Replied back g r status r')
    (hrequest : g.request = r.dev.pending g.slot) :
    r'.view = if g.completed then r.view.apply (.settle g.slot) else r.view := by
  have hview : r'.view = _ := h.log ▸ view_append r r'.dev g.events
  rw [hview, h.dev, Reply.events, List.foldl_append, List.foldl_append,
    ledger_writes fun _ _ => rfl, ledger_writes fun _ _ => rfl, hrequest]
  cases g.completed with
  | false => rfl
  | true => rfl

/-! ### Steps -/

/-- A registration is refused, or records the configured VM. -/
theorem hcallRegister_cases (back : GuestView) (caller : Nat) (ioc : Ioc) (r : ProxyRun) :
    (hcallRegister back caller ioc r).2.2 = r ∨
      r.dev.cfg.configuredBackendVmid = caller ∧ ∃ caps config mmio, MmioDev.SamePm r.dev.mmio mmio ∧
        (hcallRegister back caller ioc r).2.2 = { r with dev := { r.dev with
          hcallBackendRegistered := true
          backendVmid := caller
          backendCaps := caps
          config := config
          mmio := mmio } } := by
  unfold hcallRegister
  dsimp only
  generalize (if ioc.abiVersion = 0 then 1 else ioc.abiVersion) = abiVersion
  split
  · exact .inl rfl
  split
  · exact .inl rfl
  next hconfigured =>
  split
  · exact .inl rfl
  split
  · exact .inl rfl
  split
  · exact .inl rfl
  refine .inr ⟨not_not.mp hconfigured, _, _, _, ?_, rfl⟩
  split
  · exact ⟨rfl, rfl, rfl, rfl⟩
  · exact .refl _

theorem hcallRegister_view (back : GuestView) (caller : Nat) (ioc : Ioc) (r : ProxyRun) :
    (hcallRegister back caller ioc r).2.2.view = r.view := by
  rcases hcallRegister_cases back caller ioc r with heq | ⟨-, caps, config, mmio, -, heq⟩
  · rw [heq]
  · rw [heq]
    rfl

theorem hcallRegister_log (back : GuestView) (caller : Nat) (ioc : Ioc) (r : ProxyRun) :
    (hcallRegister back caller ioc r).2.2.log = r.log := by
  rcases hcallRegister_cases back caller ioc r with heq | ⟨-, caps, config, mmio, -, heq⟩
  · rw [heq]
  · rw [heq]

theorem writeReg_frame (front : GuestView) (gated : Bool) (reg : MmioDev.Reg) (value : BitVec 32)
    (r : ProxyRun) :
    SameBackend r (writeReg front gated reg value r) ∧
      ∃ events, (writeReg front gated reg value r).log = r.log ++ events ∧
        ∀ e ∈ events, IsFrontWrite e = false := by
  unfold writeReg
  split
  · next mmio queueId _ =>
    have hnotify := notifyQueue_quiet front queueId { r with dev := { r.dev with mmio := mmio } }
    exact ⟨⟨hnotify.same.cfg, hnotify.same.registered, hnotify.same.backendVmid⟩, hnotify.log⟩
  all_goals exact ⟨⟨rfl, rfl, rfl⟩, [], (List.append_nil _).symm, nofun⟩

def Notifies (r : ProxyRun) (call : Env × Op) (queueId : Nat) : Prop :=
  call.2 = .replay queueId ∨ ∃ value, call.2 = .writeReg .queueNotify value ∧
    (r.dev.mmio.writeReg call.1.gated .queueNotify value).2 = .notifyQueue queueId

/-- A notification that takes at least one head. -/
structure NotifyTakes (r : ProxyRun) (call : Env × Op) (queueId : Nat) : Prop where
  notifies : r.Notifies call queueId
  registered : r.dev.hcallBackendRegistered = true
  published : (r.dev.mmio.popAvail call.1.front 0 queueId).isSome = true

def Op.Resets (op : Op) : Prop := op = .writeReg .status 0#32

theorem view_aside (r : ProxyRun) (h : Aside events) :
    (ProxyRun.mk r.dev (r.log ++ events)).view = r.view := by
  rw [view_append, h.books]
  rfl

theorem view_markSent (r : ProxyRun) (slot : Nat) (h : Aside events) :
    (markSent slot events r).view = r.view.apply (.hand slot) := by
  refine (view_append r _ _).trans ?_
  rw [List.foldl_append, h.books]
  rfl

/-- What `ok` has to accept in a call. -/
structure Accepts (ok : SlotView → Move → Prop) (r : ProxyRun) (call : Env × Op) : Prop where
  hand : ∀ v slot, v.Enabled (.hand slot) → ok v (.hand slot)
  settle : ∀ v slot, v.Enabled (.settle slot) → ok v (.settle slot)
  unsend : call.2 = .dropBackend → ok r.view .unsend
  notify : ∀ queueId, r.NotifyTakes call queueId →
    ∃ I, I r ∧ TakesOk (Moves ok) call.1.front queueId I I
  poll : ∀ ioc, call.2 = .poll ioc → ∃ I : ProxyRun → Prop, I r ∧
    TakesOk (Moves ok) call.1.front ioc.queueId
      (fun r => I r ∧ r.dev.unsentPendingSlot ioc.queueId = none) I
  batchPoll : ∀ ioc, call.2 = .batchPoll ioc → ∃ I : ProxyRun → Prop, I r ∧
    TakesOk (Moves ok) call.1.front ioc.queueId
      (fun r => I r ∧ r.dev.unsentPendingSlot ioc.queueId = none) I ∧
    ∀ r slot writes, I r → I (markSent slot writes r)

/-- Without a new entry in the avail ring nothing is taken. -/
theorem prefetchAvail_of_empty {t : Nat} (hempty : r.dev.mmio.popAvail front t queueId = none)
    (left : Nat) : prefetchAvail front queueId left t r = r := by
  cases left with
  | zero => rfl
  | succ left =>
    unfold prefetchAvail takeAvail
    rw [hempty]
    split
    · rfl
    · rfl

variable {ok : SlotView → Move → Prop}

theorem notifyQueue_reaches
    (htake : r.dev.hcallBackendRegistered = true →
      (r.dev.mmio.popAvail front 0 queueId).isSome = true →
      ∃ I, I r ∧ TakesOk (Moves ok) front queueId I I) :
    Moves ok r (notifyQueue front queueId r) := by
  unfold notifyQueue
  split
  · exact .refl r.view
  split
  · next hregistered =>
    cases hpop : r.dev.mmio.popAvail front 0 queueId with
    | none =>
      rw [prefetchAvail_of_empty hpop]
      exact .refl r.view
    | some popped =>
      obtain ⟨I, hI, htake⟩ := htake hregistered (by rw [hpop]; rfl)
      exact prefetchAvail_rule (composes_moves ok) htake _ _ r hI
  · exact .refl r.view

/-- A notification is passed on at once, or deferred. -/
theorem writeReg_notify (dev : MmioDev) (gated : Bool) (value : BitVec 32) :
    dev.writeReg gated .queueNotify value = (dev, .notifyQueue value.toNat) ∨
      (dev.writeReg gated .queueNotify value).2 = .none := by
  unfold MmioDev.writeReg
  dsimp only
  split
  · exact .inr rfl
  split
  · exact .inr rfl
  · exact .inl rfl

/-- **Every call is a sequence of moves.** -/
theorem step_reaches {call : Env × Op} (hok : Accepts ok r call) (hreset : ¬call.2.Resets) :
    Moves ok r (r.step call) := by
  obtain ⟨env, op⟩ := call
  have hhand : ∀ r slot events (queueId : Nat), r.dev.unsentPendingSlot queueId = some slot →
      Aside events → Moves ok r (markSent slot events r) := by
    intro r slot events queueId hunsent hevents
    exact .single (view_markSent r slot hevents) (hok.hand _ _ ⟨queueId, hunsent⟩)
  have hreply : ∀ {r r' : ProxyRun} {g : Reply} {status : Int} {ioc : Ioc} {queueId head : Nat},
      Replied env.back g r status r' → g.request = r.dev.pending g.slot →
        r.dev.sentPendingSlot queueId head = some g.slot → Asks env.back ioc g → Moves ok r r' := by
    intro r r' g status ioc queueId head hreplied hrequest hslot _
    have hview := hreplied.view hrequest
    split at hview
    · exact .single hview (hok.settle _ _ ⟨queueId, head, hslot⟩)
    · exact .of_eq hview
  cases op with
  | writeReg reg value =>
    show Moves ok r (writeReg env.front env.gated reg value r)
    unfold writeReg
    by_cases hnotify : reg = .queueNotify
    · subst hnotify
      rcases writeReg_notify r.dev.mmio env.gated value with hpass | hquiet
      · have hnotifies : r.Notifies (env, .writeReg .queueNotify value) value.toNat :=
          .inr ⟨value, rfl, by rw [hpass]⟩
        rw [hpass]
        exact notifyQueue_reaches fun hreg hpub => hok.notify _ ⟨hnotifies, hreg, hpub⟩
      · generalize r.dev.mmio.writeReg env.gated .queueNotify value = out at hquiet
        obtain ⟨mmio, opsCall⟩ := out
        subst hquiet
        exact .refl r.view
    · obtain ⟨-, hquiet⟩ := MmioDev.writeReg_quiet r.dev.mmio env.gated hnotify
        fun h : reg = .status ∧ value = 0#32 => hreset (by rw [h.1, h.2]; rfl)
      generalize r.dev.mmio.writeReg env.gated reg value = out at hquiet
      obtain ⟨mmio, opsCall⟩ := out
      rcases hquiet with hquiet | ⟨queueId, hquiet⟩ <;> subst hquiet <;> exact .refl r.view
  | replay =>
    exact notifyQueue_reaches fun hreg hpub => hok.notify _ ⟨.inl rfl, hreg, hpub⟩
  | register caller ioc => exact .of_eq (hcallRegister_view env.back caller ioc r)
  | poll ioc =>
    obtain ⟨I, hI, htake⟩ := hok.poll ioc rfl
    exact hcallPoll_rule (composes_moves ok) ioc (fun _ _ _ => hhand _ _ _ _) htake hI
  | batchPoll ioc =>
    obtain ⟨I, hI, htake, hsent⟩ := hok.batchPoll ioc rfl
    exact hcallBatchPoll_rule (composes_moves ok) ioc (fun _ _ _ => hhand _ _ _ _) htake
      (fun r events h => .of_eq (view_aside r h)) hsent hI
  | reply ioc => exact hcallReply_rule (composes_moves ok) ioc (fun r => .refl r.view) hreply
  | batchReply ioc =>
    exact hcallBatchReply_rule (composes_moves ok) ioc (fun r => .refl r.view) hreply
  | dropBackend => exact .single rfl (hok.unsend rfl)

end ProxyRun

end BeauOs.Virtio

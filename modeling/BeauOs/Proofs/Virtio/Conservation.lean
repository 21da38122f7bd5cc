/-
No request is lost between the avail ring and the used ring.

Every head that is popped from the avail ring of a queue is in one pending slot until it is
published in the used ring of that queue, and it is published once.  The exception is the take
itself: the index of the avail ring moves on before the descriptor chain is read, and a chain that
cannot be copied (a descriptor that cannot be read, more data than a slot holds, or writable
buffers of more than four gigabytes) leaves the slot empty and the head with no one.  So the law
needs that every head which a call takes has a chain that fits (`TakesFit`).
-/
import BeauOs.Proofs.Virtio.Slots

namespace BeauOs.Virtio

open BeauOs.Pm

/-! ### Chains that fit a slot -/

/-- Every descriptor of the chain can be read, its data fits what the chain carries already, and so
do its writable buffers. -/
def chainFits (dev : MmioDev) (mem : GuestView) (vq : MmioQueue) :
    Nat → Nat → Nat → Nat → Nat → Nat → Bool
  | 0, _, _, _, _, _ => true
  | left + 1, t, id, inLen, outCount, outLen =>
    match dev.readDesc mem t vq id with
    | none => false
    | some desc =>
      if desc.isWrite then
        decide (outCount < proxyDescMax) && decide (outLen ≤ uint32Max - desc.len) &&
          (!desc.hasNext ||
            chainFits dev mem vq left (t + 2) desc.next inLen (outCount + 1) (outLen + desc.len))
      else
        decide (desc.len ≤ proxyDataMax) && decide (inLen ≤ proxyDataMax - desc.len) &&
          (decide (desc.len = 0) || mem.mapped (t + 1) desc.addr desc.len) &&
          (!desc.hasNext ||
            chainFits dev mem vq left (t + 2) desc.next (inLen + desc.len) outCount outLen)

theorem walk_isSome (dev : MmioDev) (mem : GuestView) (vq : MmioQueue) :
    ∀ left t id acc, (ChainCopy.walk dev mem vq left t id acc).isSome =
      chainFits dev mem vq left t id acc.input.length acc.out.length acc.outLen := by
  intro left
  induction left with
  | zero => exact fun _ _ _ => rfl
  | succ left ih =>
    intro t id acc
    unfold chainFits ChainCopy.walk ChainCopy.take
    cases hdesc : dev.readDesc mem t vq id with
    | none => rfl
    | some desc =>
      -- the rest of the chain, behind what one descriptor has added
      have hrest : ∀ acc' : ChainCopy,
          (if desc.hasNext then ChainCopy.walk dev mem vq left (t + 2) desc.next acc'
            else some acc').isSome = (!desc.hasNext || chainFits dev mem vq left (t + 2)
              desc.next acc'.input.length acc'.out.length acc'.outLen) := by
        intro acc'
        cases desc.hasNext with
        | true => exact ih _ _ acc'
        | false => rfl
      by_cases hwrite : desc.isWrite = true
      · simp only [hwrite, if_true]
        by_cases hcount : acc.out.length < proxyDescMax
        swap
        · simp [hcount, Nat.le_of_not_lt hcount]
        by_cases hlen : acc.outLen ≤ uint32Max - desc.len
        swap
        · simp [hlen, Nat.lt_of_not_le hlen]
        · simp [hcount, hlen, Nat.not_le.mpr hcount, Nat.not_lt.mpr hlen, hrest]
      · simp only [hwrite, if_false, Bool.false_eq_true]
        by_cases hmax : desc.len ≤ proxyDataMax
        swap
        · simp [hmax, Nat.lt_of_not_le hmax]
        by_cases hlen : acc.input.length ≤ proxyDataMax - desc.len
        swap
        · simp [hlen, Nat.lt_of_not_le hlen]
        have hfits : ¬(desc.len > proxyDataMax ∨ acc.input.length > proxyDataMax - desc.len) := by
          omega
        simp only [if_neg hfits, hmax, hlen, decide_true, Bool.true_and]
        unfold GuestView.copyFrom
        by_cases hzero : desc.len = 0
        · simp [hzero, hrest]
        by_cases hmapped : mem.mapped (t + 1) desc.addr desc.len = true
        · simp [hzero, hmapped, hrest, GuestView.bytes]
        · simp [hzero, hmapped]

/-- The next heads of the avail ring, whenever they are popped, have chains that fit. -/
def AvailFits (front : GuestView) (queueId : Nat) : Nat → MmioDev → Prop
  | 0, _ => True
  | n + 1, dev => ∀ t head dev', dev.popAvail front t queueId = some (head, dev') →
      (∀ vq, dev'.getQueue queueId = some vq →
        chainFits dev' front vq proxyDescMax (t + 2) head 0 0 0 = true) ∧
      AvailFits front queueId n dev'

def ProxyRun.TakesFrom (r : ProxyRun) (call : ProxyRun.Env × ProxyRun.Op) (queueId : Nat) : Prop :=
  r.NotifyTakes call queueId ∨
  (∃ ioc, call.2 = .poll ioc ∧ ioc.queueId = queueId ∧ r.dev.unsentPendingSlot queueId = none) ∨
  ∃ ioc, call.2 = .batchPoll ioc ∧ ioc.queueId = queueId

def ProxyRun.TakesFit (r : ProxyRun) (call : ProxyRun.Env × ProxyRun.Op) : Prop :=
  ∀ queueId, r.TakesFrom call queueId → ∀ n, AvailFits call.1.front queueId n r.dev.mmio

theorem popAvail_getQueue {dev dev' : MmioDev} {mem : GuestView} {t queueId head : Nat}
    (h : dev.popAvail mem t queueId = some (head, dev')) : ∃ vq, dev'.getQueue queueId = some vq := by
  obtain ⟨vq, hvq, hdev⟩ := popAvail_eq_some h
  have hlt := (MmioDev.getQueue_eq_some hvq).1
  rw [hdev]
  exact ⟨_, if_pos hlt⟩

theorem AvailFits.not_failed {front : GuestView} {t queueId s n : Nat} {r r' : ProxyRun}
    (hfits : AvailFits front queueId (n + 1) r.dev.mmio) :
    ¬ProxyRun.TakeSpec front t queueId s r .failed r' := by
  rintro ⟨⟩
  next head hpop hcopy _ _ =>
  obtain ⟨vq, hvq⟩ := popAvail_getQueue hpop
  have hsome := (walk_isSome _ front vq _ _ _ ⟨[], [], 0⟩).trans ((hfits t head _ hpop).1 vq hvq)
  obtain ⟨acc, hacc⟩ := Option.isSome_iff_exists.mp hsome
  simp [copyChainToPending, hvq, hacc] at hcopy

/-! ### The books are balanced -/

/-- The slots and the books agree. -/
structure SlotView.Accord (v : SlotView) : Prop where
  balanced : v.ledger.Balanced
  holds : ∀ s i, v.ledger.slot s = some i → s < v.limit ∧ (v.pending s).valid = true ∧
    v.ledger.taken[i]? = some ⟨(v.pending s).queueId, (v.pending s).head⟩
  held : ∀ s < v.limit, (v.pending s).valid = true → ∃ i, v.ledger.slot s = some i

/-- A move of the code by which nothing is lost. -/
def SlotView.Keeping (v : SlotView) (m : Move) : Prop :=
  v.Enabled m ∧ ∀ slot request, m ≠ .lose slot request

namespace SlotView.Accord

variable {v : SlotView} {slot : Nat}

/-- Moves that leave the books and what a slot holds as they are. -/
theorem of_frame (h : v.Accord) {pending : Nat → Pending} {l : Ledger Request}
    (hl : l.Balanced) (hslot : l.slot = v.ledger.slot) (htaken : l.taken = v.ledger.taken)
    (hrequest : ∀ s, (pending s).valid = (v.pending s).valid ∧
      (pending s).queueId = (v.pending s).queueId ∧ (pending s).head = (v.pending s).head) :
    Accord ⟨v.limit, pending, l⟩ := by
  refine ⟨hl, fun s i hs => ?_, fun s hs hval => ?_⟩
  · obtain ⟨hlt, hval, hreq⟩ := h.holds s i (hslot ▸ hs)
    refine ⟨hlt, (hrequest s).1.trans hval, ?_⟩
    show l.taken[i]? = some ⟨(pending s).queueId, (pending s).head⟩
    rw [htaken, (hrequest s).2.1, (hrequest s).2.2]
    exact hreq
  · show ∃ i, l.slot s = some i
    rw [hslot]
    exact h.held s hs ((hrequest s).1.symm.trans hval)

theorem keep (h : v.Accord) {p : Pending} (hen : v.Enabled (.keep slot p)) :
    (v.apply (.keep slot p)).Accord := by
  obtain ⟨hfree, hval, -, -⟩ := hen
  obtain ⟨hisFree, hlt, -⟩ := SlotView.findSlot_eq_some.mp hfree
  have hinvalid := (Pending.isFree_iff.mp hisFree).1
  have hempty : v.ledger.slot slot = none := by
    cases hs : v.ledger.slot slot with
    | none => rfl
    | some i => exact absurd ((h.holds slot i hs).2.1.symm.trans hinvalid) (by decide)
  refine ⟨h.balanced.take_keep _ hempty, fun s i hs => ?_, fun s hs hvalid => ?_⟩
  · by_cases hslot : s = slot
    · subst hslot
      obtain rfl := Option.some.inj ((Ledger.slot_take_keep_self v.ledger _ s).symm.trans hs)
      show s < v.limit ∧ ((v.setSlot s p).pending s).valid = true ∧ _ =
        some (Request.mk ((v.setSlot s p).pending s).queueId ((v.setSlot s p).pending s).head)
      rw [v.setSlot_self]
      exact ⟨hlt, hval, Ledger.taken_take_self v.ledger _⟩
    · have hs' := (Ledger.slot_take_keep_of_ne v.ledger ⟨p.queueId, p.head⟩ hslot).symm.trans hs
      obtain ⟨hlt', hval', hreq⟩ := h.holds s i hs'
      show s < v.limit ∧ ((v.setSlot slot p).pending s).valid = true ∧ _ =
        some (Request.mk ((v.setSlot slot p).pending s).queueId ((v.setSlot slot p).pending s).head)
      rw [v.setSlot_of_ne p hslot]
      exact ⟨hlt', hval',
        (Ledger.taken_take_of_lt _ (h.balanced.taken_of_slot hs')).trans hreq⟩
  · by_cases hslot : s = slot
    · subst hslot
      exact ⟨_, Ledger.slot_take_keep_self v.ledger _ s⟩
    · obtain ⟨i, hi⟩ := h.held s hs (v.setSlot_of_ne p hslot ▸ hvalid)
      exact ⟨i, (Ledger.slot_take_keep_of_ne v.ledger _ hslot).trans hi⟩

theorem settle (h : v.Accord) (hen : v.Enabled (.settle slot)) :
    (v.apply (.settle slot)).Accord := by
  obtain ⟨queueId, head, hfind⟩ := hen
  obtain ⟨hsent, hlt, -⟩ := SlotView.findSlot_eq_some.mp hfind
  obtain ⟨i, hi⟩ := h.held slot hlt (Pending.isSent_iff.mp hsent).1
  refine ⟨h.balanced.settle hi (h.holds slot i hi).2.2, fun s j hs => ?_, fun s hs hvalid => ?_⟩
  · by_cases hslot : s = slot
    · subst hslot
      exact absurd ((Ledger.slot_settle_self v.ledger _ s).symm.trans hs) (by simp)
    · have hs' := (Ledger.slot_settle_of_ne v.ledger
        ⟨(v.pending slot).queueId, (v.pending slot).head⟩ hslot).symm.trans hs
      show s < v.limit ∧ ((v.setSlot slot _).pending s).valid = true ∧ v.ledger.taken[j]? =
        some ⟨((v.setSlot slot _).pending s).queueId, ((v.setSlot slot _).pending s).head⟩
      rw [v.setSlot_of_ne _ hslot]
      exact h.holds s j hs'
  · by_cases hslot : s = slot
    · subst hslot
      exact absurd (v.setSlot_self s _ ▸ hvalid) (by decide)
    · obtain ⟨j, hj⟩ := h.held s hs (v.setSlot_of_ne _ hslot ▸ hvalid)
      exact ⟨j, (Ledger.slot_settle_of_ne v.ledger _ hslot).trans hj⟩

/-- **No move by which nothing is lost upsets the books.** -/
theorem apply (h : v.Accord) {m : Move} (hok : v.Keeping m) : (v.apply m).Accord := by
  obtain ⟨hen, hlose⟩ := hok
  cases m with
  | keep => exact h.keep hen
  | lose slot request => exact absurd rfl (hlose slot request)
  | hand slot =>
    refine h.of_frame (h.balanced.hand slot) rfl rfl fun s => ?_
    show ((v.setSlot slot _).pending s).valid = _ ∧ ((v.setSlot slot _).pending s).queueId = _ ∧
      ((v.setSlot slot _).pending s).head = _
    by_cases hs : s = slot
    · rw [hs, v.setSlot_self]
      exact ⟨rfl, rfl, rfl⟩
    · rw [v.setSlot_of_ne _ hs]
      exact ⟨rfl, rfl, rfl⟩
  | settle => exact h.settle hen
  | unsend =>
    refine h.of_frame h.balanced rfl rfl fun s => ?_
    unfold SlotView.unsent
    dsimp only
    split
    · exact ⟨rfl, rfl, rfl⟩
    · exact ⟨rfl, rfl, rfl⟩

end SlotView.Accord

/-! ### Runs -/

namespace ProxyRun

variable {r : ProxyRun}

theorem takesOk_of_fits {front : GuestView} {queueId : Nat} {I J : ProxyRun → Prop}
    (hI : ∀ r, I r → ∀ n, AvailFits front queueId n r.dev.mmio)
    (hJ : ∀ r : ProxyRun, (∀ n, AvailFits front queueId n r.dev.mmio) → J r) :
    TakesOk (Moves SlotView.Keeping) front queueId I J := by
  intro r t slot taken r' hr hfree hspec
  cases hspec with
  | empty => exact ⟨.refl r.view, nofun⟩
  | failed hpop hcopy hview hquiet =>
    exact absurd (.failed hpop hcopy hview hquiet) (AvailFits.not_failed (s := slot) (hI r hr 1))
  | kept hpop hcopy hview =>
    obtain ⟨hvalid, hsent, hdone, -, -⟩ := copyChainToPending_new hcopy
    exact ⟨.single hview ⟨⟨hfree, hvalid, hsent, hdone⟩, nofun⟩,
      fun _ => hJ r' fun n => (hI r hr (n + 1) t _ _ hpop).2⟩

theorem accepts_keeping {call : Env × Op} (hfit : r.TakesFit call) :
    Accepts SlotView.Keeping r call where
  hand _ _ hen := ⟨hen, nofun⟩
  settle _ _ hen := ⟨hen, nofun⟩
  unsend _ := ⟨trivial, nofun⟩
  notify queueId htakes :=
    ⟨_, hfit queueId (.inl htakes), takesOk_of_fits (fun _ h => h) fun _ h => h⟩
  poll ioc hpoll := by
    by_cases hunsent : r.dev.unsentPendingSlot ioc.queueId = none
    · exact ⟨_, hfit ioc.queueId (.inr (.inl ⟨ioc, hpoll, rfl, hunsent⟩)),
        takesOk_of_fits (fun _ h => h.1) fun _ h => h⟩
    · exact ⟨_, hunsent, fun _ _ _ _ _ h => absurd h.2 h.1⟩
  batchPoll ioc hpoll :=
    ⟨_, hfit ioc.queueId (.inr (.inr ⟨ioc, hpoll, rfl⟩)),
      takesOk_of_fits (fun _ h => h.1) fun _ h => h, fun _ _ _ h => h⟩

/-- The slot holds the request with this number. -/
structure Holds (r : ProxyRun) (s i : Nat) (request : Request) : Prop where
  lt : s < r.dev.cfg.pendingLimit
  valid : (r.dev.pending s).valid = true
  request_eq : request = ⟨(r.dev.pending s).queueId, (r.dev.pending s).head⟩
  number : r.ledger.slot s = some i

/-- Every request popped is in exactly one slot and not published, or in no slot and published
exactly once, in the used ring of its queue; and no slot holds anything else. -/
structure Conserved (r : ProxyRun) : Prop where
  accounted : ∀ i request, r.ledger.taken[i]? = some request →
    ((∃! s, r.Holds s i request) ∧ i ∉ r.ledger.settled.map Prod.fst) ∨
    ((∀ s, ¬r.Holds s i request) ∧ (i, request) ∈ r.ledger.settled ∧
      r.ledger.settled.countP (fun e => decide (e.1 = i)) = 1)
  held : ∀ s < r.dev.cfg.pendingLimit, (r.dev.pending s).valid = true →
    ∃ i, r.Holds s i ⟨(r.dev.pending s).queueId, (r.dev.pending s).head⟩

theorem conserved_of_accord (h : r.view.Accord) : r.Conserved := by
  have hbal : r.ledger.Balanced := h.balanced
  refine ⟨fun i request hi => ?_, fun s hs hvalid => ?_⟩
  · rcases hbal.accounted (List.getElem?_eq_some_iff.mp hi).1 with ⟨s, hs⟩ | hmem
    · obtain ⟨hlt, hvalid, hreq⟩ := h.holds s i hs
      refine .inl ⟨⟨s, ⟨hlt, hvalid, Option.some.inj (hi.symm.trans hreq), hs⟩, ?_⟩,
        hbal.not_settled_of_slot hs⟩
      exact fun s' hs' => hbal.slot_inj hs'.number hs
    · obtain ⟨⟨j, request'⟩, hpair, rfl⟩ := List.mem_map.mp hmem
      obtain rfl : request = request' :=
        Option.some.inj (hi.symm.trans (hbal.settled_as hpair))
      exact .inr ⟨fun s hs => hbal.not_settled_of_slot hs.number hmem, hpair,
        hbal.settled_once hpair⟩
  · obtain ⟨i, hi⟩ := h.held s hs hvalid
    exact ⟨i, hs, hvalid, rfl, hi⟩

/-- A request is published exactly if its entry and the index behind it are written to the used ring
of its queue, and nothing else is written to the memory of the frontend but replies. -/
def PublishesWritten (r : ProxyRun) (call : Env × Op) : Prop :=
  WritesReplies (fun replies => ∀ g ∈ replies, g.request = r.dev.pending g.slot ∧
    g.Contained call.1.back r.dev.mmio.queues) r (r.step call)

theorem publishesWritten (r : ProxyRun) (call : Env × Op) : r.PublishesWritten call := by
  obtain ⟨env, op⟩ := call
  have hreplies {ioc : Ioc} {r' : ProxyRun} (h : RepliesOnly env.back ioc r r') :
      WritesReplies (fun replies => ∀ g ∈ replies, g.request = r.dev.pending g.slot ∧
        g.Contained env.back r.dev.mmio.queues) r r' := by
    obtain ⟨replies, hlog, hall, -⟩ := h.replies
    exact ⟨_, hlog, fun _ => ⟨replies, rfl, fun g hg =>
      ⟨(hall g hg).1.request, (hall g hg).1.contained⟩⟩⟩
  cases op with
  | writeReg reg value => exact .of_quiet (writeReg_frame env.front env.gated reg value r).2
  | replay queueId => exact .of_quiet (notifyQueue_quiet env.front queueId r).log
  | register caller ioc => exact .of_log_eq (hcallRegister_log env.back caller ioc r)
  | poll ioc => exact .of_quiet (hcallPoll_quiet env.front env.back ioc r).log
  | batchPoll ioc => exact .of_quiet (hcallBatchPoll_quiet env.front env.back ioc r).log
  | reply ioc => exact hreplies (hcallReply_replies env.front env.back ioc r)
  | batchReply ioc => exact hreplies (hcallBatchReply_replies env.front env.back ioc r)
  | dropBackend => exact .of_log_eq rfl

/-- **Every head popped from the avail ring is held once or published once**, as long as no head is
taken whose chain cannot be copied, and it is published exactly if it is written to the used ring. -/
theorem proxy_requests_conserved (cfg : ProxyConfig) (config : List Byte) (calls : List (Env × Op))
    (hcalls : Run.Along step (fun r call => ¬call.2.Resets ∧ r.TakesFit call)
      (boot cfg config) calls) :
    (Run.exec step (boot cfg config) calls).Conserved ∧
      ∀ call, (Run.exec step (boot cfg config) calls).PublishesWritten call := by
  refine ⟨?_, publishesWritten _⟩
  refine conserved_of_accord (@Run.inv_exec _ _ _ _ (fun r => r.view.Accord) ?_ _ _ ?_ hcalls)
  · intro r call hr hok
    exact (step_reaches (accepts_keeping hok.2) hok.1).inv _ (fun v m hv hm => hv.apply hm) hr
  · refine ⟨.empty, fun s i hs => ?_, fun s _ hvalid => ?_⟩
    · exact absurd hs (by simp [boot, view, ledger, Ledger.empty])
    · exact absurd hvalid (by simp [boot, view, ProxyDev.init, Pending.zero])

/-! ### A request that is lost -/

/-- A device with one queue and two slots, which VM 1 serves. -/
def smallProxy : ProxyConfig where
  vmId := 0
  deviceId := 2
  queueNum := 1
  queueSize := 8
  deviceFeatures := 0#64
  highThroughput := false
  configuredBackendVmid := 1
  pendingLimit := 2
  pendingLimit_le := Nat.le_of_ble_eq_true rfl

def smallRun (calls : List (Env × Op)) : ProxyRun := Run.exec step (boot smallProxy []) calls

/-- The rings of a frontend with one request in the avail ring, of one descriptor that holds
`256 * hi` bytes for the device. -/
def oneRequest (hi : Byte) : GuestView where
  byte _ gpa := if gpa = 0x2002#64 then 1#8 else if gpa = 0x1009#64 then hi else 0#8
  mapped _ _ _ := true

def emptyIoc : Ioc :=
  ⟨0, 0, 0, 0, 0, 0, 0, 0, 0#64, 0#64, 0#64, 0#64, 0, 0#32, 0, 0, 0#32, 0#64, 0, 0, 0, []⟩

variable (front : GuestView)

def quietEnv : Env := ⟨front, ⟨fun _ _ => 0#8, fun _ _ _ => true⟩, false⟩

/-- The frontend sets up its queue with `num` entries, and VM 1 registers. -/
def setUp (num : BitVec 32) : List (Env × Op) :=
  [(quietEnv front, .writeReg .queueNum num),
    (quietEnv front, .writeReg (.queueAddr .descLow) 0x1000#32),
    (quietEnv front, .writeReg (.queueAddr .availLow) 0x2000#32),
    (quietEnv front, .writeReg (.queueAddr .usedLow) 0x3000#32),
    (quietEnv front, .writeReg .queueReady 1#32),
    (quietEnv front, .register 1 emptyIoc)]

/-- A call that takes no request, and neither resets the device nor drops its backend. -/
structure Idle (r : ProxyRun) (call : Env × Op) : Prop where
  resets : ¬call.2.Resets
  drops : call.2 ≠ .dropBackend
  takes : ∀ queueId, ¬r.TakesFrom call queueId

theorem Idle.writeReg {env : Env} {reg : MmioDev.Reg} (value : BitVec 32)
    (hnotify : reg ≠ .queueNotify) (hstatus : reg ≠ .status) : r.Idle (env, .writeReg reg value) := by
  refine ⟨fun h => ?_, nofun, ?_⟩
  · cases h
    exact hstatus rfl
  · rintro queueId (⟨h | ⟨_, h, -⟩, -, -⟩ | ⟨_, h, -⟩ | ⟨_, h, -⟩)
    · cases h
    · cases h
      exact hnotify rfl
    · cases h
    · cases h

theorem Idle.register {env : Env} (caller : Nat) (ioc : Ioc) :
    r.Idle (env, .register caller ioc) := by
  refine ⟨nofun, nofun, ?_⟩
  rintro queueId (⟨h | ⟨_, h, -⟩, -, -⟩ | ⟨_, h, -⟩ | ⟨_, h, -⟩) <;> cases h

theorem Idle.reply {env : Env} (ioc : Ioc) : r.Idle (env, .reply ioc) := by
  refine ⟨nofun, nofun, ?_⟩
  rintro queueId (⟨h | ⟨_, h, -⟩, -, -⟩ | ⟨_, h, -⟩ | ⟨_, h, -⟩) <;> cases h

theorem along_setUp (num : BitVec 32) {ok : ProxyRun → Env × Op → Prop}
    (hok : ∀ r call, r.Idle call → ok r call) (r : ProxyRun) :
    Run.Along step ok r (setUp front num) :=
  ⟨hok _ _ (.writeReg _ nofun nofun), hok _ _ (.writeReg _ nofun nofun),
    hok _ _ (.writeReg _ nofun nofun), hok _ _ (.writeReg _ nofun nofun),
    hok _ _ (.writeReg _ nofun nofun), hok _ _ (.register _ _), trivial⟩

/-- This frontend leaves its memory alone, so it does not matter when a chain is read. -/
theorem chainFits_oneRequest (dev : MmioDev) (hi : Byte) (vq : MmioQueue) :
    ∀ left t t' id inLen outCount outLen,
      chainFits dev (oneRequest hi) vq left t id inLen outCount outLen =
        chainFits dev (oneRequest hi) vq left t' id inLen outCount outLen := by
  intro left
  induction left with
  | zero => exact fun _ _ _ _ _ _ => rfl
  | succ left ih =>
    intro t t' id inLen outCount outLen
    unfold chainFits
    rw [show dev.readDesc (oneRequest hi) t vq id = dev.readDesc (oneRequest hi) t' vq id from rfl]
    simp only [ih (t + 2) (t' + 2)]
    rfl

/-- The one request is taken, and then the ring is empty. -/
theorem oneRequest_fits (n : Nat) :
    AvailFits (oneRequest 1#8) 0 n (smallRun (setUp (oneRequest 1#8) 1#32)).dev.mmio := by
  cases n with
  | zero => exact trivial
  | succ n =>
    intro t head dev' hpop
    have hstill : (smallRun (setUp (oneRequest 1#8) 1#32)).dev.mmio.popAvail (oneRequest 1#8) 0 0 =
        some (head, dev') := hpop
    obtain ⟨rfl, rfl⟩ := Prod.mk.inj (Option.some.inj hstill.symm)
    refine ⟨fun vq hvq => ?_, ?_⟩
    · obtain rfl := Option.some.inj hvq
      rw [chainFits_oneRequest _ _ _ _ (t + 2) 0]
      decide +kernel
    · cases n with
      | zero => exact trivial
      | succ n => exact fun t' head' dev'' hpop' => by cases hpop'

def pollIoc : Ioc :=
  { emptyIoc with
    inGpa := 0x5000#64
    inLen := 65536 }

/-- The request is taken and handed out. -/
def handed : List (Env × Op) :=
  setUp (oneRequest 1#8) 1#32 ++
    [(quietEnv (oneRequest 1#8), .writeReg .queueNotify 0#32),
      (quietEnv (oneRequest 1#8), .poll pollIoc)]

def answer : Env × Op := (quietEnv (oneRequest 1#8), .reply emptyIoc)

theorem proxy_requests_conserved_reply :
    (smallRun handed).PublishesWritten answer ∧
    (smallRun (handed ++ [answer])).Conserved ∧
    (smallRun (handed ++ [answer])).ledger.settled = [(0, ⟨0, 0⟩)] := by
  have hidle : ∀ (r : ProxyRun) call, r.Idle call → ¬call.2.Resets ∧ r.TakesFit call :=
    fun r call h => ⟨h.resets, fun queueId htakes => absurd htakes (h.takes queueId)⟩
  have hhanded : Run.Along step (fun r call => ¬call.2.Resets ∧ r.TakesFit call)
      (boot smallProxy []) handed := by
    refine Run.along_append.mpr ⟨along_setUp _ _ hidle _, ⟨nofun, ?_⟩, ⟨nofun, ?_⟩, trivial⟩
    · rintro queueId (⟨h | ⟨value, h, hcall⟩, -, -⟩ | ⟨ioc, h, -⟩ | ⟨ioc, h, -⟩) n
      · cases h
      · cases h
        obtain rfl : 0 = queueId := MmioDev.OpsCall.notifyQueue.inj hcall
        exact oneRequest_fits n
      · cases h
      · cases h
    · -- the request waits in a slot, and the poll leaves the ring alone
      rintro queueId (⟨h | ⟨value, h, hcall⟩, -, -⟩ | ⟨ioc, h, rfl, hnone⟩ | ⟨ioc, h, -⟩) n
      · cases h
      · cases h
      · cases h
        exact absurd hnone (by decide +kernel)
      · cases h
  refine ⟨(proxy_requests_conserved smallProxy [] handed hhanded).2 answer,
    (proxy_requests_conserved smallProxy [] (handed ++ [answer]) ?_).1, by decide +kernel⟩
  exact Run.along_append.mpr ⟨hhanded, hidle _ _ (.reply emptyIoc), trivial⟩

/-- The backend polls a request of 16384 bytes. -/
def oversized : List (Env × Op) :=
  setUp (oneRequest 64#8) 1#32 ++ [(quietEnv (oneRequest 64#8), .poll pollIoc)]

/-- The poll fails, and the request is in no slot and in no used ring. -/
theorem proxy_request_lost :
    (∀ call ∈ oversized, ¬call.2.Resets) ∧
    (smallRun oversized).ledger.taken = [⟨0, 0⟩] ∧
    ¬(smallRun oversized).Conserved := by
  refine ⟨?_, rfl, fun h => ?_⟩
  · simp [oversized, setUp, Op.Resets]
  · rcases h.accounted 0 ⟨0, 0⟩ rfl with ⟨⟨s, hs, -⟩, -⟩ | ⟨-, hmem, -⟩
    · cases hs.number
    · cases hmem

end ProxyRun

end BeauOs.Virtio

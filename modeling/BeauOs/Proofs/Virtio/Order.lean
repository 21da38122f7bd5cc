/-
Requests of one queue reach the backend in the order in which they were popped, mostly.

A poll hands out the unsent request of the queue with the lowest slot, and the slots say nothing
about age.  As long as the slots of the unsent requests of a queue grow with their age, the lowest
slot is the oldest request.  A poll pops a new head only if nothing of its queue waits, and cannot
break this.  A notification takes new heads into the first free slots, and breaks it if one of
these lies below a request of the queue that still waits: the new request is then handed out
first.  So the law needs that a notification finds no such slot (`NotifiesInOrder`).
-/
import BeauOs.Proofs.Virtio.Conservation

namespace BeauOs.Virtio

open BeauOs.Pm

namespace SlotView

variable {v : SlotView} {slot : Nat}

/-- The number of a request that waits for a poll. -/
def Waits (v : SlotView) (i : Nat) : Prop :=
  ∃ s < v.limit, (v.pending s).valid = true ∧ (v.pending s).sent = false ∧
    v.ledger.slot s = some i

/-- The requests of a queue that wait lie below the first free slot. -/
def WaitBelowFree (v : SlotView) (queueId : Nat) : Prop :=
  ∀ free, v.findSlot Pending.isFree = some free →
    ∀ s < v.limit, (v.pending s).isUnsent queueId = true → s < free

/-- The slots of the requests of a queue that wait grow with their age. -/
structure Aligned (v : SlotView) : Prop where
  number : ∀ s < v.limit, (v.pending s).valid = true → (v.pending s).sent = false →
    ∃ i, v.ledger.slot s = some i ∧
      v.ledger.taken[i]? = some ⟨(v.pending s).queueId, (v.pending s).head⟩
  handed_lt : ∀ j ∈ v.ledger.handed, j < v.ledger.taken.length
  inOrder : v.ledger.InOrder Request.queueId v.Waits
  sorted : ∀ queueId s s' i i', s < s' → s' < v.limit →
    (v.pending s).isUnsent queueId = true → (v.pending s').isUnsent queueId = true →
      v.ledger.slot s = some i → v.ledger.slot s' = some i' → i < i'

/-- A move of the code that does not put a request below one that waits. -/
def Orderly (v : SlotView) (m : Move) : Prop :=
  v.Enabled m ∧ m ≠ .unsend ∧
    ∀ slot p, m = .keep slot p → ∀ s < v.limit, (v.pending s).isUnsent p.queueId = true → s < slot

namespace Aligned

theorem waits_lt (h : v.Aligned) {i : Nat} (hi : v.Waits i) : i < v.ledger.taken.length := by
  obtain ⟨s, hs, hvalid, hsent, hslot⟩ := hi
  obtain ⟨j, hj, htaken⟩ := h.number s hs hvalid hsent
  obtain rfl := Option.some.inj (hslot.symm.trans hj)
  exact (List.getElem?_eq_some_iff.mp htaken).1

theorem queueId_eq (h : v.Aligned) {s s' i j : Nat} (hs : s < v.limit) (hs' : s' < v.limit)
    (hvalid : (v.pending s).valid = true) (hsent : (v.pending s).sent = false)
    (hvalid' : (v.pending s').valid = true) (hsent' : (v.pending s').sent = false)
    (hi : v.ledger.slot s = some i) (hj : v.ledger.slot s' = some j)
    (hsame : v.ledger.SameKey Request.queueId i j) :
    (v.pending s').queueId = (v.pending s).queueId := by
  obtain ⟨i', hi', htaken⟩ := h.number s hs hvalid hsent
  obtain ⟨j', hj', htaken'⟩ := h.number s' hs' hvalid' hsent'
  obtain rfl := Option.some.inj (hi.symm.trans hi')
  obtain rfl := Option.some.inj (hj.symm.trans hj')
  unfold Ledger.SameKey at hsame
  rw [htaken, htaken'] at hsame
  exact (Option.some.inj hsame).symm

theorem keep (h : v.Aligned) {p : Pending} (hok : v.Orderly (.keep slot p)) :
    (v.apply (.keep slot p)).Aligned := by
  obtain ⟨⟨hfree, hvalid, hsent, -⟩, -, hbelow⟩ := hok
  have hbelow := hbelow slot p rfl
  have hself : (v.apply (.keep slot p)).pending slot = p := v.setSlot_self slot p
  have hother : ∀ s, s ≠ slot → (v.apply (.keep slot p)).pending s = v.pending s :=
    fun s hs => v.setSlot_of_ne p hs
  have hnum : (v.apply (.keep slot p)).ledger.slot slot = some v.ledger.taken.length :=
    Ledger.slot_take_keep_self v.ledger _ slot
  have hnums : ∀ s, s ≠ slot → (v.apply (.keep slot p)).ledger.slot s = v.ledger.slot s :=
    fun s hs => Ledger.slot_take_keep_of_ne v.ledger _ hs
  refine ⟨fun s hs hval hun => ?_, fun j hj => ?_, ?_, fun q s s' i i' hlt hs' hu hu' hi hi' => ?_⟩
  · by_cases hslot : s = slot
    · subst hslot
      rw [hself]
      exact ⟨_, hnum, Ledger.taken_take_self v.ledger _⟩
    · rw [hother s hslot] at hval hun ⊢
      obtain ⟨i, hi, htaken⟩ := h.number s hs hval hun
      refine ⟨i, (hnums s hslot).trans hi, ?_⟩
      exact (Ledger.taken_take_of_lt _ (List.getElem?_eq_some_iff.mp htaken).1).trans htaken
  · have hlen : (v.apply (.keep slot p)).ledger.taken.length = v.ledger.taken.length + 1 :=
      List.length_append
    rw [hlen]
    exact Nat.lt_succ_of_lt (h.handed_lt j hj)
  · have horder := h.inOrder.take ⟨p.queueId, p.head⟩ h.handed_lt fun i hi => h.waits_lt hi
    refine ⟨horder.handed, fun i hi => horder.waiting i ?_⟩
    obtain ⟨s, hs, hval, hun, hi⟩ := hi
    by_cases hslot : s = slot
    · subst hslot
      exact .inr (Option.some.inj (hi.symm.trans hnum))
    · rw [hother s hslot] at hval hun
      rw [hnums s hslot] at hi
      exact .inl ⟨s, hs, hval, hun, hi⟩
  · -- the new request is the youngest, and lies above the others of its queue
    by_cases hslot' : s' = slot
    · have hslot : s ≠ slot := by omega
      rw [hslot', hnum] at hi'
      rw [hnums s hslot] at hi
      rw [hother s hslot] at hu
      obtain ⟨hval, hun, -⟩ := Pending.isUnsent_iff.mp hu
      rw [← Option.some.inj hi']
      exact h.waits_lt ⟨s, Nat.lt_trans hlt hs', hval, hun, hi⟩
    · rw [hother s' hslot'] at hu'
      by_cases hslot : s = slot
      · subst hslot
        rw [hself] at hu
        obtain ⟨-, -, hq⟩ := Pending.isUnsent_iff.mp hu
        exact absurd (hbelow s' hs' (hq ▸ hu')) (by omega)
      · rw [hother s hslot] at hu
        rw [hnums s hslot] at hi
        rw [hnums s' hslot'] at hi'
        exact h.sorted q s s' i i' hlt hs' hu hu' hi hi'

theorem hand (h : v.Aligned) (hen : v.Enabled (.hand slot)) : (v.apply (.hand slot)).Aligned := by
  obtain ⟨queueId, hfind⟩ := hen
  obtain ⟨hunsent, hlt, hfirst⟩ := SlotView.findSlot_eq_some.mp hfind
  obtain ⟨hvalid, hsent, hq⟩ := Pending.isUnsent_iff.mp hunsent
  obtain ⟨i, hi, htaken⟩ := h.number slot hlt hvalid hsent
  -- what still waits has waited before, and is not the request handed out
  have hother : ∀ s, ((v.apply (.hand slot)).pending s).sent = false →
      s ≠ slot ∧ (v.apply (.hand slot)).pending s = v.pending s := by
    intro s hs
    have hne : s ≠ slot := by
      rintro rfl
      have hs' : ((v.setSlot s { v.pending s with sent := true }).pending s).sent = false := hs
      rw [v.setSlot_self] at hs'
      cases hs'
    exact ⟨hne, v.setSlot_of_ne _ hne⟩
  have hlist : (v.apply (.hand slot)).ledger.handed = v.ledger.handed ++ [i] := by
    simp [SlotView.apply, Ledger.hand, hi]
  -- among the requests of the queue the one in the lowest slot is the oldest
  have hoverall : ∀ s j, s < v.limit → (v.pending s).valid = true → (v.pending s).sent = false →
      v.ledger.slot s = some j → v.ledger.SameKey Request.queueId i j → s ≠ slot → i < j := by
    intro s j hs hval hun hj hsame hne
    have hqs := (h.queueId_eq hlt hs hvalid hsent hval hun hi hj hsame).trans hq
    have hu := Pending.isUnsent_iff.mpr ⟨hval, hun, hqs⟩
    have hge : ¬s < slot := fun hlow => absurd (hfirst s hlow) (by rw [hu]; decide)
    exact h.sorted queueId slot s i j (by omega) hs hunsent hu hi hj
  refine ⟨fun s hs hval hun => ?_, fun j hj => ?_, ?_, fun q s s' i i' hss hs' hu hu' hi hi' => ?_⟩
  · obtain ⟨-, heq⟩ := hother s hun
    rw [heq] at hval hun ⊢
    exact h.number s hs hval hun
  · rw [hlist, List.mem_append, List.mem_singleton] at hj
    rcases hj with hj | rfl
    · exact h.handed_lt j hj
    · exact (List.getElem?_eq_some_iff.mp htaken).1
  · refine Ledger.InOrder.mono (h.inOrder.hand hi ⟨slot, hlt, hvalid, hsent, hi⟩ ?_) ?_
    · rintro j ⟨s, hs, hval, hun, hj⟩ hsame
      by_cases hslot : s = slot
      · rw [hslot, hi] at hj
        exact Nat.le_of_eq (Option.some.inj hj)
      · exact Nat.le_of_lt (hoverall s j hs hval hun hj hsame hslot)
    · rintro j ⟨s, hs, hval, hun, hj⟩
      obtain ⟨hne, heq⟩ := hother s hun
      rw [heq] at hval hun
      refine ⟨⟨s, hs, hval, hun, hj⟩, ?_⟩
      rintro rfl
      exact Nat.lt_irrefl _ (hoverall s j hs hval hun hj rfl hne)
  · obtain ⟨-, heq⟩ := hother s (Pending.isUnsent_iff.mp hu).2.1
    obtain ⟨-, heq'⟩ := hother s' (Pending.isUnsent_iff.mp hu').2.1
    rw [heq] at hu
    rw [heq'] at hu'
    exact h.sorted q s s' i i' hss hs' hu hu' hi hi'

theorem of_emptied (h : v.Aligned) {p : Pending} {l : Ledger Request} (hp : p.valid = false)
    (hl : l.InOrder Request.queueId v.Waits) (htaken : v.ledger.taken <+: l.taken)
    (hhanded : l.handed = v.ledger.handed)
    (hslot : ∀ s, s ≠ slot → l.slot s = v.ledger.slot s) :
    Aligned { v.setSlot slot p with ledger := l } := by
  have hother : ∀ s, ((v.setSlot slot p).pending s).valid = true →
      s ≠ slot ∧ (v.setSlot slot p).pending s = v.pending s := by
    intro s hs
    have hne : s ≠ slot := by
      rintro rfl
      rw [v.setSlot_self, hp] at hs
      cases hs
    exact ⟨hne, v.setSlot_of_ne _ hne⟩
  refine ⟨fun s hs hval hun => ?_, fun j hj => ?_, hl.mono ?_,
    fun q s s' i i' hss hs' hu hu' hi hi' => ?_⟩
  · obtain ⟨hne, heq⟩ := hother s hval
    have hval' : ((v.setSlot slot p).pending s).valid = true := hval
    have hun' : ((v.setSlot slot p).pending s).sent = false := hun
    rw [heq] at hval' hun'
    obtain ⟨i, hi, hreq⟩ := h.number s hs hval' hun'
    refine ⟨i, (hslot s hne).trans hi, ?_⟩
    show l.taken[i]? = some ⟨((v.setSlot slot p).pending s).queueId,
      ((v.setSlot slot p).pending s).head⟩
    rw [heq, ← hreq]
    exact (List.prefix_iff_getElem?.mp htaken i (List.getElem?_eq_some_iff.mp hreq).1).trans
      (List.getElem?_eq_getElem _).symm
  · exact Nat.lt_of_lt_of_le (h.handed_lt j (hhanded ▸ hj)) htaken.length_le
  · rintro i ⟨s, hs, hval, hun, hi⟩
    obtain ⟨hne, heq⟩ := hother s hval
    have hval' : ((v.setSlot slot p).pending s).valid = true := hval
    have hun' : ((v.setSlot slot p).pending s).sent = false := hun
    rw [heq] at hval' hun'
    exact ⟨s, hs, hval', hun', (hslot s hne).symm.trans hi⟩
  · obtain ⟨hne, heq⟩ := hother s (Pending.isUnsent_iff.mp hu).1
    obtain ⟨hne', heq'⟩ := hother s' (Pending.isUnsent_iff.mp hu').1
    have hu1 : ((v.setSlot slot p).pending s).isUnsent q = true := hu
    have hu1' : ((v.setSlot slot p).pending s').isUnsent q = true := hu'
    rw [heq] at hu1
    rw [heq'] at hu1'
    exact h.sorted q s s' i i' hss hs' hu1 hu1' ((hslot s hne).symm.trans hi)
      ((hslot s' hne').symm.trans hi')

/-- **No orderly move lets a request overtake another.** -/
theorem apply (h : v.Aligned) {m : Move} (hok : v.Orderly m) : (v.apply m).Aligned := by
  cases m with
  | keep => exact h.keep hok
  | lose _ request =>
    refine h.of_emptied rfl ?_ (List.prefix_append _ _) rfl fun _ _ => rfl
    exact (h.inOrder.take request h.handed_lt fun i hi => h.waits_lt hi).mono fun i hi => .inl hi
  | hand => exact h.hand hok.1
  | settle =>
    refine h.of_emptied rfl ⟨h.inOrder.handed, h.inOrder.waiting⟩ (List.prefix_refl _) rfl
      fun s hs => Ledger.slot_settle_of_ne v.ledger _ hs
  | unsend => exact absurd rfl hok.2.1

end Aligned

end SlotView

/-! ### Runs -/

namespace ProxyRun

variable {r : ProxyRun}

/-- A notification that takes requests finds no free slot below one of its queue that waits. -/
def NotifiesInOrder (r : ProxyRun) (call : Env × Op) : Prop :=
  ∀ queueId, r.NotifyTakes call queueId → r.view.WaitBelowFree queueId

/-- Taking a request while those of its queue lie below the first free slot. -/
theorem takesOk_below {front : GuestView} {queueId : Nat} :
    TakesOk (Moves SlotView.Orderly) front queueId (fun r => r.view.WaitBelowFree queueId)
      fun r => r.view.WaitBelowFree queueId := by
  intro r t slot taken r' hr hfree hspec
  cases hspec with
  | empty => exact ⟨.refl r.view, nofun⟩
  | failed _ _ hview => exact ⟨.single hview ⟨hfree, nofun, nofun⟩, nofun⟩
  | @kept _ _ p _ hcopy hview =>
    obtain ⟨hvalid, hsent, hdone, hq, -⟩ := copyChainToPending_new hcopy
    refine ⟨.single hview ⟨⟨hfree, hvalid, hsent, hdone⟩, nofun, ?_⟩, fun _ => ?_⟩
    · rintro _ _ ⟨⟩ s hs hu
      exact hr slot hfree s hs (hq ▸ hu)
    · show r'.view.WaitBelowFree queueId
      rw [hview]
      intro free hfree' s hs hu
      have hfirst : r.view.findSlot Pending.isFree = some slot := hfree
      obtain ⟨-, -, hbusy⟩ := SlotView.findSlot_eq_some.mp hfirst
      obtain ⟨hisFree, -, -⟩ := SlotView.findSlot_eq_some.mp hfree'
      -- the slots up to the one just filled are taken
      have habove : slot < free := by
        rcases Nat.lt_trichotomy free slot with hlt | rfl | hgt
        · have hold : ((r.view.setSlot slot p).pending free).isFree = true := hisFree
          rw [r.view.setSlot_of_ne p (Nat.ne_of_lt hlt), hbusy free hlt] at hold
          cases hold
        · have hold : ((r.view.setSlot free p).pending free).isFree = true := hisFree
          rw [r.view.setSlot_self, Pending.isFree, hvalid] at hold
          cases hold
        · exact hgt
      by_cases hslot : s = slot
      · exact hslot ▸ habove
      · have hold : ((r.view.setSlot slot p).pending s).isUnsent queueId = true := hu
        rw [r.view.setSlot_of_ne p hslot] at hold
        exact Nat.lt_trans (hr slot hfree s hs hold) habove

/-- Taking a request while none of its queue waits. -/
theorem takesOk_none {front : GuestView} {queueId : Nat} :
    TakesOk (Moves SlotView.Orderly) front queueId
      (fun r => True ∧ r.dev.unsentPendingSlot queueId = none) fun _ => True := by
  intro r t slot taken r' hr hfree hspec
  refine ⟨(takesOk_below r t slot taken r' (fun _ _ s hs hu => ?_) hfree hspec).1, fun _ => trivial⟩
  have hnone : r.view.findSlot (Pending.isUnsent · queueId) = none := hr.2
  exact absurd (SlotView.findSlot_eq_none.mp hnone s hs) (by rw [hu]; decide)

theorem accepts_orderly {call : Env × Op} (hdrop : call.2 ≠ .dropBackend)
    (hnotify : r.NotifiesInOrder call) : Accepts SlotView.Orderly r call where
  hand _ _ hen := ⟨hen, nofun, nofun⟩
  settle _ _ hen := ⟨hen, nofun, nofun⟩
  unsend h := absurd h hdrop
  notify queueId htakes := ⟨_, hnotify queueId htakes, takesOk_below⟩
  poll _ _ := ⟨_, trivial, takesOk_none⟩
  batchPoll _ _ := ⟨_, trivial, takesOk_none, fun _ _ _ _ => trivial⟩

/-- The requests of each queue are handed out as they were popped, and none that waits has been
overtaken by a later one. -/
def InOrder (r : ProxyRun) : Prop := r.ledger.InOrder Request.queueId r.view.Waits

/-- **Requests of one queue are handed to the backend in the order in which they were popped**, as
long as no notification fills a slot below one that waits. -/
theorem proxy_requests_in_order (cfg : ProxyConfig) (config : List Byte) (calls : List (Env × Op))
    (hcalls : Run.Along step (fun r call => ¬call.2.Resets ∧ call.2 ≠ .dropBackend ∧
      r.NotifiesInOrder call) (boot cfg config) calls) :
    (Run.exec step (boot cfg config) calls).InOrder := by
  suffices h : (Run.exec step (boot cfg config) calls).view.Aligned from h.inOrder
  refine @Run.inv_exec _ _ _ _ (fun r => r.view.Aligned) ?_ _ _ ?_ hcalls
  · intro r call hr hok
    exact (step_reaches (accepts_orderly hok.2.1 hok.2.2) hok.1).inv _
      (fun v m hv hm => hv.apply hm) hr
  · refine ⟨fun s _ hvalid => ?_, fun j hj => ?_, ?_, fun q s s' i i' _ _ hu => ?_⟩
    · exact absurd hvalid (by simp [boot, view, ProxyDev.init, Pending.zero])
    · exact absurd hj (by simp [boot, view, ledger, Ledger.empty])
    · refine (Ledger.InOrder.empty _).mono ?_
      rintro i ⟨s, -, hvalid, -⟩
      exact absurd hvalid (by simp [boot, view, ProxyDev.init, Pending.zero])
    · exact absurd hu (by simp [boot, view, ProxyDev.init, Pending.zero, Pending.isUnsent])

/-- The rings of a frontend with three requests in the avail ring. -/
def threeRequests : GuestView where
  byte _ gpa :=
    if gpa = 0x2002#64 then 3#8 else if gpa = 0x2006#64 then 1#8
    else if gpa = 0x2008#64 then 2#8 else 0#8
  mapped _ _ _ := true

def notifyThree : Env × Op := (quietEnv threeRequests, .writeReg .queueNotify 0#32)

def pollThree : Env × Op := (quietEnv threeRequests, .poll pollIoc)

def replyThree : Env × Op := (quietEnv threeRequests, .reply emptyIoc)

/-- Requests 0 and 1 are taken and handed out, and 0 is answered.  Then request 2 is taken, into the
slot that request 0 has left. -/
def inTurn : List (Env × Op) :=
  setUp threeRequests 4#32 ++
    [notifyThree, notifyThree, pollThree, pollThree, replyThree, notifyThree, pollThree]

theorem notifiesInOrder_notifyThree (free : Nat)
    (hfree : r.view.findSlot Pending.isFree = some free)
    (hbelow : ∀ s < r.view.limit, (r.view.pending s).isUnsent 0 = true → s < free) :
    r.NotifiesInOrder notifyThree := by
  rintro queueId ⟨h | ⟨_, h, hcall⟩, -, -⟩
  · cases h
  · cases h
    rcases writeReg_notify r.dev.mmio notifyThree.1.gated 0#32 with hpass | hquiet
    · rw [hpass] at hcall
      obtain rfl : 0 = queueId := MmioDev.OpsCall.notifyQueue.inj hcall
      exact fun free' hfree' => Option.some.inj (hfree.symm.trans hfree') ▸ hbelow
    · cases hquiet.symm.trans hcall

theorem proxy_requests_in_order_reuse :
    (smallRun inTurn).InOrder ∧
    (smallRun inTurn).ledger.handed = [0, 1, 2] ∧
    (smallRun inTurn).ledger.slot 0 = some 2 := by
  have hidle : ∀ (r : ProxyRun) call, r.Idle call →
      ¬call.2.Resets ∧ call.2 ≠ .dropBackend ∧ r.NotifiesInOrder call :=
    fun r call h => ⟨h.resets, h.drops, fun queueId htakes =>
      absurd (.inl htakes) (h.takes queueId)⟩
  have hpoll : ∀ r : ProxyRun, ¬pollThree.2.Resets ∧ pollThree.2 ≠ .dropBackend ∧
      r.NotifiesInOrder pollThree := by
    refine fun r => ⟨nofun, nofun, ?_⟩
    rintro queueId ⟨h | ⟨_, h, -⟩, -, -⟩ <;> cases h
  refine ⟨proxy_requests_in_order smallProxy [] inTurn (Run.along_append.mpr
    ⟨along_setUp _ _ hidle _, ⟨nofun, nofun, ?_⟩, ⟨nofun, nofun, ?_⟩, hpoll _, hpoll _,
      hidle _ _ (.reply emptyIoc), ⟨nofun, nofun, ?_⟩, hpoll _, trivial⟩), ?_, ?_⟩
  · exact notifiesInOrder_notifyThree 0 (by decide +kernel) (by decide +kernel)
  · -- request 0 waits below the free slot
    exact notifiesInOrder_notifyThree 1 (by decide +kernel) (by decide +kernel)
  · exact notifiesInOrder_notifyThree 0 (by decide +kernel) (by decide +kernel)
  · decide +kernel
  · decide +kernel

/-! ### A request that is overtaken -/

/-- Requests 0 and 1 are taken, and 0 is answered.  Then request 2 is taken, into the slot that
request 0 has left, and the backend polls. -/
def slotReuse : List (Env × Op) :=
  setUp threeRequests 4#32 ++
    [notifyThree, notifyThree, pollThree, replyThree, notifyThree, pollThree]

/-- Request 2 is handed out while request 1 of the same queue waits. -/
theorem proxy_request_overtaken :
    (∀ call ∈ slotReuse, ¬call.2.Resets ∧ call.2 ≠ .dropBackend) ∧
    (smallRun slotReuse).ledger.handed = [0, 2] ∧
    ¬(smallRun slotReuse).InOrder := by
  refine ⟨?_, ?_, fun h => ?_⟩
  · simp [slotReuse, setUp, notifyThree, pollThree, replyThree, Op.Resets]
  · decide +kernel
  · have hwaits : (smallRun slotReuse).view.Waits 1 := ⟨1, by decide +kernel⟩
    have hhanded : 2 ∈ (smallRun slotReuse).ledger.handed := by decide +kernel
    have hsame : ((smallRun slotReuse).ledger.taken[2]?).map Request.queueId =
        ((smallRun slotReuse).ledger.taken[1]?).map Request.queueId := by
      decide +kernel
    exact absurd (h.waiting 1 hwaits 2 hhanded hsame) (by decide)

end ProxyRun

end BeauOs.Virtio

/-
What a proxy captures of a descriptor chain.

The walk stops after `VIRTIO_PROXY_CHAIN_LIMIT` descriptors and takes what it has for the whole
chain, whether or not the last one has a successor.  So a chain that fits so far is captured
completely exactly if it ends there, or if what is left of it is empty.  A chain that does not fit
leaves its slot empty.
-/
import BeauOs.Proofs.Virtio.Conservation

namespace BeauOs.Virtio

/-- What a descriptor contributes: its data if it is readable, itself if it is writable. -/
inductive RingDesc.Part (mem : GuestView) (t : Nat) (desc : RingDesc) :
    List Byte → List OutDesc → Prop
  | data {bytes : List Byte} (hread : desc.isWrite = false)
      (hbytes : mem.copyFrom t desc.addr desc.len = some bytes) : desc.Part mem t bytes []
  | buffer (hwrite : desc.isWrite = true) : desc.Part mem t [] [⟨desc.addr, desc.len⟩]

theorem RingDesc.Part.unique {mem : GuestView} {t : Nat} {desc : RingDesc} {bytes bytes' : List Byte}
    {out out' : List OutDesc} (h : desc.Part mem t bytes out) (h' : desc.Part mem t bytes' out') :
    bytes = bytes' ∧ out = out' := by
  cases h with
  | data hread hbytes =>
    cases h' with
    | data _ hbytes' => exact ⟨Option.some.inj (hbytes.symm.trans hbytes'), rfl⟩
    | buffer hwrite => exact absurd (hread.symm.trans hwrite) (by decide)
  | buffer hwrite =>
    cases h' with
    | data hread => exact absurd (hread.symm.trans hwrite) (by decide)
    | buffer => exact ⟨rfl, rfl⟩

/-- The complete chain from a descriptor on: the data of its readable descriptors and its writable
descriptors, in order; access `t` is the first. -/
inductive Chain (dev : MmioDev) (mem : GuestView) (vq : MmioQueue) :
    Nat → Nat → List Byte → List OutDesc → Prop
  | last {t id : Nat} {desc : RingDesc} {input : List Byte} {out : List OutDesc}
      (hdesc : dev.readDesc mem t vq id = some desc) (hlast : desc.hasNext = false)
      (hpart : desc.Part mem (t + 1) input out) : Chain dev mem vq t id input out
  | next {t id : Nat} {desc : RingDesc} {bytes input : List Byte} {buffers out : List OutDesc}
      (hdesc : dev.readDesc mem t vq id = some desc) (hnext : desc.hasNext = true)
      (hpart : desc.Part mem (t + 1) bytes buffers)
      (hrest : Chain dev mem vq (t + 2) desc.next input out) :
      Chain dev mem vq t id (bytes ++ input) (buffers ++ out)

/-- What the chain has beyond its first `left` descriptors is nothing, or empty and with an end. -/
def EndsWithin (dev : MmioDev) (mem : GuestView) (vq : MmioQueue) : Nat → Nat → Nat → Prop
  | 0, t, id => Chain dev mem vq t id [] []
  | left + 1, t, id => ∀ desc, dev.readDesc mem t vq id = some desc → desc.hasNext = true →
      EndsWithin dev mem vq left (t + 2) desc.next

/-- The record is that of the complete chain. -/
def Captures (dev : MmioDev) (mem : GuestView) (t queueId head : Nat) : Prop :=
  ∀ vq p, dev.getQueue queueId = some vq → copyChainToPending dev mem t queueId head = some p →
    Chain dev mem vq t head p.input p.out ∧ p.outLen = (p.out.map OutDesc.len).sum

/-- To take a head whose chain does not fit fails, and empties the slot that was meant for it. -/
def EmptiesSlot (dev : MmioDev) (mem : GuestView) (queueId head : Nat) : Prop :=
  ∀ (r : ProxyRun) t slot vq, r.dev.mmio.popAvail mem t queueId = some (head, dev) →
    dev.getQueue queueId = some vq → chainFits dev mem vq proxyDescMax (t + 2) head 0 0 0 = false →
      (ProxyRun.takeAvail mem t queueId slot r).1 = .failed ∧
      (ProxyRun.takeAvail mem t queueId slot r).2.dev.pending = (r.dev.setSlot slot .zero).pending

theorem emptiesSlot (dev : MmioDev) (mem : GuestView) (queueId head : Nat) :
    EmptiesSlot dev mem queueId head := by
  intro r t slot vq hpop hvq hfits
  have hwalk := (walk_isSome dev mem vq proxyDescMax (t + 2) head ⟨[], [], 0⟩).trans hfits
  have hcopy : copyChainToPending dev mem (t + 2) queueId head = none := by
    rw [copyChainToPending, hvq]
    exact Option.map_eq_none_iff.mpr (Option.not_isSome_iff_eq_none.mp (Bool.eq_false_iff.mp hwalk))
  unfold ProxyRun.takeAvail
  rw [hpop]
  dsimp only
  rw [hcopy]
  exact ⟨rfl, rfl⟩

variable {dev : MmioDev} {mem : GuestView} {vq : MmioQueue} {left t id : Nat}
  {acc acc' : ChainCopy} {desc : RingDesc}

theorem ChainCopy.take_part (h : acc.take mem t desc = some acc') :
    ∃ bytes buffers, desc.Part mem t bytes buffers ∧ acc'.input = acc.input ++ bytes ∧
      acc'.out = acc.out ++ buffers ∧ acc'.outLen = acc.outLen + (buffers.map OutDesc.len).sum := by
  unfold ChainCopy.take at h
  split at h
  next hwrite =>
    split_ifs at h
    cases h
    exact ⟨[], _, .buffer hwrite, (List.append_nil _).symm, rfl, by simp⟩
  next hread =>
    split_ifs at h
    obtain ⟨bytes, hbytes, rfl⟩ := Option.map_eq_some_iff.mp h
    exact ⟨bytes, [], .data (Bool.eq_false_iff.mpr hread) hbytes, rfl, (List.append_nil _).symm, rfl⟩

/-- **The walk has gathered the complete chain exactly if the chain ends in time.** -/
theorem walk_complete_iff (h : ChainCopy.walk dev mem vq left t id acc = some acc') :
    (∃ input out, Chain dev mem vq t id input out ∧ acc'.input = acc.input ++ input ∧
      acc'.out = acc.out ++ out ∧ acc'.outLen = acc.outLen + (out.map OutDesc.len).sum) ↔
      EndsWithin dev mem vq left t id := by
  induction left generalizing t id acc with
  | zero =>
    cases h
    refine ⟨?_, fun hrest => ⟨[], [], hrest, by simp⟩⟩
    rintro ⟨input, out, hchain, hinput, hout, -⟩
    rw [List.self_eq_append_right] at hinput hout
    subst hinput hout
    exact hchain
  | succ left ih =>
    unfold ChainCopy.walk at h
    split at h
    · cases h
    next desc hdesc =>
    split at h
    · cases h
    next acc₁ htake =>
    obtain ⟨bytes, buffers, hpart, hinput₁, hout₁, hlen₁⟩ := ChainCopy.take_part htake
    have hsame : ∀ {desc'}, dev.readDesc mem t vq id = some desc' → desc' = desc :=
      fun hdesc' => Option.some.inj (hdesc'.symm.trans hdesc)
    by_cases hnext : desc.hasNext = true
    · rw [if_pos hnext] at h
      have hends : EndsWithin dev mem vq (left + 1) t id ↔
          EndsWithin dev mem vq left (t + 2) desc.next :=
        ⟨fun hall => hall desc hdesc hnext, fun hrest _ hdesc' _ => hsame hdesc' ▸ hrest⟩
      rw [hends, ← ih h, hinput₁, hout₁, hlen₁]
      constructor
      · rintro ⟨input, out, hchain, hinput, hout, hlen⟩
        cases hchain with
        | last hdesc' hlast =>
          cases hsame hdesc'
          exact absurd (hnext.symm.trans hlast) (by decide)
        | @next _ _ _ _ input' _ out' hdesc' _ hpart' hrest =>
          cases hsame hdesc'
          obtain ⟨rfl, rfl⟩ := hpart.unique hpart'
          refine ⟨input', out', hrest, by simpa using hinput, by simpa using hout, ?_⟩
          rw [hlen, List.map_append, List.sum_append, Nat.add_assoc]
      · rintro ⟨input, out, hrest, hinput, hout, hlen⟩
        refine ⟨_, _, .next hdesc hnext hpart hrest, by simpa using hinput,
          by simpa using hout, ?_⟩
        rw [hlen, List.map_append, List.sum_append, Nat.add_assoc]
    · rw [if_neg hnext] at h
      cases h
      refine iff_of_true ⟨bytes, buffers, ?_, hinput₁, hout₁, hlen₁⟩ fun desc' hdesc' hnext' => ?_
      · exact .last hdesc (Bool.eq_false_iff.mpr hnext) hpart
      · exact absurd (hsame hdesc' ▸ hnext') hnext

/--
**A chain is captured completely, or not at all, exactly if** it does not fit a slot, or ends
within the limit, or goes on with empty readable descriptors only and ends.  One that does not fit
leaves no request in the slot.
-/
theorem chain_capture_iff (dev : MmioDev) (mem : GuestView) (t queueId head : Nat) :
    (Captures dev mem t queueId head ↔ ∀ vq, dev.getQueue queueId = some vq →
      chainFits dev mem vq proxyDescMax t head 0 0 0 = true →
      EndsWithin dev mem vq proxyDescMax t head) ∧ EmptiesSlot dev mem queueId head := by
  refine ⟨forall_congr' fun vq => ?_, emptiesSlot dev mem queueId head⟩
  rw [forall_comm]
  refine imp_congr_right fun hvq => ?_
  have hfits : _ = chainFits dev mem vq proxyDescMax t head 0 0 0 :=
    walk_isSome dev mem vq proxyDescMax t head ⟨[], [], 0⟩
  simp only [← hfits, copyChainToPending, hvq]
  cases hwalk : ChainCopy.walk dev mem vq proxyDescMax t head ⟨[], [], 0⟩ with
  | none =>
    refine iff_of_true (fun p h => ?_) (fun h => ?_)
    · cases h
    · cases h
  | some acc =>
    rw [← walk_complete_iff hwalk]
    simp only [List.nil_append, Nat.zero_add]
    constructor
    · intro hall _
      obtain ⟨hchain, hlen⟩ := hall _ rfl
      exact ⟨_, _, hchain, rfl, rfl, hlen⟩
    · intro hends p hp
      cases hp
      obtain ⟨_, _, hchain, rfl, rfl, hlen⟩ := hends rfl
      exact ⟨hchain, hlen⟩

/-- Every descriptor is empty and readable, and its successor is the first one. -/
def cyclicMemory : GuestView where
  byte := fun _ gpa => if gpa &&& 15#64 = 12#64 then 1#8 else 0#8
  mapped := fun _ _ _ => true

/-- A device with one queue of four descriptors. -/
def oneQueue : MmioDev :=
  (MmioDev.init 0 1 4 0#64).setQueue 0 ⟨4, 0, 0x1000#64, 0x2000#64, 0x3000#64, true⟩

/-- A chain without an end is captured. -/
theorem chain_capture_cyclic :
    (copyChainToPending oneQueue cyclicMemory 0 0 0).isSome = true ∧
      ¬Captures oneQueue cyclicMemory 0 0 0 := by
  have hsome : (copyChainToPending oneQueue cyclicMemory 0 0 0).isSome = true := by decide +kernel
  have hdesc : (oneQueue.readDesc cyclicMemory 0 (oneQueue.queues 0) 0).all
      (fun desc => desc.hasNext && decide (desc.next = 0)) = true := by decide +kernel
  have hnone : ∀ {t id input out}, Chain oneQueue cyclicMemory (oneQueue.queues 0) t id input out →
      id ≠ 0 := by
    intro t id input out hchain
    induction hchain with
    | last hread hlast =>
      rintro rfl
      rw [show oneQueue.readDesc cyclicMemory 0 _ 0 = _ from hread, Option.all_some, hlast] at hdesc
      cases hdesc
    | next hread _ _ _ ih =>
      rintro rfl
      rw [show oneQueue.readDesc cyclicMemory 0 _ 0 = _ from hread, Option.all_some,
        Bool.and_eq_true] at hdesc
      exact ih (of_decide_eq_true hdesc.2)
  refine ⟨hsome, fun h => ?_⟩
  obtain ⟨p, hp⟩ := Option.isSome_iff_exists.mp hsome
  exact hnone (h _ p rfl hp).1 rfl

end BeauOs.Virtio

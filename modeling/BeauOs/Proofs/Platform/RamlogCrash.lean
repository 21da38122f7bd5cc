/-
What a reset leaves of the retained log.

The stream of a slot is the concatenation of what its appends keep.  A log is *sound* when its
active copy is its header, the other copy is older or refused, and the ring holds the stream on
`[cons, prod)` of every slot.  An append writes the bytes after `prod` first, and this keeps the
published window only while they fit beside it: once the ring is full, they replace the oldest
bytes that the published header still claims, and a reset before the new header is complete
recovers the old cursors over the new bytes (`full_ring_torn`).

The recovered log is sound whenever the reset comes before the window is overwritten or after the
header is published.
-/
import BeauOs.Lib.Run
import BeauOs.Platform.Ramlog

namespace BeauOs.Platform

open Function

/-! ### The ring and the stream -/

/-- The ring holds the stream from position `first` on. -/
def RingHolds (live : Nat) (ring : Nat → UInt8) (stream : List UInt8) (first : Nat) : Prop :=
  ∀ pos, first ≤ pos → pos < stream.length → stream[pos]? = some (ring (pos % live))

variable {live first : Nat} {ring : Nat → UInt8} {stream bytes : List UInt8} {mem : Retained}
    {active : Bool} {header : RamlogHeader} {s : RamlogSlot}

theorem RingHolds.mono {first' : Nat} (h : RingHolds live ring stream first) (hle : first ≤ first') :
    RingHolds live ring stream first' :=
  fun pos hpos hlt => h pos (by omega) hlt

theorem RingHolds.take (h : RingHolds live ring stream first) (n : Nat) :
    RingHolds live ring (stream.take n) first := by
  intro pos hpos hlt
  rw [List.length_take] at hlt
  rw [List.getElem?_take_of_lt (by omega)]
  exact h pos hpos (by omega)

/-- Two positions less than a ring apart lie in different places. -/
theorem mod_ne_of_lt {pos pos' : Nat} (hlt : pos < pos') (hnear : pos' < pos + live) :
    pos % live ≠ pos' % live := by
  intro heq
  have hdvd : live ∣ pos' - pos :=
    Nat.dvd_of_mod_eq_zero (Nat.sub_mod_eq_zero_of_mod_eq heq.symm)
  have := Nat.le_of_dvd (by omega) hdvd
  omega

/-- One more byte fits while the window is shorter than the ring. -/
theorem RingHolds.snoc (h : RingHolds live ring stream first)
    (hroom : stream.length < first + live) (value : UInt8) :
    RingHolds live (Function.update ring (stream.length % live) value) (stream ++ [value])
      first := by
  intro pos hpos hlt
  rw [List.length_append, List.length_singleton] at hlt
  rcases Nat.lt_succ_iff_lt_or_eq.mp hlt with hold | rfl
  · rw [List.getElem?_append_left hold, h pos hpos hold,
      update_of_ne (mod_ne_of_lt hold (by omega))]
  · rw [List.getElem?_concat_length, update_self]

/-! ### The payload -/

def positionStores (live slot : Nat) : Nat → List UInt8 → List RamlogStore
  | _, [] => []
  | pos, value :: rest => .byte slot (pos % live) value :: positionStores live slot (pos + 1) rest

theorem length_positionStores (live slot : Nat) :
    ∀ (bytes : List UInt8) (pos : Nat), (positionStores live slot pos bytes).length = bytes.length
  | [], _ => rfl
  | _ :: rest, pos => congrArg (· + 1) (length_positionStores live slot rest (pos + 1))

theorem take_positionStores (live slot : Nat) :
    ∀ (k : Nat) (bytes : List UInt8) (pos : Nat),
      (positionStores live slot pos bytes).take k = positionStores live slot pos (bytes.take k)
  | 0, _, _ | _ + 1, [], _ => rfl
  | k + 1, _ :: rest, pos => congrArg (_ :: ·) (take_positionStores live slot k rest (pos + 1))

theorem positionStores_append (live slot : Nat) :
    ∀ (bytes rest : List UInt8) (pos : Nat),
      positionStores live slot pos (bytes ++ rest) =
        positionStores live slot pos bytes ++ positionStores live slot (pos + bytes.length) rest
  | [], _, _ => rfl
  | _ :: bytes, rest, pos => by
    simp only [List.cons_append, positionStores, positionStores_append live slot bytes rest,
      List.length_cons, Nat.add_assoc, Nat.add_comm 1]

/-- A copy that does not pass the end of the ring stores at the absolute positions. -/
theorem copyStores_eq (slot : Nat) :
    ∀ {bytes : List UInt8} {pos : Nat}, pos % live + bytes.length ≤ live →
      copyStores slot (pos % live) bytes = positionStores live slot pos bytes
  | [], _, _ => rfl
  | value :: rest, pos, hfit => by
    rw [List.length_cons] at hfit
    simp only [copyStores, positionStores, List.cons.injEq, true_and]
    cases rest with
    | nil => rfl
    | cons value' rest' =>
      rw [List.length_cons] at hfit
      have hnext : (pos + 1) % live = pos % live + 1 := by
        rw [Nat.add_mod, Nat.mod_eq_of_lt (show 1 < live by omega)]
        exact Nat.mod_eq_of_lt (by omega)
      rw [← hnext]
      exact copyStores_eq slot (by rw [List.length_cons]; omega)

/-- **The two copies of an append put each byte at its absolute position.** -/
theorem payloadStores_eq (hlive : 0 < live) (slot prod : Nat) (hlen : bytes.length ≤ live) :
    payloadStores live slot prod bytes = positionStores live slot prod bytes := by
  have hoff : prod % live < live := Nat.mod_lt _ hlive
  unfold payloadStores
  simp only
  generalize hn : min (live - prod % live) bytes.length = n
  have hfirst : (bytes.take n).length = n := by rw [List.length_take]; omega
  have hsplit := positionStores_append live slot (bytes.take n) (bytes.drop n) prod
  rw [List.take_append_drop, hfirst] at hsplit
  rw [hsplit, copyStores_eq slot (by omega)]
  congr 1
  rcases Nat.lt_or_ge n bytes.length with hmore | hall
  · have hzero : (prod + n) % live = 0 := by
      have hdiv := Nat.div_add_mod prod live
      rw [show prod + n = live * (prod / live + 1) by rw [Nat.mul_succ]; omega]
      exact Nat.mul_mod_right ..
    have hfit : (prod + n) % live + (bytes.drop n).length ≤ live := by
      rw [hzero, List.length_drop]
      omega
    rw [← copyStores_eq slot hfit, hzero]
  · rw [List.drop_eq_nil_of_le hall]
    rfl

/-- The payload extends the stream the ring holds. -/
theorem ringHolds_positionStores {slot : Nat} :
    ∀ {bytes stream : List UInt8} {mem : Retained}, RingHolds live (mem.ring slot) stream first →
      stream.length + bytes.length ≤ first + live →
      RingHolds live ((mem.applyAll (positionStores live slot stream.length bytes)).ring slot)
        (stream ++ bytes) first := by
  intro bytes
  induction bytes with
  | nil =>
    intro stream mem h _
    rw [List.append_nil]
    exact h
  | cons value rest ih =>
    intro stream mem h hroom
    rw [List.length_cons] at hroom
    have hnext := h.snoc (by omega) value
    have hrest := @ih (stream ++ [value]) (mem.apply (.byte slot (stream.length % live) value))
      (by simpa [Retained.apply] using hnext) (by rw [List.length_append, List.length_singleton]; omega)
    rw [List.length_append, List.length_singleton, List.append_assoc] at hrest
    exact hrest

/-- The payload stores leave the headers and the other rings alone. -/
theorem positionStores_frame (live slot : Nat) :
    ∀ (bytes : List UInt8) (pos : Nat) (mem : Retained),
      (mem.applyAll (positionStores live slot pos bytes)).copies = mem.copies ∧
        ∀ slot', slot' ≠ slot →
          (mem.applyAll (positionStores live slot pos bytes)).ring slot' = mem.ring slot' := by
  intro bytes
  induction bytes with
  | nil => exact fun _ _ => ⟨rfl, fun _ _ => rfl⟩
  | cons value rest ih =>
    intro pos mem
    obtain ⟨hcopies, hring⟩ := ih (pos + 1) (mem.apply (.byte slot (pos % live) value))
    refine ⟨hcopies, fun slot' hne => (hring slot' hne).trans ?_⟩
    exact update_of_ne hne ..

/-! ### The header copies -/

/-- The header is in the copy `active`, and the other copy is older or refused. -/
structure Current (mem : Retained) (active : Bool) (header : RamlogHeader) : Prop where
  here : mem.copies active = some header
  older : ∀ h, mem.copies (!active) = some h → h.sequence < header.sequence

theorem Current.select (h : Current mem active header) : mem.select = some (header, active) := by
  obtain ⟨hhere, holder⟩ := h
  unfold Retained.select
  cases active with
  | false =>
    rw [hhere]
    cases hother : mem.copies true with
    | none => rfl
    | some h' =>
      have := holder h' hother
      exact if_neg (by omega)
  | true =>
    rw [hhere]
    cases hother : mem.copies false with
    | none => rfl
    | some h' => exact if_pos (holder h' hother)

/-- The part of a publication that has reached memory keeps the rings. -/
theorem publishStores_ring (header : RamlogHeader) (active : Bool) (j : Nat) (mem : Retained) :
    (mem.applyAll ((publishStores header active).take j)).ring = mem.ring := by
  match j with
  | 0 | 1 | 2 | 3 => rfl
  | j + 4 =>
    rw [List.take_of_length_le (Nat.le_add_left 4 j)]
    rfl

/-- A publication is complete after its second and its last store. -/
theorem publishStores_published {old : RamlogHeader} {j : Nat} (hcur : Current mem active old)
    (hseq : old.sequence = header.sequence) (hmax : header.sequence + 1 ≤ uint64Max)
    (hj : j = 2 ∨ 4 ≤ j) :
    Current (mem.applyAll ((publishStores header active).take j)) (!active) header.next := by
  have hother : ∀ h, mem.copies active = some h → h.sequence < header.next.sequence := by
    intro h hh
    obtain rfl : old = h := Option.some.inj (hcur.here.symm.trans hh)
    rw [hseq]
    show header.sequence < add64 header.sequence 1
    rw [add64_eq hmax]
    omega
  rcases hj with rfl | hj
  · refine ⟨by simp [publishStores, Retained.applyAll, Retained.apply], fun h hh => hother h ?_⟩
    simpa [publishStores, Retained.applyAll, Retained.apply] using hh
  · rw [List.take_of_length_le (by exact hj)]
    refine ⟨by simp [publishStores, Retained.applyAll, Retained.apply], fun h hh => hother h ?_⟩
    simpa [publishStores, Retained.applyAll, Retained.apply] using hh

/-- Before that, the header published last is still the current one. -/
theorem publishStores_torn {old : RamlogHeader} {j : Nat} (hcur : Current mem active old)
    (hj : j < 2 ∨ j = 3) :
    Current (mem.applyAll ((publishStores header active).take j)) active old := by
  obtain ⟨hhere, holder⟩ := hcur
  obtain rfl | rfl | rfl : j = 0 ∨ j = 1 ∨ j = 3 := by omega
  · exact ⟨hhere, holder⟩
  all_goals
    constructor
    · simpa [publishStores, Retained.applyAll, Retained.apply] using hhere
    · simp [publishStores, Retained.applyAll, Retained.apply]

/-! ### One slot -/

/-- The cursors of a slot describe a part of its stream that the ring holds. -/
structure SlotSound (live : Nat) (s : RamlogSlot) (ring : Nat → UInt8) (stream : List UInt8) :
    Prop where
  prod_eq : s.prod = stream.length
  cons_le : s.cons ≤ s.prod
  fits : s.prod ≤ s.cons + live
  holds : RingHolds live ring stream s.cons

theorem length_keptBytes_le (live : Nat) (buffer : List UInt8) :
    (keptBytes live buffer).length ≤ live := by
  rw [keptBytes, List.length_drop]
  omega

theorem clip_cons (s : RamlogSlot) (live original : Nat) :
    (s.clip live original).cons = s.cons := by
  unfold RamlogSlot.clip
  split <;> rfl

theorem push_prod (s : RamlogSlot) (live prod : Nat) : (s.push live prod).prod = prod := by
  unfold RamlogSlot.push
  split <;> rfl

theorem push_cons {prod : Nat} (hcons : s.cons ≤ prod) (hmax : prod ≤ uint64Max) :
    (s.push live prod).cons = max s.cons (prod - live) := by
  unfold RamlogSlot.push
  rw [sub64_eq hcons hmax]
  split
  · show sub64 prod live = _
    rw [sub64_eq (by omega) hmax]
    omega
  · show s.cons = _
    omega

theorem setStored_cursors (s : RamlogSlot) (total : Nat) :
    (s.setStored total).prod = s.prod ∧ (s.setStored total).cons = s.cons := ⟨rfl, rfl⟩

/-- An append moves the cursors to the longest window that fits. -/
theorem append_cursors {length : Nat} (original : Nat) (hcons : s.cons ≤ s.prod)
    (hmax : s.prod + length ≤ uint64Max) :
    (s.append live length original).prod = s.prod + length ∧
      (s.append live length original).cons = max s.cons (s.prod + length - live) := by
  have hclip := clip_cons s live original
  unfold RamlogSlot.append
  rw [(setStored_cursors ..).1, (setStored_cursors ..).2, add64_eq hmax, push_prod,
    push_cons (by omega) hmax, hclip]
  exact ⟨rfl, rfl⟩

/-- Part of the payload, with the old cursors: the window survives while the bytes fit beside it. -/
theorem SlotSound.torn {slot : Nat} (h : SlotSound live s (mem.ring slot) stream)
    (hroom : s.prod + bytes.length ≤ s.cons + live) :
    SlotSound live s ((mem.applyAll (positionStores live slot s.prod bytes)).ring slot) stream := by
  refine ⟨h.prod_eq, h.cons_le, h.fits, ?_⟩
  rw [h.prod_eq] at hroom ⊢
  have hheld := (ringHolds_positionStores h.holds hroom).take stream.length
  rwa [List.take_left] at hheld

/-- The whole payload, with the new cursors. -/
theorem SlotSound.appended {slot : Nat} (h : SlotSound live s (mem.ring slot) stream)
    (original : Nat) (hmax : s.prod + bytes.length ≤ uint64Max) :
    SlotSound live (s.append live bytes.length original)
      ((mem.applyAll (positionStores live slot s.prod bytes)).ring slot) (stream ++ bytes) := by
  obtain ⟨hprod, hcons⟩ := append_cursors original h.cons_le hmax
  have hle := h.cons_le
  have heq := h.prod_eq
  constructor
  · rw [hprod, List.length_append, heq]
  · omega
  · omega
  · have hheld := h.holds.mono (show s.cons ≤ (s.append live bytes.length original).cons by omega)
    rw [heq]
    exact ringHolds_positionStores hheld (by omega)

/-! ### The system -/

structure RamlogSystem where
  log : Ramlog
  stream : Nat → List UInt8

/-- An append that completes, or one that a reset cuts after some of its stores. -/
inductive RamlogEvent where
  | append (a : RamlogAppend)
  | reset (a : RamlogAppend) (stores : Nat)

section

variable (liveSize : Nat → Nat) (sys : RamlogSystem) (a : RamlogAppend)

def RamlogSystem.streams : Nat → List UInt8 :=
  if a.Accepted then
    Function.update sys.stream a.slot (sys.stream a.slot ++ keptBytes (liveSize a.slot) a.buffer)
  else sys.stream

/-- What a reset leaves in memory. -/
def RamlogSystem.cut (stores : Nat) : Retained :=
  sys.log.mem.applyAll ((sys.log.stores liveSize a).take stores)

/-- A step; after a reset the stream ends where the recovered log ends. -/
def RamlogSystem.step : RamlogEvent → RamlogSystem
  | .append a => ⟨sys.log.append liveSize a, sys.streams liveSize a⟩
  | .reset a stores =>
    let log := ramlogInit (sys.cut liveSize a stores)
    ⟨log, fun slot => (sys.streams liveSize a slot).take (log.working.slots slot).prod⟩

/-- The system after a start from memory with no valid header. -/
def RamlogSystem.boot (ring : Nat → Nat → UInt8) : RamlogSystem :=
  ⟨ramlogInit ⟨fun _ => none, ring⟩, fun _ => []⟩

/-- The counters do not wrap in the event. -/
def RamlogSystem.Counts : Prop :=
  (sys.log.working.slots a.slot).prod + (keptBytes (liveSize a.slot) a.buffer).length ≤ uint64Max ∧
    sys.log.working.sequence + 2 ≤ uint64Max

/--
The reset comes while the bytes written so far fit beside the published window, or at a point
where the new header is complete.
-/
def RamlogSystem.Safe : RamlogEvent → Prop
  | .append a => sys.Counts liveSize a
  | .reset a stores =>
    let s := sys.log.working.slots a.slot
    let length := (keptBytes (liveSize a.slot) a.buffer).length
    sys.Counts liveSize a ∧ (a.Accepted → s.prod + min stores length ≤ s.cons + liveSize a.slot ∨
      stores = length + 2 ∨ length + 4 ≤ stores)

end

instance (liveSize : Nat → Nat) (sys : RamlogSystem) (a : RamlogAppend) :
    Decidable (sys.Counts liveSize a) :=
  inferInstanceAs (Decidable (_ ∧ _))

instance (liveSize : Nat → Nat) (sys : RamlogSystem) :
    ∀ e, Decidable (sys.Safe liveSize e)
  | .append a => inferInstanceAs (Decidable (sys.Counts liveSize a))
  | .reset _ _ => inferInstanceAs (Decidable (_ ∧ (_ → _ ∨ _ ∨ _)))

/-- After a reset, each slot ends at its last append or at the one cut, and its window is intact. -/
def RamlogSystem.Recovers (liveSize : Nat → Nat) (sys : RamlogSystem) : RamlogEvent → Prop
  | .append _ => True
  | .reset a stores => ∀ slot < ramlogSlots,
    let log := (sys.step liveSize (.reset a stores)).log
    let s := log.working.slots slot
    (s.prod = (sys.log.working.slots slot).prod ∨
      s.prod = ((sys.log.append liveSize a).working.slots slot).prod) ∧ s.cons ≤ s.prod ∧
    ∀ pos, s.cons ≤ pos → pos < s.prod →
      (sys.streams liveSize a slot)[pos]? = some (log.mem.ring slot (pos % liveSize slot))

/-- The header is current and describes every slot. -/
structure LogSound (liveSize : Nat → Nat) (mem : Retained) (active : Bool) (header : RamlogHeader)
    (stream : Nat → List UInt8) : Prop where
  current : Current mem active header
  slots : ∀ slot, SlotSound (liveSize slot) (header.slots slot) (mem.ring slot) (stream slot)

def RamlogSystem.Sound (liveSize : Nat → Nat) (sys : RamlogSystem) : Prop :=
  LogSound liveSize sys.log.mem sys.log.active sys.log.working sys.stream

section Steps

variable {liveSize : Nat → Nat} {sys : RamlogSystem} {a : RamlogAppend}

/-- The stores of an accepted append: the payload, then the publication. -/
theorem cut_eq (hlive : ∀ slot, 0 < liveSize slot) (ha : a.Accepted) (k : Nat) :
    sys.cut liveSize a k =
      (sys.log.mem.applyAll (positionStores (liveSize a.slot) a.slot
          (sys.log.working.slots a.slot).prod ((keptBytes (liveSize a.slot) a.buffer).take k))).applyAll
        ((publishStores (sys.log.working.append liveSize a.slot a.buffer) sys.log.active).take
          (k - (keptBytes (liveSize a.slot) a.buffer).length)) := by
  unfold RamlogSystem.cut Ramlog.stores
  rw [if_neg (not_not.mpr ha),
    payloadStores_eq (hlive _) _ _ (length_keptBytes_le (liveSize a.slot) a.buffer),
    List.take_append, take_positionStores, length_positionStores]
  exact List.foldl_append

variable {k : Nat}

/-- Cut before the new header, the memory is that of the log before the append. -/
theorem cut_torn (hlive : ∀ slot, 0 < liveSize slot) (h : sys.Sound liveSize) (ha : a.Accepted)
    (hroom : (sys.log.working.slots a.slot).prod +
      min k (keptBytes (liveSize a.slot) a.buffer).length ≤
      (sys.log.working.slots a.slot).cons + liveSize a.slot)
    (hk : k < (keptBytes (liveSize a.slot) a.buffer).length + 2 ∨
      k = (keptBytes (liveSize a.slot) a.buffer).length + 3) :
    LogSound liveSize (sys.cut liveSize a k) sys.log.active sys.log.working sys.stream := by
  rw [cut_eq hlive ha]
  rw [← List.length_take] at hroom
  obtain ⟨hcopies, hring⟩ := positionStores_frame (liveSize a.slot) a.slot
    ((keptBytes (liveSize a.slot) a.buffer).take k) (sys.log.working.slots a.slot).prod sys.log.mem
  have hcur : Current (sys.log.mem.applyAll _) sys.log.active sys.log.working :=
    ⟨hcopies ▸ h.current.here, hcopies ▸ h.current.older⟩
  refine ⟨publishStores_torn hcur (by omega), fun slot => ?_⟩
  rw [publishStores_ring]
  by_cases hslot : slot = a.slot
  · rw [hslot]
    exact (h.slots a.slot).torn hroom
  · rw [hring slot hslot]
    exact h.slots slot

/-- Cut where the new header is complete, the memory is that of the log after the append. -/
theorem cut_published (hlive : ∀ slot, 0 < liveSize slot) (h : sys.Sound liveSize)
    (ha : a.Accepted) (hcounts : sys.Counts liveSize a)
    (hk : k = (keptBytes (liveSize a.slot) a.buffer).length + 2 ∨
      (keptBytes (liveSize a.slot) a.buffer).length + 4 ≤ k) :
    LogSound liveSize (sys.cut liveSize a k) (!sys.log.active)
      (sys.log.working.append liveSize a.slot a.buffer).next (sys.streams liveSize a) := by
  obtain ⟨hprod, hseq⟩ := hcounts
  rw [cut_eq hlive ha, List.take_of_length_le (by omega)]
  obtain ⟨hcopies, hring⟩ := positionStores_frame (liveSize a.slot) a.slot
    (keptBytes (liveSize a.slot) a.buffer) (sys.log.working.slots a.slot).prod sys.log.mem
  have hcur : Current (sys.log.mem.applyAll _) sys.log.active sys.log.working :=
    ⟨hcopies ▸ h.current.here, hcopies ▸ h.current.older⟩
  refine ⟨publishStores_published hcur rfl ?_ (by omega), fun slot => ?_⟩
  · show sys.log.working.sequence + 1 ≤ uint64Max
    omega
  · rw [publishStores_ring]
    unfold RamlogSystem.streams
    rw [if_pos ha]
    show SlotSound _ (Function.update sys.log.working.slots _ _ slot) _ _
    by_cases hslot : slot = a.slot
    · rw [hslot, update_self, update_self]
      exact (h.slots a.slot).appended _ hprod
    · rw [hring slot hslot, update_of_ne hslot, update_of_ne hslot]
      exact h.slots slot

theorem slots_mk (generation sequence : Nat) (slots : Nat → RamlogSlot) :
    (RamlogHeader.mk generation sequence slots).slots = slots := rfl

theorem next_slots (header : RamlogHeader) : header.next.slots = header.slots := slots_mk _ _ _

theorem ramlogInit_sound {mem : Retained} {active : Bool} {header : RamlogHeader}
    {stream : Nat → List UInt8} (h : LogSound liveSize mem active header stream)
    (hseq : header.sequence + 1 ≤ uint64Max) :
    RamlogSystem.Sound liveSize ⟨ramlogInit mem, stream⟩ ∧
      (ramlogInit mem).working.slots = header.slots ∧ (ramlogInit mem).mem.ring = mem.ring := by
  have hinit : ramlogInit mem =
      ramlogPublish { header with generation := add64 header.generation 1 } active mem := by
    unfold ramlogInit
    rw [h.current.select]
  have hslots : (ramlogInit mem).working.slots = header.slots := by
    rw [hinit]
    exact (next_slots _).trans (slots_mk _ _ _)
  have hring : (ramlogInit mem).mem.ring = mem.ring := by
    rw [hinit]
    exact publishStores_ring _ active 4 mem
  refine ⟨⟨?_, fun slot => ?_⟩, hslots, hring⟩
  · rw [hinit]
    exact @publishStores_published mem active ⟨add64 header.generation 1, header.sequence, header.slots⟩
      header 4 h.current rfl hseq (.inr le_rfl)
  · show SlotSound _ ((ramlogInit mem).working.slots slot) ((ramlogInit mem).mem.ring slot) _
    rw [hslots, hring]
    exact h.slots slot

theorem reset_sound {active : Bool} {header : RamlogHeader} {stream : Nat → List UInt8}
    (hcut : LogSound liveSize (sys.cut liveSize a k) active header stream)
    (hseq : header.sequence + 1 ≤ uint64Max)
    (hstream : ∀ slot, stream slot <+: sys.streams liveSize a slot)
    (hprod : header.slots = sys.log.working.slots ∨
      header.slots = (sys.log.append liveSize a).working.slots) :
    (sys.step liveSize (.reset a k)).Sound liveSize ∧ sys.Recovers liveSize (.reset a k) := by
  obtain ⟨hsound, hslots, hring⟩ := ramlogInit_sound hcut hseq
  have htake : ∀ slot, (sys.streams liveSize a slot).take
      ((ramlogInit (sys.cut liveSize a k)).working.slots slot).prod = stream slot := by
    intro slot
    rw [hslots, (hcut.slots slot).prod_eq]
    exact (List.prefix_iff_eq_take.mp (hstream slot)).symm
  refine ⟨?_, fun slot _ => ?_⟩
  · have hstep : sys.step liveSize (.reset a k) = ⟨ramlogInit (sys.cut liveSize a k), stream⟩ :=
      congrArg (RamlogSystem.mk _) (funext htake)
    rw [hstep]
    exact hsound
  · have hslot := hcut.slots slot
    show (_ ∨ _) ∧ _ ≤ _ ∧ ∀ pos, _
    rw [show (sys.step liveSize (.reset a k)).log = ramlogInit (sys.cut liveSize a k) from rfl,
      hslots, hring]
    refine ⟨?_, hslot.cons_le, fun pos hlo hhi => ?_⟩
    · rcases hprod with heq | heq
      · exact .inl (by rw [heq])
      · exact .inr (by rw [heq])
    · rw [hslot.prod_eq] at hhi
      rw [← hslot.holds pos hlo hhi]
      obtain ⟨rest, hrest⟩ := hstream slot
      rw [← hrest, List.getElem?_append_left hhi]

theorem append_working (ha : a.Accepted) :
    (sys.log.append liveSize a).working =
      (sys.log.working.append liveSize a.slot a.buffer).next := by
  unfold Ramlog.append
  rw [if_neg (not_not.mpr ha)]

/-- **A step within the condition keeps the log sound, and a reset recovers it.** -/
theorem step_sound (hlive : ∀ slot, 0 < liveSize slot) (h : sys.Sound liveSize)
    {e : RamlogEvent} (hsafe : sys.Safe liveSize e) :
    (sys.step liveSize e).Sound liveSize ∧ sys.Recovers liveSize e := by
  cases e with
  | append a =>
    refine ⟨?_, trivial⟩
    show LogSound _ (sys.log.append liveSize a).mem (sys.log.append liveSize a).active
      (sys.log.append liveSize a).working (sys.streams liveSize a)
    by_cases ha : a.Accepted
    · -- the whole append is a cut after all of its stores
      have hall := cut_published hlive h ha hsafe
        (k := (sys.log.stores liveSize a).length +
          ((keptBytes (liveSize a.slot) a.buffer).length + 4)) (.inr (by omega))
      unfold RamlogSystem.cut at hall
      rw [List.take_of_length_le (by omega)] at hall
      unfold Ramlog.append
      rw [if_neg (not_not.mpr ha)]
      exact hall
    · unfold Ramlog.append RamlogSystem.streams
      rw [if_pos ha, if_neg ha]
      exact h
  | reset a k =>
    obtain ⟨hcounts, hroom⟩ := hsafe
    have hseq := hcounts.2
    by_cases ha : a.Accepted
    · by_cases hpub : k = (keptBytes (liveSize a.slot) a.buffer).length + 2 ∨
          (keptBytes (liveSize a.slot) a.buffer).length + 4 ≤ k
      · refine reset_sound (cut_published hlive h ha hcounts hpub) ?_ (fun _ => List.prefix_rfl)
          (.inr (by rw [append_working ha]))
        show add64 sys.log.working.sequence 1 + 1 ≤ uint64Max
        rw [add64_eq (by omega)]
        omega
      · have hfit := (hroom ha).resolve_right hpub
        refine reset_sound (cut_torn hlive h ha hfit (by omega)) (by omega) (fun slot => ?_)
          (.inl rfl)
        unfold RamlogSystem.streams
        rw [if_pos ha]
        by_cases hslot : slot = a.slot
        · rw [hslot, update_self]
          exact List.prefix_append ..
        · simp only [update_of_ne hslot, List.prefix_rfl]
    · have hcut : sys.cut liveSize a k = sys.log.mem := by
        unfold RamlogSystem.cut Ramlog.stores
        rw [if_pos ha, List.take_nil]
        rfl
      have hsound : LogSound liveSize (sys.cut liveSize a k) sys.log.active sys.log.working
          sys.stream := by
        rw [hcut]
        exact h
      refine reset_sound hsound (by omega) (fun slot => ?_) (.inl rfl)
      simp only [RamlogSystem.streams, if_neg ha, List.prefix_rfl]

end Steps

/-! ### Runs -/

theorem boot_sound (liveSize : Nat → Nat) (ring : Nat → Nat → UInt8) :
    (RamlogSystem.boot ring).Sound liveSize := by
  refine ⟨⟨rfl, ?_⟩, fun slot => ⟨rfl, Nat.le_refl 0, Nat.zero_le _, ?_⟩⟩
  · intro h hh
    cases hh
  · intro pos _ hlt
    exact absurd hlt (Nat.not_lt_zero pos)

/--
**In every run whose resets come before the published window is overwritten, or once the new header
is complete, each recovered window holds its stream.**
-/
theorem recovered_window_intact (liveSize : Nat → Nat) (hlive : ∀ slot, 0 < liveSize slot)
    (ring : Nat → Nat → UInt8) (events : List RamlogEvent)
    (hsafe : Run.Along (RamlogSystem.step liveSize) (RamlogSystem.Safe liveSize)
      (RamlogSystem.boot ring) events) :
    Run.Along (RamlogSystem.step liveSize) (RamlogSystem.Recovers liveSize)
      (RamlogSystem.boot ring) events := by
  have hrun : ∀ (events : List RamlogEvent) (sys : RamlogSystem), sys.Sound liveSize →
      Run.Along (RamlogSystem.step liveSize) (RamlogSystem.Safe liveSize) sys events →
      Run.Along (RamlogSystem.step liveSize) (RamlogSystem.Recovers liveSize) sys events := by
    intro events
    induction events with
    | nil => exact fun _ _ _ => trivial
    | cons e rest ih =>
      intro sys h hsafe
      obtain ⟨hsound, hrecovers⟩ := step_sound hlive h hsafe.1
      exact ⟨hrecovers, ih _ hsound hsafe.2⟩
  exact hrun events _ (boot_sound liveSize ring) hsafe

/-- A ring of two bytes: filled, cut after the next header, and cut in the payload of an empty slot. -/
def shortRingRun : List RamlogEvent :=
  [.append ⟨0, [1, 2]⟩, .reset ⟨0, [3]⟩ 3, .reset ⟨1, [4, 5]⟩ 1]

theorem recovered_window_intact_shortRing :
    Run.Along (RamlogSystem.step fun _ => 2) (RamlogSystem.Recovers fun _ => 2)
      (RamlogSystem.boot fun _ _ => 0) shortRingRun :=
  recovered_window_intact (fun _ => 2) (fun _ => by decide) (fun _ _ => 0) shortRingRun
    (by decide +kernel)

/--
The full ring is cut after the one payload byte of the next append: the recovered window is still
`[0, 2)`, and its first byte is the new one.
-/
theorem full_ring_torn :
    let sys := Run.exec (RamlogSystem.step fun _ => 2) (RamlogSystem.boot fun _ _ => 0)
      [.append ⟨0, [1, 2]⟩]
    let log := (sys.step (fun _ => 2) (.reset ⟨0, [3]⟩ 1)).log
    (log.working.slots 0).cons = 0 ∧ (log.working.slots 0).prod = 2 ∧
      sys.streams (fun _ => 2) ⟨0, [3]⟩ 0 = [1, 2, 3] ∧ log.mem.ring 0 0 = 3 := by
  decide +kernel

end BeauOs.Platform

/-
What one reply of a backend does.

The bytes of a reply go to the writable descriptors that were copied into the slot when the request
was taken, and then the used ring of its queue is written: the entry, and the index behind it.  The
bytes are copied in chunks, and a chunk that cannot be copied ends the reply; what was written then
is the beginning of the reply, up to where it failed.  The request is published and leaves its slot
exactly if everything was written.
-/
import BeauOs.Virtio.Proxy

namespace BeauOs.Virtio

open BeauOs.Pm

variable {mem : GuestView} {t : Nat}

/-- What is copied are the bytes of the range. -/
theorem GuestView.copyFrom_eq_bytes {size : Nat} {gpa : Gpa} {bytes : List Byte}
    (h : mem.copyFrom t gpa size = some bytes) : bytes = mem.bytes t gpa size := by
  unfold GuestView.copyFrom at h
  split at h
  · next hzero =>
    rw [← Option.some.inj h, hzero]
    rfl
  split at h
  · exact (Option.some.inj h).symm
  · cases h

theorem GuestView.copyFrom_length {size : Nat} {gpa : Gpa} {bytes : List Byte}
    (h : mem.copyFrom t gpa size = some bytes) : bytes.length = size := by
  rw [copyFrom_eq_bytes h, GuestView.bytes, List.length_map, List.length_range]

theorem MmioDev.getQueue_eq_some {dev : MmioDev} {queueId : Nat} {vq : MmioQueue}
    (h : dev.getQueue queueId = some vq) : queueId < dev.queueNum ∧ vq = dev.queues queueId := by
  unfold MmioDev.getQueue at h
  split at h
  · next hlt => exact ⟨hlt, (Option.some.inj h).symm⟩
  · cases h

/-! ### Where the bytes of a reply go -/

/-- The address of byte `k` of the writable buffers, one after the other. -/
def place : List OutDesc → Nat → Option Gpa
  | [], _ => none
  | desc :: rest, k =>
    if k < desc.len then some (desc.gpa + BitVec.ofNat 64 k) else place rest (k - desc.len)

def totalLen (out : List OutDesc) : Nat := (out.map OutDesc.len).sum

theorem place_append (before : List OutDesc) (desc : OutDesc) (rest : List OutDesc) {off : Nat}
    (hoff : off < desc.len) :
    place (before ++ desc :: rest) (totalLen before + off) =
      some (desc.gpa + BitVec.ofNat 64 off) := by
  induction before with
  | nil =>
    rw [show totalLen [] + off = off from Nat.zero_add off]
    exact if_pos hoff
  | cons d before ih =>
    have hsum : totalLen (d :: before) + off - d.len = totalLen before + off := by
      rw [totalLen, List.map_cons, List.sum_cons]
      unfold totalLen
      omega
    have hge : ¬totalLen (d :: before) + off < d.len := by
      rw [totalLen, List.map_cons, List.sum_cons]
      omega
    show (if totalLen (d :: before) + off < d.len then _ else
      place (before ++ desc :: rest) (totalLen (d :: before) + off - d.len)) = _
    rw [if_neg hge, hsum]
    exact ih

/-- The writes put the bytes `k` to `m` of the reply buffer at `outGpa`, in this order, to the bytes
`k` to `m` of the writable buffers. -/
inductive Scattered (back : GuestView) (outGpa : Gpa) (out : List OutDesc) :
    Nat → List GuestWrite → Nat → Prop
  | nil (k : Nat) : Scattered back outGpa out k [] k
  | cons {k m t : Nat} {w : GuestWrite} {rest : List GuestWrite}
      (hplace : ∀ i < w.bytes.length, place out (k + i) = some (w.gpa + BitVec.ofNat 64 i))
      (hbytes : w.bytes = back.bytes t (outGpa + BitVec.ofNat 64 k) w.bytes.length)
      (hrest : Scattered back outGpa out (k + w.bytes.length) rest m) :
      Scattered back outGpa out k (w :: rest) m

theorem Scattered.trans {back : GuestView} {outGpa : Gpa} {out : List OutDesc} {k m n : Nat}
    {ws ws' : List GuestWrite} (h : Scattered back outGpa out k ws m)
    (h' : Scattered back outGpa out m ws' n) : Scattered back outGpa out k (ws ++ ws') n := by
  induction h with
  | nil k => exact h'
  | cons hplace hbytes _ ih => exact .cons hplace hbytes (ih h')

namespace ProxyRun

/-- How far a part of a reply has come. -/
structure ScatterSpec (back : GuestView) (slot : Nat) (outGpa : Gpa) (out : List OutDesc)
    (s s' : Scatter) (ws : List GuestWrite) : Prop where
  log : s'.log = s.log ++ ws.map (.wroteDesc slot)
  scattered : Scattered back outGpa out s.copied ws s'.copied
  total : s'.copied + s'.remaining = s.copied + s.remaining

variable (front back : GuestView) (t slot : Nat) (outGpa : Gpa)

theorem ScatterSpec.refl (out : List OutDesc) (s : Scatter) :
    ScatterSpec back slot outGpa out s s [] :=
  ⟨(List.append_nil _).symm, .nil _, rfl⟩

theorem ScatterSpec.trans {back : GuestView} {slot : Nat} {outGpa : Gpa} {out : List OutDesc}
    {s s' s'' : Scatter} {ws ws' : List GuestWrite} (h : ScatterSpec back slot outGpa out s s' ws)
    (h' : ScatterSpec back slot outGpa out s' s'' ws') :
    ScatterSpec back slot outGpa out s s'' (ws ++ ws') :=
  ⟨by rw [h'.log, h.log, List.map_append, List.append_assoc], h.scattered.trans h'.scattered,
    h'.total.trans h.total⟩

/-- The loop over one descriptor: it ends with an error, or with the reply or the descriptor used
up. -/
theorem scatterDesc_spec (out : List OutDesc) {gpa : Gpa} {base len : Nat}
    (hplace : ∀ off < len, place out (base + off) = some (gpa + BitVec.ofNat 64 off)) :
    ∀ fuel off left s, left ≤ fuel → off + left = len → s.copied = base + off →
      let done := scatterDesc front back slot outGpa gpa fuel off left s
      ∃ ws, ScatterSpec back slot outGpa out s done.2 ws ∧
        (done.1 = 0 → done.2.remaining = 0 ∨ done.2.copied = base + len) := by
  intro fuel
  induction fuel with
  | zero =>
    intro off left s hfuel hlen hpos
    exact ⟨[], .refl _ _ _ _ s, fun _ => .inr (by show s.copied = _; omega)⟩
  | succ fuel ih =>
    intro off left s hfuel hlen hpos
    unfold scatterDesc
    split
    · next hdone =>
      exact ⟨[], .refl _ _ _ _ s, fun _ => by show s.remaining = 0 ∨ s.copied = _; omega⟩
    next hmore =>
    dsimp only
    have hchunk : 0 < min (min s.remaining left) scatterChunk := by
      simp only [scatterChunk]
      omega
    have hle : min (min s.remaining left) scatterChunk ≤ left := by omega
    have hrem : min (min s.remaining left) scatterChunk ≤ s.remaining := by omega
    generalize min (min s.remaining left) scatterChunk = chunk at hchunk hle hrem
    split
    · exact ⟨[], .refl _ _ _ _ s, fun h => absurd h (show -eFault ≠ 0 by decide)⟩
    next bytes hbytes =>
    split
    · obtain ⟨ws, hspec, hend⟩ := ih (off + chunk) (left - chunk)
        { t := s.t + 2
          copied := s.copied + chunk
          remaining := s.remaining - chunk
          log := s.log ++ [.wroteDesc slot ⟨gpa + BitVec.ofNat 64 off, bytes⟩] }
        (by omega) (by omega) (by show s.copied + chunk = _; omega)
      have hlength := GuestView.copyFrom_length hbytes
      refine ⟨⟨gpa + BitVec.ofNat 64 off, bytes⟩ :: ws, ⟨?_, ?_, ?_⟩, hend⟩
      · rw [hspec.log, List.append_assoc]
        rfl
      · refine .cons (t := s.t) (fun i hi => ?_) ?_ ?_
        · have hi' : off + i < len := by
            rw [hlength] at hi
            omega
          rw [hpos, Nat.add_assoc, hplace _ hi', BitVec.ofNat_add, ← BitVec.add_assoc]
        · show bytes = back.bytes s.t (outGpa + BitVec.ofNat 64 s.copied) bytes.length
          rw [hlength]
          exact GuestView.copyFrom_eq_bytes hbytes
        · rw [hlength]
          exact hspec.scattered
      · have := hspec.total
        simp only at this ⊢
        omega
    · exact ⟨[], .refl _ _ _ _ s, fun h => absurd h (show -eFault ≠ 0 by decide)⟩

theorem scatter_of_done {front back : GuestView} {slot : Nat} {outGpa : Gpa} {s : Scatter}
    (rest : List OutDesc) (h : s.remaining = 0) :
    scatter front back slot outGpa rest s = (0, s) := by
  cases rest with
  | nil => rfl
  | cons desc rest => exact if_pos h

theorem totalLen_snoc (before : List OutDesc) (desc : OutDesc) :
    totalLen (before ++ [desc]) = totalLen before + desc.len := by
  simp [totalLen]

/-- The loop over the descriptors: it ends with an error, or with the reply or the descriptors used
up. -/
theorem scatter_spec :
    ∀ rest before s, s.copied = totalLen before →
      ∃ ws, ScatterSpec back slot outGpa (before ++ rest) s
          (scatter front back slot outGpa rest s).2 ws := by
  intro rest
  induction rest with
  | nil => exact fun before s _ => ⟨[], .refl _ _ _ _ s⟩
  | cons desc rest ih =>
    intro before s hpos
    obtain ⟨ws, hspec, hend⟩ := scatterDesc_spec front back slot outGpa (before ++ desc :: rest)
      (fun off hoff => place_append before desc rest hoff) desc.len 0 desc.len s
      (Nat.le_refl _) (Nat.zero_add _) hpos
    unfold scatter
    split
    · exact ⟨[], .refl _ _ _ _ s⟩
    dsimp only
    split
    · next hstatus =>
      rcases hend hstatus with hdone | hfull
      · refine ⟨ws, ?_⟩
        rw [scatter_of_done _ hdone]
        exact hspec
      · rw [← totalLen_snoc] at hfull
        obtain ⟨ws', hspec'⟩ := ih (before ++ [desc]) _ hfull
        rw [List.append_assoc] at hspec'
        exact ⟨ws ++ ws', hspec.trans hspec'⟩
    · exact ⟨ws, hspec⟩

/-! ### The used ring -/

/-- What publishes a head: its entry in the used ring, and the index behind it. -/
def usedWrites (vq : MmioQueue) (usedIdx id len : Nat) : List GuestWrite :=
  [⟨vq.used + 4#64 + BitVec.ofNat 64 (usedIdx % vq.num * 8), leBytes 4 id ++ leBytes 4 len⟩,
    ⟨vq.used + 2#64, leBytes 2 (usedIdx + 1)⟩]

/-- Both of these are written if `done`, and at most the entry if not. -/
structure Publishes (vq : MmioQueue) (id len : Nat) (writes : List GuestWrite) (done : Bool) :
    Prop where
  inRing : writes ≠ [] → 0 < vq.num
  writes : ∃ usedIdx, writes <+: usedWrites vq usedIdx id len ∧
    (done = true ↔ writes = usedWrites vq usedIdx id len)

theorem Publishes.nothing (vq : MmioQueue) (id len : Nat) : Publishes vq id len [] false :=
  ⟨fun h => absurd rfl h, 0, List.nil_prefix, nofun, nofun⟩

theorem addUsed_publishes (dev : MmioDev) (mem : GuestView) (t queueId id len : Nat) :
    Publishes (dev.queues queueId) id len (dev.addUsed mem t queueId id len).2
      (dev.addUsed mem t queueId id len).1 := by
  unfold MmioDev.addUsed
  split
  · exact .nothing _ _ _
  next vq hvq =>
  obtain ⟨-, rfl⟩ := MmioDev.getQueue_eq_some hvq
  split
  · next hvalid =>
    have hnum : 0 < (dev.queues queueId).num := by
      refine Nat.pos_of_ne_zero fun hzero => ?_
      simp [MmioDev.queueValid, hzero] at hvalid
    split
    · exact .nothing _ _ _
    next usedIdx _ =>
    dsimp only
    split
    · split
      · exact ⟨fun _ => hnum, usedIdx, List.prefix_rfl, iff_of_true rfl rfl⟩
      · exact ⟨fun _ => hnum, usedIdx, ⟨[_], rfl⟩, nofun, nofun⟩
    · exact .nothing _ _ _
  · exact .nothing _ _ _

/-! ### One reply -/

/-- What one reply does: the slot it is for and the request in it, where the reply lies, and what is
written. -/
structure Reply where
  slot : Nat
  request : Pending
  outGpa : Gpa
  outLen : Nat
  data : List GuestWrite
  used : List GuestWrite
  completed : Bool

namespace Reply

def events (g : Reply) : List ProxyEvent :=
  g.data.map (.wroteDesc g.slot) ++ (g.used.map (.wroteUsed g.slot) ++
    if g.completed then [.published g.slot g.request.queueId g.request.head] else [])

/-- What is written is the beginning of the reply, all of it if the request is completed, and the
used ring of the request's queue. -/
structure Contained (back : GuestView) (queues : Nat → MmioQueue) (g : Reply) : Prop where
  data : ∃ m ≤ g.outLen, Scattered back g.outGpa g.request.out 0 g.data m ∧
    (g.completed = true → m = g.outLen)
  used : Publishes (queues g.request.queueId) g.request.head g.outLen g.used g.completed

end Reply

/-- What `completePending` does, as a reply. -/
structure Replied (back : GuestView) (g : Reply) (r : ProxyRun) (status : Int) (r' : ProxyRun) :
    Prop where
  log : r'.log = r.log ++ g.events
  contained : g.Contained back r.dev.mmio.queues
  dev : r'.dev =
    if g.completed then r.dev.setSlot g.slot { Pending.zero with done := true } else r.dev
  status : status = 0 ↔ g.completed = true

theorem completePending_replied (outLen : Nat) (r : ProxyRun) :
    ∃ data used completed,
      Replied back ⟨slot, r.dev.pending slot, outGpa, outLen, data, used, completed⟩ r
        (completePending front back t slot outGpa outLen r).1
        (completePending front back t slot outGpa outLen r).2.2 := by
  unfold completePending
  dsimp only
  split
  · exact ⟨[], [], false, (List.append_nil _).symm,
      ⟨⟨0, Nat.zero_le _, .nil 0, nofun⟩, .nothing _ _ _⟩, rfl,
      iff_of_false (show -eInval ≠ 0 by decide) nofun⟩
  obtain ⟨ws, hspec⟩ := scatter_spec front back slot outGpa (r.dev.pending slot).out []
    ⟨t, 0, outLen, r.log⟩ rfl
  generalize scatter front back slot outGpa (r.dev.pending slot).out ⟨t, 0, outLen, r.log⟩ = out at *
  obtain ⟨status, s⟩ := out
  have hlog : s.log = r.log ++ ws.map (.wroteDesc slot) := hspec.log
  have htotal : s.copied + s.remaining = 0 + outLen := hspec.total
  have hdata (completed : Bool) (hdone : completed = true → s.remaining = 0) :
      ∃ m ≤ outLen, Scattered back outGpa (r.dev.pending slot).out 0 ws m ∧
        (completed = true → m = outLen) := by
    refine ⟨s.copied, by omega, hspec.scattered, fun h => ?_⟩
    have := hdone h
    omega
  -- nothing of the used ring has been written
  have hpart (status : Int) (hne : status ≠ 0) :
      Replied back ⟨slot, r.dev.pending slot, outGpa, outLen, ws, [], false⟩ r status
        { r with log := s.log } :=
    ⟨by simp [Reply.events, hlog], ⟨hdata false nofun, .nothing _ _ _⟩, rfl,
      iff_of_false hne nofun⟩
  dsimp only
  split
  · next hstatus => exact ⟨_, _, _, hpart status hstatus⟩
  split
  · exact ⟨_, _, _, hpart _ (show -eInval ≠ 0 by decide)⟩
  next hremaining =>
  have hused := addUsed_publishes r.dev.mmio front s.t (r.dev.pending slot).queueId
    (r.dev.pending slot).head outLen
  split
  · next writes heq =>
    rw [heq] at hused
    exact ⟨ws, writes, false, by simp [Reply.events, hlog], ⟨hdata false nofun, hused⟩, rfl,
      iff_of_false (show -eFault ≠ 0 by decide) nofun⟩
  · next writes heq =>
    rw [heq] at hused
    exact ⟨ws, writes, true, by simp [Reply.events, hlog],
      ⟨hdata true fun _ => not_not.mp hremaining, hused⟩, rfl, iff_of_true rfl rfl⟩

end ProxyRun

end BeauOs.Virtio

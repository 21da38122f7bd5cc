/-
What a reader of the retained log gets.

The reader of a slot owns a cursor and asks for chunks while guests keep writing.  A writer never
waits for it: bytes the ring has no room for are gone, and the next read moves the cursor over them
and counts them.
-/
import BeauOs.Proofs.Platform.RamlogCrash

namespace BeauOs.Platform

/-- **The two copies of a read return the stream**, as far as the ring holds it. -/
theorem ringBytes_eq {live pos count : Nat} {ring : Nat → UInt8} {stream : List UInt8}
    (hlive : 0 < live) (hheld : RingHolds live ring stream pos) (hcount : count ≤ live)
    (hend : pos + count ≤ stream.length) :
    ringBytes live ring pos count = (stream.drop pos).take count := by
  have hoff : pos % live < live := Nat.mod_lt _ hlive
  refine List.ext_getElem (by simp [ringBytes]; omega) fun i _ hi => ?_
  rw [List.length_take] at hi
  have hbyte := hheld (pos + i) (Nat.le_add_right ..) (by omega)
  rw [List.getElem?_eq_getElem (by omega), ← Nat.mod_add_mod] at hbyte
  rw [List.getElem_take, List.getElem_drop, Option.some.inj hbyte]
  simp only [ringBytes, List.getElem_append, List.length_map, List.length_range', List.getElem_map,
    List.getElem_range', Nat.one_mul, Nat.zero_add]
  generalize pos % live = offset at hoff
  split
  next => rw [Nat.mod_eq_of_lt (by omega)]
  next =>
    rw [Nat.mod_eq_sub_mod (by omega), Nat.mod_eq_of_lt (by omega)]
    congr 1
    omega

/-- The log, the reader of one slot, and the bytes it has got. -/
structure RamlogFollowed where
  sys : RamlogSystem
  reader : RamlogReader
  got : List UInt8

namespace RamlogFollowed

def read (liveSize : Nat → Nat) (vmid : Nat) (x : RamlogFollowed) (length : Nat) :
    RamlogFollowed :=
  let out := x.sys.log.readVmConsole liveSize vmid length x.reader
  { x with reader := out.2, got := x.got ++ out.1 }

/--
A guest writes, and the reader asks for some bytes.  Empty writes are refused and empty requests
return nothing, so every order of writes and reads is a run.
-/
def step (liveSize : Nat → Nat) (vmid : Nat) (x : RamlogFollowed) (e : RamlogAppend × Nat) :
    RamlogFollowed :=
  read liveSize vmid { x with sys := x.sys.step liveSize (.append e.1) } e.2

/-- The reader has got the stream up to its cursor, but for what it was told it missed. -/
structure Inv (liveSize : Nat → Nat) (vmid : Nat) (x : RamlogFollowed) : Prop where
  sound : x.sys.Sound liveSize
  cursor_le : x.reader.cursor ≤ (x.sys.stream vmid).length
  kept : x.got.Sublist ((x.sys.stream vmid).take x.reader.cursor)
  cursor_eq : x.got.length + x.reader.skipped = x.reader.cursor

section

variable {liveSize : Nat → Nat} {vmid : Nat} {x : RamlogFollowed}
  (hlive : ∀ slot, 0 < liveSize slot) (h : Inv liveSize vmid x)

include hlive h

theorem Inv.append {a : RamlogAppend} (hcounts : x.sys.Counts liveSize a) :
    Inv liveSize vmid { x with sys := x.sys.step liveSize (.append a) } := by
  have hgrown : x.sys.stream vmid <+: x.sys.streams liveSize a vmid := by
    unfold RamlogSystem.streams Function.update
    split
    next =>
      dsimp only
      split
      next hslot => exact hslot ▸ List.prefix_append ..
      next => exact List.prefix_rfl
    next => exact List.prefix_rfl
  obtain ⟨rest, hrest⟩ := hgrown
  refine ⟨(step_sound hlive h.sound (e := .append a) hcounts).1, ?_, ?_, h.cursor_eq⟩
  · show _ ≤ (x.sys.streams liveSize a vmid).length
    rw [← hrest, List.length_append]
    exact Nat.le_add_right_of_le h.cursor_le
  · show List.Sublist _ ((x.sys.streams liveSize a vmid).take _)
    rw [← hrest, List.take_append_of_le_length h.cursor_le]
    exact h.kept

variable (hsize : ∀ slot, liveSize slot < 2 ^ 32) (length : Nat)

include hsize

/-- A read skips what is gone, and returns what follows as far as the buffer goes. -/
theorem Inv.readVmConsole (hask : ¬(length = 0 ∨ vmid ≥ ramlogSlots)) :
    let pos := max x.reader.cursor (x.sys.log.working.slots vmid).cons
    let count := min ((x.sys.stream vmid).length - pos) length
    x.sys.log.readVmConsole liveSize vmid length x.reader =
      (((x.sys.stream vmid).drop pos).take count,
        ⟨pos + count, x.reader.skipped + (pos - x.reader.cursor)⟩) := by
  obtain ⟨hprod, hcons, hfits, hheld⟩ := h.sound.slots vmid
  have hcursor := h.cursor_le
  have hmax := hsize vmid
  intro pos count
  have hpos : (if x.reader.cursor < (x.sys.log.working.slots vmid).cons then
      (x.sys.log.working.slots vmid).cons
      else min x.reader.cursor (x.sys.stream vmid).length) = pos := by
    split <;> omega
  unfold Ramlog.readVmConsole
  simp only [if_neg hask, hprod, hpos]
  rw [Nat.mod_eq_of_lt (by omega),
    ringBytes_eq (hlive vmid) (hheld.mono (Nat.le_max_right ..)) (by omega) (by omega)]
  refine congrArg _ (congrArg _ ?_)
  omega

theorem Inv.read : Inv liveSize vmid (x.read liveSize vmid length) := by
  have hread := h.readVmConsole hlive hsize length
  obtain ⟨hsound, hcursor, hkept, heq⟩ := h
  unfold RamlogFollowed.read
  by_cases hask : length = 0 ∨ vmid ≥ ramlogSlots
  · have hnone : x.sys.log.readVmConsole liveSize vmid length x.reader = ([], x.reader) := if_pos hask
    simp only [hnone, List.append_nil]
    exact ⟨hsound, hcursor, hkept, heq⟩
  · obtain ⟨hprod, hcons, -⟩ := hsound.slots vmid
    simp only [hread hask]
    refine ⟨hsound, by dsimp only; omega, ?_, ?_⟩
    · dsimp only
      rw [List.take_add]
      refine (hkept.trans ?_).append (List.Sublist.refl _)
      exact (List.take_prefix_take_left (Nat.le_max_left ..)).sublist
    · simp only [List.length_append, List.length_take, List.length_drop]
      omega

end

/--
**Whatever the guests write and whenever the reader asks**, it has got bytes of the stream in their
order and none of them twice; the bytes it lacks up to its cursor are as many as it was told it
missed; and a read into a buffer as long as the ring leaves nothing unread.
-/
theorem reader_follows_stream (liveSize : Nat → Nat) (hlive : ∀ slot, 0 < liveSize slot)
    (hsize : ∀ slot, liveSize slot < 2 ^ 32) (ring : Nat → Nat → UInt8) (vmid : Nat)
    (hvmid : vmid < ramlogSlots) (events : List (RamlogAppend × Nat))
    (hcounts : Run.Along (step liveSize vmid) (fun x e => x.sys.Counts liveSize e.1)
      ⟨.boot ring, ⟨0, 0⟩, []⟩ events) :
    let x := Run.exec (step liveSize vmid) ⟨.boot ring, ⟨0, 0⟩, []⟩ events
    x.got.Sublist ((x.sys.stream vmid).take x.reader.cursor) ∧
      x.got.length + x.reader.skipped = x.reader.cursor ∧
      ∀ length ≥ liveSize vmid,
        (x.read liveSize vmid length).reader.cursor = (x.sys.stream vmid).length := by
  have h : Inv liveSize vmid (Run.exec (step liveSize vmid) ⟨.boot ring, ⟨0, 0⟩, []⟩ events) :=
    Run.inv_exec (fun _ _ hx hok => (hx.append hlive hok).read hlive hsize _)
      ⟨boot_sound liveSize ring, Nat.le_refl 0, List.Sublist.refl _, rfl⟩ hcounts
  generalize Run.exec (step liveSize vmid) ⟨.boot ring, ⟨0, 0⟩, []⟩ events = x at h
  refine ⟨h.kept, h.cursor_eq, fun length hlength => ?_⟩
  obtain ⟨hprod, hcons, hfits, -⟩ := h.sound.slots vmid
  have hcursor := h.cursor_le
  have hring := hlive vmid
  unfold read
  rw [h.readVmConsole hlive hsize length (by omega)]
  dsimp only
  omega

/-- Two bytes are overwritten before the reader asks again. -/
theorem reader_follows_stream_lapped :
    let x := Run.exec (step (fun _ => 2) 0) ⟨.boot fun _ _ => 0, ⟨0, 0⟩, []⟩
      [(⟨0, [1, 2]⟩, 1), (⟨0, [3, 4]⟩, 0), (⟨0, [5]⟩, 8)]
    x.got = [1, 4, 5] ∧ x.reader.skipped = 2 ∧
      x.got.Sublist ((x.sys.stream 0).take x.reader.cursor) :=
  ⟨by decide +kernel, by decide +kernel,
    (reader_follows_stream (fun _ => 2) (fun _ => by decide) (fun _ => by decide) (fun _ _ => 0) 0
      (by decide) _ (by decide +kernel)).1⟩

end RamlogFollowed

end BeauOs.Platform

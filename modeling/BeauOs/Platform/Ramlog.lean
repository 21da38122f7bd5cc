/-
The retained console log, `sdk/bsp/ramlog.c`.

Each VM has a ring in memory that survives a reset.  Positions in it are absolute: `prod` counts
the bytes ever put in, `cons` the first one still kept, and byte `pos` lies at `pos % live_size`.
The cursors are kept in a header outside this memory, and are published by writing the header into
one of two retained copies, the one that was not written last.

What an append writes is a list of stores in program order, since a reset keeps a prefix of them.
A header copy is `none` while `ramlog_layout_valid` refuses it: cleared, partly written, or without
its marker.  The snapshot banks of a slot lie beside its ring and are left out.
-/
import Mathlib.Logic.Function.Basic
import BeauOs.Lib.Word

namespace BeauOs.Platform

/-- `RAMLOG_VM_SLOT_COUNT` -/
def ramlogSlots : Nat := 5

/-- The ring fields of `struct ramlog_slot_header`. -/
structure RamlogSlot where
  prod : Nat
  cons : Nat
  storedBytes : Nat
  droppedBytes : Nat
  overflowEvents : Nat
  deriving DecidableEq

structure RamlogHeader where
  generation : Nat
  sequence : Nat
  slots : Nat → RamlogSlot

/-- What survives a reset: the two header copies and the rings. -/
structure Retained where
  copies : Bool → Option RamlogHeader
  ring : Nat → Nat → UInt8

inductive RamlogStore where
  | byte (slot index : Nat) (value : UInt8)
  | header (copy : Bool) (content : Option RamlogHeader)

def Retained.apply (mem : Retained) : RamlogStore → Retained
  | .byte slot index value =>
    { mem with
      ring := Function.update mem.ring slot (Function.update (mem.ring slot) index value) }
  | .header copy content => { mem with copies := Function.update mem.copies copy content }

def Retained.applyAll (mem : Retained) (stores : List RamlogStore) : Retained :=
  stores.foldl Retained.apply mem

/-- The driver: `ramlog_header`, `ramlog_active_header_copy` and the retained memory. -/
structure Ramlog where
  working : RamlogHeader
  active : Bool
  mem : Retained

/-! ### Publication -/

def RamlogHeader.next (header : RamlogHeader) : RamlogHeader :=
  { header with sequence := add64 header.sequence 1 }

/-- The stores of `ramlog_publish`: cleared, copied with the marker, marker off, marker on. -/
def publishStores (header : RamlogHeader) (active : Bool) : List RamlogStore :=
  [.header (!active) none, .header (!active) (some header.next), .header (!active) none,
    .header (!active) (some header.next)]

def ramlogPublish (header : RamlogHeader) (active : Bool) (mem : Retained) : Ramlog :=
  ⟨header.next, !active, mem.applyAll (publishStores header active)⟩

/-! ### Append -/

/-- The stores of one `memcpy` into a ring. -/
def copyStores (slot : Nat) : Nat → List UInt8 → List RamlogStore
  | _, [] => []
  | offset, value :: rest => .byte slot offset value :: copyStores slot (offset + 1) rest

/-- The bytes of an append that are kept: the last `live_size` ones. -/
def keptBytes (liveSize : Nat) (buffer : List UInt8) : List UInt8 :=
  buffer.drop (buffer.length - liveSize)

/-- The payload stores of an append: up to the end of the ring, then from its start. -/
def payloadStores (liveSize slot prod : Nat) (bytes : List UInt8) : List RamlogStore :=
  let first := min (liveSize - prod % liveSize) bytes.length
  copyStores slot (prod % liveSize) (bytes.take first) ++ copyStores slot 0 (bytes.drop first)

variable (s : RamlogSlot)

/-- The count of what an append longer than the ring drops. -/
def RamlogSlot.clip (liveSize original : Nat) : RamlogSlot :=
  if original > liveSize then
    { s with
      droppedBytes := add64 s.droppedBytes (original - liveSize)
      overflowEvents := add64 s.overflowEvents 1 }
  else s

/-- The cursors once the bytes end at `prod`. -/
def RamlogSlot.push (liveSize prod : Nat) : RamlogSlot :=
  if sub64 prod s.cons > liveSize then
    { s with
      prod := prod
      droppedBytes := add64 s.droppedBytes (sub64 prod s.cons - liveSize)
      overflowEvents := add64 s.overflowEvents 1
      cons := sub64 prod liveSize }
  else { s with prod := prod }

def RamlogSlot.setStored (total : Nat) : RamlogSlot :=
  { s with storedBytes := total }

/-- The slot after an append of `original` bytes, of which `length` are kept. -/
def RamlogSlot.append (liveSize length original : Nat) : RamlogSlot :=
  ((s.clip liveSize original).push liveSize (add64 s.prod length)).setStored
    (add64 s.storedBytes original)

def RamlogHeader.append (header : RamlogHeader) (liveSize : Nat → Nat) (slot : Nat)
    (buffer : List UInt8) : RamlogHeader :=
  { header with
    slots := Function.update header.slots slot ((header.slots slot).append (liveSize slot)
      (keptBytes (liveSize slot) buffer).length buffer.length) }

structure RamlogAppend where
  slot : Nat
  buffer : List UInt8

def RamlogAppend.Accepted (a : RamlogAppend) : Prop := a.buffer ≠ [] ∧ a.slot < ramlogSlots

instance (a : RamlogAppend) : Decidable a.Accepted :=
  inferInstanceAs (Decidable (a.buffer ≠ [] ∧ a.slot < ramlogSlots))

/-- The stores of `ramlog_append_vm_console`. -/
def Ramlog.stores (liveSize : Nat → Nat) (log : Ramlog) (a : RamlogAppend) : List RamlogStore :=
  if ¬ a.Accepted then []
  else
    payloadStores (liveSize a.slot) a.slot (log.working.slots a.slot).prod
        (keptBytes (liveSize a.slot) a.buffer) ++
      publishStores (log.working.append liveSize a.slot a.buffer) log.active

/-- `ramlog_append_vm_console` -/
def Ramlog.append (liveSize : Nat → Nat) (log : Ramlog) (a : RamlogAppend) : Ramlog :=
  if ¬ a.Accepted then log
  else
    ⟨(log.working.append liveSize a.slot a.buffer).next, !log.active,
      log.mem.applyAll (log.stores liveSize a)⟩

/-! ### Readers -/

/-- The two `memcpy` of a reader: `count` bytes from the position `pos` on. -/
def ringBytes (liveSize : Nat) (ring : Nat → UInt8) (pos count : Nat) : List UInt8 :=
  let first := min (liveSize - pos % liveSize) count
  (List.range' (pos % liveSize) first).map ring ++ (List.range' 0 (count - first)).map ring

/-- `*cursor` and `*skipped` of a reader. -/
structure RamlogReader where
  cursor : Nat
  skipped : Nat

/-- `ramlog_read_vm_console`, with the bytes it puts into the buffer. -/
def Ramlog.readVmConsole (liveSize : Nat → Nat) (log : Ramlog) (vmid length : Nat)
    (reader : RamlogReader) : List UInt8 × RamlogReader :=
  if length = 0 ∨ vmid ≥ ramlogSlots then ([], reader)
  else
    let slot := log.working.slots vmid
    let cursor := if reader.cursor < slot.cons then slot.cons else min reader.cursor slot.prod
    let count := min ((slot.prod - cursor) % 2 ^ 32) length
    -- nothing is skipped unless the cursor is behind, and no sum exceeds `prod`
    (ringBytes (liveSize vmid) (log.mem.ring vmid) cursor count,
      ⟨cursor + count, reader.skipped + (slot.cons - reader.cursor)⟩)

/-! ### Recovery -/

/-- `ramlog_initialize_header`, before it publishes. -/
def RamlogHeader.initial : RamlogHeader := ⟨1, 0, fun _ => ⟨0, 0, 0, 0, 0⟩⟩

/-- The selection of `ramlog_init`: the first copy, unless the second one is newer. -/
def Retained.select (mem : Retained) : Option (RamlogHeader × Bool) :=
  match mem.copies false, mem.copies true with
  | none, none => none
  | some h, none => some (h, false)
  | none, some h => some (h, true)
  | some h, some h' => if h'.sequence > h.sequence then some (h', true) else some (h, false)

def ramlogInit (mem : Retained) : Ramlog :=
  match mem.select with
  | some (h, active) =>
    ramlogPublish { h with generation := add64 h.generation 1 } active mem
  | none => ramlogPublish .initial false mem

end BeauOs.Platform

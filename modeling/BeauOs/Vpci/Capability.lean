/-
The capabilities of an emulated PCI device: `vpci_add_capability` in `sdk/bsp/vpci/vpci_core.c`.

The offsets in `struct pci_vdev` have eight bits, and the configuration space of 256 bytes is the
beginning of a larger buffer, here a function of the offset.
-/
import Mathlib.Data.BitVec
import Mathlib.Logic.Function.Basic

namespace BeauOs.Vpci

/-- `cfgdata`, `prev_capoff` and `free_capoff` of `struct pci_vdev`. -/
structure CapSpace where
  cfg : Nat → BitVec 8
  prevCapoff : BitVec 8
  freeCapoff : BitVec 8

namespace CapSpace

variable (v : CapSpace)

/-- `PCIM_STATUS_CAPPRESENT` in `PCIR_STATUS` -/
def present : Bool := v.cfg 0x06 &&& 0x10#8 ≠ 0#8

def capoff : BitVec 8 := if v.present then v.freeCapoff else 0x40#8

/-- `roundup(caplen, 4U)`, in eight bits -/
def reallen (caplen : Nat) : BitVec 8 := BitVec.ofNat 8 ((caplen + 3) / 4 * 4)

/-- The pointer to the new capability: that of the previous one, or `PCIR_CAP_PTR`. -/
def place : Nat := if v.present then v.prevCapoff.toNat + 1 else 0x34

/-- The space with that pointer set. -/
def linked : Nat → BitVec 8 :=
  let cfg := Function.update v.cfg v.place v.capoff
  if v.present then cfg else Function.update cfg 0x06 (v.cfg 0x06 ||| 0x10#8)

/-- The space with the capability copied in and the pointer behind it cleared. -/
def inserted (capdata : List (BitVec 8)) : Nat → BitVec 8 :=
  let off := v.capoff.toNat
  Function.update (fun i =>
    if off ≤ i ∧ i < off + capdata.length then capdata.getD (i - off) 0#8 else v.linked i)
    (off + 1) 0#8

/-- `vpci_add_capability`, with what it returns; `caplen` is the length of the data. -/
def addCapability (capdata : List (BitVec 8)) : Nat × CapSpace :=
  let reallen := reallen capdata.length
  if v.capoff.toNat + reallen.toNat ≤ 0x100 then
    (v.capoff.toNat, ⟨v.inserted capdata, v.capoff, v.capoff + reallen⟩)
  else (0, v)

end CapSpace

end BeauOs.Vpci

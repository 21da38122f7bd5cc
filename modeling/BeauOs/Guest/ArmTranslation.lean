/-
What a guest virtual address means: the ARMv8 translation with a 4K granule and 48-bit ranges.

This is the specification, for one byte at a time.  Bit 55 of an address says which of the two
ranges it is in; the bits above the 48 that are translated must all be like it, except for the top
byte if the range ignores it (TBI).  The walk goes through at most four levels of tables.  The
descriptors of a guest's tables lie in guest physical memory, which is itself behind the stage-2
tables of the hypervisor, and so does the byte that the address stands for.
-/
import BeauOs.Guest.GuestMemory

namespace BeauOs.Guest

namespace Arm

/-! ### Stage 2 -/

/-- The stage-2 walk from a table ends at this leaf descriptor, which covers 2 ^ `leaf` bytes. -/
inductive Stage2Leaf (s2 : Stage2Tables) (ipa : BitVec 64) :
    List Nat → BitVec 64 → BitVec 64 → Nat → Prop
  | page {lower : List Nat} {table descriptor : BitVec 64}
      (hread : s2.descriptor table ((ipa >>> 12) &&& 511#64) = descriptor)
      (htype : descriptor &&& 3#64 = 3#64) : Stage2Leaf s2 ipa (12 :: lower) table descriptor 12
  | block {shift : Nat} {lower : List Nat} {table descriptor : BitVec 64}
      (hread : s2.descriptor table ((ipa >>> shift) &&& 511#64) = descriptor)
      (htype : descriptor &&& 3#64 = 1#64) (hshift : shift ≠ 39) (hlast : shift ≠ 12) :
      Stage2Leaf s2 ipa (shift :: lower) table descriptor shift
  | table {shift leaf : Nat} {lower : List Nat} {table descriptor final : BitVec 64}
      (hread : s2.descriptor table ((ipa >>> shift) &&& 511#64) = descriptor)
      (htype : descriptor &&& 3#64 = 3#64) (hlast : shift ≠ 12)
      (hlower : Stage2Leaf s2 ipa lower (descriptor &&& pfnMask) final leaf) :
      Stage2Leaf s2 ipa (shift :: lower) table final leaf

/-- Stage 2 maps the address as normal memory, with the permission, to a host address. -/
def Stage2Maps (vm : GuestVm) (write : Bool) (gpa hpa : BitVec 64) : Prop :=
  ∃ descriptor leaf, Stage2Leaf vm.s2 gpa GuestVm.levels vm.s2.root descriptor leaf ∧
    descriptor &&& GuestVm.s2Memattr = GuestVm.s2Memattr ∧
    descriptor &&& GuestVm.s2apRead ≠ 0#64 ∧
    (write = true → descriptor &&& GuestVm.s2apWrite ≠ 0#64) ∧
    hpa = (descriptor &&& pfnMask) + (gpa &&& ((1#64 <<< leaf) - 1#64))

/-- The address lies in the VM's RAM. -/
def InRam (vm : GuestVm) (gpa : BitVec 64) : Prop :=
  vm.ram.start.toNat ≤ gpa.toNat ∧ gpa.toNat < vm.ram.start.toNat + vm.ram.size.toNat

/-- The guest byte is at this host address: in RAM, and where both RAM and stage 2 say. -/
def ByteAt (vm : GuestVm) (write : Bool) (gpa hpa : BitVec 64) : Prop :=
  InRam vm gpa ∧ hpa = vm.ramHpa + (gpa - vm.ram.start) ∧ Stage2Maps vm write gpa hpa

/-! ### Stage 1 -/

/-- The eight bytes of guest memory at an address. -/
def ReadsWord (vm : GuestVm) (mem : BitVec 64 → BitVec 8) (gpa word : BitVec 64) : Prop :=
  ∀ k < 8, ∃ hpa, ByteAt vm false (gpa + BitVec.ofNat 64 k) hpa ∧
    mem hpa = (word >>> (8 * k)).setWidth 8

/-- The entry that a walk reads in a table. -/
def entryGpa (table va : BitVec 64) (shift : Nat) : BitVec 64 :=
  table + ((va >>> shift) &&& 511#64) * 8#64

/-- The leaf descriptor allows the access: access flag, and for writes AP[2]. -/
def LeafAllows (write : Bool) (descriptor : BitVec 64) : Prop :=
  descriptor.getLsbD 10 = true ∧ (write = true → descriptor.getLsbD 7 = false)

/-- The output address of a leaf that covers 2 ^ `shift` bytes. -/
def leafOutput (shift : Nat) (descriptor va : BitVec 64) : BitVec 64 :=
  ((descriptor &&& pfnMask) &&& ~~~((1#64 <<< shift) - 1#64)) + (va &&& ((1#64 <<< shift) - 1#64))

/-- The stage-1 walk from a table, over the levels left, ends at a guest physical address. -/
inductive Stage1Walk (vm : GuestVm) (mem : BitVec 64 → BitVec 8) (write : Bool) (va : BitVec 64) :
    List Nat → BitVec 64 → BitVec 64 → Prop
  | page {lower : List Nat} {table descriptor : BitVec 64}
      (hread : ReadsWord vm mem (entryGpa table va 12) descriptor)
      (htype : descriptor &&& 3#64 = 3#64) (hallows : LeafAllows write descriptor) :
      Stage1Walk vm mem write va (12 :: lower) table (leafOutput 12 descriptor va)
  | block {shift : Nat} {lower : List Nat} {table descriptor : BitVec 64}
      (hread : ReadsWord vm mem (entryGpa table va shift) descriptor)
      (htype : descriptor &&& 3#64 = 1#64) (hshift : shift ≠ 39) (hlast : shift ≠ 12)
      (hallows : LeafAllows write descriptor) :
      Stage1Walk vm mem write va (shift :: lower) table (leafOutput shift descriptor va)
  /-- a table descriptor, with APTable[1] clear for writes -/
  | table {shift : Nat} {lower : List Nat} {table descriptor gpa : BitVec 64}
      (hread : ReadsWord vm mem (entryGpa table va shift) descriptor)
      (htype : descriptor &&& 3#64 = 3#64) (hlast : shift ≠ 12)
      (haptable : write = true → descriptor.getLsbD 62 = false)
      (hlower : Stage1Walk vm mem write va lower (descriptor &&& pfnMask) gpa) :
      Stage1Walk vm mem write va (shift :: lower) table gpa

/-- The upper bits are all like bit 55; the top byte counts only without TBI. -/
def Canonical (tbi : Bool) (va : BitVec 64) : Prop :=
  ∀ i, 48 ≤ i → i < 64 → (tbi = true → i < 56) → va.getLsbD i = va.getLsbD 55

/-- The table that translates an address, if its range is not disabled. -/
def Selects (context : GuestVm.GvaContext) (va ttbr : BitVec 64) : Prop :=
  if va.getLsbD 55 then
    Canonical (context.tcr.getLsbD 38) va ∧ context.tcr.getLsbD 23 = false ∧ ttbr = context.ttbr1
  else
    Canonical (context.tcr.getLsbD 37) va ∧ context.tcr.getLsbD 7 = false ∧ ttbr = context.ttbr0

/-- Stage 1 maps a virtual address to a guest physical one; without the MMU it is the same. -/
def Stage1Maps (vm : GuestVm) (mem : BitVec 64 → BitVec 8) (context : GuestVm.GvaContext)
    (write : Bool) (va gpa : BitVec 64) : Prop :=
  if context.sctlr.getLsbD 0 then
    ∃ ttbr, Selects context va ttbr ∧
      Stage1Walk vm mem write va GuestVm.levels (ttbr &&& pfnMask) gpa
  else gpa = va

/-- **The byte a virtual address stands for** is at this host address. -/
def Maps (vm : GuestVm) (mem : BitVec 64 → BitVec 8) (context : GuestVm.GvaContext) (write : Bool)
    (va hpa : BitVec 64) : Prop :=
  ∃ gpa, Stage1Maps vm mem context write va gpa ∧ ByteAt vm write gpa hpa

end Arm

end BeauOs.Guest

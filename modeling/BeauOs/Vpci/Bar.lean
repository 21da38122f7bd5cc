/-
Guest writes to the BARs of passthrough functions: `vpci_core.c`, `vpci_pt.c` under `sdk/bsp/vpci`,
and the stage-2 functions they call in `arch/arm64/guest/vm.c`.

The stage-2 tables are the host page each guest page is mapped to.  What ends in `panic` is `none`.
A base outside the window or not aligned to the size is reported and then used, so the check has
no part in the model of the write.  The I/O callbacks do nothing on this platform, and the MMIO
handler of the MSI-X table is left out.
-/
import Mathlib.Logic.Function.Basic
import BeauOs.Lib.Word

namespace BeauOs.Vpci

/-! ### Stage 2 -/

/-- Guest pages and the host pages they are mapped to. -/
abbrev Stage2 := Nat → Option Nat

/-- The page lies in `[ipa, ipa + size)`. -/
def InRange (ipa size page : Nat) : Prop := ipa ≤ page * 4096 ∧ page * 4096 < ipa + size

instance (ipa size page : Nat) : Decidable (InRange ipa size page) :=
  inferInstanceAs (Decidable (_ ∧ _))

/-- `arm64_stage2_validate_range`, for one address. -/
def stage2ValidateRange (address size : Nat) : Bool :=
  size ≠ 0 && address % 4096 = 0 && size % 4096 = 0 && address < 2 ^ 48 && size ≤ 2 ^ 48 - address

def stage2Unmap (s2 : Stage2) (ipa size : Nat) : Option Stage2 :=
  if stage2ValidateRange ipa size then
    some fun page => if InRange ipa size page then none else s2 page
  else none

/-- `arm64_stage2_map_device`; a page that is mapped already is an overlap. -/
def stage2MapDevice (s2 : Stage2) (hpa ipa size : Nat) : Option Stage2 :=
  if stage2ValidateRange ipa size && stage2ValidateRange hpa size &&
      (List.range (size / 4096)).all fun i => (s2 (ipa / 4096 + i)).isNone then
    some fun page =>
      if InRange ipa size page then some (hpa / 4096 + (page - ipa / 4096)) else s2 page
  else none

/-! ### BARs -/

structure Vbar where
  isMem64hi : Bool
  sizing : Bool
  size : Nat
  baseGpa : Nat
  baseHpa : Nat
  barType : Nat
  mask : Nat
  deriving DecidableEq

def Vbar.isIo (b : Vbar) : Bool := b.barType % 2 = 1 && !b.isMem64hi

def Vbar.isReserved (b : Vbar) : Bool :=
  b.barType % 2 = 0 && b.barType / 2 % 2 = 1 && !b.isMem64hi ||
    b.barType % 2 = 1 && b.barType / 2 % 2 = 1

def Vbar.isMem64lo (b : Vbar) : Bool :=
  b.barType % 2 = 0 && b.barType / 2 % 4 = 2 && !b.isMem64hi

/-- The BAR fields of `struct pci_vdev`: the BARs, their words of `cfgdata`, and the MSI-X table. -/
structure Vdev where
  nrBars : Nat
  vbars : Nat → Vbar
  cfg : Nat → Nat
  hasMsixCap : Bool
  tableBar : Nat
  tableOffset : Nat
  tableCount : Nat

variable (v : Vdev)

section

variable (idx : Nat)

/-- The BAR that `pci_vdev_update_vbar_base` ends with: the upper half, of a 64-bit one. -/
def Vdev.lastBar : Vbar :=
  if (v.vbars idx).isMem64lo then v.vbars (idx + 1) else v.vbars idx

/-- The base of `pci_vdev_update_vbar_base`, before an I/O BAR is compared with its host base. -/
def Vdev.barBase : Nat :=
  let b := v.vbars idx
  if b.isReserved || b.sizing then 0
  else
    let base := v.cfg idx &&& b.mask
    let base := if !b.isMem64lo then base
      else if (v.lastBar idx).sizing then 0
      else base ||| v.cfg (idx + 1) <<< 32
    if (v.lastBar idx).isIo then base &&& 0xffff else base

def Vdev.updateVbarBase : Vdev :=
  let base :=
    if (v.lastBar idx).isIo && (v.cfg idx &&& 0xfffffffc) ≠ (v.lastBar idx).baseHpa % 2 ^ 32 then 0
    else v.barBase idx
  { v with vbars := Function.update v.vbars idx { v.vbars idx with baseGpa := base } }

/-- The first part of `pci_vdev_write_vbar`: the sizing flag and the word of the BAR. -/
def Vdev.writeCfg (val : Nat) : Vdev :=
  let b := v.vbars idx
  let bits := if b.isMem64hi then 0 else if b.isIo then b.barType &&& 3 else b.barType &&& 15
  { v with
    vbars := Function.update v.vbars idx { b with sizing := val = 0xffffffff }
    cfg := Function.update v.cfg idx ((val &&& b.mask) ||| bits) }

/-- The BAR whose base a write to `idx` updates. -/
def Vdev.updateIdx : Nat := if (v.vbars idx).isMem64hi then idx - 1 else idx

def Vdev.writeVbar (val : Nat) : Vdev :=
  (v.writeCfg idx val).updateVbarBase (v.updateIdx idx)

/-! ### The callbacks -/

def Vdev.unmapMemVbar (s2 : Stage2) : Option Stage2 :=
  if (v.vbars idx).baseGpa ≠ 0 then stage2Unmap s2 (v.vbars idx).baseGpa (v.vbars idx).size
  else some s2

/-- The trapped pages of the MSI-X table: their start and size. -/
def Vdev.msixTrap (base : Nat) : Nat × Nat :=
  let lo := add64 base v.tableOffset
  let hi := add64 lo (v.tableCount * 16)
  (lo / 4096 * 4096, sub64 (add64 hi 4095 / 4096 * 4096) (lo / 4096 * 4096))

/-- `vdev_pt_map_msix`, for a BAR that has a base. -/
def Vdev.mapMsix (s2 : Stage2) : Option Stage2 :=
  if v.tableCount = 0 ∨ v.tableBar ≥ v.nrBars then some s2
  else
    let trap := v.msixTrap (v.vbars v.tableBar).baseGpa
    stage2Unmap s2 trap.1 trap.2

/-- `vdev_pt_map_mem_vbar`, for a BAR that has a base. -/
def Vdev.mapMemVbar (s2 : Stage2) : Option Stage2 := do
  let s2 ← stage2MapDevice s2 (v.vbars idx).baseHpa (v.vbars idx).baseGpa (v.vbars idx).size
  if v.hasMsixCap && idx = v.tableBar then v.mapMsix s2 else some s2

/-- `vdev_pt_write_vbar`, with `vpci_update_one_vbar` -/
def Vdev.ptWriteVbar (val : Nat) (s2 : Stage2) : Option (Vdev × Stage2) :=
  if (v.vbars idx).isIo then some (v.writeVbar idx val, s2)
  else do
    let s2 ← v.unmapMemVbar (v.updateIdx idx) s2
    let v' := v.writeVbar idx val
    if (v'.vbars (v.updateIdx idx)).baseGpa ≠ 0 then
      let s2 ← v'.mapMemVbar (v.updateIdx idx) s2
      some (v', s2)
    else some (v', s2)

end

/-! ### The VM -/

/-- A VM: its passthrough functions, its two windows with their last addresses, and its stage 2. -/
structure PtVm where
  vdevs : Nat → Vdev
  res32 : Nat × Nat
  res64 : Nat × Nat
  s2 : Stage2

/-- The window of `is_pci_mem_bar_base_valid`. -/
def PtVm.window (vm : PtVm) (base : Nat) : Nat × Nat := if base < 2 ^ 32 then vm.res32 else vm.res64

/-- A write of a 32-bit word to BAR `idx` of a function. -/
structure BarWrite where
  dev : Nat
  idx : Nat
  val : Nat

/-- The BAR branch of `write_cfg_header`. -/
def PtVm.writeBar (vm : PtVm) (w : BarWrite) : Option PtVm :=
  if w.idx < (vm.vdevs w.dev).nrBars then
    ((vm.vdevs w.dev).ptWriteVbar w.idx w.val vm.s2).map fun (v, s2) =>
      { vm with vdevs := Function.update vm.vdevs w.dev v, s2 := s2 }
  else some vm

end BeauOs.Vpci

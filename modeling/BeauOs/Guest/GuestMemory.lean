/-
Access to guest memory (`arch/arm64/guest/memory.c`) and the read-only stage-2 walk of
`arch/arm64/guest/vm.c`.

A VM's RAM is one window of guest physical addresses that lies linearly in host memory.  A guest
virtual address is translated by a walk through the guest's own tables, whose entries are read from
that window; each entry and the final address are checked against the stage-2 tables.  The copy
functions do this once for each page.

Host memory is a function on host physical addresses, which are the hypervisor's own addresses.
Every byte of it that is accessed for the guest is noted down (`touched`).  The lifecycle generation
is loaded anew after each chunk, and what it is then is not for this code to say: it is a function
of the bytes copied so far.
-/
import BeauOs.Pm.Transaction
import Mathlib.Logic.Function.Basic

namespace BeauOs.Guest

open BeauOs.Pm (eIo eAgain eAcces eFault eBusy eNoDev eInval eNotSup)

/-! ### The RAM window -/

/-- `guest_ram_start` and `guest_ram_size` of the VM configuration. -/
structure GuestRam where
  start : BitVec 64
  size : BitVec 64
  deriving DecidableEq

def GuestRam.rangeValid (ram : GuestRam) (gpa size : BitVec 64) : Bool :=
  decide (size ≠ 0#64) && decide (ram.size ≠ 0#64) &&
    !decide (ram.start > -1#64 - ram.size) && !decide (gpa > -1#64 - size) &&
    decide (gpa ≥ ram.start) && decide (gpa + size ≤ ram.start + ram.size)

def pfnMask : BitVec 64 := 0x0000fffffffff000#64

def invalidHpa : BitVec 64 := 1#64 <<< 52

def stage2AddressLimit : BitVec 64 := 1#64 <<< 48

/-- The stage-2 tables as the hypervisor reads them. -/
structure Stage2Tables where
  /-- `root_stg2ptp`; zero is NULL -/
  root : BitVec 64
  /-- `arm64_stage2_update_owner` is not zero -/
  updating : Bool
  /-- `arm64_stage2_page_index`: an allocated page of the pool -/
  allocated : BitVec 64 → Bool
  /-- the descriptor at an index of a table -/
  descriptor : BitVec 64 → BitVec 64 → BitVec 64

/-- What a guest memory access reads of a VM. -/
structure GuestVm where
  ram : GuestRam
  ramHpa : BitVec 64
  s2 : Stage2Tables

namespace GuestVm

section

variable (vm : GuestVm)

def gpa2hpa (gpa : BitVec 64) : BitVec 64 :=
  if vm.ram.rangeValid gpa 1#64 then vm.ramHpa + (gpa - vm.ram.start) else invalidHpa

/-! ### The stage-2 walk -/

inductive Stage2Result where
  | unmapped
  | malformed
  | mapped
  deriving DecidableEq

/-- `struct arm64_stage2_walk`: the result, the descriptors of the steps, and the address. -/
structure Stage2Walk where
  result : Stage2Result
  steps : List (BitVec 64)
  hpa : BitVec 64

/-- `arm64_stage2_walk_set_leaf` for a leaf of 2 ^ `shift` bytes. -/
def setLeaf (shift : Nat) (ipa descriptor : BitVec 64) (steps : List (BitVec 64)) : Stage2Walk :=
  let rangeSize := 1#64 <<< shift
  let hpaBase := descriptor &&& pfnMask
  let offset := ipa &&& (rangeSize - 1#64)
  if hpaBase ≥ stage2AddressLimit ∨ rangeSize > stage2AddressLimit - hpaBase ∨
      offset > -1#64 - hpaBase then ⟨.malformed, steps, 0#64⟩
  else ⟨.mapped, steps, hpaBase + offset⟩

/-- The loop of `arm64_stage2_walk`; a level is given by the address bits below it. -/
def stage2Loop (s2 : Stage2Tables) (ipa : BitVec 64) :
    List Nat → BitVec 64 → List (BitVec 64) → Stage2Walk
  | [], _, steps => ⟨.malformed, steps, 0#64⟩
  | shift :: lower, table, steps =>
    let descriptor := s2.descriptor table ((ipa >>> shift) &&& 511#64)
    let steps := steps ++ [descriptor]
    if descriptor &&& 1#64 = 0#64 then ⟨.unmapped, steps, 0#64⟩
    else if shift = 12 then
      if descriptor &&& 3#64 ≠ 3#64 then ⟨.malformed, steps, 0#64⟩
      else setLeaf shift ipa descriptor steps
    else if descriptor &&& 3#64 = 1#64 then
      if shift = 39 then ⟨.malformed, steps, 0#64⟩ else setLeaf shift ipa descriptor steps
    else if descriptor &&& 3#64 ≠ 3#64 ∨ descriptor &&& pfnMask = 0#64 ∨
        s2.allocated (descriptor &&& pfnMask) = false then ⟨.malformed, steps, 0#64⟩
    else stage2Loop s2 ipa lower (descriptor &&& pfnMask) steps

def levels : List Nat := [39, 30, 21, 12]

def stage2Walk (ipa : BitVec 64) : Except Int Stage2Walk :=
  if ipa ≥ stage2AddressLimit then .error (-eInval)
  else if vm.s2.root = 0#64 then .error (-eNoDev)
  else if vm.s2.updating = true then .error (-eBusy)
  else if vm.s2.allocated vm.s2.root = false then .error (-eFault)
  else .ok (stage2Loop vm.s2 ipa levels vm.s2.root [])

/-- `PAGE_S2_MEMATTR_MASK`, and what it selects for normal memory -/
def s2Memattr : BitVec 64 := 0xf#64 <<< 2
def s2apRead : BitVec 64 := 1#64 <<< 6
def s2apWrite : BitVec 64 := 1#64 <<< 7

def validateGpa (gpa : BitVec 64) (write : Bool) : Int :=
  if vm.ram.rangeValid gpa 1#64 = false then -eFault
  else
    match vm.stage2Walk gpa with
    | .error ret => ret
    | .ok walk =>
      match walk.steps.getLast? with
      | none => -eFault
      | some descriptor =>
        if walk.result ≠ .mapped then -eFault
        else if descriptor &&& s2Memattr ≠ s2Memattr ∨ descriptor &&& s2apRead = 0#64 ∨
            (write = true ∧ descriptor &&& s2apWrite = 0#64) ∨
            vm.gpa2hpa gpa = invalidHpa ∨ walk.hpa ≠ vm.gpa2hpa gpa then -eAcces
        else 0

/-! ### Copies by guest physical address -/

/-- Where `copy_from_gpa` and `copy_to_gpa` find a range, if they accept it. -/
def gpaRange (gpa : BitVec 64) (size : Nat) : Except Int (BitVec 64) :=
  if vm.ram.rangeValid gpa (BitVec.ofNat 64 size) = true ∧ vm.gpa2hpa gpa ≠ invalidHpa ∧
      vm.gpa2hpa gpa ≠ 0#64 then .ok (vm.gpa2hpa gpa)
  else .error (-eFault)

def span (start : BitVec 64) (size : Nat) : List (BitVec 64) :=
  (List.range size).map fun k => start + BitVec.ofNat 64 k

/-- Eight bytes in memory, read as a descriptor. -/
def wordAt (mem : BitVec 64 → BitVec 8) (hpa : BitVec 64) : BitVec 64 :=
  mem (hpa + 7#64) ++ mem (hpa + 6#64) ++ mem (hpa + 5#64) ++ mem (hpa + 4#64) ++
    mem (hpa + 3#64) ++ mem (hpa + 2#64) ++ mem (hpa + 1#64) ++ mem (hpa + 0#64)

/-- `arm64_guest_gva_read_pte`, with the addresses it touches. -/
def readPte (mem : BitVec 64 → BitVec 8) (gpa : BitVec 64) :
    Except Int (BitVec 64) × List (BitVec 64) :=
  if vm.validateGpa gpa false ≠ 0 then (.error (vm.validateGpa gpa false), [])
  else
    match vm.gpaRange gpa 8 with
    | .error ret => (.error ret, [])
    | .ok hpa => (.ok (wordAt mem hpa), span hpa 8)

/-! ### The stage-1 walk -/

structure GvaContext where
  sctlr : BitVec 64
  tcr : BitVec 64
  ttbr0 : BitVec 64
  ttbr1 : BitVec 64
  generation : BitVec 64

/-- The vCPU as `arm64_guest_gva_context_snapshot` finds it. -/
structure VcpuView where
  /-- it runs on this pCPU -/
  running : Bool
  paused : Bool
  /-- the live registers and the saved ones -/
  live : GvaContext
  saved : GvaContext
  generation : BitVec 64

def contextSnapshot (vcpu : VcpuView) : Except Int GvaContext :=
  if vcpu.running = false ∧ vcpu.paused = false then .error (-eBusy)
  else if vcpu.generation = 0#64 then .error (-eAgain)
  else .ok { (if vcpu.running then vcpu.live else vcpu.saved) with generation := vcpu.generation }

def tcrEpd0 : BitVec 64 := 1#64 <<< 7
def tcrEpd1 : BitVec 64 := 1#64 <<< 23
def tcrTbi0 : BitVec 64 := 1#64 <<< 37
def tcrTbi1 : BitVec 64 := 1#64 <<< 38

def gvaIsLow (gva : BitVec 64) (t0sz : Nat) : Bool :=
  decide (0 < t0sz) && decide (t0sz < 64) && decide (gva >>> (64 - t0sz) = 0#64)

def gvaIsHigh (gva : BitVec 64) (t1sz : Nat) : Bool :=
  decide (0 < t1sz) && decide (t1sz < 64) &&
    decide (gva >>> (64 - t1sz) = (1#64 <<< t1sz) - 1#64)

/-- The address to walk with and the table, unless the range is disabled. -/
def ttbrUnless (disabled : Bool) (gva ttbr : BitVec 64) : Except Int (BitVec 64 × BitVec 64) :=
  if disabled then .error (-eFault) else .ok (gva, ttbr)

def selectTtbr (context : GvaContext) (gva : BitVec 64) : Except Int (BitVec 64 × BitVec 64) :=
  let t0sz := (context.tcr &&& 0x3f#64).toNat
  let t1sz := ((context.tcr >>> 16) &&& 0x3f#64).toNat
  let tg0 := (context.tcr >>> 14) &&& 3#64
  let tg1 := (context.tcr >>> 30) &&& 3#64
  let epd0 := decide (context.tcr &&& tcrEpd0 ≠ 0#64)
  let epd1 := decide (context.tcr &&& tcrEpd1 ≠ 0#64)
  let untagged := gva &&& 0x00ffffffffffffff#64
  let tagged := untagged ||| 0xff00000000000000#64
  if tg0 ≠ 0#64 ∨ tg1 ≠ 2#64 ∨ t0sz ≠ 16 ∨ t1sz ≠ 16 then .error (-eNotSup)
  else if context.tcr &&& tcrTbi0 ≠ 0#64 ∧ gvaIsLow untagged t0sz = true then
    ttbrUnless epd0 untagged context.ttbr0
  else if context.tcr &&& tcrTbi1 ≠ 0#64 ∧ gvaIsHigh tagged t1sz = true then
    ttbrUnless epd1 tagged context.ttbr1
  else if gvaIsLow gva t0sz = true then ttbrUnless epd0 gva context.ttbr0
  else if gvaIsHigh gva t1sz = true then ttbrUnless epd1 gva context.ttbr1
  else .error (-eFault)

/-- The end of the walk at a leaf of 2 ^ `shift` bytes. -/
def gvaLeaf (gva : BitVec 64) (write : Bool) (shift : Nat) (descriptor : BitVec 64) :
    Except Int (BitVec 64) :=
  let pageMask := (1#64 <<< shift) - 1#64
  let outputBase := (descriptor &&& pfnMask) &&& ~~~pageMask
  let gpa := outputBase + (gva &&& pageMask)
  if descriptor &&& (1#64 <<< 10) = 0#64 ∨
      (write = true ∧ (descriptor >>> 6) &&& 3#64 ≥ 2#64) then .error (-eAcces)
  else if gva &&& pageMask > -1#64 - outputBase then .error (-eFault)
  else if vm.validateGpa gpa write ≠ 0 then .error (vm.validateGpa gpa write)
  else .ok gpa

end

/-- The loop of `arm64_guest_gva_translate`, with the addresses it touches. -/
def gvaLoop (vm : GuestVm) (mem : BitVec 64 → BitVec 8) (gva : BitVec 64) (write : Bool) :
    List Nat → BitVec 64 → Except Int (BitVec 64) × List (BitVec 64)
  | [], _ => (.error (-eFault), [])
  | shift :: lower, table =>
    let index := (gva >>> shift) &&& 511#64
    if table > -1#64 - index * 8#64 then (.error (-eFault), [])
    else
      match vm.readPte mem (table + index * 8#64) with
      | (.error ret, touched) => (.error ret, touched)
      | (.ok descriptor, touched) =>
        if descriptor &&& 1#64 = 0#64 then (.error (-eFault), touched)
        else if shift = 12 then
          if descriptor &&& 2#64 = 0#64 then (.error (-eFault), touched)
          else (vm.gvaLeaf gva write shift descriptor, touched)
        else if descriptor &&& 2#64 = 0#64 then
          if shift = 39 then (.error (-eFault), touched)
          else (vm.gvaLeaf gva write shift descriptor, touched)
        else if write = true ∧ (descriptor >>> 61) &&& 3#64 ≥ 2#64 then
          (.error (-eAcces), touched)
        else
          let rest := gvaLoop vm mem gva write lower (descriptor &&& pfnMask)
          (rest.1, touched ++ rest.2)

def gvaTranslate (vm : GuestVm) (mem : BitVec 64 → BitVec 8) (context : GvaContext)
    (gva : BitVec 64) (write : Bool) : Except Int (BitVec 64) × List (BitVec 64) :=
  if context.sctlr &&& 1#64 = 0#64 then
    if vm.ram.rangeValid gva 1#64 = false then (.error (-eFault), [])
    else if vm.validateGpa gva write ≠ 0 then (.error (vm.validateGpa gva write), [])
    else (.ok gva, [])
  else
    match selectTtbr context gva with
    | .error ret => (.error ret, [])
    | .ok (walkGva, ttbr) => vm.gvaLoop mem walkGva write levels (ttbr &&& pfnMask)

/-! ### Copies by guest virtual address -/

inductive GuestMemoryError where
  | none
  | argument
  | vcpuBusy
  | translation
  | permission
  | stage2
  | retry
  deriving DecidableEq

def gvaError (ret : Int) : GuestMemoryError :=
  if ret = -eBusy then .vcpuBusy
  else if ret = -eAgain then .retry
  else if ret = -eAcces then .permission
  else if ret = -eNoDev ∨ ret = -eIo then .stage2
  else .translation

/-- Host memory, the caller's buffer, and the guest bytes accessed. -/
structure CopyState where
  mem : BitVec 64 → BitVec 8
  buffer : Nat → BitVec 8
  touched : List (BitVec 64)

/-- `memcpy` from guest memory into the buffer. -/
def moveFrom (hpa : BitVec 64) (copied : Nat) : Nat → CopyState → CopyState
  | 0, s => s
  | n + 1, s =>
    let s := moveFrom hpa copied n s
    { s with
      buffer := Function.update s.buffer (copied + n) (s.mem (hpa + BitVec.ofNat 64 n))
      touched := s.touched ++ [hpa + BitVec.ofNat 64 n] }

/-- `memcpy` from the buffer to guest memory. -/
def moveTo (hpa : BitVec 64) (copied : Nat) : Nat → CopyState → CopyState
  | 0, s => s
  | n + 1, s =>
    let s := moveTo hpa copied n s
    { s with
      mem := Function.update s.mem (hpa + BitVec.ofNat 64 n) (s.buffer (copied + n))
      touched := s.touched ++ [hpa + BitVec.ofNat 64 n] }

def pageRemaining (gva : BitVec 64) : Nat := 4096 - (gva &&& 0xfff#64).toNat

def chunkSize (gva : BitVec 64) (remaining : Nat) : Nat := min remaining (pageRemaining gva)

/-- One pass of the loop; `move` does the copy in the direction of the access. -/
def copyChunk (vm : GuestVm) (context : GvaContext) (generation : Nat → BitVec 64) (write : Bool)
    (move : BitVec 64 → Nat → Nat → CopyState → CopyState) (gva : BitVec 64) (size copied : Nat)
    (s : CopyState) : Int × CopyState :=
  let current := gva + BitVec.ofNat 64 copied
  let chunk := chunkSize current (size - copied)
  let translated := vm.gvaTranslate s.mem context current write
  let s := { s with touched := s.touched ++ translated.2 }
  match translated.1 with
  | .error ret => (ret, s)
  | .ok gpa =>
    match vm.gpaRange gpa chunk with
    | .error ret => (ret, s)
    | .ok hpa =>
      (if generation copied ≠ context.generation then -eAgain else 0, move hpa copied chunk s)

/--
The loop of the copy functions: the status, the bytes counted as copied, and the state.  Each pass
copies a byte at least, so as many passes as there are bytes left are enough.
-/
def copyLoop (vm : GuestVm) (context : GvaContext) (generation : Nat → BitVec 64) (write : Bool)
    (move : BitVec 64 → Nat → Nat → CopyState → CopyState) (gva : BitVec 64) (size : Nat) :
    Nat → Nat → CopyState → Int × Nat × CopyState
  | 0, copied, s => (0, copied, s)
  | n + 1, copied, s =>
    if copied < size then
      let out := copyChunk vm context generation write move gva size copied s
      if out.1 = 0 then
        copyLoop vm context generation write move gva size n
          (copied + chunkSize (gva + BitVec.ofNat 64 copied) (size - copied)) out.2
      else (out.1, copied, out.2)
    else (0, copied, s)

/-- What the copy functions return and report. -/
structure CopyOutcome where
  ret : Int
  errCode : GuestMemoryError
  faultAddr : BitVec 64
  state : CopyState

def report (ret : Int) (error : GuestMemoryError) (gva : BitVec 64) (s : CopyState) : CopyOutcome :=
  ⟨ret, error, if error = .none then 0#64 else gva, s⟩

variable (vm : GuestVm) (vcpu : VcpuView) (generation : Nat → BitVec 64)

/--
The two copy functions, which differ in the access and in the direction; `hasBuffer` says that
`h_ptr` is not NULL.
-/
def copyGva (write : Bool) (move : BitVec 64 → Nat → Nat → CopyState → CopyState)
    (hasBuffer : Bool) (gva : BitVec 64) (size : BitVec 32) (s : CopyState) : CopyOutcome :=
  if size ≠ 0#32 ∧ (hasBuffer = false ∨ gva > -1#64 - size.setWidth 64) then
    report (-eInval) .argument gva s
  else if size = 0#32 then report 0 .none gva s
  else
    match contextSnapshot vcpu with
    | .error ret => report ret (gvaError ret) gva s
    | .ok context =>
      let out := copyLoop vm context generation write move gva size.toNat size.toNat 0 s
      report out.1 (if out.1 = 0 then .none else gvaError out.1)
        (gva + BitVec.ofNat 64 out.2.1) out.2.2

def copyFromGva (hasBuffer : Bool) (gva : BitVec 64) (size : BitVec 32) (s : CopyState) :
    CopyOutcome :=
  vm.copyGva vcpu generation false moveFrom hasBuffer gva size s

def copyToGva (hasBuffer : Bool) (gva : BitVec 64) (size : BitVec 32) (s : CopyState) :
    CopyOutcome :=
  vm.copyGva vcpu generation true moveTo hasBuffer gva size s

end GuestVm

end BeauOs.Guest

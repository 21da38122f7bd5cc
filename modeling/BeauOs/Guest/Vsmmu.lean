/-
The SMMUv3 that a guest sees (`arch/arm64/guest/vsmmu.c`).

The guest writes registers through a trapped page; each access is one section under `vsmmu.lock`.
Commands lie in the guest's memory.  A worker on one configured pCPU takes a snapshot of the queue
under the lock, copies one command from guest memory without it, and commits the result under the
lock again if the snapshot is still of the current generation.  Guest accesses fall between any two
of these steps, and the guest may rewrite the queue's memory at any time, so every fetch is given
the memory it finds.

A 32-bit register takes the low half of the written value.
-/
import BeauOs.Guest.GuestMemory
import Mathlib.Data.BitVec

namespace BeauOs.Guest

/-! ### Registers -/

inductive VsmmuReg where
  | idr0 | idr1 | idr2 | idr3 | idr4 | idr5 | iidr | aidr
  | cr0 | cr0Ack | cr1 | cr2 | statusr | gbpa | irqCtrl | irqCtrlAck | gerror | gerrorn
  | strtabBase | strtabBaseCfg
  | cmdqBase | cmdqProd | cmdqCons
  | evtqBase | evtqProd | evtqCons
  deriving DecidableEq

def VsmmuReg.decode : Nat → Option VsmmuReg
  | 0x00000 => some .idr0
  | 0x00004 => some .idr1
  | 0x00008 => some .idr2
  | 0x0000c => some .idr3
  | 0x00010 => some .idr4
  | 0x00014 => some .idr5
  | 0x00018 => some .iidr
  | 0x0001c => some .aidr
  | 0x00020 => some .cr0
  | 0x00024 => some .cr0Ack
  | 0x00028 => some .cr1
  | 0x0002c => some .cr2
  | 0x00040 => some .statusr
  | 0x00044 => some .gbpa
  | 0x00050 => some .irqCtrl
  | 0x00054 => some .irqCtrlAck
  | 0x00060 => some .gerror
  | 0x00064 => some .gerrorn
  | 0x00080 => some .strtabBase
  | 0x00088 => some .strtabBaseCfg
  | 0x00090 => some .cmdqBase
  | 0x00098 => some .cmdqProd
  | 0x0009c => some .cmdqCons
  | 0x000a0 => some .evtqBase
  | 0x100a8 => some .evtqProd
  | 0x100ac => some .evtqCons
  | _ => none

/-- `vsmmu_reg_is_64` and `vsmmu_access_width_valid` -/
def accessWidthValid (offset size : Nat) : Bool :=
  if offset = 0x00080 ∨ offset = 0x00090 ∨ offset = 0x000a0 then size = 8 else size = 4

def cr0Smmuen : BitVec 32 := 1#32 <<< 0
def cr0Evtqen : BitVec 32 := 1#32 <<< 2
def cr0Cmdqen : BitVec 32 := 1#32 <<< 3
def cr0Allowed : BitVec 32 := cr0Smmuen ||| cr0Evtqen ||| cr0Cmdqen
def cr1Allowed : BitVec 32 := 0x00000fff#32
def cr2Allowed : BitVec 32 := 0x00000007#32
def gbpaAbort : BitVec 32 := 1#32 <<< 20
def gbpaUpdate : BitVec 32 := 1#32 <<< 31
def irqGerror : BitVec 32 := 1#32 <<< 0
def irqEvtq : BitVec 32 := 1#32 <<< 2
def irqAllowed : BitVec 32 := irqGerror ||| irqEvtq
def gerrorCmdqErr : BitVec 32 := 1#32 <<< 0
def gerrorSfmErr : BitVec 32 := 1#32 <<< 8
def gerrorAllowed : BitVec 32 := gerrorCmdqErr ||| gerrorSfmErr

def qBaseRwa : BitVec 64 := 1#64 <<< 62
def qBaseAddrMask : BitVec 64 := 0x000fffffffffffe0#64
def qBaseLog2Mask : BitVec 64 := 0x1f#64
def qBaseAllowed : BitVec 64 := qBaseRwa ||| qBaseAddrMask ||| qBaseLog2Mask
def strtabBaseRa : BitVec 64 := 1#64 <<< 62
def strtabAddrMask : BitVec 64 := 0x000fffffffffffc0#64
def strtabBaseAllowed : BitVec 64 := strtabBaseRa ||| strtabAddrMask
def strtabCfgLog2Mask : BitVec 32 := 0x3f#32

def cmdqConsErrMask : BitVec 32 := 0x7f#32 <<< 24
def cerrorIll : BitVec 32 := 1#32
def cerrorAbt : BitVec 32 := 2#32

def cmdqEntrySize : BitVec 64 := 16#64
def evtqEntrySize : BitVec 64 := 32#64
def steSize : BitVec 64 := 64#64
def idr1SidBits : Nat := 6

def cmdBudget : Nat := 32

/-- `ARM64_DTS_GUEST_SMMU_MAX_QUEUE_LOG2`: what the device tree may ask for. -/
def maxQueueLog2 : Nat := 6

/-- The VM's static configuration, as the device tree parser accepts it. -/
structure VsmmuConfig where
  ram : GuestRam
  cmdqLog2 : Nat
  evtqLog2 : Nat
  cmdqLog2_le : cmdqLog2 ≤ maxQueueLog2
  evtqLog2_le : evtqLog2 ≤ maxQueueLog2

structure Vsmmu where
  strtabBase : BitVec 64
  cmdqBase : BitVec 64
  evtqBase : BitVec 64
  generation : Nat
  strtabCfg : BitVec 32
  cmdqProd : BitVec 32
  cmdqCons : BitVec 32
  evtqProd : BitVec 32
  evtqCons : BitVec 32
  cr0 : BitVec 32
  cr1 : BitVec 32
  cr2 : BitVec 32
  gbpa : BitVec 32
  irqCtrl : BitVec 32
  gerror : BitVec 32
  gerrorn : BitVec 32
  workerPending : Bool
  irqAsserted : Bool
  deriving DecidableEq

def Vsmmu.init : Vsmmu :=
  { strtabBase := 0#64
    cmdqBase := 0#64
    evtqBase := 0#64
    generation := 1
    strtabCfg := 0#32
    cmdqProd := 0#32
    cmdqCons := 0#32
    evtqProd := 0#32
    evtqCons := 0#32
    cr0 := 0#32
    cr1 := 0#32
    cr2 := 0#32
    gbpa := gbpaAbort
    irqCtrl := 0#32
    gerror := 0#32
    gerrorn := 0#32
    workerPending := false
    irqAsserted := false }

def ringMask (log2Entries : Nat) : BitVec 32 := (1#32 <<< (log2Entries + 1)) - 1#32

namespace Vsmmu

variable (cfg : VsmmuConfig) (v : Vsmmu)

def cmdqLog2 : Nat := (v.cmdqBase &&& qBaseLog2Mask).toNat

def evtqLog2 : Nat := (v.evtqBase &&& qBaseLog2Mask).toNat

def queueValid (value : BitVec 64) (maxLog2 : Nat) (entrySize : BitVec 64) : Bool :=
  let base := value &&& qBaseAddrMask
  let log2Entries := (value &&& qBaseLog2Mask).toNat
  if value &&& ~~~qBaseAllowed ≠ 0#64 ∨ log2Entries = 0 ∨ log2Entries > maxLog2 then false
  else
    let bytes := entrySize <<< log2Entries
    decide (base &&& (bytes - 1#64) = 0#64) && cfg.ram.rangeValid base bytes

def strtabValid : Bool :=
  let base := v.strtabBase &&& strtabAddrMask
  let log2Entries := (v.strtabCfg &&& strtabCfgLog2Mask).toNat
  if v.strtabBase &&& ~~~strtabBaseAllowed ≠ 0#64 ∨ v.strtabCfg &&& ~~~strtabCfgLog2Mask ≠ 0#32 ∨
      log2Entries = 0 ∨ log2Entries > idr1SidBits then false
  else
    let bytes := steSize <<< log2Entries
    decide (base &&& (bytes - 1#64) = 0#64) && cfg.ram.rangeValid base bytes

def cmdqValid : Bool := queueValid cfg v.cmdqBase cfg.cmdqLog2 cmdqEntrySize

def evtqValid : Bool := queueValid cfg v.evtqBase cfg.evtqLog2 evtqEntrySize

def activeErrors : BitVec 32 := (v.gerror ^^^ v.gerrorn) &&& gerrorAllowed

def raiseError (error : BitVec 32) : Vsmmu :=
  if v.activeErrors &&& error = 0#32 then { v with gerror := v.gerror ^^^ error } else v

def failControl : Vsmmu :=
  raiseError { v with cr0 := 0#32, gbpa := gbpaAbort, workerPending := false } gerrorSfmErr

/-- `vsmmu_set_cerror_locked`, which is only called with an error. -/
def setCerror (cerror : BitVec 32) : Vsmmu :=
  raiseError
    { v with
      cmdqCons := (v.cmdqCons &&& ~~~cmdqConsErrMask) ||| (cerror <<< 24)
      workerPending := false }
    gerrorCmdqErr

/-- The locked section of `vsmmu_refresh_irq`. -/
def refreshIrq : Vsmmu :=
  { v with
    irqAsserted :=
      (decide (v.activeErrors ≠ 0#32) && decide (v.irqCtrl &&& irqGerror ≠ 0#32)) ||
      (decide (v.evtqProd ≠ v.evtqCons) && decide (v.irqCtrl &&& irqEvtq ≠ 0#32)) }

/-- `vsmmu->generation++` -/
def bump : Vsmmu := { v with generation := (v.generation + 1) % 2 ^ 64 }

/-! ### Register accesses -/

/-- `vsmmu_read_locked`; `none` is `-EINVAL`. -/
def readLocked : VsmmuReg → Option (BitVec 64)
  | .idr0 => some ((1#64 <<< 24) ||| (2#64 <<< 21) ||| (1#64 <<< 12) ||| (1#64 <<< 4) |||
      (2#64 <<< 2) ||| (1#64 <<< 1))
  | .idr1 => some (BitVec.ofNat 64 cfg.cmdqLog2 <<< 21 ||| BitVec.ofNat 64 cfg.evtqLog2 <<< 16 |||
      BitVec.ofNat 64 idr1SidBits)
  | .idr2 | .idr3 | .idr4 | .statusr => some 0#64
  | .idr5 => some ((1#64 <<< 4) ||| 5#64)
  | .iidr | .aidr => some 1#64
  | .cr0 | .cr0Ack => some (v.cr0.setWidth 64)
  | .cr1 => some (v.cr1.setWidth 64)
  | .cr2 => some (v.cr2.setWidth 64)
  | .gbpa => some (v.gbpa.setWidth 64)
  | .irqCtrl | .irqCtrlAck => some (v.irqCtrl.setWidth 64)
  | .gerror => some (v.gerror.setWidth 64)
  | .gerrorn => some (v.gerrorn.setWidth 64)
  | .strtabBase => some v.strtabBase
  | .strtabBaseCfg => some (v.strtabCfg.setWidth 64)
  | .cmdqBase => some v.cmdqBase
  | .cmdqProd => some (v.cmdqProd.setWidth 64)
  | .cmdqCons => some (v.cmdqCons.setWidth 64)
  | .evtqBase => some v.evtqBase
  | .evtqProd => some (v.evtqProd.setWidth 64)
  | .evtqCons => some (v.evtqCons.setWidth 64)

/-- `vsmmu_write_locked`: the new state and whether the worker is kicked; `none` is `-EINVAL`. -/
def writeLocked (value : BitVec 64) : VsmmuReg → Option (Vsmmu × Bool)
  | .cr0 =>
    let low := value.setWidth 32
    if low &&& ~~~cr0Allowed ≠ 0#32 then none
    else if (low &&& cr0Cmdqen ≠ 0#32 ∧ v.cmdqValid cfg = false) ∨
        (low &&& cr0Evtqen ≠ 0#32 ∧ v.evtqValid cfg = false) ∨
        (low &&& cr0Smmuen ≠ 0#32 ∧ v.strtabValid cfg = false) then none
    else
      let pending := decide (low &&& cr0Cmdqen ≠ 0#32) && decide (v.cmdqProd ≠ v.cmdqCons)
      some (bump { v with cr0 := low, workerPending := pending }, pending)
  | .cr1 =>
    let low := value.setWidth 32
    if v.cr0 &&& cr0Smmuen ≠ 0#32 ∨ low &&& ~~~cr1Allowed ≠ 0#32 then none
    else some ({ v with cr1 := low }, false)
  | .cr2 =>
    let low := value.setWidth 32
    if v.cr0 &&& cr0Smmuen ≠ 0#32 ∨ low &&& ~~~cr2Allowed ≠ 0#32 then none
    else some ({ v with cr2 := low }, false)
  | .gbpa =>
    let low := value.setWidth 32
    if low &&& gbpaUpdate = 0#32 ∨ low &&& ~~~(gbpaUpdate ||| gbpaAbort) ≠ 0#32 then none
    else some ({ v with gbpa := low &&& gbpaAbort }, false)
  | .irqCtrl =>
    let low := value.setWidth 32
    if low &&& ~~~irqAllowed ≠ 0#32 then none
    else some ({ v with irqCtrl := low }, false)
  | .gerrorn =>
    let low := value.setWidth 32
    if low &&& ~~~gerrorAllowed ≠ 0#32 then none
    else
      let v := { v with gerrorn := low }
      if v.cmdqCons &&& cmdqConsErrMask ≠ 0#32 ∧ v.activeErrors &&& gerrorCmdqErr = 0#32 then
        some ({ v with workerPending := true }, true)
      else some (v, false)
  | .strtabBase =>
    if v.cr0 &&& cr0Smmuen ≠ 0#32 then none
    else some (bump { v with strtabBase := value }, false)
  | .strtabBaseCfg =>
    if v.cr0 &&& cr0Smmuen ≠ 0#32 then none
    else some (bump { v with strtabCfg := value.setWidth 32 }, false)
  | .cmdqBase =>
    if v.cr0 &&& cr0Cmdqen ≠ 0#32 then none
    else some (bump { v with cmdqBase := value }, false)
  | .cmdqProd =>
    let low := value.setWidth 32
    if v.cmdqLog2 = 0 ∨ v.cmdqLog2 > cfg.cmdqLog2 then none
    else if low &&& ~~~ringMask v.cmdqLog2 ≠ 0#32 then none
    else some ({ v with cmdqProd := low, workerPending := true }, true)
  | .cmdqCons =>
    let low := value.setWidth 32
    if v.cr0 &&& cr0Cmdqen ≠ 0#32 then none
    else if v.cmdqLog2 = 0 ∨ v.cmdqLog2 > cfg.cmdqLog2 then none
    else if low &&& ~~~ringMask v.cmdqLog2 ≠ 0#32 then none
    else some ({ v with cmdqCons := low }, false)
  | .evtqBase =>
    if v.cr0 &&& cr0Evtqen ≠ 0#32 then none
    else some (bump { v with evtqBase := value }, false)
  | .evtqProd =>
    if v.cr0 &&& cr0Evtqen ≠ 0#32 then none
    else some ({ v with evtqProd := value.setWidth 32 }, false)
  | .evtqCons =>
    if v.evtqLog2 = 0 ∨ v.evtqLog2 > cfg.evtqLog2 then none
    else if value &&& ~~~((ringMask v.evtqLog2).setWidth 64 ||| (1#64 <<< 31)) ≠ 0#64 then none
    else some ({ v with evtqCons := value.setWidth 32 }, false)
  | .idr0 | .idr1 | .idr2 | .idr3 | .idr4 | .idr5 | .iidr | .aidr | .cr0Ack | .statusr
  | .irqCtrlAck | .gerror => none

end Vsmmu

/-- A trapped access; a read has no value. -/
structure Access where
  offset : Nat
  size : Nat
  write : Option (BitVec 64)
  deriving DecidableEq

/-- The locked section of `arm64_vsmmu_mmio_handler`: the new state and whether it kicks the
worker. -/
def Vsmmu.mmioHandler (cfg : VsmmuConfig) (v : Vsmmu) (access : Access) : Vsmmu × Bool :=
  if accessWidthValid access.offset access.size = false then (v.failControl, false)
  else
    match VsmmuReg.decode access.offset with
    | none => (v.failControl, false)
    | some reg =>
      match access.write with
      | none =>
        match v.readLocked cfg reg with
        | none => (v.failControl, false)
        | some _ => (v, decide (reg = .cmdqCons) && v.workerPending)
      | some value => (v.writeLocked cfg value reg).getD (v.failControl, false)

/-! ### Commands -/

structure Command where
  word0 : BitVec 64
  word1 : BitVec 64
  deriving DecidableEq

def Command.supported (command : Command) : Bool :=
  let opMask : BitVec 64 := 0xff#64
  let numMask : BitVec 64 := 0x1f#64 <<< 12
  let scaleMask : BitVec 64 := 0x1f#64 <<< 20
  let vmidMask : BitVec 64 := 0xffff#64 <<< 32
  let asidMask : BitVec 64 := 0xffff#64 <<< 48
  match (command.word0 &&& 0xff#64).toNat with
  -- CFGI_ALL
  | 0x04 => decide (command.word0 = 0x04#64) && decide (command.word1 = 0x1f#64)
  -- TLBI_NH_ALL, TLBI_NSNH_ALL
  | 0x10 => decide (command.word0 = 0x10#64) && decide (command.word1 = 0#64)
  | 0x30 => decide (command.word0 = 0x30#64) && decide (command.word1 = 0#64)
  -- TLBI_NH_ASID
  | 0x11 =>
    decide (command.word0 &&& ~~~(opMask ||| asidMask) = 0#64) &&
      decide (command.word0 &&& vmidMask = 0#64) && decide (command.word1 = 0#64)
  -- TLBI_NH_VA, TLBI_NH_VAA
  | 0x12 | 0x13 =>
    let word1Allowed : BitVec 64 :=
      (1#64 <<< 0) ||| (0x3#64 <<< 8) ||| (0x3#64 <<< 10) ||| 0xfffffffffffff000#64
    decide (command.word0 &&& ~~~(opMask ||| numMask ||| scaleMask ||| asidMask) = 0#64) &&
      decide (command.word0 &&& vmidMask = 0#64) &&
      decide (command.word1 &&& ~~~word1Allowed = 0#64) &&
      decide ((command.word0 &&& scaleMask) >>> 20 ≤ 3#64)
  -- SYNC
  | 0x46 =>
    let csMask : BitVec 64 := 0x3#64 <<< 12
    decide (command.word0 &&& ~~~(opMask ||| csMask ||| (0x3#64 <<< 22) ||| (0xf#64 <<< 24)) = 0#64) &&
      decide (command.word0 &&& csMask ≠ 1#64 <<< 12) && decide (command.word1 = 0#64)
  | _ => false

structure Snapshot where
  generation : Nat
  gpa : BitVec 64
  cons : BitVec 32
  deriving DecidableEq

namespace Vsmmu

variable (cfg : VsmmuConfig) (v : Vsmmu)

/-- The consumer index, as the ring of the current size reads it. -/
def consPointer : BitVec 32 := v.cmdqCons &&& ringMask v.cmdqLog2

def prodPointer : BitVec 32 := v.cmdqProd &&& ringMask v.cmdqLog2

/-- Where entry `cons` of the queue lies. -/
def entryGpa (cons : BitVec 32) : BitVec 64 :=
  (v.cmdqBase &&& qBaseAddrMask) +
    (cons &&& ((1#32 <<< v.cmdqLog2) - 1#32)).setWidth 64 * cmdqEntrySize

def snapshotCommand : Option Snapshot :=
  if v.cr0 &&& cr0Cmdqen ≠ 0#32 ∧ v.activeErrors = 0#32 ∧ v.cmdqValid cfg = true ∧
      v.consPointer ≠ v.prodPointer then
    some { generation := v.generation, gpa := v.entryGpa v.consPointer, cons := v.consPointer }
  else none

/-- `vsmmu_commit_command`: the new state and whether the command was committed. -/
def commitCommand (snapshot : Snapshot) (fetched : Option Command) : Vsmmu × Bool :=
  if v.generation = snapshot.generation ∧ v.consPointer = snapshot.cons then
    match fetched with
    | none => (v.setCerror cerrorAbt, true)
    | some command =>
      if command.supported = false then (v.setCerror cerrorIll, true)
      else
        let cons := (v.consPointer + 1#32) &&& ringMask v.cmdqLog2
        ({ v with cmdqCons := cons, workerPending := decide (cons ≠ v.prodPointer) }, true)
  else (v, false)

end Vsmmu

/-! ### The worker beside the guest -/

/-- Where the worker is in `vsmmu_process_batch`. -/
inductive WorkerPc where
  | idle
  /-- at the head of the loop -/
  | loop (count : Nat)
  | fetch (count : Nat) (snapshot : Snapshot)
  /-- with what `copy_from_gpa` has delivered; `none` is an error -/
  | commit (count : Nat) (snapshot : Snapshot) (fetched : Option Command)
  deriving DecidableEq

structure VsmmuState where
  dev : Vsmmu
  worker : WorkerPc

def VsmmuState.boot : VsmmuState := { dev := Vsmmu.init, worker := .idle }

inductive VsmmuAction where
  | guest (access : Access)
  /-- the locked section of `vsmmu_refresh_irq` -/
  | refreshIrq
  /-- one step of the worker; a fetch finds these commands in guest memory -/
  | worker (memory : BitVec 64 → Option Command)

/-- One step of the worker; an idle one is started by its softirq. -/
def VsmmuState.workerStep (cfg : VsmmuConfig) (s : VsmmuState)
    (memory : BitVec 64 → Option Command) : VsmmuState :=
  match s.worker with
  | .idle => { s with worker := .loop 0 }
  | .loop count =>
    if count < cmdBudget then
      match s.dev.snapshotCommand cfg with
      | none => { s with worker := .idle }
      | some snapshot => { s with worker := .fetch count snapshot }
    else { s with worker := .idle }
  | .fetch count snapshot => { s with worker := .commit count snapshot (memory snapshot.gpa) }
  | .commit count snapshot fetched =>
    let out := s.dev.commitCommand snapshot fetched
    { dev := out.1
      -- a committed fetch error ends the batch
      worker := if out.2 = true ∧ fetched = none then .idle else .loop (count + 1) }

def VsmmuState.step (cfg : VsmmuConfig) (s : VsmmuState) : VsmmuAction → VsmmuState
  | .guest access => { s with dev := (s.dev.mmioHandler cfg access).1 }
  | .refreshIrq => { s with dev := s.dev.refreshIrq }
  | .worker memory => s.workerStep cfg memory

end BeauOs.Guest

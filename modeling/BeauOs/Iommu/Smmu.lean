/-
The physical SMMUv3 driver (`arch/arm64/iommu/smmu.c`): stream records, the stream table in memory,
the command and event queues, containment, and power management.

What the hardware answers is not modelled: a `Hardware` says for the state of the driver, which
counts its register reads, what a read of a register finds.  Every outcome of a command, a poll or a
handshake is some answer, so a theorem over all hardware covers any subset of them failing.  What
the driver writes to the registers is kept (`regs`), for hardware that answers accordingly.

All functions run under `arm_smmu_lock`; `arm_smmu_pm_suspend` releases it around its call of
`arm_smmu_cmdq_sync` and is taken as one step nevertheless.  Left out are counters and the records
made for diagnostics, the base registers of the tables, which are written back as they were read,
and the cache maintenance.
-/
import BeauOs.Pm.Transaction
import Mathlib.Logic.Function.Basic

namespace BeauOs.Iommu

open BeauOs.Pm (ePerm eIo eNoMem eBusy eNoDev eInval eTimedOut)

def maxVmNum : Nat := 16

def maxSwStreams : Nat := 64

def queueEntries : Nat := 64

def pollRetries : Nat := 1000

def streamIdInvalid : BitVec 32 := 0xffffffff#32

def qPtrMask : BitVec 32 := 127#32
def qErrMask : BitVec 32 := 0x7f#32 <<< 24

def cr0Smmuen : BitVec 32 := 1#32 <<< 0
def cr0Priqen : BitVec 32 := 1#32 <<< 1
def cr0Evtqen : BitVec 32 := 1#32 <<< 2
def cr0Cmdqen : BitVec 32 := 1#32 <<< 3
def cr0Atschk : BitVec 32 := 1#32 <<< 4
def cr0AckMask : BitVec 32 := cr0Atschk ||| cr0Cmdqen ||| cr0Evtqen ||| cr0Priqen ||| cr0Smmuen
def cr0EnableMask : BitVec 32 := cr0Cmdqen ||| cr0Evtqen ||| cr0Smmuen
def cr2Recinvsid : BitVec 32 := 1#32 <<< 1
def gbpaUpdate : BitVec 32 := 1#32 <<< 31
def gbpaAbort : BitVec 32 := 1#32 <<< 20

/-! ### Configurations and stream-table entries -/

structure S2Config where
  rootTableHpa : BitVec 64
  ipaWidth : Nat
  ownerVmid : Nat
  hwVmid : BitVec 16
  deriving DecidableEq

/-- A configuration cleared by `memset`. -/
def S2Config.zero : S2Config := ⟨0#64, 0, 0, 0#16⟩

/-- Words 0 to 3 of a stream-table entry; the others are always zero. -/
structure Ste where
  word0 : BitVec 64
  word1 : BitVec 64
  word2 : BitVec 64
  word3 : BitVec 64
  deriving DecidableEq

def steValid : BitVec 64 := 1#64 <<< 0
def steCfgAbort : BitVec 64 := 0#64
def steCfgS2Trans : BitVec 64 := 6#64
def steShcfgIncoming : BitVec 64 := 1#64 <<< 44
def ste2S2Aa64 : BitVec 64 := 1#64 <<< 51
def ste2S2Ptw : BitVec 64 := 1#64 <<< 54
def ste2S2R : BitVec 64 := 1#64 <<< 58
def ste3S2ttbMask : BitVec 64 := 0x000ffffffffffff0#64

def Ste.zero : Ste := ⟨0#64, 0#64, 0#64, 0#64⟩

/-- What `arm_smmu_write_abort_ste_locked` writes. -/
def Ste.abort : Ste := ⟨steValid ||| (steCfgAbort <<< 1), steShcfgIncoming, 0#64, 0#64⟩

def Ste.cfg (ste : Ste) : BitVec 64 := (ste.word0 >>> 1) &&& 0x7#64

/-- A valid entry with stage-2 translation. -/
def Ste.Translates (ste : Ste) : Prop := ste.word0 &&& steValid ≠ 0#64 ∧ ste.cfg = steCfgS2Trans

/-- An invalid entry, or a valid one that aborts. -/
def Ste.Aborts (ste : Ste) : Prop := ste.word0 &&& steValid = 0#64 ∨ ste.cfg = steCfgAbort

instance (ste : Ste) : Decidable ste.Translates :=
  inferInstanceAs (Decidable (ste.word0 &&& steValid ≠ 0#64 ∧ ste.cfg = steCfgS2Trans))

instance (ste : Ste) : Decidable ste.Aborts :=
  inferInstanceAs (Decidable (ste.word0 &&& steValid = 0#64 ∨ ste.cfg = steCfgAbort))

def Ste.s2vmid (ste : Ste) : BitVec 16 := ste.word2.setWidth 16

def Ste.s2ttb (ste : Ste) : BitVec 64 := ste.word3 &&& ste3S2ttbMask

/-! ### The driver's state -/

structure StreamState where
  streamId : BitVec 32
  config : S2Config
  faultCount : BitVec 32
  lastFaultCode : BitVec 32
  lastFaultIova : BitVec 64
  used : Bool
  assigned : Bool
  quarantined : Bool
  deriving DecidableEq

def StreamState.free : StreamState := ⟨0#32, S2Config.zero, 0#32, 0#32, 0#64, false, false, false⟩

def StreamState.clearFault (stream : StreamState) : StreamState :=
  { stream with
    faultCount := 0#32
    lastFaultCode := 0#32
    lastFaultIova := 0#64
    quarantined := false }

/-- What `arm_smmu_hw_detach_stream` leaves of a record. -/
def StreamState.released (stream : StreamState) : StreamState :=
  { stream.clearFault with config := S2Config.zero, assigned := false, used := false }

def StreamState.carries (stream : StreamState) (config : S2Config) : Bool :=
  stream.used && stream.assigned && decide (stream.config = config)

inductive SmmuStatus where
  | undiscovered
  | abort
  | ready
  | degraded
  | failed
  deriving DecidableEq

inductive Command where
  | cfgiSte (streamId : BitVec 32)
  | tlbiS12Vmall (hwVmid : BitVec 16)
  | sync
  deriving DecidableEq

inductive Reg where
  | cr0 | cr0Ack | cr1 | cr2 | gbpa | irqCtrl | irqCtrlAck
  | cmdqProd | cmdqCons | evtqProd | evtqCons
  deriving DecidableEq

structure PmState where
  suspendEpoch : Nat
  cr0 : BitVec 32
  cr1 : BitVec 32
  cr2 : BitVec 32
  gbpa : BitVec 32
  irqCtrl : BitVec 32
  /-- whether `evtq_base` was saved -/
  evtqSaved : Bool
  hardwareActive : Bool
  valid : Bool
  deriving DecidableEq

def PmState.zero : PmState := ⟨0, 0#32, 0#32, 0#32, 0#32, 0#32, false, false, false⟩

/-- What the probe of one instance found out. -/
structure Probe where
  discovered : Bool
  ats : Bool
  effectiveOasBits : Nat
  strtabLog2Entries : Nat
  /-- the effective size is capped by `ARM_SMMU_CPU_STAGE2_OAS_BITS` -/
  oas_le : effectiveOasBits ≤ 48
  /-- the table is capped by `ARM_SMMU_MAX_SW_STREAMS` -/
  log2_le : strtabLog2Entries ≤ 6

structure Smmu where
  streams : Fin maxSwStreams → StreamState
  strtab : BitVec 32 → Ste
  ready : Bool
  hwReady : Bool
  assignmentHwReady : Bool
  cmdqEnabled : Bool
  evtqEnabled : Bool
  capsValid : Bool
  status : SmmuStatus
  cr1 : BitVec 32
  cr2 : BitVec 32
  cmdqProd : BitVec 32
  cmdq : BitVec 32 → Option Command
  pm : PmState
  regs : Reg → BitVec 32
  /-- the register reads made so far -/
  clock : Nat

/-- What a read of a register finds. -/
abbrev Hardware := Smmu → Reg → BitVec 32

namespace Smmu

variable (pr : Probe) (hw : Hardware)

/-- `mmio_read32`: the value is `hw s reg`, and the clock goes on. -/
def tick (s : Smmu) : Smmu := { s with clock := s.clock + 1 }

/-- `mmio_write32` -/
def write (reg : Reg) (value : BitVec 32) (s : Smmu) : Smmu :=
  { s with regs := Function.update s.regs reg value }

def setStream (s : Smmu) (i : Fin maxSwStreams) (stream : StreamState) : Smmu :=
  { s with streams := Function.update s.streams i stream }

def setSte (s : Smmu) (streamId : BitVec 32) (ste : Ste) : Smmu :=
  { s with strtab := Function.update s.strtab streamId ste }

/-! ### Containment -/

/-- `arm_smmu_wait_reg32` with the retries left. -/
def waitReg32 (reg : Reg) (mask expected : BitVec 32) : Nat → Smmu → Int × Smmu
  | 0, s => (-eTimedOut, s)
  | n + 1, s =>
    if hw s reg &&& mask = expected then (0, s.tick) else waitReg32 reg mask expected n s.tick

def updateGbpa (set clear : BitVec 32) (s : Smmu) : Int × Smmu :=
  let first := waitReg32 hw .gbpa gbpaUpdate 0#32 pollRetries s
  if first.1 ≠ 0 then first
  else
    let reg := (hw first.2 .gbpa &&& ~~~clear) ||| set
    let second := waitReg32 hw .gbpa gbpaUpdate 0#32 pollRetries
      (first.2.tick.write .gbpa (reg ||| gbpaUpdate))
    if second.1 ≠ 0 then second
    else
      let reg := hw second.2 .gbpa
      (if reg &&& set ≠ set ∨ reg &&& clear ≠ 0#32 then -eIo else 0, second.2.tick)

def cr0DisabledValue : BitVec 32 := if pr.ats then cr0Atschk else 0#32

def writeCr0 (enables : BitVec 32) (s : Smmu) : Int × Smmu :=
  let value := (enables &&& cr0EnableMask) ||| cr0DisabledValue pr
  let out := waitReg32 hw .cr0Ack cr0AckMask value pollRetries (s.write .cr0 value)
  let readback := hw out.2 .cr0
  (if out.1 = 0 ∧ readback &&& cr0AckMask ≠ value then -eIo else out.1, out.2.tick)

def forceContainment (stickyFailure : Bool) (s : Smmu) : Int × Smmu :=
  let s :=
    { s with
      assignmentHwReady := false
      hwReady := false
      ready := false
      cmdqEnabled := false
      evtqEnabled := false }
  let gbpaOut := updateGbpa hw gbpaAbort 0#32 s
  let cr0Out := writeCr0 pr hw 0#32 gbpaOut.2
  let gbpa := hw cr0Out.2 .gbpa
  let aborted := decide (gbpaOut.1 = 0 ∧ cr0Out.1 = 0 ∧ gbpa &&& gbpaAbort ≠ 0#32)
  (if gbpaOut.1 ≠ 0 then gbpaOut.1 else cr0Out.1,
    { cr0Out.2.tick with
      status := if stickyFailure then .failed else if aborted then .abort else .failed })

/-- `arm_smmu_degrade_locked`, which returns the status of the command that failed. -/
def degrade (status : Int) (s : Smmu) : Int × Smmu :=
  let out := forceContainment pr hw false s
  (status, { out.2 with status := if out.1 = 0 then .degraded else .failed })

/-! ### The command queue -/

def queueNext (ptr : BitVec 32) : BitVec 32 := (ptr + 1#32) &&& qPtrMask

def cmdqIssue (command : Command) (s : Smmu) : Int × Smmu :=
  let prod := s.cmdqProd
  let next := queueNext prod
  let cons := hw s .cmdqCons
  let s := s.tick
  if cons &&& qErrMask ≠ 0#32 then degrade pr hw (-eIo) s
  else if next = cons &&& qPtrMask then (-eBusy, s)
  else
    (0, write .cmdqProd next
      { s with cmdq := Function.update s.cmdq (prod &&& 63#32) (some command), cmdqProd := next })

/-- `arm_smmu_cmdq_wait_locked` with the retries left. -/
def cmdqWait (target : BitVec 32) : Nat → Smmu → Int × Smmu
  | 0, s => degrade pr hw (-eTimedOut) s
  | n + 1, s =>
    let cons := hw s .cmdqCons
    if cons &&& qErrMask ≠ 0#32 then degrade pr hw (-eIo) s.tick
    else if cons &&& qPtrMask = target then (0, s.tick)
    else cmdqWait target n s.tick

def cmdqSyncLocked (s : Smmu) : Int × Smmu :=
  let out := cmdqIssue pr hw .sync s
  if out.1 = 0 then cmdqWait pr hw out.2.cmdqProd pollRetries out.2 else out

def cmdqSync (s : Smmu) : Int × Smmu :=
  if s.ready = false ∨ s.cmdqEnabled = false then (-eNoDev, s) else cmdqSyncLocked pr hw s

def commandAndSync (command : Command) (s : Smmu) : Int × Smmu :=
  let out := cmdqIssue pr hw command s
  if out.1 = 0 then cmdqSyncLocked pr hw out.2 else out

def syncSte (streamId : BitVec 32) : Smmu → Int × Smmu :=
  commandAndSync pr hw (.cfgiSte streamId)

def tlbiS12Vmall (hwVmid : BitVec 16) (s : Smmu) : Int × Smmu :=
  if s.assignmentHwReady = false then (-eNoDev, s)
  else commandAndSync pr hw (.tlbiS12Vmall hwVmid) s

/-! ### Stream-table entries -/

def inStrtab (s : Smmu) (streamId : BitVec 32) : Bool :=
  s.ready && decide (streamId.toNat < 2 ^ pr.strtabLog2Entries)

def steVtcr (ipaWidth : Nat) : BitVec 64 :=
  let s2ps : BitVec 64 :=
    match pr.effectiveOasBits with
    | 32 => 0#64
    | 36 => 1#64
    | 40 => 2#64
    | 42 => 3#64
    | 44 => 4#64
    | _ => 5#64
  BitVec.ofNat 64 (64 - ipaWidth) ||| (2#64 <<< 6) ||| (1#64 <<< 8) ||| (1#64 <<< 10) |||
    (3#64 <<< 12) ||| (0#64 <<< 14) ||| (s2ps <<< 16)

section

variable (config : S2Config)

/-- Words 1 to 3 of the entry that `arm_smmu_write_s2_ste_locked` publishes, over word 0. -/
def s2Body (word0 : BitVec 64) : Ste :=
  { word0 := word0
    word1 := steShcfgIncoming
    word2 := config.hwVmid.setWidth 64 ||| (steVtcr pr config.ipaWidth <<< 32) ||| ste2S2Aa64 |||
      ste2S2Ptw ||| ste2S2R
    word3 := config.rootTableHpa &&& ste3S2ttbMask }

def s2Ste : Ste := s2Body pr config (steValid ||| (steCfgS2Trans <<< 1))

def rollbackAbort (streamId : BitVec 32) (s : Smmu) : Smmu :=
  let s := s.setSte streamId Ste.abort
  if s.ready = true ∧ s.cmdqEnabled = true then
    let out := syncSte pr hw streamId s
    if out.1 ≠ 0 then (degrade pr hw out.1 out.2).2 else out.2
  else s

def writeS2Ste (streamId : BitVec 32) (s : Smmu) : Int × Smmu :=
  let s := s.setSte streamId (s2Body pr config (s.strtab streamId).word0)
  let first := syncSte pr hw streamId s
  if first.1 ≠ 0 then (first.1, rollbackAbort pr hw streamId first.2)
  else
    let second := syncSte pr hw streamId (first.2.setSte streamId (s2Ste pr config))
    if second.1 = 0 then (0, second.2)
    else (second.1, rollbackAbort pr hw streamId second.2)

/-! ### Stream records -/

def findStream (s : Smmu) (streamId : BitVec 32) : Option (Fin maxSwStreams) :=
  (List.finRange maxSwStreams).find? fun i =>
    (s.streams i).used && decide ((s.streams i).streamId = streamId)

def allocStream (s : Smmu) (streamId : BitVec 32) : Option (Fin maxSwStreams × Smmu) :=
  ((List.finRange maxSwStreams).find? fun i => !(s.streams i).used).map fun i =>
    (i, s.setStream i
      { (s.streams i).clearFault with
        used := true
        streamId := streamId
        config := S2Config.zero
        assigned := false })

/-- The record of a stream, allocated if there is none. -/
def findOrAlloc (s : Smmu) (streamId : BitVec 32) : Option (Fin maxSwStreams × Smmu) :=
  match s.findStream streamId with
  | some i => some (i, s)
  | none => s.allocStream streamId

/-- `arm_smmu_address_bits` with the bits left. -/
def addressBits : Nat → BitVec 64 → Nat
  | 0, _ => 0
  | n + 1, address => if address >>> 1 = 0#64 then 1 else addressBits n (address >>> 1) + 1

def validateS2Config (s : Smmu) : Int :=
  if config.ownerVmid ≥ maxVmNum ∨ config.hwVmid ≠ BitVec.ofNat 16 (config.ownerVmid + 1) ∨
      config.ipaWidth = 0 ∨ config.ipaWidth > 48 ∨ config.rootTableHpa = 0#64 ∨
      config.rootTableHpa &&& 0xfff#64 ≠ 0#64 then -eInval
  else if s.capsValid = true ∧
      (config.ipaWidth > pr.effectiveOasBits ∨
        config.rootTableHpa > -1#64 - 0xfff#64 ∨
        addressBits 64 (config.rootTableHpa + 0x1000#64 - 1#64) > pr.effectiveOasBits) then -eInval
  else 0

/-- `arm_smmu_hw_prepare_s2`: the status and the normalized configuration. -/
def hwPrepareS2 (s : Smmu) : Int × S2Config :=
  let config :=
    if s.capsValid = true ∧ config.ipaWidth > pr.effectiveOasBits then
      { config with ipaWidth := pr.effectiveOasBits }
    else config
  (validateS2Config pr config s, config)

def hwSyncS2 (s : Smmu) : Int × Smmu :=
  let ret := validateS2Config pr config s
  if ret = 0 then tlbiS12Vmall pr hw config.hwVmid s else (ret, s)

def hwAttachStream (streamId : BitVec 32) (s : Smmu) : Int × Smmu :=
  let ret := validateS2Config pr config s
  if ret ≠ 0 then (ret, s)
  else if streamId = streamIdInvalid then (-eInval, s)
  else
    match s.findOrAlloc streamId with
    | none => (-eNoMem, s)
    | some (i, s) =>
      let stream := s.streams i
      if stream.assigned = true ∧ stream.config ≠ config then (-eBusy, s)
      else if stream.quarantined = true then (-eIo, s)
      else if s.assignmentHwReady = false ∨ s.inStrtab pr streamId = false then
        (-eNoDev, s.setStream i { stream with used := false })
      else if stream.assigned = true then (0, s)
      else
        let out := writeS2Ste pr hw config streamId s
        if out.1 = 0 then
          (0, out.2.setStream i { out.2.streams i with config := config, assigned := true })
        else (out.1, out.2.setStream i { out.2.streams i with used := false })

def hwDetachStream (streamId : BitVec 32) (s : Smmu) : Int × Smmu :=
  if streamId = streamIdInvalid then (-eInval, s)
  else
    match s.findStream streamId with
    | none => (-eNoDev, s)
    | some i =>
      let stream := s.streams i
      if stream.assigned = false ∨ stream.config ≠ config then (-ePerm, s)
      else if s.assignmentHwReady = false ∨ s.inStrtab pr streamId = false then (-eNoDev, s)
      else
        let out := syncSte pr hw streamId (s.setSte streamId Ste.abort)
        if out.1 = 0 then (0, out.2.setStream i (out.2.streams i).released) else out

end

/-- The first loop of `arm_smmu_hw_detach_domain`: abort every entry of the domain. -/
def abortDomain (config : S2Config) : List (Fin maxSwStreams) → Smmu → Int × Smmu
  | [], s => (0, s)
  | i :: rest, s =>
    let stream := s.streams i
    if stream.carries config = false then abortDomain config rest s
    else if s.assignmentHwReady = false ∨ s.inStrtab pr stream.streamId = false then (-eNoDev, s)
    else
      let out := syncSte pr hw stream.streamId (s.setSte stream.streamId Ste.abort)
      if out.1 ≠ 0 then out else abortDomain config rest out.2

def hwDetachDomain (config : S2Config) (s : Smmu) : Int × Smmu :=
  let out := abortDomain pr hw config (List.finRange maxSwStreams) s
  if out.1 = 0 then
    (0, { out.2 with
      streams := fun i =>
        if (out.2.streams i).carries config then (out.2.streams i).released else out.2.streams i })
  else out

def hwDomainBound (config : S2Config) (s : Smmu) : Bool :=
  (List.finRange maxSwStreams).any fun i => (s.streams i).carries config

/-! ### Faults -/

structure EventRecord where
  word0 : BitVec 64
  word2 : BitVec 64
  deriving DecidableEq

def quarantineStream (streamId code : BitVec 32) (iova : BitVec 64) (s : Smmu) : Smmu :=
  match s.findOrAlloc streamId with
  | none => s
  | some (i, s) =>
    let stream := s.streams i
    let s := s.setStream i
      { stream with
        faultCount :=
          if stream.faultCount ≠ 0xffffffff#32 then stream.faultCount + 1#32
          else stream.faultCount
        lastFaultCode := code
        lastFaultIova := iova
        quarantined := true }
    if s.inStrtab pr streamId then (syncSte pr hw streamId (s.setSte streamId Ste.abort)).2 else s

/-- The loop of `arm_smmu_poll_events_locked`, with the budget left. -/
def pollLoop (evtq : BitVec 32 → EventRecord) (prod : BitVec 32) :
    Nat → BitVec 32 → Smmu → Smmu
  | 0, cons, s => if cons ≠ prod then s.write .evtqCons cons else s
  | n + 1, cons, s =>
    if cons ≠ prod then
      let evt := evtq (cons &&& 63#32)
      let s := quarantineStream pr hw ((evt.word0 >>> 32).setWidth 32)
        ((evt.word0 &&& 0xff#64).setWidth 32) evt.word2 s
      pollLoop evtq prod n (queueNext cons) (s.write .evtqCons (queueNext cons))
    else s

def pollEvents (evtq : BitVec 32 → EventRecord) (s : Smmu) : Smmu :=
  if s.ready = false ∨ s.evtqEnabled = false then s
  else
    let prod := hw s .evtqProd &&& qPtrMask
    let cons := hw s.tick .evtqCons &&& qPtrMask
    pollLoop pr hw evtq prod queueEntries cons s.tick.tick

/-! ### Power management -/

def pmSnapshotValid (s : Smmu) : Bool × Smmu :=
  let expected := cr0Smmuen ||| cr0Cmdqen ||| cr0DisabledValue pr |||
    (if s.evtqEnabled then cr0Evtqen else 0#32)
  let cr0ack := hw s .cr0Ack
  let s := s.tick
  let irqCtrlack := hw s .irqCtrlAck
  let s := s.tick
  (decide (s.pm.cr0 &&& cr0AckMask = expected) && decide (cr0ack &&& cr0AckMask = expected) &&
    decide (s.pm.cr1 = s.cr1) &&
    decide (s.pm.cr2 &&& cr2Recinvsid = s.cr2 &&& cr2Recinvsid) &&
    decide (s.pm.gbpa &&& gbpaAbort ≠ 0#32) && decide (irqCtrlack = s.pm.irqCtrl), s)

def failPm (s : Smmu) : Smmu :=
  { (forceContainment pr hw true s).2 with pm := PmState.zero }

variable (epoch : Nat)

/-- The registers that a suspend saves. -/
def saveRegs (s : Smmu) : Smmu :=
  let cr0 := hw s .cr0
  let s := s.tick
  let cr1 := hw s .cr1
  let s := s.tick
  let cr2 := hw s .cr2
  let s := s.tick
  let gbpa := hw s .gbpa
  let s := s.tick
  let irqCtrl := hw s .irqCtrl
  { s.tick with
    pm :=
      { s.pm with
        suspendEpoch := epoch, cr0 := cr0, cr1 := cr1, cr2 := cr2, gbpa := gbpa,
        irqCtrl := irqCtrl, evtqSaved := s.evtqEnabled } }

/-- The rest of `arm_smmu_pm_suspend`, after the command queue has drained. -/
def suspendActive (s : Smmu) : Int × Smmu :=
  let check := pmSnapshotValid pr hw (saveRegs hw epoch s)
  if check.1 = false then (-eIo, failPm pr hw check.2)
  else
    let s := { check.2 with pm := { check.2.pm with hardwareActive := true, valid := true } }
    let out := forceContainment pr hw false s
    if out.1 ≠ 0 then (out.1, failPm pr hw out.2) else out

/-- `arm_smmu_pm_suspend`, its sections under the lock taken together. -/
def pmSuspend (s : Smmu) : Int × Smmu :=
  if epoch = 0 then (-eInval, s)
  else if s.pm.valid = true then (if s.pm.suspendEpoch = epoch then 0 else -eBusy, s)
  else if pr.discovered = false ∨ s.ready = false then
    (0, { s with pm := { s.pm with suspendEpoch := epoch, hardwareActive := false, valid := true } })
  else
    let out := cmdqSync pr hw s
    if out.1 ≠ 0 then (out.1, failPm pr hw out.2) else suspendActive pr hw epoch out.2

def programMemoryAttrs (cr1 cr2 : BitVec 32) (s : Smmu) : Int × Smmu :=
  let s := (s.write .cr1 cr1).write .cr2 cr2
  let cr1Read := hw s .cr1
  let s := s.tick
  let cr2Read := hw s .cr2
  let s := { s.tick with cr1 := cr1Read, cr2 := cr2Read }
  if cr1Read ≠ cr1 ∨ cr2Read &&& cr2Recinvsid ≠ cr2 &&& cr2Recinvsid then
    (-eIo, { s with capsValid := false })
  else (0, s)

/-- `arm_smmu_zero_abort_tables`: the entries in use are cleared. -/
def zeroAbortTables (s : Smmu) : Smmu :=
  { s with
    strtab := fun streamId =>
      if streamId.toNat < 2 ^ pr.strtabLog2Entries then Ste.zero else s.strtab streamId
    cmdq := fun _ => none }

/-- The loop of `arm_smmu_pm_resume` over the records. -/
def rebuild : List (Fin maxSwStreams) → Smmu → Int × Smmu
  | [], s => (0, s)
  | i :: rest, s =>
    let stream := s.streams i
    if stream.used = true ∧ stream.assigned = true ∧
        stream.streamId.toNat < 2 ^ pr.strtabLog2Entries then
      let out := writeS2Ste pr hw stream.config stream.streamId s
      if out.1 ≠ 0 then out else rebuild rest out.2
    else rebuild rest s

/-- Clearing the tables and pointing the hardware at them again. -/
def resetTables (s : Smmu) : Int × Smmu :=
  let s := { zeroAbortTables pr s with cmdqProd := 0#32 }
  let s := (s.write .cmdqProd 0#32).write .cmdqCons 0#32
  updateGbpa hw gbpaAbort 0#32
    (if s.pm.evtqSaved then (s.write .evtqProd 0#32).write .evtqCons 0#32 else s)

/-- The steps of `arm_smmu_pm_resume` up to the rebuilt table; the first that fails ends it. -/
def resumeHardware (s : Smmu) : Int × Smmu :=
  let out := updateGbpa hw gbpaAbort 0#32 s
  if out.1 ≠ 0 then out
  else
    let out := writeCr0 pr hw 0#32 out.2
    if out.1 ≠ 0 then out
    else
      let out := programMemoryAttrs hw s.pm.cr1 s.pm.cr2 out.2
      if out.1 ≠ 0 then out
      else
        let out := resetTables pr hw out.2
        if out.1 ≠ 0 then out
        else
          let out := waitReg32 hw .irqCtrlAck (-1#32) s.pm.irqCtrl pollRetries
            (out.2.write .irqCtrl s.pm.irqCtrl)
          if out.1 ≠ 0 then out
          else
            let cr0 := s.pm.cr0 &&& cr0EnableMask
            let out := writeCr0 pr hw cr0 out.2
            if out.1 ≠ 0 then out
            else
              rebuild pr hw (List.finRange maxSwStreams)
                { out.2 with
                  cmdqEnabled := decide (cr0 &&& cr0Cmdqen ≠ 0#32)
                  evtqEnabled := decide (cr0 &&& cr0Evtqen ≠ 0#32) }

def pmResume (s : Smmu) : Int × Smmu :=
  if epoch = 0 then (-eInval, s)
  else if s.pm.valid = false then (0, s)
  else if s.pm.suspendEpoch ≠ epoch then (-eInval, s)
  else if s.status = .failed ∨ s.capsValid = false then (-eIo, s)
  else if s.pm.hardwareActive = false then
    (0, { s with pm := { s.pm with suspendEpoch := 0, valid := false } })
  else
    let out := resumeHardware pr hw s
    if out.1 = 0 then
      let cr0 := s.pm.cr0 &&& cr0EnableMask
      (0, { out.2.tick with
        ready := out.2.capsValid
        hwReady := out.2.capsValid
        assignmentHwReady := out.2.capsValid &&
          decide (cr0 &&& (cr0Smmuen ||| cr0Cmdqen) = cr0Smmuen ||| cr0Cmdqen)
        status := .ready
        pm := { out.2.pm with suspendEpoch := 0, hardwareActive := false, valid := false } })
    else (out.1, failPm pr hw out.2)

end Smmu

/-! ### Sequences of operations -/

inductive SmmuOp where
  | attach (config : S2Config) (streamId : BitVec 32)
  | detach (config : S2Config) (streamId : BitVec 32)
  | detachDomain (config : S2Config)
  | poll (evtq : BitVec 32 → Smmu.EventRecord)
  | suspend (epoch : Nat)
  | resume (epoch : Nat)

/-- An operation with what the hardware answers during it. -/
structure SmmuAction where
  op : SmmuOp
  hw : Hardware

def Smmu.step (pr : Probe) (s : Smmu) (a : SmmuAction) : Smmu :=
  match a.op with
  | .attach config streamId => (hwAttachStream pr a.hw config streamId s).2
  | .detach config streamId => (hwDetachStream pr a.hw config streamId s).2
  | .detachDomain config => (hwDetachDomain pr a.hw config s).2
  | .poll evtq => pollEvents pr a.hw evtq s
  | .suspend epoch => (pmSuspend pr a.hw epoch s).2
  | .resume epoch => (pmResume pr a.hw epoch s).2

/-- After the driver came up: no records, a cleared table, nothing saved. -/
structure Smmu.Booted (pr : Probe) (s : Smmu) : Prop where
  unused : ∀ i, (s.streams i).used = false
  cleared : ∀ streamId : BitVec 32, streamId.toNat < 2 ^ pr.strtabLog2Entries →
    s.strtab streamId = Ste.zero
  gate : s.assignmentHwReady = s.ready
  caps : s.ready = true → s.capsValid = true
  pm : s.pm = PmState.zero

end BeauOs.Iommu

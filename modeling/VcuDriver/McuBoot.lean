import VcuDriver.AddressTranslation
import VcuDriver.MailboxContents
import VcuDriver.Conc.Ensures
import VcuDriver.Conc.Steps

/-!
# Booting the MCU

`setup_and_start_mcu` stops and resets the MCU, copies the two images, sets the offsets
and starts it.  The image of the boot loader goes to the static memory of the MCU, which
also holds the two mailboxes; the other image goes to the buffer of the instruction cache.

A running MCU writes its static memory between any two accesses of the driver, and what a
register reads is left open.  The driver must not copy into the memory of a running MCU,
and must start it only when both images are in place.
-/

namespace VcuDriver.Boot

open Conc

/-! ## Registers -/

def mailboxCmd : ℕ := 0x7000

def mailboxStatus : ℕ := 0x7800

def mailboxSize : ℕ := 0x800 - 0x8

def al5McuInterruptHandler : ℕ := 0x0010

def mcuSleepInstruction : Word := 0xba020004

def al5McuReset : ℕ := 0x9000

def al5McuResetMode : ℕ := 0x9004

def al5McuSta : ℕ := 0x9008

def al5McuWakeup : ℕ := 0x900c

def al5IcacheAddrOffsetMsb : ℕ := 0x9010

def al5IcacheAddrOffsetLsb : ℕ := 0x9014

def al5DcacheAddrOffsetMsb : ℕ := 0x9018

def al5DcacheAddrOffsetLsb : ℕ := 0x901c

def al5McuInterrupt : ℕ := 0x9100

def al5McuInterruptMask : ℕ := 0x9104

def al5IcacheSize : ℕ := 1024 * 600

def mcuSramSize : ℕ := 0x8000

/-! ## The functions -/

/-- An access of the driver: to a register or a word of the static memory, by byte
offset; a sleep; and the copy to the buffer of the instruction cache. -/
inductive BootAct where
  | readl (reg : ℕ)
  | writel (reg : ℕ) (value : Word)
  | msleep (milliseconds : ℕ)
  | memcpyIcache (data : List Byte)

abbrev BootAct.Res : BootAct → Type
  | .readl _ => Word
  | _ => Unit

abbrev BootProg (α : Type) : Type :=
  Prog BootAct BootAct.Res α

def writel (reg : ℕ) (value : Word) : BootProg Unit :=
  Prog.perform (BootAct.writel reg value)

/-- `al5_mailbox_init`, for a mailbox at this offset. -/
def al5MailboxInit (base : ℕ) : BootProg Unit := do
  writel base 0
  writel (base + 4) 0

def al5McuInterfaceCreate : BootProg Unit := do
  al5MailboxInit mailboxCmd
  al5MailboxInit mailboxStatus

def waitAsleep : ℕ → BootProg Unit
  | 0 => do
      let _ ← Prog.perform (BootAct.readl al5McuSta)
      pure ()
  | rounds + 1 => do
      let sta ← Prog.perform (BootAct.readl al5McuSta)
      if sta &&& 1 = 1 then
        pure ()
      else do
        Prog.perform (BootAct.msleep 20)
        waitAsleep rounds

/-- `stop_mcu`; it sleeps for less than 100 milliseconds before each test, so at most
five times. -/
def stopMcu : BootProg Unit := do
  writel al5McuWakeup 0
  writel al5McuInterruptHandler mcuSleepInstruction
  -- `al5_signal_mcu`
  writel al5McuInterrupt 1
  waitAsleep 5

def resetMcu : BootProg Unit := do
  writel al5McuResetMode 1
  writel al5McuWakeup 0
  writel al5McuReset 1

def memcpyToio32Loop (src : List Byte) : ℕ → ℕ → BootProg Unit
  | _, 0 => pure ()
  | i, count + 1 => do
      writel (4 * i) (wordAt src (4 * i))
      memcpyToio32Loop src (i + 1) count

def memcpyToio32 (src : List Byte) : BootProg Unit :=
  memcpyToio32Loop src 0 (src.length / 4)

def copyFirmware (fw blFw : List Byte) : BootProg ℤ :=
  if fw.length > al5IcacheSize then
    pure (-EINVAL)
  else if blFw.length > mcuSramSize then
    pure (-EINVAL)
  else do
    Prog.perform (BootAct.memcpyIcache fw)
    memcpyToio32 blFw
    pure 0

def writeIcacheOffset (icache : BitVec 64) : BootProg Unit := do
  writel al5IcacheAddrOffsetLsb (setIcacheOffset icache).lsb
  writel al5IcacheAddrOffsetMsb (setIcacheOffset icache).msb

def writeDcacheOffset (icache : BitVec 64) : BootProg Unit := do
  writel al5DcacheAddrOffsetMsb (setDcacheOffset icache).msb
  writel al5DcacheAddrOffsetLsb (setDcacheOffset icache).lsb

def setMcuInterruptMask : BootProg Unit :=
  writel al5McuInterruptMask 1

def startMcu : BootProg Unit :=
  writel al5McuWakeup 1

def setupAndStartMcu (icache : BitVec 64) (fw blFw : List Byte) : BootProg ℤ := do
  stopMcu
  resetMcu
  let ret ← copyFirmware fw blFw
  if ret ≠ 0 then
    pure ret
  else do
    writeIcacheOffset icache
    writeDcacheOffset icache
    setMcuInterruptMask
    startMcu
    pure 0

/-! ## The MCU -/

structure Memory where
  regs : ℕ → Word
  icache : List Byte

/-- The memory of the MCU and whether it runs.  `clobbered` says that the driver has
copied into the memory of a running MCU, and `starts` lists what the MCU found each time
it was started, the latest first. -/
structure BootState where
  memory : Memory
  running : Bool
  clobbered : Bool
  starts : List Memory

namespace BootState

variable (state : BootState)

def setReg (reg : ℕ) (value : Word) : BootState :=
  { state with
    memory := { state.memory with regs := Function.update state.memory.regs reg value } }

/-- A write.  The MCU stops with a reset while its mode is 1 and its wake-up register is
clear, and it starts with a write to that register.  The instruction of the interrupt
handler may be written while the MCU runs. -/
def write (reg : ℕ) (value : Word) : BootState :=
  let written := state.setReg reg value
  if reg = al5McuReset ∧ value = 1 ∧ state.memory.regs al5McuResetMode = 1 ∧
      state.memory.regs al5McuWakeup = 0 then
    { written with running := false }
  else if reg = al5McuWakeup ∧ value = 1 then
    { written with running := true, starts := written.memory :: state.starts }
  else if state.running ∧ reg < mcuSramSize ∧ reg ≠ al5McuInterruptHandler then
    { written with clobbered := true }
  else
    written

/-- The copy to the buffer of the instruction cache, which is larger than the image. -/
def copyIcache (data : List Byte) : BootState :=
  { state with
    memory := { state.memory with
      icache := data ++ state.memory.icache.drop data.length }
    clobbered := state.clobbered || state.running }

/-- A running MCU writes its static memory. -/
def Drifts (after : BootState) : Prop :=
  after = state ∨ state.running = true ∧ ∃ regs : ℕ → Word,
    (∀ reg, mcuSramSize ≤ reg → regs reg = state.memory.regs reg) ∧
      after = { state with memory := { state.memory with regs := regs } }

/-- An access of the driver, and what the MCU does before the next one. -/
def exec : (action : BootAct) → BootState → action.Res → BootState → Prop
  | .readl _, state, _, after => state.Drifts after
  | .writel reg value, state, _, after => (state.write reg value).Drifts after
  | .msleep _, state, _, after => state.Drifts after
  | .memcpyIcache data, state, _, after => (state.copyIcache data).Drifts after

end BootState

/-- Wherever the program returns, `post` holds. -/
abbrev Leads {α : Type} (program : BootProg α) (post : α → BootState → Prop)
    (state : BootState) : Prop :=
  program.Ensures BootState.exec (fun _ _ => True) post state

section

variable {α : Type} {state after : BootState} {post : α → BootState → Prop}

/-! ## Stopping and resetting -/

/-- What stopping the MCU leaves alone.  Only the instruction of the interrupt handler is
written while the MCU sleeps. -/
structure Kept (before after : BootState) : Prop where
  starts : after.starts = before.starts
  clobbered : after.clobbered = before.clobbered
  icache : after.memory.icache = before.memory.icache
  asleep : before.running = false → after.running = false ∧
    ∀ reg < mcuSramSize, reg ≠ al5McuInterruptHandler →
      after.memory.regs reg = before.memory.regs reg

theorem Kept.refl (state : BootState) : Kept state state :=
  ⟨rfl, rfl, rfl, fun hasleep => ⟨hasleep, fun _ _ _ => rfl⟩⟩

theorem Kept.trans {before middle after : BootState} (hfirst : Kept before middle)
    (hsecond : Kept middle after) : Kept before after where
  starts := hsecond.starts.trans hfirst.starts
  clobbered := hsecond.clobbered.trans hfirst.clobbered
  icache := hsecond.icache.trans hfirst.icache
  asleep hasleep := by
    obtain ⟨hmiddle, hregs⟩ := hfirst.asleep hasleep
    obtain ⟨hafter, hregs'⟩ := hsecond.asleep hmiddle
    exact ⟨hafter, fun reg hsram hother =>
      (hregs' reg hsram hother).trans (hregs reg hsram hother)⟩

/-- A sleeping MCU leaves its memory alone. -/
theorem eq_of_drifts (hasleep : state.running = false) (hdrifts : state.Drifts after) :
    after = state := by
  rcases hdrifts with heq | ⟨hrunning, -⟩
  · exact heq
  · rw [hasleep] at hrunning
    exact absurd hrunning Bool.false_ne_true

/-- The registers of the host are not the MCU's to write. -/
theorem reg_of_drifts (hdrifts : state.Drifts after) {reg : ℕ} (hreg : mcuSramSize ≤ reg) :
    after.memory.regs reg = state.memory.regs reg := by
  rcases hdrifts with rfl | ⟨-, regs, hregs, rfl⟩
  · rfl
  · exact hregs reg hreg

theorem kept_of_drifts (hdrifts : state.Drifts after) : Kept state after := by
  rcases hdrifts with rfl | ⟨hrunning, regs, -, rfl⟩
  · exact .refl after
  · refine ⟨rfl, rfl, rfl, fun hasleep => ?_⟩
    rw [hrunning] at hasleep
    exact absurd hasleep (show ¬ true = false from by decide)

theorem setReg_self (reg : ℕ) (value : Word) :
    (state.setReg reg value).memory.regs reg = value :=
  Function.update_self ..

theorem setReg_of_ne {reg other : ℕ} (hother : other ≠ reg) (value : Word) :
    (state.setReg reg value).memory.regs other = state.memory.regs other :=
  Function.update_of_ne hother ..

/-- A write that neither starts nor stops the MCU. -/
theorem write_eq {reg : ℕ} {value : Word} (hreset : reg ≠ al5McuReset)
    (hwakeup : ¬ (reg = al5McuWakeup ∧ value = 1))
    (hsafe : mcuSramSize ≤ reg ∨ reg = al5McuInterruptHandler) :
    state.write reg value = state.setReg reg value := by
  unfold BootState.write
  rw [if_neg fun hall => hreset hall.1, if_neg hwakeup, if_neg]
  rintro ⟨-, hsram, hhandler⟩
  exact hsafe.elim (fun hle => absurd hle (by omega)) hhandler

/-- A write to a sleeping MCU. -/
theorem write_asleep (hasleep : state.running = false) {reg : ℕ} {value : Word}
    (hwakeup : ¬ (reg = al5McuWakeup ∧ value = 1)) :
    state.write reg value = state.setReg reg value := by
  have hrunning : ¬ (state.running ∧ reg < mcuSramSize ∧ reg ≠ al5McuInterruptHandler) := by
    rw [hasleep]
    exact fun hall => Bool.false_ne_true hall.1
  unfold BootState.write
  dsimp only
  rw [if_neg hwakeup, if_neg hrunning]
  split
  · unfold BootState.setReg
    rw [hasleep]
  · rfl

theorem kept_setReg {reg : ℕ} {value : Word}
    (hsafe : mcuSramSize ≤ reg ∨ reg = al5McuInterruptHandler) :
    Kept state (state.setReg reg value) := by
  refine ⟨rfl, rfl, rfl, fun hasleep => ⟨hasleep, fun other hsram hother => ?_⟩⟩
  refine setReg_of_ne ?_ value
  rintro rfl
  exact hsafe.elim (fun hle => absurd hle (by omega)) hother

theorem leads_act {action : BootAct} {next : action.Res → BootProg α}
    (hnext : ∀ result after, BootState.exec action state result after →
      Leads (next result) post after) :
    Leads (.act action next) post state :=
  .act trivial hnext

theorem leads_waitAsleep (rounds : ℕ) :
    Leads (waitAsleep rounds) (fun _ after => Kept state after) state := by
  induction rounds generalizing state with
  | zero => exact leads_act fun _ _ hdrifts => kept_of_drifts hdrifts
  | succ rounds ih =>
      refine leads_act fun sta middle hdrifts => ?_
      have hmiddle : Kept state middle := kept_of_drifts hdrifts
      rw [Prog.ret_bind]
      split
      · exact hmiddle
      · refine leads_act fun _ later hdrifts => ?_
        have hlater : Kept state later := hmiddle.trans (kept_of_drifts hdrifts)
        exact ih.mono fun _ _ hafter => hlater.trans hafter

/-- A write of `stop_mcu`. -/
theorem leads_keptWrite {reg : ℕ} {value : Word} {next : Unit → BootProg α}
    (hreset : reg ≠ al5McuReset) (hwakeup : ¬ (reg = al5McuWakeup ∧ value = 1))
    (hsafe : mcuSramSize ≤ reg ∨ reg = al5McuInterruptHandler)
    (hnext : ∀ after, Kept state after →
      (∀ other, mcuSramSize ≤ other → after.memory.regs other =
        (state.setReg reg value).memory.regs other) → Leads (next ()) post after) :
    Leads (.act (.writel reg value) next) post state := by
  refine leads_act fun _ after hdrifts => ?_
  have hdrifts : (state.setReg reg value).Drifts after := by
    rw [← write_eq hreset hwakeup hsafe]
    exact hdrifts
  exact hnext after ((kept_setReg hsafe).trans (kept_of_drifts hdrifts))
    fun other hother => reg_of_drifts hdrifts hother

theorem leads_stopMcu : Leads stopMcu (fun _ after => Kept state after) state := by
  refine leads_keptWrite (by decide) (by decide) (.inl (by decide)) fun first hfirst _ => ?_
  refine leads_keptWrite (by decide) (by decide) (.inr rfl) fun second hsecond _ => ?_
  refine leads_keptWrite (by decide) (by decide) (.inl (by decide)) fun third hthird _ => ?_
  have hkept : Kept state third := (hfirst.trans hsecond).trans hthird
  exact (leads_waitAsleep 5).mono fun _ _ hafter => hkept.trans hafter

theorem leads_resetMcu :
    Leads resetMcu (fun _ after => Kept state after ∧ after.running = false) state := by
  refine leads_keptWrite (by decide) (by decide) (.inl (by decide)) fun first hfirst hmode => ?_
  refine leads_keptWrite (by decide) (by decide) (.inl (by decide))
    fun second hsecond hwakeup => ?_
  refine leads_act fun _ after hdrifts => ?_
  -- The mode and the wake-up register still hold what was written: they are the host's.
  have hresetMode : second.memory.regs al5McuResetMode = 1 := by
    rw [hwakeup al5McuResetMode (by decide), setReg_of_ne (by decide),
      hmode al5McuResetMode (by decide), setReg_self]
  have hasleep : second.memory.regs al5McuWakeup = 0 := by
    rw [hwakeup al5McuWakeup (by decide), setReg_self]
  have hwrite : second.write al5McuReset 1 =
      { second.setReg al5McuReset 1 with running := false } := by
    unfold BootState.write
    rw [if_pos ⟨rfl, rfl, hresetMode, hasleep⟩]
  have heq := eq_of_drifts (by rw [hwrite]) hdrifts
  subst heq
  rw [hwrite]
  refine ⟨(hfirst.trans hsecond).trans ⟨rfl, rfl, rfl, fun _ => ⟨rfl, ?_⟩⟩, rfl⟩
  exact fun other hsram _ => setReg_of_ne (by rintro rfl; exact absurd hsram (by decide)) _

/-! ## Copying the images -/

/-- The static memory once so many words of an image were copied to its start. -/
def copied (src : List Byte) (count : ℕ) (regs : ℕ → Word) : ℕ → Word := fun reg =>
  if reg % 4 = 0 ∧ reg / 4 < count then wordAt src reg else regs reg

theorem copied_succ (src : List Byte) (count : ℕ) (regs : ℕ → Word) :
    Function.update (copied src count regs) (4 * count) (wordAt src (4 * count)) =
      copied src (count + 1) regs := by
  funext reg
  by_cases hreg : reg = 4 * count
  · subst hreg
    rw [Function.update_self]
    exact (if_pos ⟨by omega, by omega⟩).symm
  · rw [Function.update_of_ne hreg]
    have hsame : (reg % 4 = 0 ∧ reg / 4 < count) ↔ reg % 4 = 0 ∧ reg / 4 < count + 1 := by
      omega
    exact if_congr hsame rfl rfl

theorem copied_zero (src : List Byte) (regs : ℕ → Word) : copied src 0 regs = regs := by
  funext reg
  exact if_neg (by omega)

def Fits (fw blFw : List Byte) : Prop :=
  fw.length ≤ al5IcacheSize ∧ blFw.length ≤ mcuSramSize

def BootState.withRegs (state : BootState) (regs : ℕ → Word) : BootState :=
  { state with memory := { state.memory with regs := regs } }

theorem leads_writel (hasleep : state.running = false) {reg : ℕ} {value : Word}
    (hwakeup : ¬ (reg = al5McuWakeup ∧ value = 1)) {next : Unit → BootProg α}
    (hnext : Leads (next ()) post (state.setReg reg value)) :
    Leads (.act (.writel reg value) next) post state := by
  refine leads_act fun _ after hdrifts => ?_
  have hdrifts : (state.setReg reg value).Drifts after := by
    rw [← write_asleep hasleep hwakeup]
    exact hdrifts
  have hafter : after = state.setReg reg value := eq_of_drifts hasleep hdrifts
  subst hafter
  exact hnext

theorem leads_memcpyToio32Loop (src : List Byte) (count i : ℕ) (base : ℕ → Word)
    (hasleep : state.running = false) (hregs : state.memory.regs = copied src i base)
    (hsize : 4 * (i + count) ≤ mcuSramSize) :
    Leads (memcpyToio32Loop src i count)
      (fun _ after => after = state.withRegs (copied src (i + count) base)) state := by
  induction count generalizing i state with
  | zero =>
      change state = _
      rw [Nat.add_zero, ← hregs]
      rfl
  | succ count ih =>
      have hwakeup : ¬ (4 * i = al5McuWakeup ∧ wordAt src (4 * i) = 1) := by
        unfold mcuSramSize at hsize
        unfold al5McuWakeup
        omega
      refine leads_writel hasleep hwakeup ?_
      have hnext : (state.setReg (4 * i) (wordAt src (4 * i))).memory.regs =
          copied src (i + 1) base := by
        rw [← copied_succ, ← hregs]
        rfl
      have hrest : Leads (memcpyToio32Loop src (i + 1) count) (fun _ after => after =
          (state.setReg (4 * i) (wordAt src (4 * i))).withRegs
            (copied src (i + 1 + count) base)) (state.setReg (4 * i) (wordAt src (4 * i))) :=
        ih (i + 1) hasleep hnext (by omega)
      rw [show i + 1 + count = i + (count + 1) from by omega] at hrest
      exact hrest

theorem leads_copyFirmware (fw blFw : List Byte) (hasleep : state.running = false) :
    Leads (copyFirmware fw blFw)
      (fun ret after =>
        (Fits fw blFw ∧ ret = 0 ∧ after = (state.copyIcache fw).withRegs
          (copied blFw (blFw.length / 4) state.memory.regs)) ∨
        (¬ Fits fw blFw ∧ ret = -EINVAL ∧ after = state)) state := by
  unfold copyFirmware
  by_cases hfw : fw.length > al5IcacheSize
  · rw [if_pos hfw]
    exact .inr ⟨fun hfits => absurd hfits.1 (by omega), rfl, rfl⟩
  · rw [if_neg hfw]
    by_cases hbl : blFw.length > mcuSramSize
    · rw [if_pos hbl]
      exact .inr ⟨fun hfits => absurd hfits.2 (by omega), rfl, rfl⟩
    · rw [if_neg hbl]
      refine leads_act fun _ after hdrifts => ?_
      have hafter : after = state.copyIcache fw := by
        refine eq_of_drifts ?_ hdrifts
        exact hasleep
      subst hafter
      have hcopy : Leads (memcpyToio32 blFw) (fun _ after => after =
          (state.copyIcache fw).withRegs (copied blFw (0 + blFw.length / 4)
            state.memory.regs)) (state.copyIcache fw) :=
        leads_memcpyToio32Loop blFw (blFw.length / 4) 0 state.memory.regs hasleep
          (copied_zero blFw _).symm (by omega)
      rw [Prog.ret_bind]
      refine Prog.Ensures.bind (hcopy.mono fun _ after hafter => ?_)
      rw [Nat.zero_add] at hafter
      exact .inl ⟨⟨by omega, by omega⟩, rfl, hafter⟩

/-! ## Starting -/

def Memory.sramByte (memory : Memory) (offset : ℕ) : Byte :=
  wordByte (memory.regs (4 * (offset / 4))) (offset % 4)

/-- Everything which the MCU needs is in place: the image in the buffer of its cache, the
complete words of the boot loader at the start of its static memory, both offsets, and
the interrupt mask. -/
structure BootComplete (icache : BitVec 64) (fw blFw : List Byte) (memory : Memory) :
    Prop where
  fits : Fits fw blFw
  image : memory.icache.take fw.length = fw
  loader : ∀ offset < blFw.length / 4 * 4, memory.sramByte offset = byteAt blFw offset
  icacheOffset : (⟨memory.regs al5IcacheAddrOffsetLsb,
    memory.regs al5IcacheAddrOffsetMsb⟩ : AddrOffset) = setIcacheOffset icache
  dcacheOffset : (⟨memory.regs al5DcacheAddrOffsetLsb,
    memory.regs al5DcacheAddrOffsetMsb⟩ : AddrOffset) = setDcacheOffset icache
  mask : memory.regs al5McuInterruptMask = 1

/-- The MCU was started once and found everything in place.  If it was asleep before, the
rest of its static memory is as it was. -/
structure Started (icache : BitVec 64) (fw blFw : List Byte) (before after : BootState)
    (memory : Memory) : Prop where
  starts : after.starts = memory :: before.starts
  clobbered : after.clobbered = before.clobbered
  complete : BootComplete icache fw blFw memory
  rest : before.running = false → ∀ reg < mcuSramSize, reg ≠ al5McuInterruptHandler →
    memory.regs reg = copied blFw (blFw.length / 4) before.memory.regs reg

structure Refused (before after : BootState) : Prop where
  starts : after.starts = before.starts
  clobbered : after.clobbered = before.clobbered
  icache : after.memory.icache = before.memory.icache
  asleep : after.running = false

/-- A register of the host is not in the static memory. -/
theorem setReg_sram {reg other : ℕ} (hreg : mcuSramSize ≤ reg) (hother : other < mcuSramSize)
    (value : Word) : (state.setReg reg value).memory.regs other = state.memory.regs other :=
  setReg_of_ne (by omega) value

def BootState.configured (state : BootState) (icache : BitVec 64) : BootState :=
  ((((state.setReg al5IcacheAddrOffsetLsb (setIcacheOffset icache).lsb).setReg
    al5IcacheAddrOffsetMsb (setIcacheOffset icache).msb).setReg
      al5DcacheAddrOffsetMsb (setDcacheOffset icache).msb).setReg
        al5DcacheAddrOffsetLsb (setDcacheOffset icache).lsb).setReg al5McuInterruptMask 1

theorem configured_sram (icache : BitVec 64) {reg : ℕ} (hreg : reg < mcuSramSize) :
    (state.configured icache).memory.regs reg = state.memory.regs reg := by
  unfold BootState.configured
  rw [setReg_sram (by decide) hreg, setReg_sram (by decide) hreg,
    setReg_sram (by decide) hreg, setReg_sram (by decide) hreg, setReg_sram (by decide) hreg]

def BootState.found (state : BootState) (icache : BitVec 64) : Memory :=
  ((state.configured icache).setReg al5McuWakeup 1).memory

theorem found_sram (icache : BitVec 64) {reg : ℕ} (hreg : reg < mcuSramSize) :
    (state.found icache).regs reg = state.memory.regs reg := by
  unfold BootState.found
  rw [setReg_sram (by decide) hreg, configured_sram icache hreg]

/-- The start of a sleeping MCU. -/
theorem leads_start (hasleep : state.running = false) (icache : BitVec 64) :
    Leads (writeIcacheOffset icache >>= fun _ => writeDcacheOffset icache >>= fun _ =>
        setMcuInterruptMask >>= fun _ => startMcu >>= fun _ => pure 0)
      (fun ret after => ret = (0 : ℤ) ∧ after.clobbered = state.clobbered ∧
        after.starts = state.found icache :: state.starts) state := by
  have hother : ∀ {reg : ℕ} {value : Word}, reg ≠ al5McuWakeup →
      ¬ (reg = al5McuWakeup ∧ value = 1) := fun hne hboth => hne hboth.1
  simp only [writeIcacheOffset, writeDcacheOffset, setMcuInterruptMask, startMcu, writel,
    Prog.bind_eq, Prog.perform_bind, Prog.act_bind]
  refine leads_writel ?_ ?_ ?_
  · exact hasleep
  · exact hother (by decide)
  refine leads_writel ?_ ?_ ?_
  · exact hasleep
  · exact hother (by decide)
  refine leads_writel ?_ ?_ ?_
  · exact hasleep
  · exact hother (by decide)
  refine leads_writel ?_ ?_ ?_
  · exact hasleep
  · exact hother (by decide)
  refine leads_writel ?_ ?_ ?_
  · exact hasleep
  · exact hother (by decide)
  refine leads_act fun _ after hdrifts => ?_
  have hkept : Kept ((state.configured icache).write al5McuWakeup 1) after :=
    kept_of_drifts hdrifts
  exact ⟨rfl, hkept.clobbered, hkept.starts⟩

/-- The images are in place when the MCU is started after the copy. -/
theorem bootComplete_found (state : BootState) {fw blFw : List Byte} (hfits : Fits fw blFw)
    (icache : BitVec 64) :
    BootComplete icache fw blFw (((state.copyIcache fw).withRegs
      (copied blFw (blFw.length / 4) state.memory.regs)).found icache) where
  fits := hfits
  image := List.take_left' rfl
  loader offset hoffset := by
    have hsram : 4 * (offset / 4) < mcuSramSize := by
      have hsize := hfits.2
      omega
    have hword : wordByte (wordAt blFw (4 * (offset / 4))) (offset % 4) =
        byteAt blFw (4 * (offset / 4) + offset % 4) :=
      wordByte_wordAt blFw _ (by omega)
    rw [Nat.div_add_mod] at hword
    rw [Memory.sramByte, found_sram icache hsram, ← hword]
    congr 1
    exact if_pos (by omega)
  icacheOffset := rfl
  dcacheOffset := rfl
  mask := rfl

theorem leads_setupAndStartMcu (icache : BitVec 64) (fw blFw : List Byte) :
    Leads (setupAndStartMcu icache fw blFw)
      (fun ret after =>
        (Fits fw blFw ∧ ret = 0 ∧ ∃ memory, Started icache fw blFw state after memory) ∨
        (¬ Fits fw blFw ∧ ret = -EINVAL ∧ Refused state after)) state := by
  unfold setupAndStartMcu
  simp only [Prog.bind_eq]
  refine Prog.Ensures.bind (leads_stopMcu.mono fun _ stopped hstopped => ?_)
  refine Prog.Ensures.bind (leads_resetMcu.mono fun _ reset hreset => ?_)
  obtain ⟨hreset, hasleep⟩ := hreset
  have hkept := hstopped.trans hreset
  refine Prog.Ensures.bind ((leads_copyFirmware fw blFw hasleep).mono fun ret loaded hcopy => ?_)
  rcases hcopy with ⟨hfits, rfl, hloaded⟩ | ⟨hfits, rfl, rfl⟩
  · have hloadedAsleep : loaded.running = false := by
      rw [hloaded]
      exact hasleep
    rw [if_neg (by decide)]
    refine (leads_start hloadedAsleep icache).mono fun ret after hstart => ?_
    obtain ⟨hret, hclobbered, hstarts⟩ := hstart
    subst hloaded
    have hcomplete : BootComplete icache fw blFw _ :=
      bootComplete_found reset hfits icache
    refine .inl ⟨hfits, hret, _, ?_, ?_, hcomplete, ?_⟩
    · rw [hstarts]
      exact congrArg _ hkept.starts
    · rw [hclobbered]
      change (reset.clobbered || reset.running) = state.clobbered
      rw [hasleep, Bool.or_false, hkept.clobbered]
    · intro hbefore reg hsram hhandler
      rw [found_sram icache hsram]
      change copied blFw (blFw.length / 4) reset.memory.regs reg = _
      unfold copied
      rw [(hkept.asleep hbefore).2 reg hsram hhandler]
  · rw [if_pos (show (-EINVAL : ℤ) ≠ 0 from by decide)]
    exact .inr ⟨hfits, rfl, hkept.starts, hkept.clobbered, hkept.icache, hasleep⟩

/-! ## Every start -/

/-- The states after any attempts to start the MCU, with the images of those that
returned 0, the latest first.  Between them the MCU is stopped, or runs on. -/
inductive BootReach (icache : BitVec 64) (start : BootState) :
    BootState → List (List Byte × List Byte) → Prop where
  | start : BootReach icache start start []
  | attempt {state after : BootState} {loaded : List (List Byte × List Byte)}
      {fw blFw : List Byte} {ret : ℤ} (reach : BootReach icache start state loaded)
      (ends : (setupAndStartMcu icache fw blFw).Ends BootState.exec state ret after) :
      BootReach icache start after (if ret = 0 then (fw, blFw) :: loaded else loaded)
  | stop {state after : BootState} {loaded : List (List Byte × List Byte)}
      (reach : BootReach icache start state loaded)
      (ends : stopMcu.Ends BootState.exec state () after) :
      BootReach icache start after loaded
  | mcu {state after : BootState} {loaded : List (List Byte × List Byte)}
      (reach : BootReach icache start state loaded) (drifts : state.Drifts after) :
      BootReach icache start after loaded

/-- The driver has never copied into the memory of a running MCU, and the MCU has found
both images in place each time it was started. -/
structure StartsComplete (icache : BitVec 64) (state : BootState)
    (loaded : List (List Byte × List Byte)) : Prop where
  clobbered : state.clobbered = false
  starts : List.Forall₂ (fun memory images => BootComplete icache images.1 images.2 memory)
    state.starts loaded

theorem StartsComplete.kept {icache : BitVec 64} {loaded : List (List Byte × List Byte)}
    (hcomplete : StartsComplete icache state loaded) (hkept : Kept state after) :
    StartsComplete icache after loaded := by
  refine ⟨hkept.clobbered.trans hcomplete.clobbered, ?_⟩
  rw [hkept.starts]
  exact hcomplete.starts

end

/-- In every run, the MCU starts with complete images only. -/
theorem starts_are_complete
    (icache : BitVec 64) (start state : BootState) (loaded : List (List Byte × List Byte))
    (hfresh : start.clobbered = false ∧ start.starts = [])
    (hreach : BootReach icache start state loaded) : StartsComplete icache state loaded := by
  induction hreach with
  | start =>
      refine ⟨hfresh.1, ?_⟩
      rw [hfresh.2]
      exact List.Forall₂.nil
  | @attempt state after loaded fw blFw ret _ hends ih =>
      rcases (leads_setupAndStartMcu icache fw blFw).of_ends hends with
        ⟨-, rfl, memory, hstarted⟩ | ⟨-, rfl, hrefused⟩
      · rw [if_pos rfl]
        refine ⟨hstarted.clobbered.trans ih.clobbered, ?_⟩
        rw [hstarted.starts]
        exact List.Forall₂.cons hstarted.complete ih.starts
      · rw [if_neg (show ¬ (-EINVAL : ℤ) = 0 from by decide)]
        refine ⟨hrefused.clobbered.trans ih.clobbered, ?_⟩
        rw [hrefused.starts]
        exact ih.starts
  | stop _ hends ih => exact ih.kept (leads_stopMcu.of_ends hends)
  | mcu _ hdrifts ih => exact ih.kept (kept_of_drifts hdrifts)

/-- A world in which the MCU sleeps and its status says so. -/
def BootState.alone : (action : BootAct) → BootState → action.Res × BootState
  | .readl _, state => ((1 : Word), state)
  | .writel reg value, state => ((), state.write reg value)
  | .msleep _, state => ((), state)
  | .memcpyIcache data, state => ((), state.copyIcache data)

theorem exec_alone (action : BootAct) (state : BootState) :
    BootState.exec action state (state.alone action).1 (state.alone action).2 := by
  cases action <;> exact .inl rfl

def dormant : BootState :=
  ⟨⟨fun _ => 0, []⟩, false, false, []⟩

/-- Two small images are in place when the MCU starts. -/
theorem starts_are_complete_of_small :
    ∃ state, state.starts.length = 1 ∧
      StartsComplete 0x80000 state [([1, 2, 3], [4, 5, 6, 7, 8])] := by
  have hends := Prog.ends_of_run exec_alone
    (setupAndStartMcu 0x80000 [1, 2, 3] [4, 5, 6, 7, 8]) dormant
  have hreach := BootReach.attempt .start hends
  exact ⟨_, rfl, starts_are_complete 0x80000 dormant _ _ ⟨rfl, rfl⟩ hreach⟩

/-! ## The mailboxes after a boot -/

def Memory.mailbox (memory : Memory) (base : ℕ) : Ring where
  head := (memory.regs base).toNat
  tail := (memory.regs (base + 4)).toNat
  data offset := memory.regs (base + 8 + offset)

def Memory.MailboxesEmpty (memory : Memory) : Prop :=
  ∀ base ∈ [mailboxCmd, mailboxStatus], (memory.mailbox base).Holds (mailboxSize / 4) 0 []

def mailboxRegisters : List ℕ :=
  [mailboxCmd, mailboxCmd + 4, mailboxStatus, mailboxStatus + 4]

/-- The image of the boot loader has zeros where it covers a head or a tail. -/
def KeepsMailboxes (blFw : List Byte) : Prop :=
  ∀ reg ∈ mailboxRegisters, reg / 4 < blFw.length / 4 → wordAt blFw reg = 0

theorem holds_nil_iff {ring : Ring} {N : ℕ} (hpos : 0 < N) :
    ring.Holds N 0 [] ↔ ring.head = 0 ∧ ring.tail = 0 := by
  have hslot : slot N 0 = 0 := by
    unfold slot
    rw [Nat.zero_mod]
  constructor
  · intro hholds
    exact ⟨hholds.head.trans hslot, hholds.tail.trans hslot⟩
  · rintro ⟨hhead, htail⟩
    exact ⟨hhead.trans hslot.symm, htail.trans hslot.symm, hpos, trivial, by simp⟩

theorem mailboxesEmpty_iff (memory : Memory) :
    memory.MailboxesEmpty ↔ ∀ reg ∈ mailboxRegisters, memory.regs reg = 0 := by
  have hzero : ∀ word : Word, word.toNat = 0 ↔ word = 0 := by
    intro word
    rw [BitVec.toNat_eq]
    rfl
  unfold Memory.MailboxesEmpty mailboxRegisters
  simp only [List.forall_mem_cons, List.not_mem_nil, false_imp_iff, implies_true, and_true,
    holds_nil_iff (show 0 < mailboxSize / 4 from by decide), Memory.mailbox, hzero, and_assoc]

/-- After `al5_mcu_interface_create` the heads and tails are zero. -/
theorem leads_interfaceCreate {state : BootState} (hasleep : state.running = false) :
    Leads al5McuInterfaceCreate (fun _ after => after.running = false ∧
      ∀ reg ∈ mailboxRegisters, after.memory.regs reg = 0) state := by
  have hother : ∀ {reg : ℕ} {value : Word}, reg ≠ al5McuWakeup →
      ¬ (reg = al5McuWakeup ∧ value = 1) := fun hne hboth => hne hboth.1
  simp only [al5McuInterfaceCreate, al5MailboxInit, writel, Prog.bind_eq, Prog.perform_bind,
    Prog.act_bind]
  refine leads_writel ?_ ?_ ?_
  · exact hasleep
  · exact hother (by decide)
  refine leads_writel ?_ ?_ ?_
  · exact hasleep
  · exact hother (by decide)
  refine leads_writel ?_ ?_ ?_
  · exact hasleep
  · exact hother (by decide)
  refine leads_writel ?_ ?_ ?_
  · exact hasleep
  · exact hother (by decide)
  refine ⟨hasleep, ?_⟩
  unfold mailboxRegisters
  simp only [List.forall_mem_cons, List.not_mem_nil, false_imp_iff, implies_true, and_true]
  exact ⟨rfl, rfl, rfl, rfl⟩

/-- A boot that succeeds leaves the mailboxes empty exactly when the image of the boot
loader has zeros where it reaches into them. -/
theorem mailboxes_survive_boot_iff
    (icache : BitVec 64) (fw blFw : List Byte) (state after : BootState)
    (hasleep : state.running = false)
    (hends : (al5McuInterfaceCreate >>= fun _ => setupAndStartMcu icache fw blFw).Ends
      BootState.exec state 0 after) :
    ∃ memory, after.starts.head? = some memory ∧
      (memory.MailboxesEmpty ↔ KeepsMailboxes blFw) := by
  obtain ⟨_, created, hcreate, hboot⟩ := Prog.ends_bind.mp hends
  obtain ⟨hcreatedAsleep, hzero⟩ := (leads_interfaceCreate hasleep).of_ends hcreate
  rcases (leads_setupAndStartMcu icache fw blFw).of_ends hboot with
    ⟨-, -, memory, hstarted⟩ | ⟨-, herror, -⟩
  · refine ⟨memory, by rw [hstarted.starts]; rfl, ?_⟩
    rw [mailboxesEmpty_iff]
    refine forall₂_congr fun reg hreg => ?_
    have hplace : reg < mcuSramSize ∧ reg ≠ al5McuInterruptHandler ∧ reg % 4 = 0 := by
      revert reg
      decide
    obtain ⟨hsram, hhandler, hword⟩ := hplace
    rw [hstarted.rest hcreatedAsleep reg hsram hhandler]
    unfold copied
    by_cases hcovered : reg / 4 < blFw.length / 4
    · rw [if_pos ⟨hword, hcovered⟩]
      exact ⟨fun hkept _ => hkept, fun hkept => hkept hcovered⟩
    · rw [if_neg fun hboth => hcovered hboth.2, hzero reg hreg]
      exact iff_of_true rfl fun hcover => absurd hcover hcovered
  · exact absurd herror (show ¬ (0 : ℤ) = -EINVAL from by decide)

/-- An image that ends before the first mailbox keeps both of them. -/
theorem mailboxes_survive_boot_of_small :
    ∃ after : BootState, ∃ memory, after.starts.head? = some memory ∧
      (memory.MailboxesEmpty ↔ KeepsMailboxes [4, 5, 6, 7, 8]) := by
  have hends := Prog.ends_of_run exec_alone
    (al5McuInterfaceCreate >>= fun _ => setupAndStartMcu 0x80000 [1, 2, 3] [4, 5, 6, 7, 8])
    dormant
  exact ⟨_, mailboxes_survive_boot_iff 0x80000 [1, 2, 3] [4, 5, 6, 7, 8] dormant _ rfl hends⟩

end VcuDriver.Boot

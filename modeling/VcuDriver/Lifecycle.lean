import VcuDriver.UserOps

/-!
# Bringing a codec up and down

The probe and the remove of a codec as programs over the objects they obtain and
give back: the three parts of the mcu interface, the table of the users, the caches,
the firmwares, the local user `root` of `al5_codec_set_firmware`, the interrupt and
the device node.  Every kernel call can fail; which do is left to the outcomes.

An object is absent, live or freed.  The parts of the mcu interface are device
managed: what tear down does not free goes when the probe has failed or the remove
has returned.
-/

namespace VcuDriver.Lifecycle

open Conc

/-! ## Objects -/

inductive Lifetime where
  | absent
  | live
  | freed
  deriving DecidableEq

inductive McuPart where
  | interface
  | mcuToCpu
  | cpuToMcu
  deriving DecidableEq

inductive Firmware where
  | main
  | bootloader
  deriving DecidableEq

/-- Whom an entry of `group->users` points to: the local user of
`al5_codec_set_firmware`, or the user of an open file. -/
inductive Owner where
  | root
  | file (user : ℕ)
  deriving DecidableEq

/-- The codec, its group and its device.  `regs` says whether the registers are mapped.
`tornDown` is set by the first free of `al5_codec_tear_down`, `crashed` by an access
through `NULL`: to a table that is scanned, or to registers that are not mapped. -/
structure Device where
  maxUsersNb : ℕ
  regs : Bool
  mcu : McuPart → Lifetime
  usersArray : Lifetime
  users : ℕ → Option Owner
  icache : Bool
  suballocBuf : Bool
  firmware : Firmware → Bool
  declaredMemory : Bool
  irqRegistered : Bool
  cdev : Bool
  rootUid : ℕ
  rootEnded : Bool
  tornDown : Bool
  crashed : Bool

def fresh (maxUsersNb : ℕ) : Device where
  maxUsersNb := maxUsersNb
  regs := false
  mcu _ := .absent
  usersArray := .absent
  users _ := none
  icache := false
  suballocBuf := false
  firmware _ := false
  declaredMemory := false
  irqRegistered := false
  cdev := false
  rootUid := 0
  rootEnded := false
  tornDown := false
  crashed := false

/-! ## Actions -/

/-- The two mails of the MCU for which `init_mcu` waits. -/
inductive InitMail where
  | boot
  | acknowledge
  deriving DecidableEq

inductive LifeAct where
  | devmKzallocCodec
  | platformGetResource
  | platformGetIrq
  | devmIoremapNocache
  | ofParsePhandle
  | ofAddressToResource
  | dmaDeclareCoherentMemory
  | dmaSetCoherentMask
  | devmKmalloc (part : McuPart)
  | mailboxInit (part : McuPart)
  | kcallocUsers
  | allocIcache
  | freeIcache
  | requestIrq
  | releaseDeclaredMemory
  | requestFirmware (which : Firmware)
  | releaseFirmware (which : Firmware)
  | bindRoot
  | unbindRoot
  | endRoot
  | stopMcu
  | startMcu
  | mutexLockKillable
  | mutexUnlock
  | popInit (mail : InitMail)
  | allocSuballoc
  | freeSuballoc
  | kmallocInitMail
  | sendInitMail
  | devmKfree (part : McuPart)
  | kfreeUsers
  | setupCdev
  | cleanUpCdev
  deriving DecidableEq

abbrev LifeAct.Res : LifeAct → Type
  | .freeIcache | .releaseDeclaredMemory | .releaseFirmware _ | .unbindRoot | .endRoot
  | .stopMcu | .startMcu | .mutexUnlock | .freeSuballoc | .devmKfree _ | .kfreeUsers
  | .cleanUpCdev | .kcallocUsers | .dmaDeclareCoherentMemory | .mailboxInit _ => Unit
  | .ofParsePhandle | .kmallocInitMail => Bool
  | _ => ℤ

abbrev LifeProg (α : Type) : Type :=
  Prog LifeAct LifeAct.Res α

/-- How a kernel call ends.  A wait ends with a signal, or fails by its timeout. -/
inductive Outcome where
  | succeed
  | fail
  | signal
  deriving DecidableEq

def ENODEV : ℤ := 19

def ENXIO : ℤ := 6

def ENOENT : ℤ := 2

namespace Device

def freeSlot (device : Device) : Option ℕ :=
  (List.range device.maxUsersNb).find? fun slot => (device.users slot).isNone

/-- `al5_group_bind_user` of root.  A scan of a `NULL` table crashes. -/
def bindRoot (device : Device) : ℤ × Device :=
  if device.usersArray = .absent ∧ 0 < device.maxUsersNb then
    (-EAGAIN, { device with crashed := true })
  else
    match device.freeSlot with
    | none => (-EAGAIN, device)
    | some slot =>
        (0, { device with
          users := Function.update device.users slot (some .root)
          rootUid := slot })

/-- The error of a call that can only succeed or fail. -/
def errorOf (outcome : Outcome) (error : ℤ) : ℤ :=
  if outcome = .succeed then 0 else -error

def act (device : Device) : (action : LifeAct) → Outcome → action.Res × Device
  | .devmKzallocCodec, outcome => (errorOf outcome ENOMEM, device)
  | .platformGetResource, outcome => (errorOf outcome ENODEV, device)
  | .platformGetIrq, outcome => (errorOf outcome ENXIO, device)
  | .devmIoremapNocache, outcome =>
      -- A failure is `NULL`, which `IS_ERR` does not take for an error.
      (0, { device with regs := outcome = .succeed })
  | .ofParsePhandle, outcome => (outcome = .succeed, device)
  | .ofAddressToResource, outcome => (errorOf outcome EINVAL, device)
  | .dmaDeclareCoherentMemory, _ => ((), { device with declaredMemory := true })
  | .dmaSetCoherentMask, outcome => (errorOf outcome EINVAL, device)
  | .devmKmalloc part, .succeed =>
      (0, { device with mcu := Function.update device.mcu part .live })
  | .devmKmalloc _, _ => (-ENOMEM, device)
  | .mailboxInit _, _ =>
      -- The head and the tail are written through `codec->regs`.
      ((), { device with crashed := device.crashed || !device.regs })
  | .kcallocUsers, .succeed =>
      -- An array of no entries needs no memory.
      ((), if device.maxUsersNb = 0 then device
        else { device with usersArray := .live })
  | .kcallocUsers, _ => ((), device)
  | .allocIcache, .succeed => (0, { device with icache := true })
  | .allocIcache, _ => (-ENOMEM, device)
  | .freeIcache, _ => ((), { device with icache := false })
  | .requestIrq, .succeed => (0, { device with irqRegistered := true })
  | .requestIrq, _ => (-EINVAL, device)
  | .releaseDeclaredMemory, _ => ((), { device with declaredMemory := false })
  | .requestFirmware which, .succeed =>
      (0, { device with firmware := Function.update device.firmware which true })
  | .requestFirmware _, _ => (-ENOENT, device)
  | .releaseFirmware which, _ =>
      ((), { device with firmware := Function.update device.firmware which false })
  | .bindRoot, _ => device.bindRoot
  | .unbindRoot, _ =>
      ((), { device with
        users := Function.update device.users device.rootUid none })
  | .endRoot, _ => ((), { device with rootEnded := true })
  | .stopMcu, _ | .startMcu, _ | .mutexUnlock, _ => ((), device)
  | .mutexLockKillable, .signal => (-EINTR, device)
  | .mutexLockKillable, _ => (0, device)
  | .popInit _, .succeed => (0, device)
  | .popInit _, .fail => (waitError 0, device)
  | .popInit _, .signal => (waitError (-ERESTARTSYS), device)
  | .allocSuballoc, .succeed => (0, { device with suballocBuf := true })
  | .allocSuballoc, _ => (-ENOMEM, { device with suballocBuf := false })
  | .freeSuballoc, _ => ((), { device with suballocBuf := false })
  | .kmallocInitMail, outcome => (outcome = .succeed, device)
  | .sendInitMail, outcome => (errorOf outcome EAGAIN, device)
  | .devmKfree part, _ =>
      ((), { device with
        mcu := Function.update device.mcu part .freed
        tornDown := true })
  | .kfreeUsers, _ => ((), { device with usersArray := .freed, tornDown := true })
  | .setupCdev, .succeed => (0, { device with cdev := true })
  | .setupCdev, _ => (-ENOMEM, device)
  | .cleanUpCdev, _ => ((), { device with cdev := false })

end Device

/-! ## Set up -/

def al5McuInterfaceCreate : LifeProg ℤ := do
  let err ← Prog.perform (LifeAct.devmKmalloc .interface)
  if err ≠ 0 then pure (-ENOMEM)
  else
    let err ← Prog.perform (LifeAct.devmKmalloc .mcuToCpu)
    if err ≠ 0 then pure (-ENOMEM)
    else
      let err ← Prog.perform (LifeAct.devmKmalloc .cpuToMcu)
      if err ≠ 0 then pure (-ENOMEM)
      else
        Prog.perform (LifeAct.mailboxInit .cpuToMcu)
        Prog.perform (LifeAct.mailboxInit .mcuToCpu)
        pure 0

def failSetUp (err : ℤ) : LifeProg ℤ := do
  Prog.perform LifeAct.releaseDeclaredMemory
  pure err

/-- The dedicated memory of the device tree, if there is one. -/
def declareDedicatedMemory : LifeProg ℤ := do
  let memNode ← Prog.perform LifeAct.ofParsePhandle
  if memNode then
    let err ← Prog.perform LifeAct.ofAddressToResource
    if err ≠ 0 then pure 0
    else
      Prog.perform LifeAct.dmaDeclareCoherentMemory
      Prog.perform LifeAct.dmaSetCoherentMask
  else
    pure 0

/-- `al5_codec_set_up`, from `al5_group_init` on. -/
def setUpGroup : LifeProg ℤ := do
  Prog.perform LifeAct.kcallocUsers
  let err ← Prog.perform LifeAct.allocIcache
  if err ≠ 0 then failSetUp err
  else
    let err ← Prog.perform LifeAct.requestIrq
    if err ≠ 0 then
      Prog.perform LifeAct.freeIcache
      failSetUp err
    else
      pure 0

def al5CodecSetUp : LifeProg ℤ := do
  let err ← Prog.perform LifeAct.platformGetResource
  if err ≠ 0 then failSetUp err
  else
    let irq ← Prog.perform LifeAct.platformGetIrq
    if irq < 0 then failSetUp irq
    else
      let err ← Prog.perform LifeAct.devmIoremapNocache
      if err ≠ 0 then failSetUp err
      else
        let err ← declareDedicatedMemory
        if err ≠ 0 then failSetUp err
        else
          let err ← al5McuInterfaceCreate
          if err ≠ 0 then failSetUp err else setUpGroup

/-! ## Firmware -/

def al5IcacheSize : ℕ := 1024 * 600

def mcuSramSize : ℕ := 0x8000

def requestAllFirmwares : LifeProg ℤ := do
  let err ← Prog.perform (LifeAct.requestFirmware .main)
  if err ≠ 0 then pure err
  else
    let err ← Prog.perform (LifeAct.requestFirmware .bootloader)
    if err ≠ 0 then
      Prog.perform (LifeAct.releaseFirmware .main)
      pure err
    else
      pure 0

structure Images where
  fwSize : ℕ
  blFwSize : ℕ

def Images.fit (images : Images) : Bool :=
  images.fwSize ≤ al5IcacheSize && images.blFwSize ≤ mcuSramSize

/-- `setup_and_start_mcu`, with the checks of `copy_firmware`. -/
def setupAndStartMcu (images : Images) : LifeProg ℤ := do
  Prog.perform LifeAct.stopMcu
  if images.fit then
    Prog.perform LifeAct.startMcu
    pure 0
  else
    pure (-EINVAL)

def unlockInit (err : ℤ) : LifeProg ℤ := do
  Prog.perform LifeAct.mutexUnlock
  pure err

def failMsg (err : ℤ) : LifeProg ℤ := do
  Prog.perform LifeAct.freeSuballoc
  unlockInit err

def sendInit : LifeProg ℤ := do
  let mail ← Prog.perform LifeAct.kmallocInitMail
  if mail then Prog.perform LifeAct.sendInitMail else pure (-ENOMEM)

def initMcu : LifeProg ℤ := do
  let err ← Prog.perform LifeAct.mutexLockKillable
  if err = -EINTR then pure err
  else
    let err ← Prog.perform (LifeAct.popInit .boot)
    if err ≠ 0 then unlockInit err
    else
      let err ← Prog.perform LifeAct.allocSuballoc
      if err ≠ 0 then unlockInit (-ENOMEM)
      else
        let err ← sendInit
        if err ≠ 0 then failMsg err
        else
          let err ← Prog.perform (LifeAct.popInit .acknowledge)
          if err ≠ 0 then failMsg err else unlockInit 0

/-- The label `release_firmware` of `al5_codec_set_firmware`, and the end of its
local user. -/
def releaseFirmwares (err : ℤ) : LifeProg ℤ := do
  Prog.perform (LifeAct.releaseFirmware .main)
  Prog.perform (LifeAct.releaseFirmware .bootloader)
  Prog.perform LifeAct.endRoot
  pure err

/-- `al5_codec_set_firmware`, once root is bound. -/
def startWithRoot (images : Images) : LifeProg ℤ := do
  let err ← setupAndStartMcu images
  if err ≠ 0 then releaseFirmwares err
  else
    let err ← initMcu
    if err ≠ 0 then
      Prog.perform LifeAct.stopMcu
      releaseFirmwares err
    else
      Prog.perform LifeAct.unbindRoot
      releaseFirmwares 0

def al5CodecSetFirmware (images : Images) : LifeProg ℤ := do
  let err ← requestAllFirmwares
  if err ≠ 0 then
    Prog.perform LifeAct.endRoot
    pure err
  else
    let err ← Prog.perform LifeAct.bindRoot
    if err ≠ 0 then releaseFirmwares err else startWithRoot images

/-! ## Probe and remove -/

def al5CodecTearDown : LifeProg Unit := do
  Prog.perform (LifeAct.devmKfree .mcuToCpu)
  Prog.perform (LifeAct.devmKfree .cpuToMcu)
  Prog.perform (LifeAct.devmKfree .interface)
  Prog.perform LifeAct.kfreeUsers
  Prog.perform LifeAct.freeSuballoc
  Prog.perform LifeAct.freeIcache
  Prog.perform LifeAct.releaseDeclaredMemory

/-- `al5e_probe`; the probe of the decoder is the same. -/
def al5eProbe (images : Images) : LifeProg ℤ := do
  let err ← Prog.perform LifeAct.devmKzallocCodec
  if err ≠ 0 then pure (-ENOMEM)
  else
    let err ← al5CodecSetUp
    if err ≠ 0 then pure err
    else
      let err ← al5CodecSetFirmware images
      if err ≠ 0 then
        al5CodecTearDown
        pure err
      else
        let err ← Prog.perform LifeAct.setupCdev
        if err ≠ 0 then
          al5CodecTearDown
          pure err
        else
          pure 0

def al5eRemove : LifeProg ℤ := do
  al5CodecTearDown
  Prog.perform LifeAct.cleanUpCdev
  pure 0

end VcuDriver.Lifecycle

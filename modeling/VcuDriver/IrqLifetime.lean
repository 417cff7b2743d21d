import VcuDriver.Lifecycle
import VcuDriver.Conc.Steps

/-!
# Interrupts and the lifetime of what they read

The interrupt thread runs `al5_group_read_mails` under the lock of the group.  It
reads the mcu interface, the table of the users, and the users it finds there.  Here
it runs beside the thread that probes and removes the device, and beside the opens
and releases of any number of users, action by action.

`al5_group_bind_user` and `al5_group_unbind_user` take the lock, so a user that the
thread has found stays alive.  `al5_codec_tear_down` and the return of
`al5_codec_set_firmware` take nothing: they have to come when the thread is out of
the way.
-/

namespace VcuDriver.Lifecycle

open Conc

/-! ## The system -/

/-- The user of an open file.  A bound user has a slot. -/
inductive UserPhase where
  | absent
  | bound (slot : ℕ)
  | unbound
  | freed
  deriving DecidableEq

/-- Where the interrupt thread is, with the number of mails it has read. -/
inductive IrqThread where
  | idle
  | testing (nbMsg : ℕ)
  | receiving (nbMsg : ℕ)
  | routing (nbMsg : ℕ)
  | scanning (nbMsg slot : ℕ)
  | delivering (nbMsg : ℕ) (owner : Owner)
  | orphaning (nbMsg : ℕ)
  deriving DecidableEq

/-- Where the device is between two calls of the driver. -/
inductive DeviceStage where
  | probing
  | serving
  | removing
  | gone
  deriving DecidableEq

/-- The device, what its driver's thread has still to do, the users of the open
files, the interrupt thread, and whether that has read something freed. -/
structure Life where
  device : Device
  driver : LifeProg ℤ
  stage : DeviceStage
  phase : ℕ → UserPhase
  irq : IrqThread
  fault : Bool

def startLife (maxUsersNb : ℕ) (images : Images) : Life where
  device := fresh maxUsersNb
  driver := al5eProbe images
  stage := .probing
  phase _ := .absent
  irq := .idle
  fault := false

/-- What the MCU's mailbox and the mail in hand hold. -/
inductive IrqChoice where
  | empty
  | mail
  | trace
  | userUid (uid : ℕ)
  | chanUid
  | matched
  | differs
  | orphan
  | dropped
  deriving DecidableEq

inductive LifeMove where
  | driver (outcome : Outcome)
  | probed
  | remove
  | removed
  | bind (user : ℕ)
  | unbind (user : ℕ)
  | kfree (user : ℕ)
  | interrupt
  | handle (choice : IrqChoice)
  deriving DecidableEq

/-- What the interrupt thread reads. -/
inductive Object where
  | mcu (part : McuPart)
  | usersArray
  | user (owner : Owner)

namespace Life

def isFreed (life : Life) : Object → Bool
  | .mcu part => life.device.mcu part = .freed
  | .usersArray => life.device.usersArray = .freed
  | .user .root => life.device.rootEnded
  | .user (.file user) => life.phase user = .freed

def reads (life : Life) (objects : List Object) : Life :=
  { life with fault := life.fault || objects.any life.isFreed }

def setIrq (life : Life) (irq : IrqThread) : Life :=
  { life with irq := irq }

def maxMailboxMsg : ℕ := 100

/-- No user was found: the channel of the mail is destroyed, or the mail dropped. -/
def notFound (life : Life) (nbMsg : ℕ) : IrqChoice → Option Life
  | .orphan => some (life.setIrq (.orphaning nbMsg))
  | .dropped => some (life.setIrq (.testing nbMsg))
  | _ => none

def handle (life : Life) (choice : IrqChoice) : Option Life :=
  match life.irq with
  | .idle => none
  | .testing nbMsg =>
      -- The test of the mailbox comes before the count of the mails.
      let life := life.reads [.mcu .interface, .mcu .mcuToCpu]
      match choice with
      | .empty => some (life.setIrq .idle)
      | .mail =>
          if nbMsg < maxMailboxMsg then some (life.setIrq (.receiving (nbMsg + 1)))
          else some (life.setIrq .idle)
      | _ => none
  | .receiving nbMsg =>
      some ((life.reads [.mcu .interface, .mcu .mcuToCpu]).setIrq (.routing nbMsg))
  | .routing nbMsg =>
      match choice with
      | .trace => some (life.setIrq (.testing nbMsg))
      | .userUid uid =>
          if uid < life.device.maxUsersNb then
            let life := life.reads [.usersArray]
            match life.device.users uid with
            | some owner => some (life.setIrq (.delivering nbMsg owner))
            | none => some (life.setIrq (.orphaning nbMsg))
          else
            some (life.setIrq (.orphaning nbMsg))
      | .chanUid => some (life.setIrq (.scanning nbMsg 0))
      | _ => life.notFound nbMsg choice
  | .scanning nbMsg slot =>
      if slot < life.device.maxUsersNb then
        match life.device.users slot with
        | none =>
            some ((life.reads [.usersArray]).setIrq (.scanning nbMsg (slot + 1)))
        | some owner =>
            let life := life.reads [.usersArray, .user owner]
            match choice with
            | .matched => some (life.setIrq (.delivering nbMsg owner))
            | .differs => some (life.setIrq (.scanning nbMsg (slot + 1)))
            | _ => none
      else
        life.notFound nbMsg choice
  | .delivering nbMsg owner =>
      some ((life.reads [.user owner]).setIrq (.testing nbMsg))
  | .orphaning nbMsg =>
      some ((life.reads [.mcu .interface, .mcu .cpuToMcu]).setIrq (.testing nbMsg))

/-- The device managed resources go: the interrupt, which waits for its thread, and
then what is left of the mcu interface. -/
def releaseManaged (life : Life) : Option Life :=
  if life.irq = .idle then
    some { life with
      stage := .gone
      device := { life.device with
        irqRegistered := false
        tornDown := true
        mcu := fun part =>
          if life.device.mcu part = .live then .freed else life.device.mcu part } }
  else
    none

/-- The next action of the driver's thread.  The two which change the table take the
lock that the interrupt thread holds. -/
def drive (life : Life) (outcome : Outcome) : Option Life :=
  match life.driver with
  | .ret _ => none
  | .act action next =>
      if (action = .bindRoot ∨ action = .unbindRoot) ∧ life.irq ≠ .idle then none
      else
        some { life with
          device := (life.device.act action outcome).2
          driver := next (life.device.act action outcome).1 }

/-- `al5_codec_open`, at its `al5_group_bind_user`. -/
def bind (life : Life) (user : ℕ) : Option Life :=
  if life.device.cdev ∧ life.irq = .idle ∧ life.phase user = .absent then
    life.device.freeSlot.map fun slot => { life with
      device := { life.device with
        users := Function.update life.device.users slot (some (.file user)) }
      phase := Function.update life.phase user (.bound slot) }
  else
    none

/-- `al5_codec_release`, at its `al5_group_unbind_user`. -/
def unbind (life : Life) (user : ℕ) : Option Life :=
  match life.phase user with
  | .bound slot =>
      if life.irq = .idle then
        some { life with
          device := { life.device with
            users := Function.update life.device.users slot none }
          phase := Function.update life.phase user .unbound }
      else
        none
  | _ => none

end Life

def lifeNext (life : Life) : LifeMove → Option Life
  | .driver outcome => life.drive outcome
  | .probed =>
      match life.driver, life.stage with
      | .ret err, .probing =>
          if err = 0 then some { life with stage := .serving }
          else life.releaseManaged
      | _, _ => none
  | .remove =>
      if life.stage = .serving then
        some { life with stage := .removing, driver := al5eRemove }
      else
        none
  | .removed =>
      match life.driver, life.stage with
      | .ret _, .removing => life.releaseManaged
      | _, _ => none
  | .bind user => life.bind user
  | .unbind user => life.unbind user
  | .kfree user =>
      if life.phase user = .unbound then
        some { life with phase := Function.update life.phase user .freed }
      else
        none
  | .interrupt =>
      if life.device.irqRegistered ∧ life.irq = .idle then
        some (life.setIrq (.testing 0))
      else
        none
  | .handle choice => life.handle choice

/-! ## When the thread is out of the way -/

/-- `al5_codec_set_firmware` has returned and its local user is still in this slot. -/
def Device.rootLeft (device : Device) (slot : ℕ) : Prop :=
  device.rootEnded = true ∧ device.users slot = some .root

/-- What the thread of the driver may do next.  A tear down waits for the handler; a
set up of the firmware that leaves its root behind returns when the handler is not
looking at it. -/
def DriverAdmits (life : Life) : Prop :=
  match life.driver with
  | .act (.devmKfree _) _ | .act .kfreeUsers _ => life.irq = .idle
  | .act .endRoot _ =>
      (∀ nbMsg, life.irq ≠ .delivering nbMsg .root) ∧
        ∀ nbMsg slot, life.irq = .scanning nbMsg slot →
          ∀ bound, life.device.users bound ≠ some .root
  | _ => True

/-- The mail in hand does not lead to a root which was left behind. -/
def MailAdmits (life : Life) : IrqChoice → Prop
  | .userUid uid => ¬ life.device.rootLeft uid
  | .chanUid => ∀ slot, ¬ life.device.rootLeft slot
  | _ => True

/-- The handler runs neither across a tear down nor after it, and meets no mail for a
root that was left behind. -/
def LifeAdmits (life : Life) : LifeMove → Prop
  | .driver _ => DriverAdmits life
  | .interrupt => life.device.tornDown = false
  | .handle choice =>
      match life.irq with
      | .routing _ => MailAdmits life choice
      | _ => True
  | _ => True

/-! ## What an action of the driver changes -/

/-- Only the frees of a tear down free what the handler reads; only `bindRoot` fills
a slot, and only `endRoot` ends root. -/
structure ActKeeps (action : LifeAct) (device after : Device) : Prop where
  users : ∀ slot owner, after.users slot = some owner →
    device.users slot = some owner ∨ action = .bindRoot ∧ owner = .root
  rootEnded : after.rootEnded = true → device.rootEnded = true ∨ action = .endRoot
  mcu : ∀ part, after.mcu part = .freed →
    device.mcu part = .freed ∨ action = .devmKfree part
  usersArray : after.usersArray = .freed →
    device.usersArray = .freed ∨ action = .kfreeUsers
  tornDown : after.tornDown = true →
    device.tornDown = true ∨ (∃ part, action = .devmKfree part) ∨ action = .kfreeUsers
  freed : (∃ part, action = .devmKfree part) ∨ action = .kfreeUsers →
    after.tornDown = true
  stays : device.tornDown = true → after.tornDown = true

theorem actKeeps_of_same
    {action : LifeAct} {device after : Device} (husers : after.users = device.users)
    (hroot : after.rootEnded = device.rootEnded) (hmcu : after.mcu = device.mcu)
    (harray : after.usersArray = device.usersArray)
    (htorn : after.tornDown = device.tornDown)
    (hfrees : ¬ ((∃ part, action = .devmKfree part) ∨ action = .kfreeUsers)) :
    ActKeeps action device after where
  users _ _ hslot := .inl (husers ▸ hslot)
  rootEnded hended := .inl (hroot ▸ hended)
  mcu _ hpart := .inl (hmcu ▸ hpart)
  usersArray hfreed := .inl (harray ▸ hfreed)
  tornDown hdown := .inl (htorn ▸ hdown)
  freed hfree := absurd hfree hfrees
  stays hdown := htorn ▸ hdown

theorem update_eq_freed
    {mcu : McuPart → Lifetime} {part other : McuPart} {lifetime : Lifetime}
    (hlive : lifetime ≠ .freed)
    (hfreed : Function.update mcu part lifetime other = .freed) :
    mcu other = .freed := by
  by_cases hother : other = part
  · rw [hother, Function.update_self] at hfreed
    exact absurd hfreed hlive
  · rwa [Function.update_of_ne hother] at hfreed

theorem keeps_devmKmalloc (device : Device) (part : McuPart) (outcome : Outcome) :
    ActKeeps (.devmKmalloc part) device (device.act (.devmKmalloc part) outcome).2 := by
  cases outcome with
  | succeed =>
      refine ⟨fun _ _ => .inl, .inl, fun other hfreed => .inl ?_, .inl, .inl, ?_, id⟩
      · exact update_eq_freed (by decide) hfreed
      · rintro (⟨_, hact⟩ | hact) <;> cases hact
  | fail => exact actKeeps_of_same rfl rfl rfl rfl rfl (by simp)
  | signal => exact actKeeps_of_same rfl rfl rfl rfl rfl (by simp)

theorem keeps_devmKfree (device : Device) (part : McuPart) (outcome : Outcome) :
    ActKeeps (.devmKfree part) device (device.act (.devmKfree part) outcome).2 := by
  refine ⟨fun _ _ => .inl, .inl, fun other hfreed => ?_, .inl,
    fun _ => .inr (.inl ⟨part, rfl⟩), fun _ => rfl, fun _ => rfl⟩
  by_cases hother : other = part
  · exact .inr (by rw [hother])
  · left
    have hsame : Function.update device.mcu part .freed other = .freed := hfreed
    rwa [Function.update_of_ne hother] at hsame

theorem keeps_kcallocUsers (device : Device) (outcome : Outcome) :
    ActKeeps .kcallocUsers device (device.act .kcallocUsers outcome).2 := by
  have hfrees : ¬ ((∃ part, LifeAct.kcallocUsers = .devmKfree part) ∨
      LifeAct.kcallocUsers = .kfreeUsers) := by simp
  cases outcome with
  | succeed =>
      by_cases hzero : device.maxUsersNb = 0
      · have hafter : (device.act .kcallocUsers .succeed).2 = device := if_pos hzero
        rw [hafter]
        exact actKeeps_of_same rfl rfl rfl rfl rfl hfrees
      · have hafter : (device.act .kcallocUsers .succeed).2 =
            { device with usersArray := .live } := if_neg hzero
        rw [hafter]
        refine ⟨fun _ _ => .inl, .inl, fun _ => .inl, ?_, .inl, (absurd · hfrees), id⟩
        intro hlive
        exact absurd hlive (show Lifetime.live ≠ .freed from by decide)
  | fail => exact actKeeps_of_same rfl rfl rfl rfl rfl hfrees
  | signal => exact actKeeps_of_same rfl rfl rfl rfl rfl hfrees

theorem keeps_bindRoot (device : Device) (outcome : Outcome) :
    ActKeeps .bindRoot device (device.act .bindRoot outcome).2 := by
  have hfrees : ¬ ((∃ part, LifeAct.bindRoot = .devmKfree part) ∨
      LifeAct.bindRoot = .kfreeUsers) := by simp
  change ActKeeps .bindRoot device device.bindRoot.2
  unfold Device.bindRoot
  split
  · exact actKeeps_of_same rfl rfl rfl rfl rfl hfrees
  · split
    · exact actKeeps_of_same rfl rfl rfl rfl rfl hfrees
    · rename_i bound _
      refine ⟨fun slot owner hslot => ?_, .inl, fun _ => .inl, .inl, .inl,
        (absurd · hfrees), id⟩
      by_cases hbound : slot = bound
      · right
        rw [hbound] at hslot
        have howner : some Owner.root = some owner := by
          simpa only [Function.update_self] using hslot
        exact ⟨rfl, (Option.some.inj howner).symm⟩
      · left
        simpa only [Function.update_of_ne hbound] using hslot

theorem keeps_unbindRoot (device : Device) (outcome : Outcome) :
    ActKeeps .unbindRoot device (device.act .unbindRoot outcome).2 := by
  refine ⟨fun slot owner hslot => .inl ?_, .inl, fun _ => .inl, .inl, .inl, ?_, id⟩
  · have hupdate :
        Function.update device.users device.rootUid none slot = some owner := hslot
    by_cases hroot : slot = device.rootUid
    · rw [hroot, Function.update_self] at hupdate
      cases hupdate
    · rwa [Function.update_of_ne hroot] at hupdate
  · rintro (⟨_, hact⟩ | hact) <;> cases hact

theorem act_keeps (device : Device) (action : LifeAct) (outcome : Outcome) :
    ActKeeps action device (device.act action outcome).2 := by
  cases action with
  | devmKmalloc part => exact keeps_devmKmalloc device part outcome
  | devmKfree part => exact keeps_devmKfree device part outcome
  | kcallocUsers => exact keeps_kcallocUsers device outcome
  | bindRoot => exact keeps_bindRoot device outcome
  | unbindRoot => exact keeps_unbindRoot device outcome
  | kfreeUsers =>
      exact ⟨fun _ _ => .inl, .inl, fun _ => .inl, fun _ => .inr rfl,
        fun _ => .inr (.inr rfl), fun _ => rfl, fun _ => rfl⟩
  | endRoot =>
      refine ⟨fun _ _ => .inl, fun _ => .inr rfl, fun _ => .inl, .inl, .inl, ?_, id⟩
      rintro (⟨_, hact⟩ | hact) <;> cases hact
  | _ =>
      cases outcome <;> exact actKeeps_of_same rfl rfl rfl rfl rfl (by simp)

/-! ## The invariant -/

/-- Nothing that the thread can still read is freed. -/
structure ReadsAlive (life : Life) : Prop where
  noFault : life.fault = false
  mcuAlive : life.device.tornDown = false → ∀ part, life.device.mcu part ≠ .freed
  usersAlive : life.device.tornDown = false → life.device.usersArray ≠ .freed
  quiet : life.device.tornDown = true → life.irq = .idle
  slots : ∀ slot user, life.device.users slot = some (.file user) →
    life.phase user = .bound slot
  delivered : ∀ nbMsg user, life.irq = .delivering nbMsg (.file user) →
    ∃ slot, life.phase user = .bound slot
  rootAlive : ∀ nbMsg, life.irq = .delivering nbMsg .root →
    life.device.rootEnded = false
  scanned : ∀ nbMsg slot, life.irq = .scanning nbMsg slot →
    ∀ bound, ¬ life.device.rootLeft bound

theorem startLife_readsAlive (maxUsersNb : ℕ) (images : Images) :
    ReadsAlive (startLife maxUsersNb images) where
  noFault := rfl
  mcuAlive _ _ := show Lifetime.absent ≠ .freed from by decide
  usersAlive _ := show Lifetime.absent ≠ .freed from by decide
  quiet _ := rfl
  slots _ _ hslot := by cases hslot
  delivered _ _ hirq := by cases hirq
  rootAlive _ hirq := by cases hirq
  scanned _ _ hirq := by cases hirq

namespace ReadsAlive

variable {life after : Life}

/-! ### The thread of the driver -/

theorem drive
    (halive : ReadsAlive life) {outcome : Outcome} (hadmits : DriverAdmits life)
    (hdrive : life.drive outcome = some after) : ReadsAlive after := by
  unfold Life.drive at hdrive
  unfold DriverAdmits at hadmits
  split at hdrive
  · cases hdrive
  · rename_i action next hdriver
    split at hdrive
    · cases hdrive
    · rename_i hlock
      obtain rfl := Option.some.inj hdrive
      have hkeeps := act_keeps life.device action outcome
      rw [hdriver] at hadmits
      have hidle : action = .bindRoot → life.irq = .idle := by
        intro hbind
        by_contra hbusy
        exact hlock ⟨.inl hbind, hbusy⟩
      refine ⟨halive.noFault, fun hup part hfreed => ?_, fun hup hfreed => ?_,
        fun hdown => ?_, fun slot user hslot => ?_, halive.delivered,
        fun nbMsg hirq => ?_, fun nbMsg slot hirq bound hleft => ?_⟩
      · -- A part is freed by the tear down only, which is then begun.
        obtain hbefore | hfree := hkeeps.mcu part hfreed
        · cases hdown : life.device.tornDown with
          | false => exact halive.mcuAlive hdown part hbefore
          | true => exact Bool.false_ne_true (hup.symm.trans (hkeeps.stays hdown))
        · exact Bool.false_ne_true
            (hup.symm.trans (hkeeps.freed (.inl ⟨part, hfree⟩)))
      · obtain hbefore | hfree := hkeeps.usersArray hfreed
        · cases hdown : life.device.tornDown with
          | false => exact halive.usersAlive hdown hbefore
          | true => exact Bool.false_ne_true (hup.symm.trans (hkeeps.stays hdown))
        · exact Bool.false_ne_true (hup.symm.trans (hkeeps.freed (.inr hfree)))
      · obtain hbefore | ⟨part, rfl⟩ | rfl := hkeeps.tornDown hdown
        · exact halive.quiet hbefore
        · exact hadmits
        · exact hadmits
      · obtain hbefore | ⟨_, howner⟩ := hkeeps.users slot (.file user) hslot
        · exact halive.slots slot user hbefore
        · cases howner
      · cases hended : (life.device.act action outcome).2.rootEnded with
        | false => rfl
        | true =>
            obtain hbefore | rfl := hkeeps.rootEnded hended
            · exact absurd (halive.rootAlive nbMsg hirq) (by simp [hbefore])
            · exact absurd hirq (hadmits.1 nbMsg)
      · obtain hbefore | ⟨hbind, -⟩ := hkeeps.users bound .root hleft.2
        · obtain hended | rfl := hkeeps.rootEnded hleft.1
          · exact halive.scanned nbMsg slot hirq bound ⟨hended, hbefore⟩
          · exact hadmits.2 nbMsg slot hirq bound hbefore
        · cases (hidle hbind).symm.trans hirq

/-- The end of the managed resources waits for the thread. -/
theorem releaseManaged
    (halive : ReadsAlive life) (hrelease : life.releaseManaged = some after) :
    ReadsAlive after := by
  unfold Life.releaseManaged at hrelease
  split at hrelease
  · rename_i hidle
    obtain rfl := Option.some.inj hrelease
    exact {
      noFault := halive.noFault
      mcuAlive := fun hup => by cases hup
      usersAlive := fun hup => by cases hup
      quiet := fun _ => hidle
      slots := halive.slots
      delivered := halive.delivered
      rootAlive := halive.rootAlive
      scanned := halive.scanned }
  · cases hrelease

/-! ### The open files -/

theorem bind
    (halive : ReadsAlive life) {user : ℕ} (hbind : life.bind user = some after) :
    ReadsAlive after := by
  unfold Life.bind at hbind
  split at hbind
  · rename_i hopen
    obtain ⟨_, hidle, habsent⟩ := hopen
    obtain ⟨free, _, rfl⟩ := Option.map_eq_some_iff.mp hbind
    have hnot : ∀ {thread}, life.irq = thread → thread ≠ .idle → False :=
      fun hirq hbusy => hbusy (hirq.symm.trans hidle)
    refine ⟨halive.noFault, halive.mcuAlive, halive.usersAlive, halive.quiet,
      fun slot other hslot => ?_, fun _ _ hirq => (hnot hirq (by simp)).elim,
      fun _ hirq => (hnot hirq (by simp)).elim,
      fun _ _ hirq => (hnot hirq (by simp)).elim⟩
    by_cases hfree : slot = free
    · have howner : some (Owner.file user) = some (Owner.file other) := by
        simpa only [hfree, Function.update_self] using hslot
      obtain rfl : user = other := by simpa using howner
      simp only [Function.update_self, hfree]
    · have hbefore : life.phase other = .bound slot :=
        halive.slots slot other (by simpa only [Function.update_of_ne hfree] using hslot)
      have hother : other ≠ user := by
        rintro rfl
        cases habsent.symm.trans hbefore
      simpa only [Function.update_of_ne hother] using hbefore
  · cases hbind

theorem unbind
    (halive : ReadsAlive life) {user : ℕ} (hunbind : life.unbind user = some after) :
    ReadsAlive after := by
  unfold Life.unbind at hunbind
  split at hunbind
  · rename_i bound hphase
    split at hunbind
    · rename_i hidle
      obtain rfl := Option.some.inj hunbind
      have hnot : ∀ {thread}, life.irq = thread → thread ≠ .idle → False :=
        fun hirq hbusy => hbusy (hirq.symm.trans hidle)
      refine ⟨halive.noFault, halive.mcuAlive, halive.usersAlive, halive.quiet,
        fun slot other hslot => ?_, fun _ _ hirq => (hnot hirq (by simp)).elim,
        fun _ hirq => (hnot hirq (by simp)).elim,
        fun _ _ hirq => (hnot hirq (by simp)).elim⟩
      have hslotBound : slot ≠ bound := by
        rintro rfl
        simp only [Function.update_self] at hslot
        cases hslot
      have hbefore : life.phase other = .bound slot :=
        halive.slots slot other
          (by simpa only [Function.update_of_ne hslotBound] using hslot)
      have hother : other ≠ user := by
        rintro rfl
        exact hslotBound (UserPhase.bound.inj (hbefore.symm.trans hphase))
      simpa only [Function.update_of_ne hother] using hbefore
    · cases hunbind
  · cases hunbind

/-- A user that is freed was unbound, so nothing leads to it. -/
theorem kfree
    (halive : ReadsAlive life) {user : ℕ} (hphase : life.phase user = .unbound) :
    ReadsAlive { life with phase := Function.update life.phase user .freed } := by
  have hother : ∀ {other slot}, life.phase other = .bound slot →
      Function.update life.phase user .freed other = .bound slot := by
    intro other slot hbound
    have hne : other ≠ user := by
      rintro rfl
      cases hphase.symm.trans hbound
    rwa [Function.update_of_ne hne]
  exact { halive with
    slots := fun slot other hslot => hother (halive.slots slot other hslot)
    delivered := fun nbMsg other hirq =>
      (halive.delivered nbMsg other hirq).imp fun _ => hother }

/-! ### The interrupt thread -/

/-- Reads of live objects are no fault. -/
theorem reads_eq
    {objects : List Object} (hobjects : ∀ object ∈ objects, life.isFreed object = false) :
    life.reads objects = life := by
  have hany : objects.any life.isFreed = false := by
    simpa using hobjects
  unfold Life.reads
  rw [hany, Bool.or_false]

theorem setIrq
    (halive : ReadsAlive life) (hup : life.device.tornDown = false) {irq : IrqThread}
    (hdelivering : ∀ nbMsg owner, irq = .delivering nbMsg owner →
      life.isFreed (.user owner) = false ∧
        ∀ user, owner = .file user → ∃ slot, life.phase user = .bound slot)
    (hscanning : ∀ nbMsg slot, irq = .scanning nbMsg slot →
      ∀ bound, ¬ life.device.rootLeft bound) :
    ReadsAlive (life.setIrq irq) where
  noFault := halive.noFault
  mcuAlive := halive.mcuAlive
  usersAlive := halive.usersAlive
  quiet hdown := absurd (hup.symm.trans hdown) (by decide)
  slots := halive.slots
  delivered nbMsg user hirq := (hdelivering nbMsg _ hirq).2 user rfl
  rootAlive nbMsg hirq := (hdelivering nbMsg _ hirq).1
  scanned := hscanning

/-- To a state of the thread in which it holds no user. -/
theorem setIrq_between
    (halive : ReadsAlive life) (hup : life.device.tornDown = false) {irq : IrqThread}
    (hdelivering : ∀ nbMsg owner, irq ≠ .delivering nbMsg owner)
    (hscanning : ∀ nbMsg slot, irq ≠ .scanning nbMsg slot) :
    ReadsAlive (life.setIrq irq) :=
  halive.setIrq hup (fun nbMsg owner hirq => absurd hirq (hdelivering nbMsg owner))
    fun nbMsg slot hirq => absurd hirq (hscanning nbMsg slot)

theorem tornDown_of_busy
    (halive : ReadsAlive life) (hbusy : life.irq ≠ .idle) :
    life.device.tornDown = false := by
  cases hdown : life.device.tornDown with
  | false => rfl
  | true => exact absurd (halive.quiet hdown) hbusy

theorem mcu_alive
    (halive : ReadsAlive life) (hup : life.device.tornDown = false) (part : McuPart) :
    life.isFreed (.mcu part) = false :=
  decide_eq_false (halive.mcuAlive hup part)

theorem usersArray_alive
    (halive : ReadsAlive life) (hup : life.device.tornDown = false) :
    life.isFreed .usersArray = false :=
  decide_eq_false (halive.usersAlive hup)

theorem bound_alive
    {user slot : ℕ} (hphase : life.phase user = .bound slot) :
    life.isFreed (.user (.file user)) = false := by
  simp [Life.isFreed, hphase]

/-- A user found in the table is alive. -/
theorem found
    (halive : ReadsAlive life) {slot : ℕ} {owner : Owner}
    (hslot : life.device.users slot = some owner) (hleft : ¬ life.device.rootLeft slot) :
    life.isFreed (.user owner) = false ∧
      ∀ user, owner = .file user → ∃ bound, life.phase user = .bound bound := by
  cases owner with
  | root =>
      refine ⟨?_, fun _ howner => by cases howner⟩
      cases hended : life.device.rootEnded with
      | false => exact hended
      | true => exact absurd ⟨hended, hslot⟩ hleft
  | file user =>
      have hphase := halive.slots slot user hslot
      exact ⟨bound_alive hphase, fun other hother =>
        ⟨slot, by cases hother; exact hphase⟩⟩

theorem notFound
    (halive : ReadsAlive life) (hup : life.device.tornDown = false) {nbMsg : ℕ}
    {choice : IrqChoice} (hnone : life.notFound nbMsg choice = some after) :
    ReadsAlive after := by
  cases choice with
  | orphan =>
      obtain rfl := Option.some.inj hnone
      exact halive.setIrq_between hup (by simp) (by simp)
  | dropped =>
      obtain rfl := Option.some.inj hnone
      exact halive.setIrq_between hup (by simp) (by simp)
  | _ => cases hnone

theorem mailbox_reads
    (halive : ReadsAlive life) (hup : life.device.tornDown = false) (ring : McuPart) :
    life.reads [.mcu .interface, .mcu ring] = life := by
  refine reads_eq fun object hobject => ?_
  obtain rfl | hobject := List.mem_cons.mp hobject
  · exact halive.mcu_alive hup .interface
  · obtain rfl := List.mem_singleton.mp hobject
    exact halive.mcu_alive hup ring

theorem usersArray_reads
    (halive : ReadsAlive life) (hup : life.device.tornDown = false) :
    life.reads [.usersArray] = life := by
  refine reads_eq fun object hobject => ?_
  obtain rfl := List.mem_singleton.mp hobject
  exact halive.usersArray_alive hup

theorem testing
    (halive : ReadsAlive life) {nbMsg : ℕ} (hirq : life.irq = .testing nbMsg)
    {choice : IrqChoice} (hhandle : life.handle choice = some after) :
    ReadsAlive after := by
  have hup := halive.tornDown_of_busy (by simp [hirq])
  simp only [Life.handle, hirq, halive.mailbox_reads hup] at hhandle
  cases choice with
  | empty =>
      obtain rfl := Option.some.inj hhandle
      exact halive.setIrq_between hup (by simp) (by simp)
  | mail =>
      dsimp only at hhandle
      split at hhandle <;> obtain rfl := Option.some.inj hhandle
      · exact halive.setIrq_between hup (by simp) (by simp)
      · exact halive.setIrq_between hup (by simp) (by simp)
  | _ => cases hhandle

theorem routing
    (halive : ReadsAlive life) {nbMsg : ℕ} (hirq : life.irq = .routing nbMsg)
    {choice : IrqChoice} (hadmits : MailAdmits life choice)
    (hhandle : life.handle choice = some after) : ReadsAlive after := by
  have hup := halive.tornDown_of_busy (by simp [hirq])
  simp only [Life.handle, hirq, halive.usersArray_reads hup] at hhandle
  cases choice with
  | trace =>
      obtain rfl := Option.some.inj hhandle
      exact halive.setIrq_between hup (by simp) (by simp)
  | userUid uid =>
      dsimp only at hhandle
      split at hhandle
      · split at hhandle
        · rename_i owner hslot
          obtain rfl := Option.some.inj hhandle
          have hfound := halive.found hslot hadmits
          refine halive.setIrq hup (fun _ other hother => ?_) (by simp)
          cases hother
          exact hfound
        · obtain rfl := Option.some.inj hhandle
          exact halive.setIrq_between hup (by simp) (by simp)
      · obtain rfl := Option.some.inj hhandle
        exact halive.setIrq_between hup (by simp) (by simp)
  | chanUid =>
      obtain rfl := Option.some.inj hhandle
      exact halive.setIrq hup (by simp) fun _ _ _ => hadmits
  | _ => exact halive.notFound hup hhandle

theorem scanning
    (halive : ReadsAlive life) {nbMsg slot : ℕ} (hirq : life.irq = .scanning nbMsg slot)
    {choice : IrqChoice} (hhandle : life.handle choice = some after) :
    ReadsAlive after := by
  have hup := halive.tornDown_of_busy (by simp [hirq])
  have hleft := halive.scanned nbMsg slot hirq
  simp only [Life.handle, hirq] at hhandle
  split at hhandle
  · split at hhandle
    · rw [halive.usersArray_reads hup] at hhandle
      obtain rfl := Option.some.inj hhandle
      exact halive.setIrq hup (by simp) fun _ _ _ => hleft
    · rename_i owner hslot
      have hfound := halive.found hslot (hleft slot)
      have hreads : life.reads [.usersArray, .user owner] = life := by
        refine reads_eq fun object hobject => ?_
        obtain rfl | hobject := List.mem_cons.mp hobject
        · exact halive.usersArray_alive hup
        · obtain rfl := List.mem_singleton.mp hobject
          exact hfound.1
      rw [hreads] at hhandle
      cases choice with
      | matched =>
          obtain rfl := Option.some.inj hhandle
          refine halive.setIrq hup (fun _ other hother => ?_) (by simp)
          cases hother
          exact hfound
      | differs =>
          obtain rfl := Option.some.inj hhandle
          exact halive.setIrq hup (by simp) fun _ _ _ => hleft
      | _ => cases hhandle
  · exact halive.notFound hup hhandle

theorem delivering
    (halive : ReadsAlive life) {nbMsg : ℕ} {owner : Owner}
    (hirq : life.irq = .delivering nbMsg owner) {choice : IrqChoice}
    (hhandle : life.handle choice = some after) : ReadsAlive after := by
  have hup := halive.tornDown_of_busy (by simp [hirq])
  have howner : life.isFreed (.user owner) = false := by
    cases owner with
    | root => exact halive.rootAlive nbMsg hirq
    | file user => exact bound_alive (halive.delivered nbMsg user hirq).choose_spec
  have hreads : life.reads [.user owner] = life := by
    refine reads_eq fun object hobject => ?_
    obtain rfl := List.mem_singleton.mp hobject
    exact howner
  simp only [Life.handle, hirq, hreads] at hhandle
  obtain rfl := Option.some.inj hhandle
  exact halive.setIrq_between hup (by simp) (by simp)

theorem handle
    (halive : ReadsAlive life) {choice : IrqChoice}
    (hadmits : LifeAdmits life (.handle choice))
    (hhandle : life.handle choice = some after) : ReadsAlive after := by
  cases hirq : life.irq with
  | idle =>
      simp only [Life.handle, hirq] at hhandle
      cases hhandle
  | testing nbMsg => exact halive.testing hirq hhandle
  | receiving nbMsg =>
      have hup := halive.tornDown_of_busy (by simp [hirq])
      simp only [Life.handle, hirq, halive.mailbox_reads hup] at hhandle
      obtain rfl := Option.some.inj hhandle
      exact halive.setIrq_between hup (by simp) (by simp)
  | routing nbMsg =>
      have hmail : MailAdmits life choice := by
        simpa only [LifeAdmits, hirq] using hadmits
      exact halive.routing hirq hmail hhandle
  | scanning nbMsg slot => exact halive.scanning hirq hhandle
  | delivering nbMsg owner => exact halive.delivering hirq hhandle
  | orphaning nbMsg =>
      have hup := halive.tornDown_of_busy (by simp [hirq])
      simp only [Life.handle, hirq, halive.mailbox_reads hup] at hhandle
      obtain rfl := Option.some.inj hhandle
      exact halive.setIrq_between hup (by simp) (by simp)

/-! ### One move, and a run -/

theorem next
    (halive : ReadsAlive life) {move : LifeMove} (hadmits : LifeAdmits life move)
    (hnext : lifeNext life move = some after) : ReadsAlive after := by
  cases move with
  | driver outcome => exact halive.drive hadmits hnext
  | probed =>
      dsimp only [lifeNext] at hnext
      split at hnext
      · split at hnext
        · obtain rfl := Option.some.inj hnext
          exact { halive with }
        · exact halive.releaseManaged hnext
      · cases hnext
  | remove =>
      dsimp only [lifeNext] at hnext
      split at hnext
      · obtain rfl := Option.some.inj hnext
        exact { halive with }
      · cases hnext
  | removed =>
      dsimp only [lifeNext] at hnext
      split at hnext
      · exact halive.releaseManaged hnext
      · cases hnext
  | bind user => exact halive.bind hnext
  | unbind user => exact halive.unbind hnext
  | kfree user =>
      dsimp only [lifeNext] at hnext
      split at hnext
      · rename_i hphase
        obtain rfl := Option.some.inj hnext
        exact halive.kfree hphase
      · cases hnext
  | interrupt =>
      dsimp only [lifeNext] at hnext
      split at hnext
      · obtain rfl := Option.some.inj hnext
        exact halive.setIrq_between hadmits (by simp) (by simp)
      · cases hnext
  | handle choice => exact halive.handle hadmits hnext

end ReadsAlive

/-- While the handler keeps out of the tear downs and away from a root that was left
behind, it reads nothing that was freed. -/
theorem irqHandler_readsAlive
    {maxUsersNb : ℕ} {images : Images} {life : Life}
    (hsteps : Steps lifeNext LifeAdmits (startLife maxUsersNb images) life) :
    life.fault = false := by
  have halive : ReadsAlive life :=
    hsteps.invariant ReadsAlive (startLife_readsAlive maxUsersNb images)
      fun _ halive hadmits hnext => halive.next hadmits hnext
  exact halive.noFault

/-- A check of the moves which is enough for the condition. -/
def lifeCheck (life : Life) : LifeMove → Bool
  | .driver _ => life.irq = .idle
  | .interrupt => !life.device.tornDown
  | .handle (.userUid uid) =>
      !life.device.rootEnded || decide (life.device.users uid ≠ some .root)
  | .handle .chanUid => !life.device.rootEnded
  | _ => true

theorem driverAdmits_of_idle {life : Life} (hidle : life.irq = .idle) :
    DriverAdmits life := by
  unfold DriverAdmits
  split
  · exact hidle
  · exact hidle
  · refine ⟨fun _ hirq => ?_, fun _ _ hirq => ?_⟩
    · cases hidle.symm.trans hirq
    · cases hidle.symm.trans hirq
  · trivial

theorem lifeAdmits_of_check
    (life : Life) (move : LifeMove) (hcheck : lifeCheck life move = true) :
    LifeAdmits life move := by
  cases move with
  | driver outcome => exact driverAdmits_of_idle (of_decide_eq_true hcheck)
  | interrupt => simpa [lifeCheck, LifeAdmits] using hcheck
  | handle choice =>
      unfold LifeAdmits
      cases life.irq with
      | routing nbMsg =>
          cases choice with
          | userUid uid =>
              rintro ⟨hended, hslot⟩
              simp [lifeCheck, hended, hslot] at hcheck
          | chanUid =>
              rintro slot ⟨hended, -⟩
              simp [lifeCheck, hended] at hcheck
          | _ => trivial
      | _ => trivial
  | _ => trivial

/-- The kernel calls of a probe before `init_mcu` waits for the MCU, all granted; there
is no dedicated memory. -/
def probeToInit : List LifeMove :=
  List.replicate 4 (.driver .succeed) ++ [.driver .fail] ++
    List.replicate 14 (.driver .succeed)

def bootMail : List LifeMove :=
  [.interrupt, .handle .mail, .handle .mail, .handle (.userUid 0), .handle .mail,
    .handle .empty]

def probeServeRemove : List LifeMove :=
  probeToInit ++ bootMail ++ List.replicate 11 (.driver .succeed) ++
    [.probed, .bind 7] ++ bootMail ++ [.unbind 7, .kfree 7, .remove] ++
    List.replicate 8 (.driver .succeed) ++ [.removed]

theorem irqHandler_readsAlive_probe_serve_remove :
    ∃ life, runSteps lifeNext lifeCheck probeServeRemove (startLife 2 ⟨0, 0⟩) =
        some life ∧ life.stage = .gone ∧ life.fault = false := by
  have hgone : (runSteps lifeNext lifeCheck probeServeRemove (startLife 2 ⟨0, 0⟩)).map
      Life.stage = some .gone := by decide
  obtain ⟨life, hrun, hstage⟩ := Option.map_eq_some_iff.mp hgone
  exact ⟨life, hrun, hstage,
    irqHandler_readsAlive (Steps.of_runSteps lifeAdmits_of_check hrun)⟩

/-- The MCU does not acknowledge: the tear down frees a ring of the mailbox and then
the MCU interrupts. -/
def interruptInTearDown : List LifeMove :=
  probeToInit ++ [.driver .fail] ++ List.replicate 6 (.driver .succeed) ++
    [.interrupt, .handle .empty]

theorem not_irqHandler_readsAlive :
    ¬ ∀ maxUsersNb images life,
      Steps lifeNext (fun _ _ => True) (startLife maxUsersNb images) life →
        life.fault = false := by
  intro hclaim
  have hfault : (runSteps lifeNext (fun _ _ => true) interruptInTearDown
      (startLife 2 ⟨0, 0⟩)).map Life.fault = some true := by decide
  obtain ⟨life, hrun, htrue⟩ := Option.map_eq_some_iff.mp hfault
  have hsteps : Steps lifeNext (fun _ _ => True) (startLife 2 ⟨0, 0⟩) life :=
    Steps.of_runSteps (fun _ _ _ => trivial) hrun
  exact Bool.false_ne_true ((hclaim 2 ⟨0, 0⟩ life hsteps).symm.trans htrue)

end VcuDriver.Lifecycle

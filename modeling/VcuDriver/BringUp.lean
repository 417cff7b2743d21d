import VcuDriver.Lifecycle

/-!
# Bring-up

What `al5_codec_set_up` and `al5_codec_set_firmware` leave when one of their steps
fails, for any outcome of each kernel call.  The first keeps the table of the users
when an allocation after it fails; the second leaves its local user in the table when
anything fails after the bind.
-/

namespace VcuDriver.Lifecycle

open Conc

/-- How each kernel call of a run ends. -/
abbrev Outcomes : Type :=
  LifeAct → Outcome

variable (outcomes : Outcomes)

def runWith {α : Type} (program : LifeProg α) (device : Device) : α × Device :=
  program.run (fun action device => device.act action (outcomes action)) device

def succeeds (action : LifeAct) : Prop :=
  outcomes action = .succeed

instance (action : LifeAct) : Decidable (succeeds outcomes action) :=
  inferInstanceAs (Decidable (outcomes action = .succeed))

def RootUnbound (device : Device) : Prop :=
  ∀ slot, device.users slot ≠ some .root

/-- After a set up that fails, nothing it acquired for the table or the instruction
cache is held. -/
def SetUpAtomic (result : ℤ × Device) : Prop :=
  result.1 ≠ 0 → result.2.usersArray ≠ .live ∧ result.2.icache = false

/-- What a call of `al5_codec_set_firmware` leaves: root is unbound and the firmwares
are released; the memory pool is held exactly after success. -/
structure FirmwareAtomic (result : ℤ × Device) : Prop where
  rootUnbound : RootUnbound result.2
  released : ∀ which, result.2.firmware which = false
  pool : result.2.suballocBuf = true ↔ result.1 = 0

/-- A device on which the firmware was not started. -/
structure Prepared (device : Device) : Prop where
  rootUnbound : RootUnbound device
  released : ∀ which, device.firmware which = false
  pool : device.suballocBuf = false
  running : device.crashed = false

/-! ## Runs -/

section Runs

variable {α β : Type} {device : Device}

theorem runWith_bind (program : LifeProg α) (next : α → LifeProg β) :
    runWith outcomes (program.bind next) device =
      runWith outcomes (next (runWith outcomes program device).1)
        (runWith outcomes program device).2 :=
  Prog.run_bind _ program next device

theorem runWith_act {action : LifeAct} {result : action.Res} {after : Device}
    (hact : device.act action (outcomes action) = (result, after))
    (next : action.Res → LifeProg α) :
    runWith outcomes (.act action next) device =
      runWith outcomes (next result) after := by
  unfold runWith
  rw [Prog.run_act, hact]

/-- No action undoes a crash. -/
theorem crashed_act (action : LifeAct) (outcome : Outcome)
    (hcrashed : device.crashed = true) :
    (device.act action outcome).2.crashed = true := by
  cases action with
  | bindRoot =>
      show device.bindRoot.2.crashed = true
      unfold Device.bindRoot
      split
      · rfl
      · split <;> exact hcrashed
  | mailboxInit part =>
      show (device.crashed || !device.regs) = true
      rw [hcrashed, Bool.true_or]
  | kcallocUsers =>
      cases outcome with
      | succeed =>
          show (if device.maxUsersNb = 0 then device
            else { device with usersArray := .live }).crashed = true
          split <;> exact hcrashed
      | fail => exact hcrashed
      | signal => exact hcrashed
  | _ => cases outcome <;> exact hcrashed

theorem crashed_runWith (program : LifeProg α) {device : Device}
    (hcrashed : device.crashed = true) :
    (runWith outcomes program device).2.crashed = true := by
  induction program generalizing device with
  | ret value => exact hcrashed
  | act action next ih =>
      unfold runWith
      rw [Prog.run_act]
      exact ih _ (crashed_act action (outcomes action) hcrashed)

end Runs

/-! ## Firmware -/

structure InitSucceeds : Prop where
  lock : outcomes .mutexLockKillable ≠ .signal
  boot : succeeds outcomes (.popInit .boot)
  pool : succeeds outcomes .allocSuballoc
  mail : succeeds outcomes .kmallocInitMail
  send : succeeds outcomes .sendInitMail
  acknowledge : succeeds outcomes (.popInit .acknowledge)

theorem act_popInit (mail : InitMail) (device : Device) :
    (succeeds outcomes (.popInit mail) ∧
      device.act (.popInit mail) (outcomes (.popInit mail)) = (0, device)) ∨
    (¬ succeeds outcomes (.popInit mail) ∧ ∃ err, err ≠ 0 ∧
      device.act (.popInit mail) (outcomes (.popInit mail)) = (err, device)) := by
  unfold succeeds
  cases outcomes (.popInit mail) with
  | succeed => exact .inl ⟨rfl, rfl⟩
  | fail => exact .inr ⟨by decide, waitError 0, show waitError 0 ≠ 0 from by decide, rfl⟩
  | signal =>
      exact .inr ⟨by decide, waitError (-ERESTARTSYS),
        show waitError (-ERESTARTSYS) ≠ 0 from by decide, rfl⟩

theorem act_allocSuballoc (device : Device) (hpool : device.suballocBuf = false) :
    (succeeds outcomes .allocSuballoc ∧
      device.act .allocSuballoc (outcomes .allocSuballoc) =
        (0, { device with suballocBuf := true })) ∨
    (¬ succeeds outcomes .allocSuballoc ∧
      device.act .allocSuballoc (outcomes .allocSuballoc) = (-ENOMEM, device)) := by
  have hsame : { device with suballocBuf := false } = device := by
    rw [← hpool]
  unfold succeeds
  cases outcomes .allocSuballoc with
  | succeed => exact .inl ⟨rfl, rfl⟩
  | fail => exact .inr ⟨by decide, congrArg (Prod.mk (-ENOMEM)) hsame⟩
  | signal => exact .inr ⟨by decide, congrArg (Prod.mk (-ENOMEM)) hsame⟩

theorem run_sendInit (device : Device) :
    (succeeds outcomes .kmallocInitMail ∧ succeeds outcomes .sendInitMail ∧
      runWith outcomes sendInit device = (0, device)) ∨
    (¬ (succeeds outcomes .kmallocInitMail ∧ succeeds outcomes .sendInitMail) ∧
      ∃ err, err ≠ 0 ∧ runWith outcomes sendInit device = (err, device)) := by
  unfold sendInit
  simp only [Prog.bind_eq, Prog.perform_bind]
  by_cases hmail : succeeds outcomes .kmallocInitMail
  · have hact : device.act .kmallocInitMail (outcomes .kmallocInitMail) =
        (true, device) := by
      rw [show outcomes .kmallocInitMail = .succeed from hmail]
      rfl
    rw [runWith_act outcomes hact, if_pos rfl]
    by_cases hsend : succeeds outcomes .sendInitMail
    · left
      refine ⟨hmail, hsend, ?_⟩
      have herror : Device.errorOf (outcomes .sendInitMail) EAGAIN = 0 := if_pos hsend
      exact congrArg (·, device) herror
    · right
      refine ⟨fun hboth => hsend hboth.2, -EAGAIN, by decide, ?_⟩
      have herror : Device.errorOf (outcomes .sendInitMail) EAGAIN = -EAGAIN :=
        if_neg hsend
      exact congrArg (·, device) herror
  · right
    have hact : device.act .kmallocInitMail (outcomes .kmallocInitMail) =
        (false, device) := congrArg (·, device) (decide_eq_false hmail)
    refine ⟨fun hboth => hmail hboth.1, -ENOMEM, by decide, ?_⟩
    rw [runWith_act outcomes hact, if_neg (by decide)]
    rfl

theorem run_unlockInit (err : ℤ) (device : Device) :
    runWith outcomes (unlockInit err) device = (err, device) := by rfl

theorem run_failMsg (err : ℤ) (device : Device) :
    runWith outcomes (failMsg err) device =
      (err, { device with suballocBuf := false }) := by rfl

/-- `init_mcu` gives back the pool on every error. -/
theorem run_initMcu (device : Device) (hpool : device.suballocBuf = false) :
    (InitSucceeds outcomes ∧ runWith outcomes initMcu device =
        (0, { device with suballocBuf := true })) ∨
      (¬ InitSucceeds outcomes ∧ ∃ err, err ≠ 0 ∧
        runWith outcomes initMcu device = (err, device)) := by
  have hrestored : { device with suballocBuf := false } = device := by
    rw [← hpool]
  unfold initMcu
  simp only [Prog.bind_eq, Prog.perform_bind]
  by_cases hlock : outcomes .mutexLockKillable = .signal
  · right
    have hact : device.act .mutexLockKillable (outcomes .mutexLockKillable) =
        (-EINTR, device) := by
      rw [hlock]
      rfl
    refine ⟨fun hinit => hinit.lock hlock, -EINTR, by decide, ?_⟩
    rw [runWith_act outcomes hact, if_pos rfl]
    rfl
  · have hact : device.act .mutexLockKillable (outcomes .mutexLockKillable) =
        (0, device) := by
      cases houtcome : outcomes .mutexLockKillable with
      | succeed => rfl
      | fail => rfl
      | signal => exact absurd houtcome hlock
    rw [runWith_act outcomes hact, if_neg (by decide)]
    rcases act_popInit outcomes .boot device with
      ⟨hboot, hpop⟩ | ⟨hboot, err, herr, hpop⟩
    · rw [runWith_act outcomes hpop, if_neg (by decide)]
      rcases act_allocSuballoc outcomes device hpool with ⟨halloc, hact⟩ | ⟨halloc, hact⟩
      · rw [runWith_act outcomes hact, if_neg (by decide), runWith_bind]
        rcases run_sendInit outcomes { device with suballocBuf := true } with
          ⟨hmail, hsend, hrun⟩ | ⟨hsend, err, herr, hrun⟩
        · rw [hrun, if_neg (show ¬ (0 : ℤ) ≠ 0 from by decide)]
          rcases act_popInit outcomes .acknowledge { device with suballocBuf := true }
            with ⟨hack, hpop⟩ | ⟨hack, err, herr, hpop⟩
          · left
            refine ⟨⟨hlock, hboot, halloc, hmail, hsend, hack⟩, ?_⟩
            rw [runWith_act outcomes hpop, if_neg (by decide), run_unlockInit]
          · right
            refine ⟨fun hinit => hack hinit.acknowledge, err, herr, ?_⟩
            rw [runWith_act outcomes hpop, if_pos herr, run_failMsg]
            exact congrArg (Prod.mk err) hrestored
        · right
          refine ⟨fun hinit => hsend ⟨hinit.mail, hinit.send⟩, err, herr, ?_⟩
          rw [hrun, if_pos herr, run_failMsg]
          exact congrArg (Prod.mk err) hrestored
      · right
        refine ⟨fun hinit => halloc hinit.pool, -ENOMEM, by decide, ?_⟩
        rw [runWith_act outcomes hact, if_pos (by decide), run_unlockInit]
    · right
      refine ⟨fun hinit => hboot hinit.boot, err, herr, ?_⟩
      rw [runWith_act outcomes hpop, if_pos herr, run_unlockInit]

def FirmwaresFound : Prop :=
  succeeds outcomes (.requestFirmware .main) ∧
    succeeds outcomes (.requestFirmware .bootloader)

theorem act_requestFirmware (which : Firmware) (device : Device) :
    (succeeds outcomes (.requestFirmware which) ∧
      device.act (.requestFirmware which) (outcomes (.requestFirmware which)) =
        (0, { device with firmware := Function.update device.firmware which true })) ∨
    (¬ succeeds outcomes (.requestFirmware which) ∧
      device.act (.requestFirmware which) (outcomes (.requestFirmware which)) =
        (-ENOENT, device)) := by
  unfold succeeds
  cases outcomes (.requestFirmware which) with
  | succeed => exact .inl ⟨rfl, rfl⟩
  | fail => exact .inr ⟨by decide, rfl⟩
  | signal => exact .inr ⟨by decide, rfl⟩

/-- A look-up that fails releases what it has found. -/
theorem run_requestAllFirmwares (device : Device)
    (hreleased : ∀ which, device.firmware which = false) :
    (FirmwaresFound outcomes ∧ ∃ firmware,
      runWith outcomes requestAllFirmwares device =
        (0, { device with firmware := firmware })) ∨
    (¬ FirmwaresFound outcomes ∧ ∃ firmware, (∀ which, firmware which = false) ∧
      runWith outcomes requestAllFirmwares device =
        (-ENOENT, { device with firmware := firmware })) := by
  unfold requestAllFirmwares
  simp only [Prog.bind_eq, Prog.perform_bind]
  rcases act_requestFirmware outcomes .main device with ⟨hmain, hact⟩ | ⟨hmain, hact⟩
  · rw [runWith_act outcomes hact, if_neg (show ¬ (0 : ℤ) ≠ 0 from by decide)]
    rcases act_requestFirmware outcomes .bootloader
      { device with firmware := Function.update device.firmware .main true } with
      ⟨hboot, hact⟩ | ⟨hboot, hact⟩
    · left
      refine ⟨⟨hmain, hboot⟩, Function.update
        (Function.update device.firmware .main true) .bootloader true, ?_⟩
      rw [runWith_act outcomes hact, if_neg (show ¬ (0 : ℤ) ≠ 0 from by decide)]
      rfl
    · right
      refine ⟨fun hfound => hboot hfound.2, Function.update
        (Function.update device.firmware .main true) .main false, ?_, ?_⟩
      · intro which
        cases which with
        | main => rfl
        | bootloader => exact hreleased .bootloader
      · rw [runWith_act outcomes hact, if_pos (show (-ENOENT : ℤ) ≠ 0 from by decide)]
        rfl
  · right
    refine ⟨fun hfound => hmain hfound.1, device.firmware, hreleased, ?_⟩
    rw [runWith_act outcomes hact, if_pos (show (-ENOENT : ℤ) ≠ 0 from by decide)]
    rfl

/-- The label releases both firmwares and touches neither the table nor the pool. -/
theorem run_releaseFirmwares (err : ℤ) (device : Device) :
    ∃ firmware, (∀ which, firmware which = false) ∧
      runWith outcomes (releaseFirmwares err) device =
        (err, { device with firmware := firmware, rootEnded := true }) := by
  refine ⟨Function.update (Function.update device.firmware .main false) .bootloader
    false, ?_, rfl⟩
  intro which
  cases which with
  | main => rfl
  | bootloader => rfl

def RootFits (device : Device) : Prop :=
  (device.usersArray ≠ .absent ∨ device.maxUsersNb = 0) ∧ device.freeSlot ≠ none

def Device.withRoot (device : Device) (slot : ℕ) : Device :=
  { device with
    users := Function.update device.users slot (some .root)
    rootUid := slot }

theorem bindRoot_cases (device : Device) :
    (RootFits device ∧ ∃ slot, device.freeSlot = some slot ∧
      device.bindRoot = (0, device.withRoot slot)) ∨
    (¬ RootFits device ∧ ∃ crashed, device.bindRoot =
      (-EAGAIN, { device with crashed := device.crashed || crashed })) := by
  unfold Device.bindRoot RootFits
  by_cases hnull : device.usersArray = .absent ∧ 0 < device.maxUsersNb
  · right
    refine ⟨?_, true, ?_⟩
    · rintro ⟨harray, _⟩
      rcases harray with hpresent | hzero
      · exact hpresent hnull.1
      · omega
    · rw [if_pos hnull, Bool.or_true]
  · rw [if_neg hnull]
    cases hslot : device.freeSlot with
    | none =>
        refine .inr ⟨fun hfits => hfits.2 rfl, false, ?_⟩
        rw [Bool.or_false]
    | some slot =>
        refine .inl ⟨⟨?_, by simp⟩, slot, rfl, rfl⟩
        by_contra hneither
        push Not at hneither
        exact hnull ⟨hneither.1, Nat.pos_of_ne_zero hneither.2⟩

theorem run_setupAndStartMcu (images : Images) (device : Device) :
    runWith outcomes (setupAndStartMcu images) device =
      (if images.fit then 0 else -EINVAL, device) := by
  unfold setupAndStartMcu
  cases images.fit with
  | false => rfl
  | true => rfl

/-- Root stays in the table when anything fails after its bind. -/
theorem run_startWithRoot (images : Images) (device : Device)
    (hpool : device.suballocBuf = false) :
    ∃ firmware, (∀ which, firmware which = false) ∧
      ((images.fit = true ∧ InitSucceeds outcomes ∧
        runWith outcomes (startWithRoot images) device =
          (0, { device with
            users := Function.update device.users device.rootUid none
            suballocBuf := true
            firmware := firmware
            rootEnded := true })) ∨
      (¬ (images.fit = true ∧ InitSucceeds outcomes) ∧ ∃ err, err ≠ 0 ∧
        runWith outcomes (startWithRoot images) device =
          (err, { device with firmware := firmware, rootEnded := true }))) := by
  unfold startWithRoot
  simp only [Prog.bind_eq, Prog.perform_bind, runWith_bind, run_setupAndStartMcu]
  cases hfit : images.fit with
  | false =>
      obtain ⟨firmware, hreleased, hrun⟩ :=
        run_releaseFirmwares outcomes (-EINVAL) device
      exact ⟨firmware, hreleased, .inr ⟨by simp, -EINVAL, by decide, hrun⟩⟩
  | true =>
      rw [if_pos rfl, if_neg (by decide), runWith_bind]
      rcases run_initMcu outcomes device hpool with
        ⟨hinit, hrun⟩ | ⟨hinit, err, herr, hrun⟩
      · obtain ⟨firmware, hreleased, hrelease⟩ := run_releaseFirmwares outcomes 0
          { device with
            suballocBuf := true
            users := Function.update device.users device.rootUid none }
        refine ⟨firmware, hreleased, .inl ⟨rfl, hinit, ?_⟩⟩
        rw [hrun, if_neg (show ¬ (0 : ℤ) ≠ 0 from by decide)]
        exact hrelease
      · obtain ⟨firmware, hreleased, hrelease⟩ := run_releaseFirmwares outcomes err device
        refine ⟨firmware, hreleased,
          .inr ⟨fun hboth => hinit hboth.2, err, herr, ?_⟩⟩
        rw [hrun, if_pos herr]
        exact hrelease

/-- A call of `al5_codec_set_firmware` that does not crash is atomic exactly when it
does not fail after the bind of root. -/
theorem setFirmware_atomic_iff (images : Images) {device : Device}
    (hprepared : Prepared device) :
    ((runWith outcomes (al5CodecSetFirmware images) device).2.crashed = false →
        FirmwareAtomic (runWith outcomes (al5CodecSetFirmware images) device)) ↔
      ¬ (FirmwaresFound outcomes ∧ RootFits device ∧
        ¬ (images.fit = true ∧ InitSucceeds outcomes)) := by
  obtain ⟨hroot, hreleased, hpool, hrunning⟩ := hprepared
  unfold al5CodecSetFirmware
  simp only [Prog.bind_eq, Prog.perform_bind, runWith_bind]
  rcases run_requestAllFirmwares outcomes device hreleased with
    ⟨hfound, firmware, hrun⟩ | ⟨hfound, firmware, hnone, hrun⟩
  · rw [hrun, if_neg (show ¬ (0 : ℤ) ≠ 0 from by decide)]
    rcases bindRoot_cases { device with firmware := firmware } with
      ⟨hfits, slot, hslot, hbind⟩ | ⟨hfits, crashed, hbind⟩
    · have hact : { device with firmware := firmware }.act .bindRoot
          (outcomes .bindRoot) = _ := hbind
      rw [runWith_act outcomes hact, if_neg (show ¬ (0 : ℤ) ≠ 0 from by decide)]
      obtain ⟨firmware', hnone, hstart⟩ := run_startWithRoot outcomes images
        ({ device with firmware := firmware }.withRoot slot) hpool
      rcases hstart with ⟨hfit, hinit, hstart⟩ | ⟨hfail, err, herr, hstart⟩
      · refine iff_of_true (fun _ => ?_) (fun hbad => hbad.2.2 ⟨hfit, hinit⟩)
        rw [hstart]
        refine ⟨?_, hnone, iff_of_true rfl rfl⟩
        intro other hother
        by_cases hsame : other = slot
        · rw [hsame] at hother
          have hempty := Function.update_self slot (none : Option Owner)
            (Function.update device.users slot (some .root))
          exact absurd (hempty.symm.trans hother) (by simp)
        · have houtside : Function.update (Function.update device.users slot
              (some .root)) slot none other = device.users other := by
            rw [Function.update_of_ne hsame, Function.update_of_ne hsame]
          exact hroot other (houtside.symm.trans hother)
      · refine iff_of_false ?_ (fun hgood => hgood ⟨hfound, hfits, hfail⟩)
        intro hatomic
        rw [hstart] at hatomic
        refine (hatomic hrunning).rootUnbound slot ?_
        exact Function.update_self slot (some .root) device.users
    · have hact : { device with firmware := firmware }.act .bindRoot
          (outcomes .bindRoot) = _ := hbind
      rw [runWith_act outcomes hact, if_pos (show (-EAGAIN : ℤ) ≠ 0 from by decide)]
      obtain ⟨firmware', hnone, hrelease⟩ := run_releaseFirmwares outcomes (-EAGAIN)
        { device with firmware := firmware, crashed := device.crashed || crashed }
      refine iff_of_true (fun _ => ?_) (fun hbad => hfits hbad.2.1)
      rw [hrelease]
      refine ⟨hroot, hnone, iff_of_false ?_ (show ¬ -EAGAIN = 0 from by decide)⟩
      exact ne_true_of_eq_false hpool
  · rw [hrun, if_pos (show (-ENOENT : ℤ) ≠ 0 from by decide)]
    refine iff_of_true (fun _ => ?_) (fun hbad => hfound hbad.1)
    refine ⟨hroot, hnone, iff_of_false ?_ (show ¬ -ENOENT = 0 from by decide)⟩
    exact ne_true_of_eq_false hpool

/-! ## Set up -/

/-- A step that touches neither the table nor the instruction cache, and does not
crash while the registers are mapped. -/
structure Keeps (device after : Device) : Prop where
  maxUsersNb : after.maxUsersNb = device.maxUsersNb
  usersArray : after.usersArray = device.usersArray
  icache : after.icache = device.icache
  regs : after.regs = device.regs
  crashed : device.regs = true → after.crashed = device.crashed

theorem Keeps.refl (device : Device) : Keeps device device :=
  ⟨rfl, rfl, rfl, rfl, fun _ => rfl⟩

theorem Keeps.trans {first second third : Device} (hfirst : Keeps first second)
    (hsecond : Keeps second third) : Keeps first third where
  maxUsersNb := hsecond.maxUsersNb.trans hfirst.maxUsersNb
  usersArray := hsecond.usersArray.trans hfirst.usersArray
  icache := hsecond.icache.trans hfirst.icache
  regs := hsecond.regs.trans hfirst.regs
  crashed hmapped :=
    (hsecond.crashed (hfirst.regs.trans hmapped)).trans (hfirst.crashed hmapped)

/-- A program which succeeds exactly under a condition, and keeps both. -/
def Stage (program : LifeProg ℤ) (condition : Prop) : Prop :=
  ∀ device, ∃ after, Keeps device after ∧
    ((condition ∧ runWith outcomes program device = (0, after)) ∨
      (¬ condition ∧ ∃ err, err < 0 ∧ runWith outcomes program device = (err, after)))

section Stages

variable {outcomes} {program rest : LifeProg ℤ} {condition : Prop} {device : Device}

/-- One stage after another: the first one to fail ends the set up. -/
theorem Stage.bind (hstage : Stage outcomes program condition)
    {post : ℤ × Device → Prop}
    (hrest : condition → ∀ after, Keeps device after →
      post (runWith outcomes rest after))
    (hfail : ¬ condition → ∀ err after, err < 0 → Keeps device after →
      post (err, after)) :
    post (runWith outcomes
      (program.bind fun err => if err ≠ 0 then failSetUp err else rest) device) := by
  rw [runWith_bind]
  obtain ⟨after, hkeeps, ⟨hcondition, hrun⟩ | ⟨hcondition, err, herr, hrun⟩⟩ :=
    hstage device
  · rw [hrun, if_neg (show ¬ (0 : ℤ) ≠ 0 from by decide)]
    exact hrest hcondition after hkeeps
  · rw [hrun, if_pos (show err ≠ 0 from by omega)]
    exact hfail hcondition err _ herr
      ⟨hkeeps.1, hkeeps.2, hkeeps.3, hkeeps.4, hkeeps.5⟩

end Stages

/-- The dedicated memory, if the device has one, can be used. -/
def DedicatedMemory : Prop :=
  succeeds outcomes .ofParsePhandle → succeeds outcomes .ofAddressToResource →
    succeeds outcomes .dmaSetCoherentMask

theorem stage_declareDedicatedMemory :
    Stage outcomes declareDedicatedMemory (DedicatedMemory outcomes) := by
  intro device
  unfold declareDedicatedMemory DedicatedMemory
  simp only [Prog.bind_eq, Prog.perform_bind]
  by_cases hnode : succeeds outcomes .ofParsePhandle
  · have hact : device.act .ofParsePhandle (outcomes .ofParsePhandle) =
        (true, device) := congrArg (·, device) (decide_eq_true hnode)
    rw [runWith_act outcomes hact, if_pos rfl]
    by_cases hresource : succeeds outcomes .ofAddressToResource
    · have herror : Device.errorOf (outcomes .ofAddressToResource) EINVAL = 0 :=
        if_pos hresource
      have hact : device.act .ofAddressToResource (outcomes .ofAddressToResource) =
          (0, device) := congrArg (·, device) herror
      rw [runWith_act outcomes hact, if_neg (show ¬ (0 : ℤ) ≠ 0 from by decide)]
      refine ⟨{ device with declaredMemory := true },
        ⟨rfl, rfl, rfl, rfl, fun _ => rfl⟩, ?_⟩
      by_cases hmask : succeeds outcomes .dmaSetCoherentMask
      · have herror : Device.errorOf (outcomes .dmaSetCoherentMask) EINVAL = 0 :=
          if_pos hmask
        exact .inl ⟨fun _ _ => hmask, congrArg (·, _) herror⟩
      · have herror : Device.errorOf (outcomes .dmaSetCoherentMask) EINVAL = -EINVAL :=
          if_neg hmask
        exact .inr ⟨fun hdedicated => hmask (hdedicated hnode hresource), -EINVAL,
          by decide, congrArg (·, _) herror⟩
    · have herror : Device.errorOf (outcomes .ofAddressToResource) EINVAL = -EINVAL :=
        if_neg hresource
      have hact : device.act .ofAddressToResource (outcomes .ofAddressToResource) =
          (-EINVAL, device) := congrArg (·, device) herror
      rw [runWith_act outcomes hact, if_pos (show (-EINVAL : ℤ) ≠ 0 from by decide)]
      exact ⟨device, Keeps.refl device,
        .inl ⟨fun _ hsucceeds => absurd hsucceeds hresource, rfl⟩⟩
  · have hact : device.act .ofParsePhandle (outcomes .ofParsePhandle) =
        (false, device) := congrArg (·, device) (decide_eq_false hnode)
    rw [runWith_act outcomes hact, if_neg (by decide)]
    exact ⟨device, Keeps.refl device,
      .inl ⟨fun hsucceeds => absurd hsucceeds hnode, rfl⟩⟩

theorem act_devmKmalloc (part : McuPart) (device : Device) :
    (succeeds outcomes (.devmKmalloc part) ∧
      device.act (.devmKmalloc part) (outcomes (.devmKmalloc part)) =
        (0, { device with mcu := Function.update device.mcu part .live })) ∨
    (¬ succeeds outcomes (.devmKmalloc part) ∧
      device.act (.devmKmalloc part) (outcomes (.devmKmalloc part)) =
        (-ENOMEM, device)) := by
  unfold succeeds
  cases outcomes (.devmKmalloc part) with
  | succeed => exact .inl ⟨rfl, rfl⟩
  | fail => exact .inr ⟨by decide, rfl⟩
  | signal => exact .inr ⟨by decide, rfl⟩

theorem run_mailboxInit (device : Device) :
    runWith outcomes (.act (.mailboxInit .cpuToMcu) fun _ =>
        .act (.mailboxInit .mcuToCpu) fun _ => pure (0 : ℤ)) device =
      (0, { device with
        crashed := device.crashed || !device.regs || !device.regs }) := by
  rfl

theorem stage_al5McuInterfaceCreate :
    Stage outcomes al5McuInterfaceCreate
      (∀ part, succeeds outcomes (.devmKmalloc part)) := by
  intro device
  unfold al5McuInterfaceCreate
  simp only [Prog.bind_eq, Prog.perform_bind]
  have hneg : (-ENOMEM : ℤ) < 0 := by decide
  rcases act_devmKmalloc outcomes .interface device with ⟨hfirst, hact⟩ | ⟨hfirst, hact⟩
  · rw [runWith_act outcomes hact, if_neg (show ¬ (0 : ℤ) ≠ 0 from by decide)]
    rcases act_devmKmalloc outcomes .mcuToCpu _ with ⟨hsecond, hact⟩ | ⟨hsecond, hact⟩
    · rw [runWith_act outcomes hact, if_neg (show ¬ (0 : ℤ) ≠ 0 from by decide)]
      rcases act_devmKmalloc outcomes .cpuToMcu _ with ⟨hthird, hact⟩ | ⟨hthird, hact⟩
      · rw [runWith_act outcomes hact, if_neg (show ¬ (0 : ℤ) ≠ 0 from by decide),
          run_mailboxInit]
        refine ⟨_, ?_, .inl ⟨?_, rfl⟩⟩
        · refine ⟨rfl, rfl, rfl, rfl, fun hmapped => ?_⟩
          show (device.crashed || !device.regs || !device.regs) = device.crashed
          rw [hmapped]
          simp
        · intro part
          cases part with
          | interface => exact hfirst
          | mcuToCpu => exact hsecond
          | cpuToMcu => exact hthird
      · rw [runWith_act outcomes hact, if_pos (show (-ENOMEM : ℤ) ≠ 0 from by decide)]
        refine ⟨_, ?_, .inr ⟨fun hall => hthird (hall _), _, hneg, rfl⟩⟩
        exact ⟨rfl, rfl, rfl, rfl, fun _ => rfl⟩
    · rw [runWith_act outcomes hact, if_pos (show (-ENOMEM : ℤ) ≠ 0 from by decide)]
      refine ⟨_, ?_, .inr ⟨fun hall => hsecond (hall _), _, hneg, rfl⟩⟩
      exact ⟨rfl, rfl, rfl, rfl, fun _ => rfl⟩
  · rw [runWith_act outcomes hact, if_pos (show (-ENOMEM : ℤ) ≠ 0 from by decide)]
    exact ⟨_, Keeps.refl device, .inr ⟨fun hall => hfirst (hall _), _, hneg, rfl⟩⟩

/-- The mailboxes of registers that are not mapped are at an address near 0. -/
theorem crashed_al5McuInterfaceCreate {device : Device} (hunmapped : device.regs = false)
    (hsucceeds : (runWith outcomes al5McuInterfaceCreate device).1 = 0) :
    (runWith outcomes al5McuInterfaceCreate device).2.crashed = true := by
  revert hsucceeds
  unfold al5McuInterfaceCreate
  simp only [Prog.bind_eq, Prog.perform_bind]
  have hfails : (-ENOMEM : ℤ) ≠ 0 := by decide
  rcases act_devmKmalloc outcomes .interface device with ⟨-, hact⟩ | ⟨-, hact⟩
  · rw [runWith_act outcomes hact, if_neg (show ¬ (0 : ℤ) ≠ 0 from by decide)]
    rcases act_devmKmalloc outcomes .mcuToCpu _ with ⟨-, hact⟩ | ⟨-, hact⟩
    · rw [runWith_act outcomes hact, if_neg (show ¬ (0 : ℤ) ≠ 0 from by decide)]
      rcases act_devmKmalloc outcomes .cpuToMcu _ with ⟨-, hact⟩ | ⟨-, hact⟩
      · rw [runWith_act outcomes hact, if_neg (show ¬ (0 : ℤ) ≠ 0 from by decide),
          run_mailboxInit]
        intro _
        show (device.crashed || !device.regs || !device.regs) = true
        rw [hunmapped]
        simp
      · rw [runWith_act outcomes hact, if_pos hfails]
        exact fun hsucceeds => absurd hsucceeds hfails
    · rw [runWith_act outcomes hact, if_pos hfails]
      exact fun hsucceeds => absurd hsucceeds hfails
  · rw [runWith_act outcomes hact, if_pos hfails]
    exact fun hsucceeds => absurd hsucceeds hfails

structure ReachesGroup : Prop where
  resource : succeeds outcomes .platformGetResource
  irq : succeeds outcomes .platformGetIrq
  regs : succeeds outcomes .devmIoremapNocache
  dedicatedMemory : DedicatedMemory outcomes
  mcu : ∀ part, succeeds outcomes (.devmKmalloc part)

/-- From the mapped registers on, a set up either fails before it has the table, or
goes on from there, or has crashed. -/
def EndsSetUp (device : Device) (result : ℤ × Device) : Prop :=
  (ReachesGroup outcomes ∧ ∃ after, Keeps { device with regs := true } after ∧
    result = runWith outcomes setUpGroup after) ∨
  (¬ ReachesGroup outcomes ∧ (result.2.crashed = true ∨
    result.2.usersArray = device.usersArray ∧ result.2.icache = device.icache))

theorem run_al5CodecSetUp (device : Device) :
    EndsSetUp outcomes device (runWith outcomes al5CodecSetUp device) := by
  have hmemory := stage_declareDedicatedMemory outcomes
  have hmcu := stage_al5McuInterfaceCreate outcomes
  unfold al5CodecSetUp
  simp only [Prog.bind_eq]
  rw [runWith_bind]
  by_cases hresource : succeeds outcomes .platformGetResource
  · have hact : runWith outcomes (Prog.perform LifeAct.platformGetResource) device =
        (0, device) := congrArg (·, device) (if_pos hresource)
    rw [hact, if_neg (show ¬ (0 : ℤ) ≠ 0 from by decide), runWith_bind]
    by_cases hirq : succeeds outcomes .platformGetIrq
    · have hact : runWith outcomes (Prog.perform LifeAct.platformGetIrq) device =
          (0, device) := congrArg (·, device) (if_pos hirq)
      rw [hact, if_neg (show ¬ (0 : ℤ) < 0 from by decide), runWith_bind]
      have hmap : runWith outcomes (Prog.perform LifeAct.devmIoremapNocache) device =
          (0, { device with regs := succeeds outcomes .devmIoremapNocache }) := rfl
      rw [hmap, if_neg (show ¬ (0 : ℤ) ≠ 0 from by decide)]
      by_cases hregs : succeeds outcomes .devmIoremapNocache
      · rw [decide_eq_true hregs]
        refine hmemory.bind (fun hmemory after hkeeps => ?_)
          fun hfails err after _ hkeeps => .inr ⟨fun hall => hfails hall.dedicatedMemory,
            .inr ⟨hkeeps.usersArray, hkeeps.icache⟩⟩
        exact hmcu.bind
          (fun hmcu after' hkeeps' => .inl ⟨⟨hresource, hirq, hregs, hmemory, hmcu⟩,
            after', hkeeps.trans hkeeps', rfl⟩)
          fun hfails err after' _ hkeeps' => .inr ⟨fun hall => hfails hall.mcu,
            .inr ⟨(hkeeps.trans hkeeps').usersArray, (hkeeps.trans hkeeps').icache⟩⟩
      · rw [decide_eq_false hregs]
        have hnever : ¬ ReachesGroup outcomes := fun hall => hregs hall.regs
        refine hmemory.bind (fun _ after hkeeps => ?_)
          fun _ err after _ hkeeps => .inr ⟨hnever,
            .inr ⟨hkeeps.usersArray, hkeeps.icache⟩⟩
        rw [runWith_bind]
        by_cases hcreated : (runWith outcomes al5McuInterfaceCreate after).1 = 0
        · rw [hcreated, if_neg (show ¬ (0 : ℤ) ≠ 0 from by decide)]
          exact .inr ⟨hnever, .inl (crashed_runWith outcomes setUpGroup
            (crashed_al5McuInterfaceCreate outcomes hkeeps.regs hcreated))⟩
        · rw [if_pos hcreated]
          obtain ⟨after', hkeeps', ⟨_, hrun⟩ | ⟨_, err, _, hrun⟩⟩ := hmcu after
          · exact absurd (congrArg Prod.fst hrun) hcreated
          · rw [hrun]
            exact .inr ⟨hnever, .inr ⟨(hkeeps.trans hkeeps').usersArray,
              (hkeeps.trans hkeeps').icache⟩⟩
    · have hact : runWith outcomes (Prog.perform LifeAct.platformGetIrq) device =
          (- ENXIO, device) := congrArg (·, device) (if_neg hirq)
      rw [hact, if_pos (show (- ENXIO : ℤ) < 0 from by decide)]
      exact .inr ⟨fun hall => hirq hall.irq, .inr ⟨rfl, rfl⟩⟩
  · have hact : runWith outcomes (Prog.perform LifeAct.platformGetResource) device =
        (- ENODEV, device) := congrArg (·, device) (if_neg hresource)
    rw [hact, if_pos (show (- ENODEV : ℤ) ≠ 0 from by decide)]
    exact .inr ⟨fun hall => hresource hall.resource, .inr ⟨rfl, rfl⟩⟩

def tableOf (device : Device) : Lifetime :=
  if 0 < device.maxUsersNb ∧ succeeds outcomes .kcallocUsers then .live
  else device.usersArray

theorem act_kcallocUsers (device : Device) :
    device.act .kcallocUsers (outcomes .kcallocUsers) =
      ((), { device with usersArray := tableOf outcomes device }) := by
  have hact : ∀ outcome, device.act .kcallocUsers outcome =
      ((), { device with
        usersArray := if 0 < device.maxUsersNb ∧ outcome = .succeed then .live
          else device.usersArray }) := by
    intro outcome
    cases outcome with
    | succeed =>
        refine congrArg (Prod.mk ()) ?_
        by_cases hzero : device.maxUsersNb = 0
        · rw [if_pos hzero, if_neg (by omega)]
        · rw [if_neg hzero, if_pos ⟨Nat.pos_of_ne_zero hzero, rfl⟩]
    | fail =>
        rw [if_neg (by simp)]
        rfl
    | signal =>
        rw [if_neg (by simp)]
        rfl
  exact hact (outcomes .kcallocUsers)

theorem act_requestIrq (device : Device) :
    (succeeds outcomes .requestIrq ∧
      device.act .requestIrq (outcomes .requestIrq) =
        (0, { device with irqRegistered := true })) ∨
    (¬ succeeds outcomes .requestIrq ∧
      device.act .requestIrq (outcomes .requestIrq) = (-EINVAL, device)) := by
  unfold succeeds
  cases outcomes .requestIrq with
  | succeed => exact .inl ⟨rfl, rfl⟩
  | fail => exact .inr ⟨by decide, rfl⟩
  | signal => exact .inr ⟨by decide, rfl⟩

/-- No error after `al5_group_init` gives back the table; the instruction cache is
given back. -/
theorem run_setUpGroup (device : Device) (hicache : device.icache = false) :
    (succeeds outcomes .allocIcache ∧ succeeds outcomes .requestIrq ∧
      (runWith outcomes setUpGroup device).1 = 0) ∨
    (¬ (succeeds outcomes .allocIcache ∧ succeeds outcomes .requestIrq) ∧
      (runWith outcomes setUpGroup device).1 ≠ 0 ∧
      (runWith outcomes setUpGroup device).2.icache = false ∧
      (runWith outcomes setUpGroup device).2.usersArray = tableOf outcomes device ∧
      (runWith outcomes setUpGroup device).2.crashed = device.crashed) := by
  have hfails : (-ENOMEM : ℤ) ≠ 0 := by decide
  have hrefused : (-EINVAL : ℤ) ≠ 0 := by decide
  unfold setUpGroup
  simp only [Prog.bind_eq, Prog.perform_bind]
  rw [runWith_act outcomes (act_kcallocUsers outcomes device)]
  by_cases halloc : succeeds outcomes .allocIcache
  · have hact : { device with usersArray := tableOf outcomes device }.act .allocIcache
        (outcomes .allocIcache) =
          (0, { device with usersArray := tableOf outcomes device, icache := true }) := by
      rw [show outcomes .allocIcache = .succeed from halloc]
      rfl
    rw [runWith_act outcomes hact, if_neg (show ¬ (0 : ℤ) ≠ 0 from by decide)]
    rcases act_requestIrq outcomes _ with ⟨hirq, hact⟩ | ⟨hirq, hact⟩
    · left
      rw [runWith_act outcomes hact, if_neg (show ¬ (0 : ℤ) ≠ 0 from by decide)]
      exact ⟨halloc, hirq, rfl⟩
    · right
      rw [runWith_act outcomes hact, if_pos hrefused]
      exact ⟨fun hboth => hirq hboth.2, hrefused, rfl, rfl, rfl⟩
  · have hact : { device with usersArray := tableOf outcomes device }.act .allocIcache
        (outcomes .allocIcache) =
          (-ENOMEM, { device with usersArray := tableOf outcomes device }) := by
      cases houtcome : outcomes .allocIcache with
      | succeed => exact absurd houtcome halloc
      | fail => rfl
      | signal => rfl
    right
    rw [runWith_act outcomes hact, if_pos hfails]
    exact ⟨fun hboth => halloc hboth.1, hfails, hicache, rfl, rfl⟩

/-- A set up that does not crash is atomic exactly when it does not fail while it
holds the table. -/
theorem setUp_atomic_iff (maxUsersNb : ℕ) :
    ((runWith outcomes al5CodecSetUp (fresh maxUsersNb)).2.crashed = false →
        SetUpAtomic (runWith outcomes al5CodecSetUp (fresh maxUsersNb))) ↔
      ¬ (ReachesGroup outcomes ∧ (0 < maxUsersNb ∧ succeeds outcomes .kcallocUsers) ∧
        ¬ (succeeds outcomes .allocIcache ∧ succeeds outcomes .requestIrq)) := by
  unfold SetUpAtomic
  rcases run_al5CodecSetUp outcomes (fresh maxUsersNb) with
    ⟨hreaches, after, hkeeps, hrun⟩ | ⟨hreaches, hcrashed | ⟨harray, hicache⟩⟩
  · rw [hrun]
    have htable : tableOf outcomes after =
        if 0 < maxUsersNb ∧ succeeds outcomes .kcallocUsers then .live else .absent := by
      unfold tableOf
      rw [hkeeps.maxUsersNb, hkeeps.usersArray]
      rfl
    rcases run_setUpGroup outcomes after hkeeps.icache with
      ⟨halloc, hirq, hzero⟩ | ⟨hfails, hne, hicache, harray, hsame⟩
    · exact iff_of_true (fun _ hne => absurd hzero hne)
        (fun hbad => hbad.2.2 ⟨halloc, hirq⟩)
    · have hrunning : (runWith outcomes setUpGroup after).2.crashed = false :=
        hsame.trans (hkeeps.crashed rfl)
      rw [harray, htable]
      by_cases hheld : 0 < maxUsersNb ∧ succeeds outcomes .kcallocUsers
      · rw [if_pos hheld]
        exact iff_of_false (fun hatomic => (hatomic hrunning hne).1 rfl)
          (fun hgood => hgood ⟨hreaches, hheld, hfails⟩)
      · rw [if_neg hheld]
        exact iff_of_true (fun _ _ => ⟨by decide, hicache⟩)
          (fun hbad => hheld hbad.2.1)
  · refine iff_of_true (fun hrunning => ?_) (fun hbad => hreaches hbad.1)
    rw [hcrashed] at hrunning
    cases hrunning
  · refine iff_of_true (fun _ _ => ⟨?_, hicache⟩) (fun hbad => hreaches hbad.1)
    rw [harray]
    exact show Lifetime.absent ≠ .live from by decide

/-! ## Bring-up -/

/-- The exact conditions of both calls, when they do not crash. -/
theorem bringUp_atomic_iff (maxUsersNb : ℕ) (images : Images) {device : Device}
    (hprepared : Prepared device) :
    (((runWith outcomes al5CodecSetUp (fresh maxUsersNb)).2.crashed = false →
        SetUpAtomic (runWith outcomes al5CodecSetUp (fresh maxUsersNb))) ↔
      ¬ (ReachesGroup outcomes ∧ (0 < maxUsersNb ∧ succeeds outcomes .kcallocUsers) ∧
        ¬ (succeeds outcomes .allocIcache ∧ succeeds outcomes .requestIrq))) ∧
    (((runWith outcomes (al5CodecSetFirmware images) device).2.crashed = false →
        FirmwareAtomic (runWith outcomes (al5CodecSetFirmware images) device)) ↔
      ¬ (FirmwaresFound outcomes ∧ RootFits device ∧
        ¬ (images.fit = true ∧ InitSucceeds outcomes))) :=
  ⟨setUp_atomic_iff outcomes maxUsersNb,
    setFirmware_atomic_iff outcomes images hprepared⟩

def prepared : Device :=
  { fresh 4 with
    regs := true
    usersArray := .live
    icache := true
    irqRegistered := true }

theorem prepared_prepared : Prepared prepared where
  rootUnbound _ := Option.some_ne_none _ ∘ Eq.symm
  released _ := rfl
  pool := rfl
  running := rfl

/-- Every call succeeds, except that the MCU does not acknowledge its
configuration. -/
def unacknowledged : Outcomes := fun action =>
  if action = .popInit .acknowledge then .fail else .succeed

theorem bringUp_atomic_all_succeed :
    (((runWith (fun _ => .succeed) al5CodecSetUp (fresh 4)).2.crashed = false →
        SetUpAtomic (runWith (fun _ => .succeed) al5CodecSetUp (fresh 4))) ↔
      ¬ (ReachesGroup (fun _ => .succeed) ∧
        (0 < 4 ∧ succeeds (fun _ => .succeed) .kcallocUsers) ∧
        ¬ (succeeds (fun _ => .succeed) .allocIcache ∧
          succeeds (fun _ => .succeed) .requestIrq))) ∧
    (((runWith (fun _ => .succeed) (al5CodecSetFirmware ⟨1000, 1000⟩)
        prepared).2.crashed = false →
        FirmwareAtomic (runWith (fun _ => .succeed) (al5CodecSetFirmware ⟨1000, 1000⟩)
          prepared)) ↔
      ¬ (FirmwaresFound (fun _ => .succeed) ∧ RootFits prepared ∧
        ¬ ((⟨1000, 1000⟩ : Images).fit = true ∧ InitSucceeds fun _ => .succeed))) :=
  bringUp_atomic_iff (fun _ => .succeed) 4 ⟨1000, 1000⟩ prepared_prepared

/-- The MCU does not acknowledge: root, which no longer exists, stays in slot 0. -/
theorem not_bringUp_atomic_unacknowledged :
    ¬ ∀ (outcomes : Outcomes) (maxUsersNb : ℕ) (images : Images) (device : Device),
      Prepared device →
        ((runWith outcomes al5CodecSetUp (fresh maxUsersNb)).2.crashed = false →
          SetUpAtomic (runWith outcomes al5CodecSetUp (fresh maxUsersNb))) ∧
        ((runWith outcomes (al5CodecSetFirmware images) device).2.crashed = false →
          FirmwareAtomic (runWith outcomes (al5CodecSetFirmware images) device)) := by
  intro hall
  have hatomic := (hall unacknowledged 4 ⟨1000, 1000⟩ prepared prepared_prepared).2
    (by decide)
  have hroot : (runWith unacknowledged (al5CodecSetFirmware ⟨1000, 1000⟩)
      prepared).2.users 0 = some .root := by decide
  exact hatomic.rootUnbound 0 hroot

end VcuDriver.Lifecycle

import VcuDriver.Conc.Discipline
import VcuDriver.UserOps

/-!
# How often a call allocates

Each mail that a call builds is one allocation, and so is the memory pool of the MCU.
The programs below allocate at most as often as they have mails to build, whatever their
actions return.
-/

namespace VcuDriver

open Conc

variable {α β : Type} {m n : ℕ}

/-- A call that allocates no more often than its record says. -/
def allocationDiscipline : Discipline UserAct UserAct.Res ℕ where
  may left action := action = .kmalloc → 0 < left
  possible _ _ := True
  next left action _ :=
    match action with
    | .kmalloc => left - 1
    | _ => left

/-- The program allocates at most `n` times and leaves the other allocations to what
follows it. -/
def Allocates (n : ℕ) (program : UserProg α) : Prop :=
  ∀ left, allocationDiscipline.Follows (n + left) program fun _ last => left ≤ last

def UserAct.isKmalloc : UserAct → Bool
  | .kmalloc => true
  | _ => false

/-! ## The rules -/

theorem allocates_ret (value : α) : Allocates n (.ret value : UserProg α) :=
  fun left => Discipline.follows_ret (Nat.le_add_left left n)

theorem allocates_act
    {action : UserAct} {next : action.Res → UserProg α} (hother : action.isKmalloc = false)
    (hnext : ∀ result, Allocates n (next result)) : Allocates n (.act action next) := by
  intro left
  refine Discipline.follows_act ?_ fun result _ => ?_
  · rintro rfl
    exact absurd hother Bool.true_eq_false.mp
  · cases action with
    | kmalloc => exact absurd hother Bool.true_eq_false.mp
    | _ => exact hnext result left

/-- The rule of an action that the program binds. -/
theorem allocates_perform
    {action : UserAct} {f : action.Res → UserProg α} (hother : action.isKmalloc = false)
    (hrest : ∀ result, Allocates n (f result)) :
    Allocates n ((Prog.perform action).bind f) := by
  refine allocates_act hother fun result => ?_
  rw [Prog.ret_bind]
  exact hrest result

theorem allocates_kmalloc
    {next : Bool → UserProg α} (hnext : ∀ result, Allocates n (next result)) :
    Allocates (n + 1) (.act UserAct.kmalloc next) := by
  intro left
  refine Discipline.follows_act (fun _ => by omega) fun result _ => ?_
  have hleft : allocationDiscipline.next (n + 1 + left) .kmalloc result = n + left := by
    change n + 1 + left - 1 = n + left
    omega
  rw [hleft]
  exact hnext result left

theorem allocates_bind
    {program : UserProg α} {f : α → UserProg β} (hfirst : Allocates m program)
    (hrest : ∀ value, Allocates n (f value)) : Allocates (m + n) (program.bind f) := by
  intro left
  rw [Nat.add_assoc]
  refine (hfirst (n + left)).bind fun value last hlast => ?_
  obtain ⟨more, rfl⟩ := Nat.exists_eq_add_of_le hlast
  rw [Nat.add_assoc]
  exact (hrest value (left + more)).mono fun _ _ hle => Nat.le_of_add_right_le hle

theorem Allocates.mono
    {program : UserProg α} (hallocates : Allocates m program) (hle : m ≤ n) :
    Allocates n program := by
  obtain ⟨more, rfl⟩ := Nat.exists_eq_add_of_le hle
  intro left
  rw [Nat.add_assoc]
  exact (hallocates (more + left)).mono fun _ _ hlast =>
    Nat.le_trans (Nat.le_add_left left more) hlast

/-- What follows a program that does not allocate. -/
theorem allocates_then
    {program : UserProg α} {f : α → UserProg β} (hfirst : Allocates 0 program)
    (hrest : ∀ value, Allocates n (f value)) : Allocates n (program.bind f) := by
  rw [← Nat.zero_add n]
  exact allocates_bind hfirst hrest

theorem Allocates.map
    {program : UserProg α} (hallocates : Allocates n program) (f : α → β) :
    Allocates n (program.bind fun value => .ret (f value)) :=
  allocates_bind hallocates fun value => allocates_ret (n := 0) (f value)

/-! ## Mails and queues -/

theorem allocates_buildMail (constructor : Bool → MailResult) :
    Allocates 1 (buildMail constructor) := by
  refine allocates_kmalloc fun kmalloc => ?_
  rw [Prog.ret_bind]
  cases constructor kmalloc with
  | ok mail => exact allocates_ret mail
  | error _ => exact allocates_act rfl fun _ => allocates_ret none

theorem allocates_sendBuilt (constructor : Bool → MailResult) :
    Allocates 1 (sendBuilt constructor) := by
  refine allocates_bind (n := 0) (allocates_buildMail constructor) ?_
  rintro (_ | mail)
  · exact allocates_ret _
  · exact allocates_act rfl fun err => allocates_ret err

theorem allocates_queuePop (which : UserMail) : Allocates 0 (al5QueuePop which) :=
  allocates_perform rfl fun _ => allocates_act rfl fun mail => allocates_ret mail

theorem allocates_queuePopTimeout (which : UserMail) :
    Allocates 0 (al5QueuePopTimeout which) := by
  refine allocates_perform rfl fun err => allocates_perform rfl fun feedback => ?_
  cases feedback with
  | none => exact allocates_ret _
  | some mail => exact allocates_ret _

/-! ## Destroying the channel -/

theorem allocates_unlockAll (operations : List UserOperation) :
    Allocates 0 (unlockAll operations) := by
  induction operations with
  | nil => exact allocates_ret ()
  | cons operation rest ih => exact allocates_perform rfl fun _ => ih

theorem allocates_lockAll (operations taken : List UserOperation) :
    Allocates 0 (lockAll operations taken) := by
  induction operations generalizing taken with
  | nil => exact allocates_ret true
  | cons operation rest ih =>
      refine allocates_perform rfl fun err => ?_
      split_ifs
      · exact allocates_then (allocates_unlockAll taken) fun _ => allocates_ret false
      · exact ih (taken ++ [operation])

theorem allocates_forgetChannel : Allocates 0 forgetChannel :=
  allocates_perform rfl fun _ => allocates_perform rfl fun _ => allocates_perform rfl fun _ =>
    allocates_act rfl fun _ => allocates_ret ()

theorem allocates_destroyUnderLocks (quiet : Bool) :
    Allocates 1 (destroyUnderLocks quiet) := by
  refine allocates_perform rfl fun chanUid => ?_
  cases quiet with
  | true =>
      refine allocates_bind (n := 0) (allocates_sendBuilt _) fun err => ?_
      split_ifs
      · exact allocates_ret err
      · exact allocates_then allocates_forgetChannel fun _ => allocates_ret 0
  | false =>
      refine allocates_bind (n := 0) (allocates_sendBuilt _) fun err => ?_
      split_ifs
      · exact allocates_ret err
      · refine allocates_then (allocates_queuePop .destroy) fun mail => ?_
        cases mail with
        | none => exact allocates_ret _
        | some mail =>
            refine allocates_perform rfl fun _ => ?_
            exact allocates_then allocates_forgetChannel fun _ => allocates_ret 0

theorem allocates_destroyChannel (quiet : Bool) :
    Allocates 1 (al5UserDestroyChannel quiet) := by
  have hunlock : Allocates 0 userQueuesUnlock :=
    allocates_perform rfl fun _ => allocates_perform rfl fun _ =>
      allocates_perform rfl fun _ => allocates_act rfl fun _ => allocates_ret ()
  have hlock : Allocates 0 userQueuesLock :=
    allocates_perform rfl fun _ => allocates_perform rfl fun _ =>
      allocates_perform rfl fun _ => allocates_act rfl fun _ => allocates_ret ()
  refine allocates_perform rfl fun chanUid => ?_
  split_ifs
  · exact allocates_ret _
  · refine allocates_then hunlock fun _ => ?_
    refine allocates_then (allocates_lockAll userOperations []) fun locked => ?_
    split_ifs
    · refine allocates_bind (n := 0) (allocates_destroyUnderLocks quiet) fun err => ?_
      refine allocates_then (allocates_unlockAll userOperations) fun _ => ?_
      exact allocates_then hlock fun _ => allocates_ret err
    · exact allocates_then hlock fun _ => allocates_ret _

/-! ## Creating a channel -/

theorem allocates_sendBuffers (mailUid : MailUid) (pool : BufferPool) :
    Allocates 1 (sendBuffers mailUid pool) :=
  allocates_perform rfl fun _ => allocates_perform rfl fun _ => allocates_sendBuilt _

theorem allocates_createSendReference : Allocates 1 createSendReference := by
  refine allocates_perform rfl fun checkpoint => ?_
  split_ifs
  · refine allocates_bind (n := 0) (allocates_sendBuffers _ _) fun err => ?_
    split_ifs
    · exact allocates_perform rfl fun _ => allocates_ret err
    · exact allocates_perform rfl fun _ => allocates_perform rfl fun _ => allocates_ret 0
  · exact allocates_perform rfl fun _ => allocates_ret 0

theorem allocates_createSendIntermediate : Allocates 2 createSendIntermediate := by
  refine allocates_perform rfl fun checkpoint => ?_
  split_ifs
  · refine allocates_bind (n := 1) (allocates_sendBuffers _ _) fun err => ?_
    split_ifs
    · exact allocates_perform rfl fun _ => allocates_ret err
    · exact allocates_perform rfl fun _ => allocates_createSendReference
  · exact allocates_createSendReference.mono (Nat.le_succ 1)

theorem allocates_allocateChannelBuffers (buffers : Al5ChannelBuffers) :
    Allocates 0 (allocateChannelBuffers buffers) := by
  refine allocates_perform rfl fun err => ?_
  split_ifs
  · exact allocates_ret err
  · exact allocates_act rfl fun err => allocates_ret err

theorem allocates_createAllocate (message : Al5eFeedbackChannel) :
    Allocates 2 (createAllocate message) := by
  refine allocates_perform rfl fun checkpoint => ?_
  split_ifs
  · refine allocates_then (allocates_allocateChannelBuffers _) fun err => ?_
    split_ifs
    · refine allocates_perform rfl fun _ => allocates_perform rfl fun _ => ?_
      have hdestroy := (allocates_destroyChannel false).mono (Nat.le_succ 1)
      exact hdestroy.map fun _ => err
    · exact allocates_perform rfl fun _ => allocates_createSendIntermediate
  · exact allocates_createSendIntermediate

theorem allocates_tryToCreateChannel (uid : Word) (param : Al5Params)
    (status : Al5eChannelStatus) : Allocates 1 (tryToCreateChannel uid param status) := by
  refine allocates_bind (n := 0) (allocates_sendBuilt _) fun err => ?_
  split_ifs
  · exact allocates_ret _
  · refine allocates_then (allocates_queuePopTimeout .create) ?_
    rintro ⟨err, _ | mail⟩
    · exact allocates_ret _
    · refine allocates_perform rfl fun _ => ?_
      split_ifs
      · exact allocates_ret _
      · exact allocates_perform rfl fun _ => allocates_ret _

theorem allocates_channelIsFullyCreated : Allocates 0 channelIsFullyCreated := by
  refine allocates_perform rfl fun chanUid => ?_
  split_ifs
  · exact allocates_ret false
  · exact allocates_perform rfl fun checkpoint => allocates_ret _

theorem allocates_encoderCreate (uid : Word) (param : Al5Params)
    (status : Al5eChannelStatus) :
    Allocates 3 (al5eUserCreateChannel uid param status) := by
  refine allocates_perform rfl fun err => ?_
  split_ifs
  · exact allocates_ret _
  · refine allocates_then allocates_channelIsFullyCreated fun created => ?_
    split_ifs
    · exact allocates_perform rfl fun _ => allocates_ret _
    · refine allocates_perform rfl fun checkpoint => ?_
      split_ifs
      · refine allocates_bind (n := 2) (allocates_tryToCreateChannel uid param status) ?_
        rintro ⟨err, status, message⟩
        dsimp only
        split_ifs
        · exact allocates_perform rfl fun _ => allocates_ret _
        · refine allocates_perform rfl fun _ => ?_
          exact (allocates_createAllocate message).map fun err => (err, status)
      · have hresumed := (allocates_createAllocate zeroFeedback).mono (Nat.le_succ 2)
        exact hresumed.map fun err => (err, status)

theorem allocates_decoderCreate (uid : Word) (param : Al5Params)
    (status : Al5dChannelStatus) :
    Allocates 1 (al5dUserCreateChannel uid param status) := by
  refine allocates_perform rfl fun err => ?_
  split_ifs
  · exact allocates_ret _
  · refine allocates_perform rfl fun chanUid => ?_
    split_ifs
    · exact allocates_perform rfl fun _ => allocates_ret _
    · refine allocates_bind (n := 0) (allocates_sendBuilt _) fun err => ?_
      split_ifs
      · exact allocates_perform rfl fun _ => allocates_ret _
      · refine allocates_then (allocates_queuePopTimeout .create) ?_
        rintro ⟨err, _ | mail⟩
        · exact allocates_perform rfl fun _ => allocates_ret _
        · have hinit : Allocates 0 (initChan mail) := by
            refine allocates_perform rfl fun _ => allocates_perform rfl fun chanUid => ?_
            split_ifs <;> exact allocates_ret _
          refine allocates_then hinit fun err => ?_
          exact allocates_perform rfl fun _ => allocates_perform rfl fun _ => allocates_ret _

/-! ## The other requests -/

theorem allocates_sendFrameCommand (constructor : Word → Bool → MailResult) :
    Allocates 1 (sendFrameCommand constructor) := by
  refine allocates_perform rfl fun err => ?_
  split_ifs
  · exact allocates_ret err
  · refine allocates_perform rfl fun chanUid => ?_
    split_ifs
    · exact allocates_perform rfl fun _ => allocates_ret _
    · refine allocates_perform rfl fun chanUid => ?_
      refine allocates_bind (n := 0) (allocates_sendBuilt _) fun err => ?_
      exact allocates_perform rfl fun _ => allocates_ret err

theorem allocates_putStreamBuffer (buffer : Al5Buffer) :
    Allocates 1 (al5eUserPutStreamBuffer buffer) := by
  refine allocates_perform rfl fun chanUid => ?_
  split_ifs
  · exact allocates_ret _
  · refine allocates_perform rfl fun result => ?_
    cases result with
    | error error => exact allocates_ret error
    | ok info =>
        dsimp only
        split_ifs
        · exact allocates_ret _
        · exact allocates_perform rfl fun _ => allocates_sendBuilt _

theorem allocates_getUserRecBuffer (id : Word) : Allocates 0 (getUserRecBuffer id) := by
  refine allocates_perform rfl fun bufpool => ?_
  split_ifs
  · exact allocates_ret _
  · exact allocates_act rfl fun fd => allocates_ret fd

theorem allocates_getRec : Allocates 1 al5eUserGetRec := by
  refine allocates_perform rfl fun locked => ?_
  split_ifs
  · refine allocates_perform rfl fun chanUid => ?_
    split_ifs
    · exact allocates_perform rfl fun _ => allocates_ret _
    · refine allocates_perform rfl fun chanUid => ?_
      refine allocates_bind (n := 0) (allocates_sendBuilt _) fun err => ?_
      split_ifs
      · exact allocates_perform rfl fun _ => allocates_ret _
      · refine allocates_then (allocates_queuePop .reconstructed) fun feedback => ?_
        cases feedback with
        | none => exact allocates_perform rfl fun _ => allocates_ret _
        | some mail =>
            refine allocates_then (allocates_getUserRecBuffer _) fun fd => ?_
            refine allocates_perform rfl fun _ => allocates_perform rfl fun _ => ?_
            split_ifs <;> exact allocates_ret _
  · exact allocates_ret _

theorem allocates_releaseRec (fd : Word) : Allocates 1 (al5eUserReleaseRec fd) := by
  refine allocates_perform rfl fun locked => ?_
  split_ifs
  · refine allocates_perform rfl fun chanUid => ?_
    split_ifs
    · exact allocates_perform rfl fun _ => allocates_ret _
    · refine allocates_perform rfl fun id => ?_
      split_ifs
      · exact allocates_perform rfl fun _ => allocates_ret _
      · refine allocates_perform rfl fun chanUid => ?_
        refine allocates_bind (n := 0) (allocates_sendBuilt _) fun err => ?_
        exact allocates_perform rfl fun _ => allocates_ret err
  · exact allocates_ret _

theorem allocates_initMcu (uid : Word) (msg : List Byte) : Allocates 2 (initMcu uid msg) := by
  refine allocates_perform rfl fun err => ?_
  split_ifs
  · exact allocates_ret err
  · refine allocates_then (allocates_queuePopTimeout .init) ?_
    rintro ⟨err, _ | mail⟩
    · exact allocates_perform rfl fun _ => allocates_ret err
    · refine allocates_perform rfl fun _ => ?_
      refine allocates_kmalloc fun suballocBuf => ?_
      rw [Prog.ret_bind]
      split_ifs
      · refine allocates_bind (n := 0) (allocates_sendBuilt _) fun err => ?_
        split_ifs
        · exact allocates_perform rfl fun _ => allocates_ret err
        · refine allocates_then (allocates_queuePopTimeout .init) ?_
          rintro ⟨err, _ | mail⟩
          · exact allocates_perform rfl fun _ => allocates_ret err
          · exact allocates_perform rfl fun _ => allocates_perform rfl fun _ => allocates_ret 0
      · exact allocates_perform rfl fun _ => allocates_ret _

end VcuDriver

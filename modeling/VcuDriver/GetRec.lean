import VcuDriver.DmabufCreation
import VcuDriver.UserOps

/-!
# Reconstructed pictures

`al5e_user_get_rec` asks the MCU for a picture and installs a descriptor for the
buffer which the reply names.  The number in the reply is compared with the count
of the pool in `get_user_rec_buffer` and used as an index in
`al5_bufpool_reserve_fd`; what `dma_buf_fd` returns goes through an unsigned field
and is compared with -1.

Here the call runs alone, against one world: what each lock, allocation, send and
wait gives, and what `dma_buf_fd` answers.
-/

namespace VcuDriver

open Conc

/-- What a call of `al5e_user_get_rec` meets. -/
structure RecWorld where
  recLockFree : Bool
  chanUid : Word
  kmalloc : Bool
  accepted : Bool
  feedback : Option Al5Mail
  recBuffers : List DmaBuffer
  dmaBufFd : FdOutcome

/-- The indices at which `handles` was read, the descriptor installed for an entry
of it, and whether an invalid access stopped the call. -/
structure RecTrace where
  accessed : List ℤ
  installed : Option (ℤ × ℤ)
  stopped : Bool
  deriving DecidableEq

namespace RecTrace

def start : RecTrace where
  accessed := []
  installed := none
  stopped := false

/-- `al5_bufpool_reserve_fd`: the entry is read before `dma_buf_fd` is called. -/
def reserveFd (world : RecWorld) (id : ℤ) (trace : RecTrace) : RecTrace :=
  { trace with
    accessed := trace.accessed ++ [id]
    installed :=
      if 0 ≤ world.dmaBufFd.val then some (id, world.dmaBufFd.val)
      else trace.installed }

end RecTrace

namespace RecWorld

/-- The part of the world in an action.  The last group of actions does not occur
in a get. -/
def respond (world : RecWorld) (action : UserAct) (trace : RecTrace) :
    action.Res × RecTrace :=
  match action with
  | .mutexTrylock _ => (world.recLockFree, trace)
  | .getChanUid => (world.chanUid, trace)
  | .kmalloc => (world.kmalloc, trace)
  | .send _ => (if world.accepted then 0 else -EAGAIN, trace)
  | .listPop _ => (world.feedback, trace)
  | .getBufpool _ => (world.recBuffers, trace)
  | .bufpoolReserveFd id =>
      (world.dmaBufFd.val, trace.reserveFd world id.toInt)
  | .oops => ((), { trace with stopped := true })
  | .mutexUnlock _ | .waitEvent _ | .freeMail _ => ((), trace)
  | .mutexLockKillable _ | .getCheckpoint | .waitEventTimeout _
  | .bufpoolAllocate .. | .bufpoolGetId _ => (0, trace)
  | .getDmabufInfo _ => (.error (-EINVAL), trace)
  | .setChanUid _ | .setCheckpoint _ | .queueUnlock _ | .queueLock _
  | .bufpoolFree _ | .unbind => ((), trace)

def getRec (world : RecWorld) :
    (ℤ × Option Al5ReconstructedInfo) × RecTrace :=
  al5eUserGetRec.run world.respond .start

/-- The get reaches the reply. -/
structure Replies (world : RecWorld) (mail : Al5Mail) : Prop where
  recLockFree : world.recLockFree = true
  chanUid : world.chanUid ≠ badChan
  kmalloc : world.kmalloc = true
  accepted : world.accepted = true
  feedback : world.feedback = some mail

end RecWorld

/-- The picture id in a reply, as the `int` it is used as. -/
def pictureId (mail : Al5Mail) : ℤ :=
  (al5MailGetWord mail 1).toInt

def RecWorld.InPool (world : RecWorld) (id : ℤ) : Prop :=
  0 ≤ id ∧ id < world.recBuffers.length

/-- The handles are read inside the pool only, and the call returns 0 exactly when
it has installed a descriptor for the buffer that the reply names. -/
structure RecExact (world : RecWorld) : Prop where
  inPool : ∀ index ∈ world.getRec.2.accessed, world.InPool index
  success : world.getRec.2.stopped = false →
    (world.getRec.1.1 = 0 ↔
      ∃ mail fd, world.feedback = some mail ∧ world.InPool (pictureId mail) ∧
        world.getRec.2.installed = some (pictureId mail, fd))
  error : world.getRec.2.stopped = false →
    world.getRec.1.1 = 0 ∨ world.getRec.1.1 < 0

/-! ## The ends of a get -/

namespace RecWorld

variable {world : RecWorld}

section Runs

variable {α : Type} (world) (trace : RecTrace)

theorem run_mutexTrylock (operation : UserOperation) (next : Bool → UserProg α) :
    Prog.run world.respond (.act (.mutexTrylock operation) next) trace =
      (next world.recLockFree).run world.respond trace := by rfl

theorem run_mutexUnlock (operation : UserOperation) (next : Unit → UserProg α) :
    Prog.run world.respond (.act (.mutexUnlock operation) next) trace =
      (next ()).run world.respond trace := by rfl

theorem run_getChanUid (next : Word → UserProg α) :
    Prog.run world.respond (.act .getChanUid next) trace =
      (next world.chanUid).run world.respond trace := by rfl

theorem run_kmalloc (next : Bool → UserProg α) :
    Prog.run world.respond (.act .kmalloc next) trace =
      (next world.kmalloc).run world.respond trace := by rfl

theorem run_getBufpool (pool : BufferPool) (next : List DmaBuffer → UserProg α) :
    Prog.run world.respond (.act (.getBufpool pool) next) trace =
      (next world.recBuffers).run world.respond trace := by rfl

theorem run_freeMail (mail : Al5Mail) (next : Unit → UserProg α) :
    Prog.run world.respond (.act (.freeMail mail) next) trace =
      (next ()).run world.respond trace := by rfl

end Runs

theorem run_sendBuilt_emptyMail (senderUid : Word) (mailUid : MailUid)
    (trace : RecTrace) :
    (sendBuilt fun kmalloc =>
      al5CreateEmptyMail kmalloc senderUid mailUid.code).run world.respond trace =
      if world.kmalloc then (if world.accepted then 0 else -EAGAIN, trace)
      else (-ENOMEM, { trace with stopped := true }) := by
  unfold sendBuilt buildMail
  simp only [Prog.bind_eq, Prog.perform_bind, Prog.act_bind, run_kmalloc]
  cases hkmalloc : world.kmalloc with
  | true => rfl
  | false => rfl

theorem run_al5QueuePop (which : UserMail) (trace : RecTrace) :
    (al5QueuePop which).run world.respond trace = (world.feedback, trace) := by
  rfl

/-- The range test lets the count through; what lies there is read. -/
theorem run_getUserRecBuffer (id : Word) (trace : RecTrace) :
    (getUserRecBuffer id).run world.respond trace =
      if id.toInt > world.recBuffers.length ∨ id.toInt < 0 then (-1, trace)
      else (world.dmaBufFd.val, trace.reserveFd world id.toInt) := by
  unfold getUserRecBuffer
  simp only [Prog.bind_eq, Prog.perform_bind, run_getBufpool]
  split
  · rfl
  · rfl

def finish (world : RecWorld) (mail : Al5Mail) :
    (ℤ × Option Al5ReconstructedInfo) × RecTrace :=
  if pictureId mail > world.recBuffers.length ∨ pictureId mail < 0 then
    ((-EINVAL, none), .start)
  else
    (if BitVec.ofInt 32 world.dmaBufFd.val = (-1 : Word) then (-EINVAL, none)
      else (0, some {
        fd := BitVec.ofInt 32 world.dmaBufFd.val
        picStruct := al5MailGetWord mail 2
        poc := al5MailGetWord mail 3 }),
      RecTrace.start.reserveFd world (pictureId mail))

theorem getRec_of_replies {mail : Al5Mail} (hreplies : world.Replies mail) :
    world.getRec = world.finish mail := by
  obtain ⟨hfree, hchan, hkmalloc, haccepted, hfeedback⟩ := hreplies
  unfold getRec al5eUserGetRec
  simp only [Prog.bind_eq, Prog.perform_bind, run_mutexTrylock, run_getChanUid,
    Prog.run_bind, run_sendBuilt_emptyMail, run_al5QueuePop, hfree, hkmalloc,
    haccepted, hfeedback, if_neg hchan, if_true, ne_eq, not_true_eq_false, if_false,
    run_getUserRecBuffer, run_freeMail, run_mutexUnlock]
  unfold finish pictureId
  split
  · rfl
  · dsimp only
    split
    · rfl
    · rfl

/-- A get that reaches no reply reads no handle, and ends with an error unless it is
stopped. -/
theorem getRec_of_not_replies (hnone : ∀ mail, ¬ world.Replies mail) :
    world.getRec.2.accessed = [] ∧ world.getRec.2.installed = none ∧
      (world.getRec.2.stopped = false → world.getRec.1.1 < 0) := by
  unfold getRec al5eUserGetRec
  simp only [Prog.bind_eq, Prog.perform_bind, run_mutexTrylock]
  cases hfree : world.recLockFree with
  | false =>
      refine ⟨rfl, rfl, fun _ => ?_⟩
      exact show -EINTR < 0 from by decide
  | true =>
      simp only [if_true, run_getChanUid]
      by_cases hchan : world.chanUid = badChan
      · rw [if_pos hchan, run_mutexUnlock]
        refine ⟨rfl, rfl, fun _ => ?_⟩
        exact show -EPERM < 0 from by decide
      · rw [if_neg hchan, run_getChanUid, Prog.run_bind, run_sendBuilt_emptyMail]
        cases hkmalloc : world.kmalloc with
        | false =>
            refine ⟨rfl, rfl, fun hstopped => ?_⟩
            exact absurd hstopped (show ¬ true = false from by decide)
        | true =>
            cases haccepted : world.accepted with
            | false =>
                refine ⟨rfl, rfl, fun _ => ?_⟩
                exact show -EAGAIN < 0 from by decide
            | true =>
                simp only [if_true, ne_eq, not_true_eq_false, if_false,
                  Prog.run_bind, run_al5QueuePop]
                cases hfeedback : world.feedback with
                | none =>
                    refine ⟨rfl, rfl, fun _ => ?_⟩
                    exact show -EINTR < 0 from by decide
                | some mail =>
                    exact absurd ⟨hfree, hchan, hkmalloc, haccepted, hfeedback⟩
                      (hnone mail)

/-! ## When a get is exact -/

/-- The -1 test on the unsigned field finds -1 and no other error. -/
theorem ofInt_eq_neg_one_iff (outcome : FdOutcome) :
    BitVec.ofInt 32 outcome.val = (-1 : Word) ↔ outcome.val = -1 := by
  have hlow := outcome.property.1
  have hhigh := outcome.property.2
  have hone : (-1 : Word) = BitVec.ofInt 32 (-1) := rfl
  constructor
  · intro heq
    have htoInt := congrArg BitVec.toInt heq
    rw [hone, BitVec.toInt_ofInt, BitVec.toInt_ofInt,
      Int.bmod_eq_of_le (by omega) (by omega)] at htoInt
    exact htoInt
  · intro heq
    rw [hone]
    exact congrArg (BitVec.ofInt 32) heq

theorem recExact_of_not_replies (hnone : ∀ mail, ¬ world.Replies mail) :
    RecExact world := by
  obtain ⟨haccessed, hinstalled, herror⟩ := getRec_of_not_replies hnone
  refine ⟨?_, ?_, ?_⟩
  · intro index hindex
    rw [haccessed] at hindex
    exact absurd hindex List.not_mem_nil
  · intro hstopped
    constructor
    · intro hzero
      have hneg := herror hstopped
      omega
    · rintro ⟨mail, fd, _, _, hsome⟩
      rw [hinstalled] at hsome
      exact absurd hsome (Option.some_ne_none _).symm
  · exact fun hstopped => .inr (herror hstopped)

theorem recExact_of_replies {mail : Al5Mail} (hreplies : world.Replies mail)
    (hcount : pictureId mail ≠ world.recBuffers.length)
    (hfd : world.InPool (pictureId mail) →
      0 ≤ world.dmaBufFd.val ∨ world.dmaBufFd.val = -1) :
    RecExact world := by
  have hfinish := getRec_of_replies hreplies
  have hmail : ∀ mail', world.feedback = some mail' → mail' = mail := by
    intro mail' hmail'
    rw [hreplies.feedback] at hmail'
    exact (Option.some.inj hmail').symm
  unfold finish at hfinish
  by_cases hrange : pictureId mail > world.recBuffers.length ∨ pictureId mail < 0
  · rw [if_pos hrange] at hfinish
    have hout : ¬ world.InPool (pictureId mail) := by
      unfold InPool
      omega
    refine ⟨?_, ?_, ?_⟩
    · rw [hfinish]
      exact fun index hindex => absurd hindex List.not_mem_nil
    · intro _
      rw [hfinish]
      refine iff_of_false (show -EINVAL ≠ 0 from by decide) ?_
      rintro ⟨mail', fd, hmail', hin, _⟩
      rw [hmail mail' hmail'] at hin
      exact hout hin
    · intro _
      rw [hfinish]
      exact .inr (show -EINVAL < 0 from by decide)
  · rw [if_neg hrange] at hfinish
    have hin : world.InPool (pictureId mail) := by
      unfold InPool
      omega
    have haccessed : ∀ index ∈ world.getRec.2.accessed, world.InPool index := by
      rw [hfinish]
      intro index hindex
      rw [List.mem_singleton.mp hindex]
      exact hin
    rcases hfd hin with hvalid | hone
    · have hne : BitVec.ofInt 32 world.dmaBufFd.val ≠ (-1 : Word) := by
        rw [ne_eq, ofInt_eq_neg_one_iff]
        omega
      rw [if_neg hne] at hfinish
      have hinstalled : world.getRec.2.installed =
          some (pictureId mail, world.dmaBufFd.val) := by
        rw [hfinish]
        exact if_pos hvalid
      have hzero : world.getRec.1.1 = 0 := by rw [hfinish]
      exact ⟨haccessed,
        fun _ => iff_of_true hzero ⟨mail, _, hreplies.feedback, hin, hinstalled⟩,
        fun _ => .inl hzero⟩
    · rw [if_pos ((ofInt_eq_neg_one_iff _).mpr hone)] at hfinish
      have hinstalled : world.getRec.2.installed = none := by
        rw [hfinish]
        refine if_neg ?_
        omega
      have herr : world.getRec.1.1 = -EINVAL := by rw [hfinish]
      refine ⟨haccessed, fun _ => iff_of_false ?_ ?_, fun _ => .inr ?_⟩
      · rw [herr]
        decide
      · rintro ⟨mail', fd, _, _, hsome⟩
        rw [hinstalled] at hsome
        exact absurd hsome (Option.some_ne_none _).symm
      · rw [herr]
        decide

/-- At the count, the get reads past the handles. -/
theorem not_recExact_of_count {mail : Al5Mail} (hreplies : world.Replies mail)
    (hcount : pictureId mail = world.recBuffers.length) : ¬ RecExact world := by
  intro hexact
  have hfinish := getRec_of_replies hreplies
  unfold finish at hfinish
  rw [if_neg (by omega)] at hfinish
  have hin := hexact.inPool (pictureId mail) (by
    rw [hfinish]
    exact List.mem_singleton.mpr rfl)
  exact absurd hin.2 (by omega)

/-- With another error than -1, the get returns 0 and has installed nothing. -/
theorem not_recExact_of_error {mail : Al5Mail} (hreplies : world.Replies mail)
    (hin : world.InPool (pictureId mail)) (herror : world.dmaBufFd.val < 0)
    (hne : world.dmaBufFd.val ≠ -1) : ¬ RecExact world := by
  intro hexact
  have hfinish := getRec_of_replies hreplies
  unfold finish at hfinish
  obtain ⟨hlow, hhigh⟩ := hin
  rw [if_neg (by omega), if_neg (fun heq => hne ((ofInt_eq_neg_one_iff _).mp heq))]
    at hfinish
  have hstopped : world.getRec.2.stopped = false := by
    rw [hfinish]
    rfl
  have hinstalled : world.getRec.2.installed = none := by
    rw [hfinish]
    refine if_neg ?_
    omega
  obtain ⟨mail', fd, _, _, hsome⟩ := (hexact.success hstopped).mp (by rw [hfinish])
  rw [hinstalled] at hsome
  exact absurd hsome (Option.some_ne_none _).symm

/-- A get is exact exactly when the reply does not name the count of the pool, and
`dma_buf_fd` gives a descriptor or -1 for a buffer of the pool. -/
theorem recExact_iff (world : RecWorld) :
    RecExact world ↔
      ∀ mail, world.Replies mail →
        pictureId mail ≠ world.recBuffers.length ∧
          (world.InPool (pictureId mail) →
            0 ≤ world.dmaBufFd.val ∨ world.dmaBufFd.val = -1) := by
  constructor
  · intro hexact mail hreplies
    refine ⟨fun hcount => not_recExact_of_count hreplies hcount hexact, ?_⟩
    intro hin
    by_contra hbad
    push Not at hbad
    exact not_recExact_of_error hreplies hin hbad.1 hbad.2 hexact
  · intro hgood
    by_cases hreach : ∃ mail, world.Replies mail
    · obtain ⟨mail, hreplies⟩ := hreach
      obtain ⟨hcount, hfd⟩ := hgood mail hreplies
      exact recExact_of_replies hreplies hcount hfd
    · exact recExact_of_not_replies fun mail hreplies => hreach ⟨mail, hreplies⟩

/-- The reply names picture 1 of a pool of one buffer. -/
theorem not_recExact_at_count :
    ¬ ∀ world : RecWorld, RecExact world := by
  intro hall
  have hreplies : (⟨true, 3, true, true,
      some ⟨17, 16, 16, wordBytes 3 ++ wordBytes 1 ++ wordBytes 0 ++ wordBytes 0⟩,
      [⟨0x1000, 4096⟩], ⟨5, by decide⟩⟩ : RecWorld).Replies
        ⟨17, 16, 16, wordBytes 3 ++ wordBytes 1 ++ wordBytes 0 ++ wordBytes 0⟩ :=
    ⟨rfl, by decide, rfl, rfl, rfl⟩
  exact not_recExact_of_count hreplies (by decide) (hall _)

end RecWorld

end VcuDriver

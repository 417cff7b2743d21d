import VcuDriver.MailFactory
import VcuDriver.Conc.Machine

/-!
# The state of a user

A user is the driver's side of an open file: a channel uid, a checkpoint of a
channel creation, queues of received mails, mutexes and buffer pools.  The
operations of the user act on it through the atomic actions of this file; the
kernel's part in an action (an allocation that fails, a full mailbox, a signal,
a timeout) is a choice.

The log lists what the user has done to its channel, latest first, and
`Hist.of` sums it up.
-/

namespace VcuDriver

open Conc

/-! ## Mails -/

def mailChanUid (mail : Al5Mail) : Word :=
  al5MailGetWord mail 0

inductive UserMail where
  | init
  | create
  | destroy
  | status
  | sc
  | debug
  | reconstructed
  deriving DecidableEq, Repr

inductive UserOperation where
  | init
  | create
  | destroy
  | xcode
  | status
  | sc
  | debug
  | reconstructed
  deriving DecidableEq, Repr

def userOperations : List UserOperation :=
  [.init, .create, .destroy, .xcode, .status, .sc, .debug, .reconstructed]

def userMails : List UserMail :=
  [.init, .create, .destroy, .status, .sc, .debug, .reconstructed]

theorem mem_userOperations (operation : UserOperation) :
    operation ∈ userOperations := by
  cases operation <;> decide

def mailToQueue (mailUid : Option MailUid) : UserMail :=
  match mailUid with
  | some .init => .init
  | some .createChannel => .create
  | some .destroyChannel => .destroy
  | some .encodeOneFrm | some .decodeOneFrm => .status
  | some .searchStartCode => .sc
  | some .getReconstructedPicture | some .releaseReconstructedPicture =>
      .reconstructed
  | _ => .debug

structure Al5Queue where
  mails : List Al5Mail
  locked : Bool
  deriving DecidableEq

def Al5Queue.mailIsAvailable (queue : Al5Queue) : Bool :=
  !queue.mails.isEmpty || !queue.locked

/-! ## Buffers -/

structure DmaBuffer where
  dmaHandle : BitVec 64
  size : Word
  deriving DecidableEq

inductive BufferPool where
  | intBuffers
  | recBuffers
  deriving DecidableEq

structure BufferInfo where
  busAddress : Word
  size : Word

/-! ## What a user has done -/

/-- The channel which a create feedback grants, if it grants one. -/
def grantedChannel (mail : Al5Mail) : Option Word :=
  if mailChanUid mail = badChan then none else some (mailChanUid mail)

/-- The numbers of buffers which the create feedback of an encoder asks for. -/
def buffersAsked (mail : Al5Mail) : BufferPool → ℕ
  | .intBuffers => (al5MailGetWord mail 5).toNat
  | .recBuffers => (al5MailGetWord mail 7).toNat

/-- The events of a user: a mail of a call accepted by the command ring, a
write of `chan_uid` or of `checkpoint`, a mail which a call takes out of a queue
or frees, and an allocation in a pool that holds some buffers. -/
inductive Event where
  | sent (call : ℕ) (mail : Al5Mail)
  | chanUid (value : Word)
  | checkpoint (value : ℤ)
  | popped (call : ℕ) (queue : UserMail) (mail : Option Al5Mail)
  | freed (call : ℕ) (mail : Al5Mail)
  | allocated (buffers : ℕ)
  deriving DecidableEq

/-- The sum of a log: the channel held, the channels whose destroy mail was
accepted and which were not obtained again since, whether a channel was just
obtained and has no checkpoint yet, the buffer mails accepted for the channel,
the channel uid of a create feedback in hand, whether a create request awaits
its feedback, and the numbers of buffers which the last feedback asked for. -/
structure Hist where
  chanUid : Word
  dead : List Word
  halfCreated : Bool
  pushedIntermediate : Bool
  pushedReference : Bool
  inHand : Option Word
  awaiting : Bool
  asked : BufferPool → ℕ

namespace Hist

def initial : Hist where
  chanUid := badChan
  dead := []
  halfCreated := false
  pushedIntermediate := false
  pushedReference := false
  inHand := none
  awaiting := false
  asked _ := 0

def send (hist : Hist) (mail : Al5Mail) : Hist :=
  match mail.uid? with
  | some .createChannel => { hist with awaiting := true }
  | some .destroyChannel | some .quietDestroyChannel =>
      { hist with dead := mailChanUid mail :: hist.dead }
  | some .pushBufferIntermediate =>
      { hist with pushedIntermediate :=
          hist.pushedIntermediate || mailChanUid mail == hist.chanUid }
  | some .pushBufferReference =>
      { hist with pushedReference :=
          hist.pushedReference || mailChanUid mail == hist.chanUid }
  | _ => hist

def next (hist : Hist) : Event → Hist
  | .sent _ mail => hist.send mail
  | .chanUid value =>
      if value = badChan then
        { hist with chanUid := badChan }
      else
        { hist with
          chanUid := value
          dead := hist.dead.filter fun uid => uid ≠ value
          halfCreated := true
          pushedIntermediate := false
          pushedReference := false
          inHand := none }
  | .checkpoint _ => { hist with halfCreated := false }
  | .popped _ .create mail =>
      -- Residual mails are popped while no request awaits its feedback.
      if hist.awaiting then
        { hist with
          inHand := mail.bind grantedChannel
          awaiting := false
          asked := (mail.map buffersAsked).getD hist.asked }
      else
        hist
  | .popped .. | .freed .. | .allocated _ => hist

/-- The sum of a log, whose latest event comes first. -/
def of : List Event → Hist
  | [] => initial
  | event :: earlier => (of earlier).next event

end Hist

/-- Every event of a log meets a condition on what happened before it. -/
def EachEvent (condition : Hist → Event → Prop) (log : List Event) : Prop :=
  ∀ event earlier, event :: earlier <:+ log → condition (Hist.of earlier) event

theorem eachEvent_nil (condition : Hist → Event → Prop) :
    EachEvent condition [] := by
  intro event earlier hsuffix
  exact absurd (List.suffix_nil.mp hsuffix) (List.cons_ne_nil event earlier)

theorem eachEvent_cons
    {condition : Hist → Event → Prop} {event : Event} {log : List Event} :
    EachEvent condition (event :: log) ↔
      condition (Hist.of log) event ∧ EachEvent condition log := by
  constructor
  · intro heach
    refine ⟨heach event log (List.suffix_refl _), ?_⟩
    intro event' earlier hsuffix
    exact heach event' earlier (hsuffix.trans (List.suffix_cons event log))
  · rintro ⟨hevent, heach⟩ event' earlier hsuffix
    rcases List.suffix_cons_iff.mp hsuffix with heq | hsuffix
    · obtain ⟨rfl, rfl⟩ := List.cons.inj heq
      exact hevent
    · exact heach event' earlier hsuffix

/-! ## The state -/

/-- `struct al5_user`, with the call that releases the file, whether the user
is bound, its log, and for every call on its way through the mutexes of a
destroy the queues it has unlocked for that. -/
structure UserState where
  chanUid : Word
  checkpoint : ℤ
  queues : UserMail → Al5Queue
  locks : UserOperation → Option ℕ
  pools : BufferPool → List DmaBuffer
  closer : Option ℕ
  bound : Bool
  log : List Event
  cleared : List (ℕ × UserMail)

def al5UserInit : UserState where
  chanUid := badChan
  checkpoint := noCheckpoint
  queues _ := ⟨[], true⟩
  locks _ := none
  pools _ := []
  closer := none
  bound := true
  log := []
  cleared := []

namespace UserState

def hist (state : UserState) : Hist :=
  Hist.of state.log

def setLock (state : UserState) (operation : UserOperation)
    (owner : Option ℕ) : UserState :=
  { state with locks := Function.update state.locks operation owner }

def setQueue (state : UserState) (which : UserMail) (queue : Al5Queue) :
    UserState :=
  { state with queues := Function.update state.queues which queue }

def record (state : UserState) (event : Event) : UserState :=
  { state with log := event :: state.log }

def setThrough (state : UserState) (i : ℕ) : UserState :=
  { state with cleared := state.cleared.filter fun entry => entry.1 ≠ i }

/-- A call holds every mutex, as `al5_user_destroy_channel` does around its
send. -/
def HoldsAll (state : UserState) (i : ℕ) : Prop :=
  ∀ operation, state.locks operation = some i

end UserState

/-! ## Actions -/

inductive UserAct where
  | mutexLockKillable (operation : UserOperation)
  | mutexTrylock (operation : UserOperation)
  | mutexUnlock (operation : UserOperation)
  | getChanUid
  | setChanUid (value : Word)
  | getCheckpoint
  | setCheckpoint (value : ℤ)
  | kmalloc
  | send (mail : Al5Mail)
  | queueUnlock (which : UserMail)
  | queueLock (which : UserMail)
  | waitEvent (which : UserMail)
  | waitEventTimeout (which : UserMail)
  | listPop (which : UserMail)
  | freeMail (mail : Al5Mail)
  | bufpoolAllocate (pool : BufferPool) (count size : Word)
  | bufpoolFree (pool : BufferPool)
  | getBufpool (pool : BufferPool)
  | bufpoolReserveFd (id : Word)
  | bufpoolGetId (fd : Word)
  | getDmabufInfo (handle : Word)
  | unbind
  | oops
  deriving DecidableEq

abbrev UserAct.Res : UserAct → Type
  | .mutexLockKillable _ | .getCheckpoint | .send _ | .waitEventTimeout _
  | .bufpoolAllocate .. | .bufpoolReserveFd _ | .bufpoolGetId _ => ℤ
  | .mutexTrylock _ | .kmalloc => Bool
  | .getChanUid => Word
  | .listPop _ => Option Al5Mail
  | .getBufpool _ => List DmaBuffer
  | .getDmabufInfo _ => Except ℤ BufferInfo
  | _ => Unit

abbrev UserProg (α : Type) : Type :=
  Prog UserAct UserAct.Res α

/-- The kernel's part in an action. -/
inductive Choice where
  | succeed
  | fail
  | signal
  | timeout
  | buffers (handles : List (BitVec 64))
  | number (value : ℤ)
  | info (result : Except ℤ BufferInfo)

namespace UserState

/-- The effect of an action by a call.  A mutex interrupts its waiter only
while another call holds it, and a wait is interrupted or times out only while
its condition is false.  An invalid access stops the call for good. -/
def act (state : UserState) (i : ℕ) :
    (action : UserAct) → Choice → Option (action.Res × UserState)
  | .mutexLockKillable operation, .succeed =>
      if state.locks operation = none then
        some (0,
          if operation = .reconstructed then
            (state.setLock operation (some i)).setThrough i
          else
            state.setLock operation (some i))
      else
        none
  | .mutexLockKillable operation, .signal =>
      if state.locks operation = none then none
      else some (-EINTR, state.setThrough i)
  | .mutexTrylock operation, .succeed =>
      if state.locks operation = none then
        some (true, state.setLock operation (some i))
      else
        some (false, state)
  | .mutexUnlock operation, .succeed =>
      some ((), state.setLock operation none)
  | .getChanUid, .succeed => some (state.chanUid, state)
  | .setChanUid value, .succeed =>
      some ((), { state.record (.chanUid value) with chanUid := value })
  | .getCheckpoint, .succeed => some (state.checkpoint, state)
  | .setCheckpoint value, .succeed =>
      some ((), { state.record (.checkpoint value) with checkpoint := value })
  | .kmalloc, .succeed => some (true, state)
  | .kmalloc, .fail => some (false, state)
  | .send mail, .succeed => some (0, state.record (.sent i mail))
  | .send _, .fail => some (-EAGAIN, state)
  | .queueUnlock which, .succeed =>
      some ((), { state.setQueue which
        { state.queues which with locked := false } with
          cleared := (i, which) :: state.cleared })
  | .queueLock which, .succeed =>
      some ((), state.setQueue which { state.queues which with locked := true })
  | .waitEvent which, .succeed =>
      if (state.queues which).mailIsAvailable then some ((), state) else none
  | .waitEvent which, .signal =>
      if (state.queues which).mailIsAvailable then none else some ((), state)
  | .waitEventTimeout which, .succeed =>
      if (state.queues which).mailIsAvailable then some (1, state) else none
  | .waitEventTimeout which, .signal =>
      if (state.queues which).mailIsAvailable then none
      else some (-ERESTARTSYS, state)
  | .waitEventTimeout which, .timeout =>
      if (state.queues which).mailIsAvailable then none else some (0, state)
  | .listPop which, .succeed =>
      some ((state.queues which).mails.head?,
        (state.setQueue which
          { state.queues which with
            mails := (state.queues which).mails.tail }).record
              (.popped i which (state.queues which).mails.head?))
  | .freeMail mail, .succeed => some ((), state.record (.freed i mail))
  | .bufpoolAllocate pool count size, .buffers handles =>
      if handles.length = count.toNat ∧ count.toNat < 2 ^ 31 then
        some (0,
          { state.record (.allocated (state.pools pool).length) with
            pools := Function.update state.pools pool
              (handles.map fun handle => ⟨handle, size⟩) })
      else
        none
  | .bufpoolAllocate pool _ _, .fail =>
      some (-ENOMEM,
        { state.record (.allocated (state.pools pool).length) with
          pools := Function.update state.pools pool [] })
  | .bufpoolFree pool, .succeed =>
      some ((), { state with pools := Function.update state.pools pool [] })
  | .getBufpool pool, .succeed => some (state.pools pool, state)
  | .bufpoolReserveFd _, .number value => some (value, state)
  | .bufpoolGetId _, .number value => some (value, state)
  | .getDmabufInfo _, .info result => some (result, state)
  | .unbind, .succeed => some ((), { state with bound := false })
  | _, _ => none

end UserState

end VcuDriver

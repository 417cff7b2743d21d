import VcuDriver.Drain
import VcuDriver.Conc.Fate

/-!
# Interrupts

The MCU puts mails on the status ring and raises an interrupt.  The hard handler clears
what is pending and wakes the interrupt thread; the thread takes the lock of the group
and runs `al5_group_read_mails`.  The handlers run access by access: between two of
their accesses the MCU puts more mails and raises again, the hard handler may run beside
the thread, and users come, go and take mails out of their queues.

The kernel runs one hard handler of a line at a time and one thread for it.  A thread
that is woken while it runs makes another turn.
-/

namespace VcuDriver.Group

open Conc

/-! ## The handlers -/

inductive IrqReturn where
  | none
  | wakeThread
  | handled
  deriving DecidableEq

/-- The accesses of the handlers: the registers `AL5_MCU_IRQ_STA` and
`AL5_MCU_INTERRUPT_CLR`, the lock of the group, `al5_mcu_is_empty`, and `read_mail`. -/
inductive IrqAct where
  | readSta
  | writeClr (value : Word)
  | lockGroup
  | unlockGroup
  | isEmpty
  | readMail

abbrev IrqAct.Res : IrqAct → Type
  | .readSta => Word
  | .isEmpty => Bool
  | _ => Unit

abbrev IrqProg (α : Type) : Type :=
  Prog IrqAct IrqAct.Res α

def al5HardirqHandler : IrqProg IrqReturn := do
  let irqStatus ← Prog.perform IrqAct.readSta
  if irqStatus = 0 then
    pure .none
  else do
    Prog.perform (IrqAct.writeClr irqStatus)
    -- The result is not used: the read waits until the hardware has seen the write.
    let _ ← Prog.perform IrqAct.readSta
    pure .wakeThread

/-- The loop of `al5_group_read_mails`, with so many mails left to read at most; the ring
is looked at before they are counted. -/
def readMailsFrom : ℕ → IrqProg Unit
  | 0 => do
      let _ ← Prog.perform IrqAct.isEmpty
      pure ()
  | left + 1 => do
      let empty ← Prog.perform IrqAct.isEmpty
      if empty then
        pure ()
      else do
        Prog.perform IrqAct.readMail
        readMailsFrom left

def al5IrqHandler : IrqProg IrqReturn := do
  Prog.perform IrqAct.lockGroup
  readMailsFrom maxMailboxMsg
  Prog.perform IrqAct.unlockGroup
  pure .handled

/-! ## The state -/

/-- What happened to the mails: the MCU put one on the ring, the thread dispatched one to
a user or to nobody, a user was bound anew, and a user took one out of a queue. -/
inductive IrqEvent where
  | put (mail : Al5Mail)
  | dispatched (mail : Al5Mail) (recipient : Option ℕ)
  | bound (pointer : ℕ)
  | taken (pointer : ℕ) (which : UserMail) (mail : Al5Mail)

/-- A codec with its pending interrupts and its handlers.  `unraised` says that the MCU
has put mails for which it has not raised an interrupt yet, `turn` counts the mails which
the thread has read in its latest turn, and `history` starts with the latest event. -/
structure IrqState where
  mcu : McuGroup
  irqSta : Word
  unraised : Bool
  hard : Option (IrqProg IrqReturn)
  woken : Bool
  thread : Option (IrqProg IrqReturn)
  locked : Bool
  turn : ℕ
  history : List IrqEvent

/-- The MCU puts a mail or raises interrupts; the kernel calls a handler, or a handler
makes its next access or returns; a user is bound, unbound, takes a mail out of a queue,
or changes otherwise; and anybody uses the command ring. -/
inductive IrqMove where
  | mcuPut (mail : Al5Mail)
  | mcuRaise (bits : Word)
  | hardirq
  | hardStep
  | wakeup
  | threadStep
  | bind (pointer : ℕ)
  | unbind (pointer : ℕ)
  | take (pointer : ℕ) (which : UserMail)
  | work (pointer : ℕ) (content : Al5User)
  | commands (cpuToMcu : Ring)

/-- The user whom `handle_mail` gives a mail. -/
def Al5Group.recipient (group : Al5Group) (mail : Al5Mail) : Option ℕ :=
  if mail.uid? = some .trace then none else group.retrieveUser mail

namespace IrqState

variable (cmdSize statusSize : ℕ) (state : IrqState)

def access : (action : IrqAct) → Option (action.Res × IrqState)
  | .readSta => some (state.irqSta, state)
  | .writeClr value => some ((), { state with irqSta := state.irqSta &&& ~~~value })
  | .lockGroup =>
      if state.locked then none else some ((), { state with locked := true })
  | .unlockGroup => some ((), { state with locked := false })
  | .isEmpty => some ((al5McuIsEmpty.run Ring.access state.mcu.mcuToCpu).1, state)
  | .readMail =>
      let outcome := Group.readMail cmdSize statusSize state.mcu
      some ((), { state with
        mcu := outcome.1
        turn := state.turn + 1
        history :=
          .dispatched outcome.2 (state.mcu.group.recipient outcome.2) :: state.history })

def setGroup (group : Al5Group) : IrqState :=
  { state with mcu := { state.mcu with group := group } }

def record (event : IrqEvent) : IrqState :=
  { state with history := event :: state.history }

def takeMail (pointer : ℕ) (which : UserMail) : Option IrqState :=
  let user := state.mcu.group.user pointer
  match (user.queues which).mails with
  | [] => none
  | mail :: mails =>
      some ((state.setGroup (state.mcu.group.setUser pointer
        { state.mcu.group.memory pointer with
          state := user.setQueue which { user.queues which with mails := mails } })).record
            (.taken pointer which mail))

/-- The queues of the user hold the same mails as before, and the uid is the same. -/
def Keeps (pointer : ℕ) (content : Al5User) : Prop :=
  content.uid = (state.mcu.group.memory pointer).uid ∧
    ∀ which ∈ userMails, (content.state.queues which).mails =
      ((state.mcu.group.user pointer).queues which).mails

instance (pointer : ℕ) (content : Al5User) : Decidable (state.Keeps pointer content) :=
  inferInstanceAs (Decidable (_ ∧ _))

end IrqState

/-- One move.  The MCU writes mails in the format of the driver, and only where there is
room. -/
def irqNext (cmdSize statusSize : ℕ) (state : IrqState) : IrqMove → Option IrqState
  | .mcuPut mail =>
      let outcome := (al5MailboxWrite statusSize mail).run Ring.access state.mcu.mcuToCpu
      if mail.body.length = al5MailGetSize mail ∧ outcome.1 = 0 then
        some ({ state with
          mcu := { state.mcu with mcuToCpu := outcome.2 }
          unraised := true }.record (.put mail))
      else
        none
  | .mcuRaise bits =>
      if bits = 0 then none
      else some { state with irqSta := state.irqSta ||| bits, unraised := false }
  | .hardirq =>
      -- The line is shared, so the handler is also called when nothing is pending.
      if state.hard.isNone then some { state with hard := some al5HardirqHandler } else none
  | .hardStep =>
      match state.hard with
      | some (.act action next) =>
          (state.access cmdSize statusSize action).map fun outcome =>
            { outcome.2 with hard := some (next outcome.1) }
      | some (.ret value) =>
          some { state with hard := none, woken := state.woken || value == .wakeThread }
      | none => none
  | .wakeup =>
      if state.woken ∧ state.thread.isNone then
        some { state with woken := false, thread := some al5IrqHandler, turn := 0 }
      else
        none
  | .threadStep =>
      match state.thread with
      | some (.act action next) =>
          (state.access cmdSize statusSize action).map fun outcome =>
            { outcome.2 with thread := some (next outcome.1) }
      | some (.ret _) => some { state with thread := none }
      | none => none
  | .bind pointer =>
      if state.locked ∨ some pointer ∈ state.mcu.group.users then none
      else
        let outcome := state.mcu.group.al5GroupBindUser pointer
        some (if outcome.1 = 0 then (state.setGroup outcome.2).record (.bound pointer)
          else state)
  | .unbind pointer =>
      if state.locked ∨ some pointer ∉ state.mcu.group.users then none
      else some (state.setGroup (state.mcu.group.al5GroupUnbindUser pointer))
  | .take pointer which => state.takeMail pointer which
  | .work pointer content =>
      if state.Keeps pointer content then
        some (state.setGroup (state.mcu.group.setUser pointer content))
      else
        none
  | .commands cpuToMcu => some { state with mcu := { state.mcu with cpuToMcu := cpuToMcu } }

/-- A codec after its set-up: no user is bound, and the status ring is empty. -/
def irqStart (maxUsersNb : ℕ) (memory : ℕ → Al5User) (cpuToMcu : Ring)
    (data : ℕ → Word) : IrqState where
  mcu := ⟨al5GroupInit maxUsersNb memory, cpuToMcu, ⟨0, 0, data⟩⟩
  irqSta := 0
  unraised := false
  hard := none
  woken := false
  thread := none
  locked := false
  turn := 0
  history := []

def IrqReach (N cmdSize : ℕ) (start state : IrqState) : Prop :=
  Steps (irqNext cmdSize (4 * N)) (fun _ _ => True) start state

/-! ## What the history says -/

/-- The mails which the MCU put on the ring, the first one first. -/
def putMails : List IrqEvent → List Al5Mail
  | [] => []
  | .put mail :: earlier => putMails earlier ++ [mail]
  | _ :: earlier => putMails earlier

def dispatchedMails : List IrqEvent → List Al5Mail
  | [] => []
  | .dispatched mail _ :: earlier => dispatchedMails earlier ++ [mail]
  | _ :: earlier => dispatchedMails earlier

/-- The mails which were dispatched to a queue of a user since it was bound. -/
def receivedMails (pointer : ℕ) (which : UserMail) : List IrqEvent → List Al5Mail
  | [] => []
  | .dispatched mail recipient :: earlier =>
      if recipient = some pointer ∧ mailToQueue mail.uid? = which then
        receivedMails pointer which earlier ++ [mail]
      else
        receivedMails pointer which earlier
  | .bound other :: earlier =>
      if other = pointer then [] else receivedMails pointer which earlier
  | _ :: earlier => receivedMails pointer which earlier

/-- The mails which a user took out of a queue since it was bound. -/
def takenMails (pointer : ℕ) (which : UserMail) : List IrqEvent → List Al5Mail
  | [] => []
  | .taken other queue mail :: earlier =>
      if other = pointer ∧ queue = which then takenMails pointer which earlier ++ [mail]
      else takenMails pointer which earlier
  | .bound other :: earlier =>
      if other = pointer then [] else takenMails pointer which earlier
  | _ :: earlier => takenMails pointer which earlier

/-- What a user received was dispatched, in this order. -/
theorem receivedMails_sublist (pointer : ℕ) (which : UserMail) (history : List IrqEvent) :
    (receivedMails pointer which history).Sublist (dispatchedMails history) := by
  induction history with
  | nil => exact List.Sublist.refl _
  | cons event earlier ih =>
      cases event with
      | dispatched mail recipient =>
          rw [receivedMails, dispatchedMails]
          split
          · exact ih.append (List.Sublist.refl _)
          · exact ih.trans (List.sublist_append_left _ _)
      | bound other =>
          change List.Sublist (if other = pointer then [] else _) (dispatchedMails earlier)
          split
          · exact List.nil_sublist _
          · exact ih
      | put mail => exact ih
      | taken other queue mail => exact ih

/-! ## The invariant -/

inductive HardAt : IrqProg IrqReturn → Prop where
  | start : HardAt al5HardirqHandler
  | clear (value : Word) : HardAt (.act (.writeClr value) fun _ =>
      .act .readSta fun _ => .ret .wakeThread)
  | acknowledge : HardAt (.act .readSta fun _ => .ret .wakeThread)
  | returns (value : IrqReturn) : HardAt (.ret value)

/-- The rest of the thread's turn, before it looks at the ring. -/
def lookFrom (left : ℕ) : IrqProg IrqReturn :=
  (readMailsFrom left).bind fun _ => .act .unlockGroup fun _ => .ret .handled

/-- The rest of the turn, after a look that found a mail. -/
def moreFrom : ℕ → IrqProg IrqReturn
  | 0 => .act .unlockGroup fun _ => .ret .handled
  | left + 1 => .act .readMail fun _ => lookFrom left

/-- The positions of the thread, with the mails it has read in this turn. -/
inductive ThreadAt : ℕ → IrqProg IrqReturn → Prop where
  | start (turn : ℕ) (first : turn = 0) : ThreadAt turn al5IrqHandler
  | look (turn left : ℕ) (count : turn + left = maxMailboxMsg) : ThreadAt turn (lookFrom left)
  | read (turn left : ℕ) (count : turn + (left + 1) = maxMailboxMsg) :
      ThreadAt turn (.act .readMail fun _ => lookFrom left)
  | unlock (turn : ℕ) : ThreadAt turn (.act .unlockGroup fun _ => .ret .handled)
  | returns (turn : ℕ) (value : IrqReturn) : ThreadAt turn (.ret value)

/-- Somebody will still look at the ring: the MCU owes an interrupt, one is pending, a
hard handler is bound to wake the thread, the thread was woken, or it is going to look. -/
inductive IrqState.Awaited (state : IrqState) : Prop where
  | unraised (owed : state.unraised = true)
  | pending (sta : state.irqSta ≠ 0)
  | hard (program : IrqProg IrqReturn) (running : state.hard = some program)
      (wakes : program.MustReturn .wakeThread)
  | woken (flag : state.woken = true)
  | thread (program : IrqProg IrqReturn) (running : state.thread = some program)
      (looks : program.MustPerform .isEmpty)

def IrqState.MailWaits (state : IrqState) : Prop :=
  state.mcu.mcuToCpu.head ≠ state.mcu.mcuToCpu.tail

instance (state : IrqState) : Decidable state.MailWaits :=
  inferInstanceAs (Decidable (_ ≠ _))

/-- What holds between any two moves. -/
structure IrqInv (N : ℕ) (state : IrqState) : Prop where
  ring : ∃ H front rest, state.mcu.mcuToCpu.Holds N H rest ∧
    putMails state.history = front ++ rest ∧
      List.Forall₂ SameMail front (dispatchedMails state.history)
  queues : ∀ pointer which, state.mcu.group.Bound pointer →
    receivedMails pointer which state.history =
      takenMails pointer which state.history ++
        ((state.mcu.group.user pointer).queues which).mails
  hard : ∀ program, state.hard = some program → HardAt program
  thread : ∀ program, state.thread = some program → ThreadAt state.turn program
  reading : ∀ next, state.thread = some (.act .readMail next) → state.MailWaits
  awaited : state.MailWaits → state.Awaited ∨ state.turn = maxMailboxMsg

section

variable {N cmdSize : ℕ} {state state' : IrqState}

theorem lookFrom_eq (left : ℕ) :
    lookFrom left = .act .isEmpty fun empty =>
      if empty then .act .unlockGroup fun _ => .ret .handled else moreFrom left := by
  cases left with
  | zero =>
      change Prog.act _ _ = _
      congr 1
      funext empty
      cases empty <;> rfl
  | succ left =>
      change Prog.act _ _ = _
      congr 1
      funext empty
      cases empty <;> rfl

theorem lookFrom_looks (left : ℕ) : (lookFrom left).MustPerform .isEmpty := by
  rw [lookFrom_eq]
  exact Prog.mustPerform_act_self _

theorem al5IrqHandler_eq :
    al5IrqHandler = .act .lockGroup fun _ => lookFrom maxMailboxMsg := rfl

theorem al5IrqHandler_looks : al5IrqHandler.MustPerform .isEmpty := by
  rw [al5IrqHandler_eq]
  exact .inr fun _ => lookFrom_looks maxMailboxMsg

/-- A mail waits exactly when the ring holds one. -/
theorem mailWaits_iff {H : ℕ} {rest : List Al5Mail}
    (hholds : state.mcu.mcuToCpu.Holds N H rest) : state.MailWaits ↔ rest ≠ [] :=
  hholds.head_eq_tail_iff.not

/-- The invariant does not depend on who owns the lock of the group, and moves that leave
the ring, the queues, the handlers and the pending interrupts alone keep it. -/
theorem IrqInv.congr (hinv : IrqInv N state)
    (hring : state'.mcu.mcuToCpu = state.mcu.mcuToCpu)
    (hhistory : state'.history = state.history)
    (hqueues : ∀ pointer which, state'.mcu.group.Bound pointer →
      state.mcu.group.Bound pointer ∧
        ((state'.mcu.group.user pointer).queues which).mails =
          ((state.mcu.group.user pointer).queues which).mails)
    (hhard : state'.hard = state.hard) (hthread : state'.thread = state.thread)
    (hturn : state'.turn = state.turn)
    (hawaited : state.Awaited → state'.Awaited) : IrqInv N state' where
  ring := by
    rw [hring, hhistory]
    exact hinv.ring
  queues pointer which hbound := by
    obtain ⟨hbefore, hsame⟩ := hqueues pointer which hbound
    rw [hhistory, hsame]
    exact hinv.queues pointer which hbefore
  hard := by
    rw [hhard]
    exact hinv.hard
  thread := by
    rw [hthread, hturn]
    exact hinv.thread
  reading := by
    unfold IrqState.MailWaits
    rw [hthread, hring]
    exact hinv.reading
  awaited := by
    unfold IrqState.MailWaits
    rw [hring, hturn]
    exact fun hwaits => (hinv.awaited hwaits).imp_left hawaited

/-! ## Moves of the MCU -/

theorem IrqInv.mcuPut (hinv : IrqInv N state) {mail : Al5Mail} {mcuToCpu : Ring}
    (hafter : ∀ H rest, state.mcu.mcuToCpu.Holds N H rest →
      mcuToCpu.Holds N H (rest ++ [mail])) :
    IrqInv N { state with
      mcu := { state.mcu with mcuToCpu := mcuToCpu }
      unraised := true
      history := .put mail :: state.history } := by
  obtain ⟨H, front, rest, hholds, hput, hsame⟩ := hinv.ring
  refine ⟨⟨H, front, rest ++ [mail], hafter H rest hholds, ?_, hsame⟩, hinv.queues, hinv.hard,
    hinv.thread, fun _ _ => (mailWaits_iff (hafter H rest hholds)).mpr (by simp),
    fun _ => .inl (.unraised rfl)⟩
  change putMails state.history ++ [mail] = _
  rw [hput, List.append_assoc]

theorem IrqInv.mcuRaise (hinv : IrqInv N state) {bits : Word} (hbits : bits ≠ 0) :
    IrqInv N { state with irqSta := state.irqSta ||| bits, unraised := false } := by
  refine hinv.congr rfl rfl (fun _ _ hbound => ⟨hbound, rfl⟩) rfl rfl rfl fun _ => ?_
  refine .pending fun hzero => hbits ?_
  exact (BitVec.or_eq_zero_iff.mp hzero).2

/-! ## The hard handler -/

theorem IrqInv.hardirq (hinv : IrqInv N state) (hnone : state.hard = none) :
    IrqInv N { state with hard := some al5HardirqHandler } where
  ring := hinv.ring
  queues := hinv.queues
  hard program hprogram := by
    obtain rfl := Option.some.inj hprogram
    exact .start
  thread := hinv.thread
  reading := hinv.reading
  awaited hwaits := by
    refine (hinv.awaited hwaits).imp_left fun hawaited => ?_
    cases hawaited with
    | unraised howed => exact .unraised howed
    | pending hsta => exact .pending hsta
    | hard program hrunning hwakes =>
        rw [hnone] at hrunning
        exact absurd hrunning (by simp)
    | woken hflag => exact .woken hflag
    | thread program hrunning hlooks => exact .thread program hrunning hlooks

/-- The hard handler moves on to a position from which it will wake the thread if it was
bound to do so before, and then the pending interrupts do not matter. -/
theorem IrqInv.advance_hard (hinv : IrqInv N state) (irqSta : Word)
    {program rest : IrqProg IrqReturn} (hrunning : state.hard = some program)
    (hat : HardAt rest)
    (hwakes : program.MustReturn .wakeThread → rest.MustReturn .wakeThread)
    (hsta : irqSta = state.irqSta ∨ rest.MustReturn .wakeThread) :
    IrqInv N { state with irqSta := irqSta, hard := some rest } where
  ring := hinv.ring
  queues := hinv.queues
  hard program' hprogram' := by
    obtain rfl := Option.some.inj hprogram'
    exact hat
  thread := hinv.thread
  reading := hinv.reading
  awaited hwaits := by
    refine (hinv.awaited hwaits).imp_left fun hawaited => ?_
    rcases hsta with rfl | hbound
    · cases hawaited with
      | unraised howed => exact .unraised howed
      | pending hsta => exact .pending hsta
      | hard program' hrunning' hwakes' =>
          rw [hrunning] at hrunning'
          obtain rfl := Option.some.inj hrunning'
          exact .hard rest rfl (hwakes hwakes')
      | woken hflag => exact .woken hflag
      | thread program' hrunning' hlooks => exact .thread program' hrunning' hlooks
    · exact .hard rest rfl hbound

theorem IrqInv.return_hard (hinv : IrqInv N state) {value : IrqReturn}
    (hrunning : state.hard = some (.ret value)) :
    IrqInv N { state with hard := none, woken := state.woken || value == .wakeThread } where
  ring := hinv.ring
  queues := hinv.queues
  hard program hprogram := absurd hprogram (by simp)
  thread := hinv.thread
  reading := hinv.reading
  awaited hwaits := by
    refine (hinv.awaited hwaits).imp_left fun hawaited => ?_
    cases hawaited with
    | unraised howed => exact .unraised howed
    | pending hsta => exact .pending hsta
    | hard program hrunning' hwakes =>
        rw [hrunning] at hrunning'
        obtain rfl := Option.some.inj hrunning'
        obtain rfl : value = .wakeThread := hwakes
        exact .woken (by simp)
    | woken hflag => exact .woken (by simp [hflag])
    | thread program hrunning' hlooks => exact .thread program hrunning' hlooks

theorem IrqInv.hardStep (hinv : IrqInv N state)
    (hnext : irqNext cmdSize (4 * N) state .hardStep = some state') : IrqInv N state' := by
  cases hrunning : state.hard with
  | none => simp only [irqNext, hrunning, reduceCtorEq] at hnext
  | some program =>
      have hat := hinv.hard program hrunning
      cases hat with
      | start =>
          simp only [irqNext, hrunning, al5HardirqHandler, Prog.bind_eq, Prog.perform_bind,
            IrqState.access, Option.map_some, Option.some.injEq] at hnext
          subst hnext
          refine hinv.advance_hard state.irqSta hrunning ?_ ?_ (.inl rfl)
          · split
            · exact .returns .none
            · exact .clear state.irqSta
          · intro hwakes
            exact hwakes.next state.irqSta
      | clear value =>
          simp only [irqNext, hrunning, IrqState.access, Option.map_some,
            Option.some.injEq] at hnext
          subst hnext
          exact hinv.advance_hard _ hrunning .acknowledge (fun hwakes => hwakes.next ())
            (.inr fun _ => rfl)
      | acknowledge =>
          simp only [irqNext, hrunning, IrqState.access, Option.map_some,
            Option.some.injEq] at hnext
          subst hnext
          exact hinv.advance_hard state.irqSta hrunning (.returns .wakeThread)
            (fun hwakes => hwakes.next 0) (.inl rfl)
      | returns value =>
          simp only [irqNext, hrunning, Option.some.injEq] at hnext
          subst hnext
          exact hinv.return_hard hrunning

/-! ## The thread -/

/-- What the dispatch of a mail does to the group. -/
theorem handleMail_group (mail : Al5Mail) (mcu : McuGroup) :
    (handleMail cmdSize mail mcu).1.group =
      match mcu.group.recipient mail with
      | none => mcu.group
      | some pointer => mcu.group.deliver pointer mail := by
  have hcases := handleMail_cases cmdSize mail mcu
  unfold Al5Group.recipient
  generalize handleMail cmdSize mail mcu = outcome at hcases ⊢
  cases hcases with
  | traced huid => rw [if_pos huid]
  | delivered pointer huid hfound => rw [if_neg huid, hfound]
  | orphan cpuToMcu huid hnone => rw [if_neg huid, hnone]
  | dropped huid hnone => rw [if_neg huid, hnone]

theorem queues_deliver_self (group : Al5Group) (pointer : ℕ) (which : UserMail)
    (mail : Al5Mail) :
    (((group.deliver pointer mail).user pointer).queues which).mails =
      if mailToQueue mail.uid? = which then ((group.user pointer).queues which).mails ++ [mail]
      else ((group.user pointer).queues which).mails := by
  rw [Al5Group.user_deliver_self]
  unfold al5UserDeliver UserState.setQueue
  dsimp only
  split_ifs with hwhich
  · subst hwhich
    rw [Function.update_self]
  · rw [Function.update_of_ne (Ne.symm hwhich)]

/-- A dispatch keeps the account of every queue. -/
theorem queues_handleMail {history : List IrqEvent} {mcu : McuGroup} (mail : Al5Mail)
    (hqueues : ∀ pointer which, mcu.group.Bound pointer →
      receivedMails pointer which history =
        takenMails pointer which history ++ ((mcu.group.user pointer).queues which).mails)
    {pointer : ℕ} {which : UserMail}
    (hbound : (handleMail cmdSize mail mcu).1.group.Bound pointer) :
    receivedMails pointer which
        (.dispatched mail (mcu.group.recipient mail) :: history) =
      takenMails pointer which history ++
        (((handleMail cmdSize mail mcu).1.group.user pointer).queues which).mails := by
  rw [handleMail_group] at hbound ⊢
  rw [receivedMails]
  cases hrecipient : mcu.group.recipient mail with
  | none =>
      rw [hrecipient] at hbound
      rw [if_neg fun hboth => absurd hboth.1 (by simp)]
      exact hqueues pointer which hbound
  | some other =>
      rw [hrecipient] at hbound
      have hbefore := hqueues pointer which hbound
      by_cases hother : other = pointer
      · subst hother
        dsimp only
        rw [queues_deliver_self]
        split_ifs with hboth hwhich hwhich
        · rw [hbefore, List.append_assoc]
        · exact absurd hboth.2 hwhich
        · exact absurd ⟨rfl, hwhich⟩ hboth
        · exact hbefore
      · dsimp only
        rw [if_neg fun hboth => hother (Option.some.inj hboth.1),
          Al5Group.user_deliver_of_ne _ (Ne.symm hother)]
        exact hbefore

/-- The thread dispatches the first mail of the ring. -/
theorem IrqInv.dispatch (hring : 4 * N ≤ 65532) (hinv : IrqInv N state) {left : ℕ}
    (hwaits : state.MailWaits) (hcount : state.turn + (left + 1) = maxMailboxMsg) :
    IrqInv N { state with
      mcu := (readMail cmdSize (4 * N) state.mcu).1
      turn := state.turn + 1
      history := .dispatched (readMail cmdSize (4 * N) state.mcu).2
        (state.mcu.group.recipient (readMail cmdSize (4 * N) state.mcu).2) :: state.history
      thread := some (lookFrom left) } := by
  obtain ⟨H, front, rest, hholds, hput, hsame⟩ := hinv.ring
  cases rest with
  | nil => exact absurd rfl ((mailWaits_iff hholds).mp hwaits)
  | cons mail rest =>
      obtain ⟨hmail, hafter, hmcu⟩ := readMail_spec cmdSize hring hholds
      generalize readMail cmdSize (4 * N) state.mcu = outcome at hmail hafter hmcu ⊢
      refine ⟨⟨_, front ++ [mail], rest, hafter, ?_, ?_⟩, ?_, hinv.hard, ?_, ?_, ?_⟩
      · rw [List.append_assoc]
        exact hput
      · exact List.rel_append hsame (List.Forall₂.cons hmail List.Forall₂.nil)
      · intro pointer which hbound
        have hgroup : outcome.1.group = (handleMail cmdSize outcome.2 state.mcu).1.group := by
          rw [hmcu]
        dsimp only at hbound ⊢
        rw [hgroup] at hbound ⊢
        exact queues_handleMail outcome.2 hinv.queues hbound
      · intro program hprogram
        obtain rfl := Option.some.inj hprogram
        exact .look (state.turn + 1) left (by omega)
      · intro next hnext
        rw [lookFrom_eq] at hnext
        exact absurd hnext (by simp)
      · exact fun _ => .inl (.thread (lookFrom left) rfl (lookFrom_looks left))

/-- The thread moves on to a position that does not depend on the ring. -/
theorem IrqInv.advance_thread (hinv : IrqInv N state) {thread : Option (IrqProg IrqReturn)}
    (locked : Bool) (hat : ∀ program, thread = some program → ThreadAt state.turn program)
    (hreading : ∀ next, thread = some (.act .readMail next) → state.MailWaits)
    (hawaited : state.MailWaits → (∃ program, state.thread = some program ∧
      program.MustPerform .isEmpty) →
        (∃ program, thread = some program ∧ program.MustPerform .isEmpty) ∨
          state.turn = maxMailboxMsg) :
    IrqInv N { state with thread := thread, locked := locked } where
  ring := hinv.ring
  queues := hinv.queues
  hard := hinv.hard
  thread := hat
  reading := hreading
  awaited hwaits := by
    rcases hinv.awaited hwaits with hbefore | hlimit
    · cases hbefore with
      | unraised howed => exact .inl (.unraised howed)
      | pending hsta => exact .inl (.pending hsta)
      | hard program hrunning hwakes => exact .inl (.hard program hrunning hwakes)
      | woken hflag => exact .inl (.woken hflag)
      | thread program hrunning hlooks =>
          refine (hawaited hwaits ⟨program, hrunning, hlooks⟩).imp_left ?_
          rintro ⟨program', hrunning', hlooks'⟩
          exact .thread program' hrunning' hlooks'
    · exact .inr hlimit

theorem not_looks_unlock :
    ¬ (Prog.act .unlockGroup fun _ => .ret .handled : IrqProg IrqReturn).MustPerform
      .isEmpty := by
  rintro (heq | hrest)
  · exact absurd heq (by simp)
  · exact hrest ()

/-- A look at the ring ends the turn only when there is no mail or the limit is
reached. -/
theorem IrqInv.look (hinv : IrqInv N state) {left : ℕ}
    (hcount : state.turn + left = maxMailboxMsg) (locked : Bool) :
    IrqInv N { state with
      thread := some (
        if (al5McuIsEmpty.run Ring.access state.mcu.mcuToCpu).1 = true then
          .act .unlockGroup fun _ => .ret .handled
        else
          moreFrom left)
      locked := locked } := by
  have hempty : (al5McuIsEmpty.run Ring.access state.mcu.mcuToCpu).1 = true ↔
      ¬ state.MailWaits := by
    rw [run_al5McuIsEmpty, beq_iff_eq]
    exact not_not.symm
  by_cases hwaits : state.MailWaits
  · rw [if_neg (fun htrue => hempty.mp htrue hwaits)]
    cases left with
    | zero =>
        refine hinv.advance_thread locked ?_ ?_ fun _ _ => .inr hcount
        · intro program hprogram
          obtain rfl := Option.some.inj hprogram
          exact .unlock state.turn
        · intro next hnext
          exact absurd hnext (by simp [moreFrom])
    | succ left =>
        refine hinv.advance_thread locked ?_ (fun _ _ => hwaits) fun _ _ => .inl ?_
        · intro program hprogram
          obtain rfl := Option.some.inj hprogram
          exact .read state.turn left hcount
        · exact ⟨_, rfl, .inr fun _ => lookFrom_looks left⟩
  · rw [if_pos (hempty.mpr hwaits)]
    refine hinv.advance_thread locked ?_ ?_ fun hwaits' => absurd hwaits' hwaits
    · intro program hprogram
      obtain rfl := Option.some.inj hprogram
      exact .unlock state.turn
    · intro next hnext
      exact absurd hnext (by simp)

theorem IrqInv.threadStep (hring : 4 * N ≤ 65532) (hinv : IrqInv N state)
    (hnext : irqNext cmdSize (4 * N) state .threadStep = some state') : IrqInv N state' := by
  cases hrunning : state.thread with
  | none => simp only [irqNext, hrunning, reduceCtorEq] at hnext
  | some program =>
      have hat := hinv.thread program hrunning
      have hidle : ∀ thread : Option (IrqProg IrqReturn), thread = none →
          ∀ program, thread = some program → ThreadAt state.turn program := by
        intro thread hnone program hsome
        rw [hnone] at hsome
        exact absurd hsome (by simp)
      cases hat with
      | start first =>
          rw [al5IrqHandler_eq] at hrunning
          simp only [irqNext, hrunning, IrqState.access] at hnext
          split at hnext
          · exact absurd hnext (by simp)
          · simp only [Option.map_some, Option.some.injEq] at hnext
            subst hnext
            refine hinv.advance_thread true ?_ ?_ fun _ _ =>
              .inl ⟨_, rfl, lookFrom_looks maxMailboxMsg⟩
            · intro program hprogram
              obtain rfl := Option.some.inj hprogram
              exact .look state.turn maxMailboxMsg (by omega)
            · intro next hreads
              rw [lookFrom_eq] at hreads
              exact absurd hreads (by simp)
      | look left hcount =>
          rw [lookFrom_eq] at hrunning
          simp only [irqNext, hrunning, IrqState.access, Option.map_some,
            Option.some.injEq] at hnext
          subst hnext
          exact hinv.look hcount state.locked
      | read left hcount =>
          simp only [irqNext, hrunning, IrqState.access, Option.map_some,
            Option.some.injEq] at hnext
          subst hnext
          exact hinv.dispatch hring (hinv.reading _ hrunning) hcount
      | unlock =>
          simp only [irqNext, hrunning, IrqState.access, Option.map_some,
            Option.some.injEq] at hnext
          subst hnext
          refine hinv.advance_thread false ?_ ?_ fun _ hlooks => ?_
          · intro program hprogram
            obtain rfl := Option.some.inj hprogram
            exact .returns state.turn .handled
          · intro next hreads
            exact absurd hreads (by simp)
          · obtain ⟨program, hsame, hlooks⟩ := hlooks
            rw [hrunning] at hsame
            obtain rfl := Option.some.inj hsame
            exact absurd hlooks not_looks_unlock
      | returns value =>
          simp only [irqNext, hrunning, Option.some.injEq] at hnext
          subst hnext
          refine hinv.advance_thread state.locked (hidle none rfl) ?_ fun _ hlooks => ?_
          · intro next hreads
            exact absurd hreads (by simp)
          · obtain ⟨program, hsame, hlooks⟩ := hlooks
            rw [hrunning] at hsame
            obtain rfl := Option.some.inj hsame
            exact hlooks.elim

/-- A turn of the thread starts with a look at the ring ahead of it. -/
theorem IrqInv.wakeup (hinv : IrqInv N state) :
    IrqInv N { state with woken := false, thread := some al5IrqHandler, turn := 0 } where
  ring := hinv.ring
  queues := hinv.queues
  hard := hinv.hard
  thread program hprogram := by
    obtain rfl := Option.some.inj hprogram
    exact .start 0 rfl
  reading next hreads := by
    rw [al5IrqHandler_eq] at hreads
    exact absurd hreads (by simp)
  awaited _ := .inl (.thread al5IrqHandler rfl al5IrqHandler_looks)

/-! ## Moves of the users -/

/-- A change of the users that leaves the ring and the handlers alone. -/
theorem IrqInv.users (hinv : IrqInv N state) {group : Al5Group} {history : List IrqEvent}
    (hput : putMails history = putMails state.history)
    (hdispatched : dispatchedMails history = dispatchedMails state.history)
    (hqueues : ∀ pointer which, group.Bound pointer →
      receivedMails pointer which history =
        takenMails pointer which history ++ ((group.user pointer).queues which).mails) :
    IrqInv N { state with
      mcu := { state.mcu with group := group }
      history := history } where
  ring := by
    dsimp only
    rw [hput, hdispatched]
    exact hinv.ring
  queues := hqueues
  hard := hinv.hard
  thread := hinv.thread
  reading := hinv.reading
  awaited hwaits := by
    refine (hinv.awaited hwaits).imp_left fun hawaited => ?_
    cases hawaited with
    | unraised howed => exact .unraised howed
    | pending hsta => exact .pending hsta
    | hard program hrunning hwakes => exact .hard program hrunning hwakes
    | woken hflag => exact .woken hflag
    | thread program hrunning hlooks => exact .thread program hrunning hlooks

theorem user_setUser_self (group : Al5Group) (pointer : ℕ) (content : Al5User) :
    (group.setUser pointer content).user pointer = content.state := by
  unfold Al5Group.user Al5Group.setUser
  dsimp only
  rw [Function.update_self]

theorem user_setUser_of_ne {pointer other : ℕ} (hne : other ≠ pointer) (group : Al5Group)
    (content : Al5User) : (group.setUser pointer content).user other = group.user other := by
  unfold Al5Group.user Al5Group.setUser
  dsimp only
  rw [Function.update_of_ne hne]

theorem IrqInv.bind (hinv : IrqInv N state) {pointer uid : ℕ} :
    IrqInv N { state with
      mcu := { state.mcu with
        group := { state.mcu.group.setUser pointer ⟨uid, al5UserInit⟩ with
          users := state.mcu.group.users.set uid (some pointer) } }
      history := .bound pointer :: state.history } := by
  refine hinv.users rfl rfl fun other which hbound => ?_
  rw [receivedMails, takenMails]
  have huser : ∀ group : Al5Group, ∀ users,
      ({ group with users := users } : Al5Group).user other = group.user other :=
    fun _ _ => rfl
  rw [huser]
  by_cases hother : pointer = other
  · subst hother
    rw [if_pos rfl, if_pos rfl, user_setUser_self]
    rfl
  · rw [if_neg hother, if_neg hother, user_setUser_of_ne (Ne.symm hother)]
    refine hinv.queues other which ?_
    rcases List.mem_or_eq_of_mem_set hbound with hbefore | hsame
    · exact hbefore
    · exact absurd (Option.some.inj hsame).symm hother

theorem IrqInv.unbind (hinv : IrqInv N state) (pointer : ℕ) :
    IrqInv N (state.setGroup (state.mcu.group.al5GroupUnbindUser pointer)) := by
  refine hinv.users rfl rfl fun other which hbound => ?_
  refine hinv.queues other which ?_
  rcases List.mem_or_eq_of_mem_set hbound with hbefore | hnone
  · exact hbefore
  · exact absurd hnone (by simp)

theorem IrqInv.takeMail (hinv : IrqInv N state) {pointer : ℕ} {which : UserMail}
    (htake : state.takeMail pointer which = some state') : IrqInv N state' := by
  unfold IrqState.takeMail at htake
  cases hmails : ((state.mcu.group.user pointer).queues which).mails with
  | nil => simp only [hmails, reduceCtorEq] at htake
  | cons mail mails =>
      simp only [hmails, Option.some.injEq] at htake
      subst htake
      refine hinv.users rfl rfl fun other queue hbound => ?_
      have hbefore := hinv.queues other queue hbound
      dsimp only [IrqState.setGroup, IrqState.record]
      rw [receivedMails, takenMails, hbefore]
      · by_cases hother : pointer = other
        · subst hother
          rw [user_setUser_self]
          unfold UserState.setQueue
          dsimp only
          by_cases hqueue : which = queue
          · subst hqueue
            rw [if_pos ⟨rfl, rfl⟩, Function.update_self, hmails, List.append_assoc]
            rfl
          · rw [if_neg fun hboth => hqueue hboth.2, Function.update_of_ne (Ne.symm hqueue)]
        · rw [if_neg fun hboth => hother hboth.1, user_setUser_of_ne (Ne.symm hother)]
      all_goals simp

theorem IrqInv.work (hinv : IrqInv N state) {pointer : ℕ} {content : Al5User}
    (hkeeps : state.Keeps pointer content) :
    IrqInv N (state.setGroup (state.mcu.group.setUser pointer content)) := by
  refine hinv.users rfl rfl fun other which hbound => ?_
  rw [hinv.queues other which hbound]
  by_cases hother : other = pointer
  · subst hother
    rw [user_setUser_self, hkeeps.2 which (by cases which <;> decide)]
  · rw [user_setUser_of_ne hother]

/-! ## Every run -/

theorem irqInv_start (hpos : 0 < N) (maxUsersNb : ℕ) (memory : ℕ → Al5User)
    (cpuToMcu : Ring) (data : ℕ → Word) :
    IrqInv N (irqStart maxUsersNb memory cpuToMcu data) where
  ring := ⟨0, [], [], ⟨rfl, rfl, hpos, trivial, by simp⟩, rfl, List.Forall₂.nil⟩
  queues pointer which hbound := by
    have hnone := List.eq_of_mem_replicate hbound
    exact absurd hnone (by simp)
  hard program hprogram := absurd hprogram (by simp [irqStart])
  thread program hprogram := absurd hprogram (by simp [irqStart])
  reading next hreads := absurd hreads (by simp [irqStart])
  awaited hwaits := absurd rfl hwaits

theorem IrqInv.next (hring : 4 * N ≤ 65532) (hinv : IrqInv N state) {move : IrqMove}
    (hnext : irqNext cmdSize (4 * N) state move = some state') : IrqInv N state' := by
  cases move with
  | mcuPut mail =>
      -- The run is named, so that nothing below has to evaluate it.
      obtain ⟨outcome, houtcome⟩ : ∃ outcome,
          (al5MailboxWrite (4 * N) mail).run Ring.access state.mcu.mcuToCpu = outcome :=
        ⟨_, rfl⟩
      simp only [irqNext, houtcome] at hnext
      split at hnext
      · rename_i hput
        obtain rfl := Option.some.inj hnext
        refine hinv.mcuPut fun H rest hholds => ?_
        have hafter := hholds.run_al5MailboxWrite hring hput.1 (by rw [houtcome, hput.2])
        rw [houtcome] at hafter
        exact hafter
      · exact absurd hnext (by simp)
  | mcuRaise bits =>
      simp only [irqNext] at hnext
      split at hnext
      · exact absurd hnext (by simp)
      · rename_i hbits
        obtain rfl := Option.some.inj hnext
        exact hinv.mcuRaise hbits
  | hardirq =>
      simp only [irqNext] at hnext
      split at hnext
      · rename_i hnone
        obtain rfl := Option.some.inj hnext
        exact hinv.hardirq (Option.isNone_iff_eq_none.mp hnone)
      · exact absurd hnext (by simp)
  | hardStep => exact hinv.hardStep hnext
  | wakeup =>
      simp only [irqNext] at hnext
      split at hnext
      · obtain rfl := Option.some.inj hnext
        exact hinv.wakeup
      · exact absurd hnext (by simp)
  | threadStep => exact hinv.threadStep hring hnext
  | bind pointer =>
      simp only [irqNext] at hnext
      split at hnext
      · exact absurd hnext (by simp)
      · obtain rfl := Option.some.inj hnext
        unfold Al5Group.al5GroupBindUser
        cases state.mcu.group.users.findIdx? Option.isNone with
        | none => exact hinv
        | some uid => exact hinv.bind
  | unbind pointer =>
      simp only [irqNext] at hnext
      split at hnext
      · exact absurd hnext (by simp)
      · obtain rfl := Option.some.inj hnext
        exact hinv.unbind pointer
  | take pointer which => exact hinv.takeMail hnext
  | work pointer content =>
      simp only [irqNext] at hnext
      split at hnext
      · rename_i hkeeps
        obtain rfl := Option.some.inj hnext
        exact hinv.work hkeeps
      · exact absurd hnext (by simp)
  | commands cpuToMcu =>
      obtain rfl := Option.some.inj hnext
      exact hinv.congr rfl rfl (fun _ _ hbound => ⟨hbound, rfl⟩) rfl rfl rfl
        fun hawaited => by
          cases hawaited with
          | unraised howed => exact .unraised howed
          | pending hsta => exact .pending hsta
          | hard program hrunning hwakes => exact .hard program hrunning hwakes
          | woken hflag => exact .woken hflag
          | thread program hrunning hlooks => exact .thread program hrunning hlooks

theorem irqInv_of_reach (hpos : 0 < N) (hring : 4 * N ≤ 65532) {maxUsersNb : ℕ}
    {memory : ℕ → Al5User} {cpuToMcu : Ring} {data : ℕ → Word}
    (hreach : IrqReach N cmdSize (irqStart maxUsersNb memory cpuToMcu data) state) :
    IrqInv N state :=
  hreach.invariant (IrqInv N) (irqInv_start hpos maxUsersNb memory cpuToMcu data)
    fun _ hinv _ hnext => hinv.next hring hnext

end

/-- A mail on the status ring is never forgotten: somebody will still look at the ring,
unless the latest turn of the thread stopped at its limit of a hundred mails. -/
theorem no_wakeup_lost
    (N cmdSize : ℕ) (hpos : 0 < N) (hring : 4 * N ≤ 65532) (maxUsersNb : ℕ)
    (memory : ℕ → Al5User) (cpuToMcu : Ring) (data : ℕ → Word) (state : IrqState)
    (hreach : IrqReach N cmdSize (irqStart maxUsersNb memory cpuToMcu data) state) :
    state.MailWaits → state.Awaited ∨ state.turn = maxMailboxMsg :=
  (irqInv_of_reach hpos hring hreach).awaited

/-- The mails that were dispatched are the first ones that were put on the ring, and the
ring holds the others.  What a bound user received is what it took and then what its
queue holds, in the order of the dispatches. -/
structure IrqState.InOrder (N : ℕ) (state : IrqState) : Prop where
  ring : ∃ H front rest, state.mcu.mcuToCpu.Holds N H rest ∧
    putMails state.history = front ++ rest ∧
      List.Forall₂ SameMail front (dispatchedMails state.history)
  queues : ∀ pointer which, state.mcu.group.Bound pointer →
    receivedMails pointer which state.history =
      takenMails pointer which state.history ++
        ((state.mcu.group.user pointer).queues which).mails
  received : ∀ pointer which,
    (receivedMails pointer which state.history).Sublist (dispatchedMails state.history)

/-- Every mail of the MCU is dispatched once, in order, and every queue hands its mails
out in this order. -/
theorem mails_in_order
    (N cmdSize : ℕ) (hpos : 0 < N) (hring : 4 * N ≤ 65532) (maxUsersNb : ℕ)
    (memory : ℕ → Al5User) (cpuToMcu : Ring) (data : ℕ → Word) (state : IrqState)
    (hreach : IrqReach N cmdSize (irqStart maxUsersNb memory cpuToMcu data) state) :
    state.InOrder N :=
  have hinv := irqInv_of_reach hpos hring hreach
  ⟨hinv.ring, hinv.queues, fun pointer which =>
    receivedMails_sublist pointer which state.history⟩

/-- A codec with one slot, before any interrupt. -/
def oneSlot : IrqState :=
  irqStart 1 (fun _ => ⟨0, al5UserInit⟩) ⟨0, 0, fun _ => 0⟩ fun _ => 0

/-- A mail lies on the ring while its interrupt is pending. -/
theorem no_wakeup_lost_of_one_mail :
    ∃ state, IrqReach 510 2040 oneSlot state ∧ state.MailWaits ∧
      (state.Awaited ∨ state.turn = maxMailboxMsg) := by
  have hrun : (runSteps (irqNext 2040 (4 * 510)) (fun _ _ => true)
      [.mcuPut (encodeFeedback 3), .mcuRaise 1] oneSlot).any
        (fun state => decide state.MailWaits) = true := by decide
  obtain ⟨state, hstate, hwaits⟩ := (Option.any_eq_true _ _).mp hrun
  have hreach : IrqReach 510 2040 oneSlot state :=
    Steps.of_runSteps (fun _ _ _ => trivial) hstate
  have hwaits := of_decide_eq_true hwaits
  exact ⟨state, hreach, hwaits, no_wakeup_lost 510 2040 (by decide) (by decide) 1 _ _ _ state
    hreach hwaits⟩

/-- A mail is put, dispatched and taken out of its queue. -/
theorem mails_in_order_of_one_mail :
    ∃ state, IrqReach 510 2040 oneSlot state ∧
      (takenMails 7 .status state.history).length = 1 ∧ state.InOrder 510 := by
  have hrun : (runSteps (irqNext 2040 (4 * 510)) (fun _ _ => true)
      [.bind 7, .work 7 ⟨0, { al5UserInit with chanUid := 3 }⟩, .mcuPut (encodeFeedback 3),
        .mcuRaise 1, .hardirq, .hardStep, .hardStep, .hardStep, .hardStep, .wakeup,
        .threadStep, .threadStep, .threadStep, .threadStep, .threadStep, .threadStep,
        .take 7 .status] oneSlot).any
        (fun state => decide ((takenMails 7 .status state.history).length = 1)) = true := by
    decide
  obtain ⟨state, hstate, htaken⟩ := (Option.any_eq_true _ _).mp hrun
  have hreach : IrqReach 510 2040 oneSlot state :=
    Steps.of_runSteps (fun _ _ _ => trivial) hstate
  exact ⟨state, hreach, of_decide_eq_true htaken,
    mails_in_order 510 2040 (by decide) (by decide) 1 _ _ _ state hreach⟩

end VcuDriver.Group

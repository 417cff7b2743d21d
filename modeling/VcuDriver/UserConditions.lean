import VcuDriver.UserMails

/-!
# What a user does, and under which conditions

Some laws of the driver hold only for runs that avoid a certain step;
`Condition` lists these steps.  `OkEvent` says what a user may do after what it
has done, and which conditions it needs for that.

A request and its reply belong to an exchange: the queue of the reply, the mutex
that keeps other calls out, and the calls that sent the requests and took the
replies, in order.
-/

namespace VcuDriver

open Conc

/-! ## Exchanges -/

/-- The requests which the MCU answers. -/
inductive Exchange where
  | create
  | destroy
  | reconstructed
  deriving DecidableEq

namespace Exchange

def request : Exchange → MailUid
  | .create => .createChannel
  | .destroy => .destroyChannel
  | .reconstructed => .getReconstructedPicture

def queue : Exchange → UserMail
  | .create => .create
  | .destroy => .destroy
  | .reconstructed => .reconstructed

def mutex : Exchange → UserOperation
  | .create => .create
  | .destroy => .destroy
  | .reconstructed => .reconstructed

/-- The call that sends a request with this event. -/
def asks (exchange : Exchange) : Event → List ℕ
  | .sent call mail =>
      if mail.uid? = some exchange.request then [call] else []
  | _ => []

/-- The call that takes a reply with this event. -/
def takes (exchange : Exchange) : Event → List ℕ
  | .popped call which (some _) => if which = exchange.queue then [call] else []
  | _ => []

def requests (exchange : Exchange) : List Event → List ℕ
  | [] => []
  | event :: earlier => exchange.requests earlier ++ exchange.asks event

def replies (exchange : Exchange) : List Event → List ℕ
  | [] => []
  | event :: earlier => exchange.replies earlier ++ exchange.takes event

@[simp] theorem requests_nil (exchange : Exchange) : exchange.requests [] = [] := rfl

@[simp] theorem requests_cons
    (exchange : Exchange) (event : Event) (earlier : List Event) :
    exchange.requests (event :: earlier) =
      exchange.requests earlier ++ exchange.asks event := rfl

@[simp] theorem replies_nil (exchange : Exchange) : exchange.replies [] = [] := rfl

@[simp] theorem replies_cons
    (exchange : Exchange) (event : Event) (earlier : List Event) :
    exchange.replies (event :: earlier) =
      exchange.replies earlier ++ exchange.takes event := rfl

def Ignores (exchange : Exchange) (event : Event) : Prop :=
  exchange.asks event = [] ∧ exchange.takes event = []

theorem ignores_sent
    {exchange : Exchange} {call : ℕ} {mail : Al5Mail}
    (huid : mail.uid? ≠ some exchange.request) :
    exchange.Ignores (.sent call mail) :=
  ⟨if_neg huid, rfl⟩

theorem ignores_popped
    {exchange : Exchange} {call : ℕ} {which : UserMail} {mail : Option Al5Mail}
    (hwhich : which ≠ exchange.queue) :
    exchange.Ignores (.popped call which mail) := by
  refine ⟨rfl, ?_⟩
  cases mail with
  | none => rfl
  | some mail => exact if_neg hwhich

/-- Every reply so far was taken by the call that sent its request, and at most
the request of the owner of the mutex is unanswered. -/
def Paired (exchange : Exchange) (locks : UserOperation → Option ℕ)
    (log : List Event) : Prop :=
  exchange.requests log = exchange.replies log ∨
    ∃ call, exchange.requests log = exchange.replies log ++ [call] ∧
      locks exchange.mutex = some call

theorem Paired.of_ignores
    {exchange : Exchange} {locks : UserOperation → Option ℕ} {log : List Event}
    {event : Event} (hpaired : exchange.Paired locks log)
    (hignores : exchange.Ignores event) :
    exchange.Paired locks (event :: log) := by
  unfold Paired
  rw [requests_cons, replies_cons, hignores.1, hignores.2, List.append_nil,
    List.append_nil]
  exact hpaired

end Exchange

/-! ## Conditions on runs -/

/-- Steps which a run may be required to avoid. -/
inductive Condition where
  /-- No wait for the feedback of a destroy is interrupted. -/
  | destroyWaits
  /-- A call that does not close the file finds a mail when its wait on the queue
  is over. -/
  | finds (which : UserMail)
  /-- Buffers can be allocated. -/
  | allocates
  /-- A frame is sent to a channel which is fully created. -/
  | encodesReady
  /-- A stream buffer is sent for the channel held, and not during a destroy. -/
  | putsGuarded
  /-- There is a channel when a destroy has taken the last mutex. -/
  | destroysCreated
  /-- The MCU answers every request once. -/
  | answersOnce
  deriving DecidableEq

namespace Condition

def Admits (condition : Condition) (state : UserState) (op : UserOp)
    (action : UserAct) (choice : Choice) : Prop :=
  match condition with
  | .destroyWaits => action = .waitEvent .destroy → choice ≠ .signal
  | .finds which =>
      op.closes = false → action = .listPop which → (state.queues which).mails ≠ []
  | .allocates =>
      ∀ pool count size, action = .bufpoolAllocate pool count size →
        choice ≠ .fail
  | .encodesReady =>
      ∀ msg mail, op = .encodeOneFrame msg → action = .send mail →
        state.checkpoint = noCheckpoint ∧ state.hist.halfCreated = false
  | .putsGuarded =>
      ∀ buffer mail, op = .putStreamBuffer buffer → action = .send mail →
        mailChanUid mail = state.chanUid ∧ state.chanUid ≠ badChan ∧
          ∀ i, ¬ state.HoldsAll i
  | .destroysCreated =>
      action = .mutexLockKillable .reconstructed → choice = .succeed →
        state.chanUid ≠ badChan
  | .answersOnce => True

/-- The condition admits the delivery of a mail: a reply only when there are
more requests than replies so far. -/
def AdmitsMail (condition : Condition) (state : UserState) (mail : Al5Mail) :
    Prop :=
  match condition with
  | .answersOnce =>
      ∀ exchange : Exchange, mailToQueue mail.uid? = exchange.queue →
        (exchange.replies state.log).length +
            (state.queues exchange.queue).mails.length <
          (exchange.requests state.log).length
  | _ => True

end Condition

def userRegime (conditions : Set Condition) :
    Regime UserState UserAct Choice UserOp Al5Mail where
  enter _ _ := True
  step state _ op action choice :=
    ∀ condition ∈ conditions, condition.Admits state op action choice
  env state mail := ∀ condition ∈ conditions, condition.AdmitsMail state mail

/-! ## Checking a run -/

def Choice.isSignal : Choice → Bool
  | .signal => true
  | _ => false

def Choice.isFail : Choice → Bool
  | .fail => true
  | _ => false

def Condition.passes (condition : Condition) (state : UserState) (op : UserOp)
    (action : UserAct) (choice : Choice) : Bool :=
  match condition, action, op with
  | .destroyWaits, .waitEvent .destroy, _ => !choice.isSignal
  | .finds which, .listPop other, op =>
      op.closes || decide (which ≠ other) || !(state.queues which).mails.isEmpty
  | .allocates, .bufpoolAllocate .., _ => !choice.isFail
  | .encodesReady, .send _, .encodeOneFrame _ =>
      decide (state.checkpoint = noCheckpoint) && !state.hist.halfCreated
  | .putsGuarded, .send mail, .putStreamBuffer _ =>
      decide (mailChanUid mail = state.chanUid) && decide (state.chanUid ≠ badChan) &&
        decide (state.locks .init = none)
  | .destroysCreated, .mutexLockKillable .reconstructed, _ =>
      decide (state.chanUid ≠ badChan)
  | _, _, _ => true

theorem Condition.admits_of_passes
    {condition : Condition} {state : UserState} {op : UserOp} {action : UserAct}
    {choice : Choice} (hpasses : condition.passes state op action choice = true) :
    condition.Admits state op action choice := by
  cases condition with
  | destroyWaits =>
      rintro rfl rfl
      exact absurd hpasses Bool.false_ne_true
  | finds which =>
      rintro hopen rfl hnil
      simp [Condition.passes, hopen, hnil] at hpasses
  | allocates =>
      rintro pool count size rfl rfl
      exact absurd hpasses Bool.false_ne_true
  | encodesReady =>
      rintro msg mail rfl rfl
      simpa [Condition.passes] using hpasses
  | putsGuarded =>
      rintro buffer mail rfl rfl
      simp only [Condition.passes, Bool.and_eq_true, decide_eq_true_eq] at hpasses
      refine ⟨hpasses.1.1, hpasses.1.2, fun i hall => ?_⟩
      rw [hall .init] at hpasses
      exact absurd hpasses.2 (by simp)
  | destroysCreated =>
      rintro rfl _
      simpa [Condition.passes] using hpasses
  | answersOnce => trivial

def Condition.passesMail (condition : Condition) (state : UserState)
    (mail : Al5Mail) : Bool :=
  match condition with
  | .answersOnce =>
      [Exchange.create, .destroy, .reconstructed].all fun exchange =>
        decide (mailToQueue mail.uid? = exchange.queue →
          (exchange.replies state.log).length +
              (state.queues exchange.queue).mails.length <
            (exchange.requests state.log).length)
  | _ => true

theorem Condition.admitsMail_of_passes
    {condition : Condition} {state : UserState} {mail : Al5Mail}
    (hpasses : condition.passesMail state mail = true) :
    condition.AdmitsMail state mail := by
  cases condition with
  | answersOnce =>
      intro exchange
      have hmem : exchange ∈ [Exchange.create, .destroy, .reconstructed] := by
        cases exchange <;> decide
      exact of_decide_eq_true (List.all_eq_true.mp hpasses exchange hmem)
  | _ => trivial

def passes (conditions : List Condition) (config : UserConfig) : UserMove → Bool
  | .enter _ => true
  | .step i choice =>
      match config.calls[i]? with
      | some ⟨op, .act action _⟩ =>
          conditions.all fun condition =>
            condition.passes config.state op action choice
      | _ => true
  | .env mail =>
      conditions.all fun condition => condition.passesMail config.state mail

theorem allows_of_passes
    {conditions : Set Condition} {checked : List Condition}
    (hchecked : ∀ condition ∈ conditions, condition ∈ checked)
    (config : UserConfig) (move : UserMove)
    (hpass : passes checked config move = true) :
    (userRegime conditions).Allows config move := by
  cases move with
  | enter op => trivial
  | env mail =>
      intro condition hmem
      exact Condition.admitsMail_of_passes
        (List.all_eq_true.mp hpass condition (hchecked condition hmem))
  | step i choice =>
      intro op action next hcall condition hmem
      simp only [passes, hcall] at hpass
      exact Condition.admits_of_passes
        (List.all_eq_true.mp hpass condition (hchecked condition hmem))

/-- A run which is checked move by move. -/
theorem reach_of_passes
    {kind : UserKind} {uid : Word} {conditions : Set Condition}
    {checked : List Condition} {moves : List UserMove} {config : UserConfig}
    (hchecked : ∀ condition ∈ conditions, condition ∈ checked)
    (hrun : (userMachine kind uid).runWhere (passes checked) moves userStart =
      some config) :
    (userMachine kind uid).Reach (userRegime conditions) userStart config :=
  Machine.reach_of_runWhere (allows_of_passes hchecked) hrun

/-! ## Events -/

namespace Hist

/-- A command may be sent to the channel: the uid is one, and no destroy mail
was accepted for it since it was obtained. -/
def Alive (hist : Hist) (uid : Word) : Prop :=
  uid ≠ badChan ∧ uid ∉ hist.dead

def Buffered (hist : Hist) : Prop :=
  hist.pushedIntermediate = true ∧ hist.pushedReference = true

structure Idle (hist : Hist) : Prop where
  inHand : hist.inHand = none
  awaiting : hist.awaiting = false

end Hist

section

variable (uid : Word) (conditions : Set Condition)

def OkSent (hist : Hist) (mail : Al5Mail) : Prop :=
  match mail.uid? with
  | some .init | some .searchStartCode => mailChanUid mail = uid
  | some .createChannel =>
      mailChanUid mail = uid ∧ hist.chanUid = badChan ∧ hist.Idle
  | some .destroyChannel | some .quietDestroyChannel =>
      mailChanUid mail = hist.chanUid ∧
        (.destroysCreated ∈ conditions → hist.chanUid ≠ badChan) ∧
        (.destroyWaits ∈ conditions →
          hist.chanUid ≠ badChan → hist.Alive hist.chanUid)
  | some .encodeOneFrm =>
      (.destroyWaits ∈ conditions → hist.Alive (mailChanUid mail)) ∧
        (.allocates ∈ conditions → .encodesReady ∈ conditions →
          mailChanUid mail = hist.chanUid ∧ hist.Buffered)
  | some .putStreamBuffer =>
      .destroyWaits ∈ conditions → .putsGuarded ∈ conditions →
        hist.Alive (mailChanUid mail)
  | some .decodeOneFrm | some .decodeOneSlice | some .pushBufferIntermediate
  | some .pushBufferReference | some .getReconstructedPicture
  | some .releaseReconstructedPicture =>
      .destroyWaits ∈ conditions → hist.Alive (mailChanUid mail)
  | _ => False

def OkEvent (hist : Hist) : Event → Prop
  | .sent _ mail => OkSent uid conditions hist mail
  | .chanUid value =>
      if value = badChan then
        hist.chanUid = badChan ∨ hist.chanUid ∈ hist.dead
      else
        hist.inHand = some value ∧ hist.chanUid = badChan
  | .popped _ .create mail =>
      hist.awaiting = true →
        hist.inHand = none ∧ (.finds .create ∈ conditions → mail ≠ none)
  | .allocated buffers => buffers = 0
  | .checkpoint _ | .popped .. | .freed .. => True

end

end VcuDriver

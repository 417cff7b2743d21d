import VcuDriver.CodecSteps
import VcuDriver.UserCustody
import VcuDriver.Conc.Steps

/-!
# Conditions on the runs of a codec

What `UserConditions` says of every user is said here of the codec: some laws of
the driver hold only for runs that avoid a certain step, and `CodecCondition` lists
these steps.  Each is a condition on the state before a move.
-/

namespace VcuDriver

open Conc

/-! ## What a move is about -/

/-- The action which call `i` of the file performs next, if it is in progress. -/
def File.pending? (file : File) (i : ℕ) : Option (UserOp × UserAct) :=
  match file.config.calls[i]? with
  | some ⟨op, .act action _⟩ => some (op, action)
  | _ => none

theorem File.Performs.pending?_eq
    {file : File} {i : ℕ} {op : UserOp} {action : UserAct}
    (hperforms : file.Performs i op action) : file.pending? i = some (op, action) := by
  obtain ⟨rest, hcall⟩ := hperforms
  unfold File.pending?
  rw [hcall]

def UserOp.isBoot : UserOp → Bool
  | .setFirmware _ => true
  | _ => false

def UserAct.Succeeds (state : UserState) : UserAct → Choice → Prop
  | .mutexLockKillable _, choice => choice ≠ .signal
  | .kmalloc, choice | .send _, choice => choice ≠ .fail
  | .listPop which, _ => (state.queues which).mails ≠ []
  | _, _ => True

namespace Codec

def Acts (codec : Codec) (f i : ℕ) (file : File) (op : UserOp) (action : UserAct) :
    Prop :=
  codec.files[f]? = some file ∧ file.Performs i op action

def Delivers (codec : Codec) (f : ℕ) (file : File) (mail : McuMail) : Prop :=
  (∃ nbMsg, codec.handler = .delivering nbMsg mail f) ∧ codec.files[f]? = some file

end Codec

/-! ## What is on its way -/

/-- The user which a request names, if it waits for a reply to this user. -/
def requestUser (mail : Al5Mail) : Option Word :=
  match mail.uid? with
  | some .createChannel | some .searchStartCode => some (mailChanUid mail)
  | _ => none

/-- The user to which a reply is routed, if it is routed by user. -/
def replyUser (mail : Al5Mail) : Option Word :=
  match mail.uid? with
  | some .createChannel | some .searchStartCode =>
      some (al5MailGetWord mail (routeWord mail.uid?))
  | _ => none

/-- The channel which a create feedback grants, with its allocation. -/
def McuMail.grants (mail : McuMail) : List (Word × Option ℕ) :=
  if mail.mail.uid? = some .createChannel then
    ((grantedChannel mail.mail).map fun chanUid => (chanUid, mail.grant)).toList
  else
    []

/-- The channels which a bound file is about to hold: granted by a feedback in its
queue or in the hands of a call. -/
def File.coming (file : File) : List (Word × Option ℕ) :=
  if file.state.bound then
    (file.queued .create).flatMap McuMail.grants ++
      (file.state.hist.inHand.map fun chanUid => (chanUid, file.popped)).toList
  else
    []

/-- The channel which a bound file holds. -/
def File.recorded (file : File) : List (Word × Option ℕ) :=
  if file.state.bound = true ∧ file.state.chanUid ≠ badChan then
    [(file.state.chanUid, file.current)]
  else
    []

def File.references (file : File) : List (Word × Option ℕ) :=
  file.coming ++ file.recorded

namespace Codec

/-- The users which the requests and replies on their way name, with the files that
sent the requests. -/
def outstanding (codec : Codec) : List (Word × Option ℕ) :=
  (codec.commands ++ codec.taken).filterMap (fun command =>
      (requestUser command.mail).map fun uid => (uid, command.sender)) ++
    (codec.handler.pending ++ codec.statuses).filterMap fun mail =>
      (replyUser mail.mail).map fun uid => (uid, mail.asker)

/-- The channels which the driver holds or is about to hold. -/
def references (codec : Codec) : List (Word × Option ℕ) :=
  (codec.handler.pending ++ codec.statuses).flatMap McuMail.grants ++
    codec.files.flatMap File.references

end Codec

/-! ## The conditions -/

/-- Steps which a run may be required to avoid. -/
inductive CodecCondition where
  /-- Every file meets a condition on its user. -/
  | files (condition : Condition)
  /-- Nothing is delivered to a queue which the closing call has found empty. -/
  | closesQuiet
  /-- The boot succeeds, and its root user is sent two mails at most. -/
  | boots
  /-- The MCU sends of its own accord only what concerns no channel and no
  request. -/
  | modelled
  /-- A slot is not bound again while a request or reply that names it is on its
  way. -/
  | bindsUnnamed
  /-- A channel uid is granted only when the driver has forgotten its last
  channel. -/
  | grantsForgotten
  /-- A channel is recorded only when no status is left in the queue or about to be
  delivered. -/
  | obtainsDrained
  deriving DecidableEq

namespace CodecCondition

def AdmitsAct (file : File) (op : UserOp) (action : UserAct) (choice : Choice) :
    CodecCondition → Prop
  | .files condition => condition.Admits file.state op action choice
  | .boots => op.isBoot = true → action.Succeeds file.state choice
  | .obtainsDrained =>
      ∀ value, action = .setChanUid value → value ≠ badChan → file.queued .status = []
  | _ => True

/-- The condition admits an action on file `f` while the handler is where it is. -/
def AdmitsMeanwhile (handler : Handler) (f : ℕ) (action : UserAct) :
    CodecCondition → Prop
  | .obtainsDrained =>
      ∀ value, action = .setChanUid value → value ≠ badChan →
        ∀ nbMsg mail, handler = .delivering nbMsg mail f →
          mailToQueue mail.mail.uid? ≠ .status
  | _ => True

def AdmitsDelivery (file : File) (mail : McuMail) : CodecCondition → Prop
  | .files condition => condition.AdmitsMail file.state mail.mail
  | .closesQuiet =>
      ∀ closer : ℕ, file.state.closer = some closer →
        .popped closer (mailToQueue mail.mail.uid?) none ∉ file.state.log
  | .boots => file.kind = .root → (custody file.config).length < 2
  | _ => True

def AdmitsMcu (codec : Codec) : McuStep → CodecCondition → Prop
  | .emit mail, .modelled => mail.uid? = some .init ∨ mail.uid? = some .trace
  | .create _ chanUid _, .grantsForgotten => chanUid ∉ codec.references.map Prod.fst
  | _, _ => True

def Admits (maxUsersNb : ℕ) (condition : CodecCondition) (codec : Codec) :
    CodecMove → Prop
  | .bind _ =>
      condition = .bindsUnnamed → ∀ slot, codec.freeSlot maxUsersNb = some slot →
        BitVec.ofNat 32 slot ∉ codec.outstanding.map Prod.fst
  | .call f i choice =>
      ∀ file op action, codec.Acts f i file op action →
        condition.AdmitsAct file op action choice ∧
          condition.AdmitsMeanwhile codec.handler f action
  | .handle _ =>
      ∀ f file mail, codec.Delivers f file mail → condition.AdmitsDelivery file mail
  | .mcu step => condition.AdmitsMcu codec step
  | _ => True

end CodecCondition

def codecAdmits (maxUsersNb : ℕ) (conditions : Set CodecCondition) (codec : Codec)
    (move : CodecMove) : Prop :=
  ∀ condition ∈ conditions, condition.Admits maxUsersNb codec move

/-- The runs of a codec whose moves all meet the conditions. -/
abbrev CodecRun (maxUsersNb : ℕ) (conditions : Set CodecCondition) (codec : Codec) :
    Prop :=
  Steps (codecNext maxUsersNb) (codecAdmits maxUsersNb conditions) codecStart codec

/-! ## Checking a run -/

def UserAct.succeeds (state : UserState) : UserAct → Choice → Bool
  | .mutexLockKillable _, choice => !choice.isSignal
  | .kmalloc, choice | .send _, choice => !choice.isFail
  | .listPop which, _ => !(state.queues which).mails.isEmpty
  | _, _ => true

theorem UserAct.succeeds_of_check
    {state : UserState} {action : UserAct} {choice : Choice}
    (hcheck : action.succeeds state choice = true) : action.Succeeds state choice := by
  cases action with
  | mutexLockKillable operation =>
      rintro rfl
      exact absurd hcheck Bool.false_ne_true
  | kmalloc =>
      rintro rfl
      exact absurd hcheck Bool.false_ne_true
  | send mail =>
      rintro rfl
      exact absurd hcheck Bool.false_ne_true
  | listPop which =>
      intro hnil
      simp [succeeds, hnil] at hcheck
  | _ => trivial

namespace CodecCondition

def obtains : UserAct → Bool
  | .setChanUid value => decide (value ≠ badChan)
  | _ => false

def passesAct (codec : Codec) (f : ℕ) (file : File) (op : UserOp) (action : UserAct)
    (choice : Choice) : CodecCondition → Bool
  | .files condition => condition.passes file.state op action choice
  | .boots => !op.isBoot || action.succeeds file.state choice
  | .obtainsDrained => !obtains action || ((file.queued .status).isEmpty &&
      match codec.handler with
      | .delivering _ mail g => decide (g ≠ f ∨ mailToQueue mail.mail.uid? ≠ .status)
      | _ => true)
  | _ => true

def passesDelivery (file : File) (mail : McuMail) : CodecCondition → Bool
  | .files condition => condition.passesMail file.state mail.mail
  | .closesQuiet =>
      match file.state.closer with
      | some closer =>
          decide (Event.popped closer (mailToQueue mail.mail.uid?) none ∉ file.state.log)
      | none => true
  | .boots => decide (file.kind = .root → (custody file.config).length < 2)
  | _ => true

def passesMcu (codec : Codec) : McuStep → CodecCondition → Bool
  | .emit mail, .modelled => decide (mail.uid? = some .init ∨ mail.uid? = some .trace)
  | .create _ chanUid _, .grantsForgotten =>
      decide (chanUid ∉ codec.references.map Prod.fst)
  | _, _ => true

def passes (maxUsersNb : ℕ) (condition : CodecCondition) (codec : Codec) :
    CodecMove → Bool
  | .bind _ =>
      match codec.freeSlot maxUsersNb with
      | some slot => decide (condition = .bindsUnnamed →
          BitVec.ofNat 32 slot ∉ codec.outstanding.map Prod.fst)
      | none => true
  | .call f i choice =>
      match codec.files[f]? with
      | some file =>
          match file.pending? i with
          | some (op, action) => condition.passesAct codec f file op action choice
          | none => true
      | none => true
  | .handle _ =>
      match codec.handler with
      | .delivering _ mail f =>
          match codec.files[f]? with
          | some file => condition.passesDelivery file mail
          | none => true
      | _ => true
  | .mcu step => condition.passesMcu codec step
  | _ => true

variable {condition : CodecCondition} {codec : Codec} {f : ℕ} {file : File}

theorem admitsAct_of_passes
    {op : UserOp} {action : UserAct} {choice : Choice}
    (hpasses : condition.passesAct codec f file op action choice = true) :
    condition.AdmitsAct file op action choice ∧
      condition.AdmitsMeanwhile codec.handler f action := by
  cases condition with
  | files condition => exact ⟨Condition.admits_of_passes hpasses, trivial⟩
  | boots =>
      refine ⟨fun hboot => UserAct.succeeds_of_check ?_, trivial⟩
      simpa [passesAct, hboot] using hpasses
  | obtainsDrained =>
      constructor
      · rintro value rfl hbad
        simp only [passesAct, obtains, hbad, ne_eq, not_false_eq_true, decide_true,
          Bool.not_true, Bool.false_or, Bool.and_eq_true, List.isEmpty_iff] at hpasses
        exact hpasses.1
      · rintro value rfl hbad nbMsg mail hhandler
        simp only [passesAct, obtains, hbad, ne_eq, not_false_eq_true, decide_true,
          Bool.not_true, Bool.false_or, Bool.and_eq_true, hhandler,
          decide_eq_true_eq, not_true_eq_false, false_or] at hpasses
        exact hpasses.2
  | _ => exact ⟨trivial, trivial⟩

theorem admitsDelivery_of_passes
    {mail : McuMail} (hpasses : condition.passesDelivery file mail = true) :
    condition.AdmitsDelivery file mail := by
  cases condition with
  | files condition => exact Condition.admitsMail_of_passes hpasses
  | closesQuiet =>
      intro closer hcloser
      simp only [passesDelivery, hcloser] at hpasses
      exact of_decide_eq_true hpasses
  | boots =>
      simp only [passesDelivery, decide_eq_true_eq] at hpasses
      exact hpasses
  | _ => trivial

theorem admitsMcu_of_passes
    {step : McuStep} (hpasses : condition.passesMcu codec step = true) :
    condition.AdmitsMcu codec step := by
  cases condition with
  | modelled =>
      cases step with
      | emit mail =>
          simp only [passesMcu, decide_eq_true_eq] at hpasses
          exact hpasses
      | _ => trivial
  | grantsForgotten =>
      cases step with
      | create index chanUid reply =>
          simp only [passesMcu, decide_eq_true_eq] at hpasses
          exact hpasses
      | _ => trivial
  | _ => cases step <;> trivial

theorem admits_of_passes
    {maxUsersNb : ℕ} {move : CodecMove}
    (hpasses : condition.passes maxUsersNb codec move = true) :
    condition.Admits maxUsersNb codec move := by
  cases move with
  | bind kind =>
      intro hcondition slot hslot
      simp only [passes, hslot] at hpasses
      exact of_decide_eq_true hpasses hcondition
  | call f i choice =>
      rintro file op action ⟨hfile, hperforms⟩
      simp only [passes, hfile, hperforms.pending?_eq] at hpasses
      exact admitsAct_of_passes hpasses
  | handle choice =>
      rintro f file mail ⟨⟨nbMsg, hhandler⟩, hfile⟩
      simp only [passes, hhandler, hfile] at hpasses
      exact admitsDelivery_of_passes hpasses
  | mcu step => exact admitsMcu_of_passes hpasses
  | _ => trivial

end CodecCondition

/-- A run which is checked move by move. -/
theorem codecRun_of_passes
    {maxUsersNb : ℕ} {conditions : Set CodecCondition} {checked : List CodecCondition}
    {moves : List CodecMove} {codec : Codec}
    (hchecked : ∀ condition ∈ conditions, condition ∈ checked)
    (hrun : runSteps (codecNext maxUsersNb)
      (fun codec move => checked.all fun condition =>
        condition.passes maxUsersNb codec move) moves codecStart = some codec) :
    CodecRun maxUsersNb conditions codec := by
  apply Steps.of_runSteps _ hrun
  intro codec move hpass condition hmem
  exact CodecCondition.admits_of_passes
    (List.all_eq_true.mp hpass condition (hchecked condition hmem))

end VcuDriver

import VcuDriver.Feedback
import VcuDriver.Conc.Steps

/-!
# The files of a codec, its interrupt handler and the MCU

A codec serves any number of open files.  Each file has a user, which is bound to
the lowest free slot of a table; the calls on a file run as in `userMachine`, but
their mails go to a command ring, and the mails which they receive come from the
interrupt handler.  The handler takes them from the status ring and finds the
addressee in the table.

The MCU is the only part that is not in the driver: it takes commands in order,
keeps a table of the channels that are live, and answers a request for a channel or a
search when it likes; it may refuse a channel.  With every mail the model keeps whose
request it answers and for which allocation of the channel uid it was emitted; no step
depends on that.
-/

namespace VcuDriver

open Conc

/-! ## Mails on their way -/

/-- A mail from the MCU, with the file whose request it answers, the allocation of
the channel which it names, and the file that recorded this allocation when the
mail was emitted. -/
structure McuMail where
  mail : Al5Mail
  asker : Option ℕ
  grant : Option ℕ
  holder : Option ℕ

/-- A mail to the MCU, with the file that sent it, or none for the interrupt
handler, and the allocation of the channel for which it was sent. -/
structure Command where
  mail : Al5Mail
  sender : Option ℕ
  grant : Option ℕ

/-! ## Files -/

/-- A file, with what is known of the mails in the queues of its user, the
allocation of the create feedback that was popped last, the allocation of the
channel recorded now, and for every status returned the allocation for which it
was emitted and the one recorded then. -/
structure File where
  kind : UserKind
  uid : Word
  config : UserConfig
  queued : UserMail → List McuMail
  popped : Option ℕ
  current : Option ℕ
  returned : List (Option ℕ × Option ℕ)

/-- The part of an action that the file does not do alone. -/
inductive FileEffect where
  | nothing
  | sends (mail : Al5Mail)
  | unbinds

def UserAct.effect : UserAct → Choice → FileEffect
  | .send mail, .succeed => .sends mail
  | .unbind, _ => .unbinds
  | _, _ => .nothing

def UserOp.waitsForStatus : UserOp → Bool
  | .encoderWaitForStatus | .decoderWaitForStatus => true
  | _ => false

namespace File

/-- The file after `al5_codec_open`, or the root user of the boot. -/
def opened (kind : UserKind) (uid : Word) : File where
  kind := kind
  uid := uid
  config := userStart
  queued _ := []
  popped := none
  current := none
  returned := []

def state (file : File) : UserState :=
  file.config.state

def machine (file : File) :
    Machine UserState UserAct UserAct.Res Choice UserOp UserOut Al5Mail :=
  userMachine file.kind file.uid

def notePop (file : File) (op : UserOp) (which : UserMail) : File :=
  let head := (file.queued which).head?
  { file with
    queued := Function.update file.queued which (file.queued which).tail
    popped :=
      if which = .create ∧ file.state.hist.awaiting then head.bind McuMail.grant
      else file.popped
    returned :=
      if which = .status ∧ op.waitsForStatus then
        (head.map fun mail => (mail.grant, file.current)).toList ++ file.returned
      else
        file.returned }

def note (file : File) (op : UserOp) : UserAct → File
  | .listPop which => file.notePop op which
  | .setChanUid value =>
      { file with current := if value = badChan then none else file.popped }
  | _ => file

def step (file : File) (i : ℕ) (choice : Choice) : Option (File × FileEffect) :=
  match file.config.calls[i]? with
  | some ⟨op, .act action _⟩ =>
      (file.machine.next file.config (.step i choice)).map fun config =>
        ({ file.note op action with config := config }, action.effect choice)
  | _ => none

def deliver (file : File) (mail : McuMail) : Option File :=
  (file.machine.next file.config (.env mail.mail)).map fun config =>
    let which := mailToQueue mail.mail.uid?
    { file with
      config := config
      queued := Function.update file.queued which (file.queued which ++ [mail]) }

/-- The file records the allocation of a channel uid. -/
def Records (file : File) (chanUid : Word) (grant : Option ℕ) : Prop :=
  file.state.bound = true ∧ file.state.chanUid = chanUid ∧ file.current = grant

instance (file : File) (chanUid : Word) (grant : Option ℕ) :
    Decidable (file.Records chanUid grant) := by
  unfold Records
  infer_instance

end File

/-! ## The interrupt handler -/

/-- Where `al5_irq_handler` is: it does not run, or it holds the lock of the group
and is in the loop of `al5_group_read_mails`, in `retrieve_user`, in the loop of
`al5_group_user_from_chan_uid` before a slot, before `al5_user_deliver`, in
`destroy_orphan_channel`, or before it frees the mail. -/
inductive Handler where
  | idle
  | looking (nbMsg : ℕ)
  | routing (nbMsg : ℕ) (mail : McuMail)
  | scanning (nbMsg : ℕ) (mail : McuMail) (slot : ℕ)
  | delivering (nbMsg : ℕ) (mail : McuMail) (file : ℕ)
  | orphaning (nbMsg : ℕ) (mail : McuMail)
  | freeing (nbMsg : ℕ) (mail : McuMail)

namespace Handler

def isIdle : Handler → Bool
  | .idle => true
  | _ => false

def held : Handler → List McuMail
  | .idle | .looking _ => []
  | .routing _ mail | .scanning _ mail _ | .delivering _ mail _
  | .orphaning _ mail | .freeing _ mail => [mail]

/-- The mail for which an addressee is still looked for or was found. -/
def pending : Handler → List McuMail
  | .routing _ mail | .scanning _ mail _ | .delivering _ mail _ => [mail]
  | _ => []

/-- `handle_mail` when no user was found. -/
def rejected (nbMsg : ℕ) (mail : McuMail) : Handler :=
  if shouldDestroyChannelOnBadFeedback mail.mail.uid? then .orphaning nbMsg mail
  else .freeing nbMsg mail

end Handler

def maxMailboxMsg : ℕ := 100

/-! ## The codec -/

/-- What the handler has done with a mail: it gave it to a file, or freed it while the
file that held its channel at the emission still did or not. -/
inductive Settlement where
  | queued (file : ℕ)
  | freed (held : Bool)
  deriving DecidableEq

/-- The files in the order of their opening, the table of the group, the handler,
the two rings, the creates and searches which the MCU has taken and not answered, and
its table of live channels.  Every grant of a channel has a number, and `asker` keeps
the file that asked for it.  `received` and `freed` are the mails which the
handler has read and those which it has freed; `emitted` and `settled` are those which
the MCU has emitted and those with which the handler is done, in their order. -/
structure Codec where
  files : List File
  users : ℕ → Option ℕ
  handler : Handler
  commands : List Command
  statuses : List McuMail
  taken : List Command
  live : Word → Option ℕ
  granted : ℕ
  asker : ℕ → Option ℕ
  received : List Al5Mail
  freed : List Al5Mail
  emitted : List McuMail
  settled : List (McuMail × Settlement)

def codecStart : Codec where
  files := []
  users _ := none
  handler := .idle
  commands := []
  statuses := []
  taken := []
  live _ := none
  granted := 0
  asker _ := none
  received := []
  freed := []
  emitted := []
  settled := []

inductive McuStep where
  /-- Take a command that destroys no channel. -/
  | take
  /-- Grant this channel to a create that was taken. -/
  | create (index : ℕ) (chanUid : Word) (reply : Al5Mail)
  /-- Refuse a create that was taken. -/
  | refuse (index : ℕ) (reply : Al5Mail)
  /-- Answer a search that was taken. -/
  | found (index : ℕ) (reply : Al5Mail)
  | destroy (reply : Al5Mail)
  | quietDestroy
  /-- Emit a feedback for a live channel. -/
  | feedback (mail : Al5Mail)
  /-- Emit any mail. -/
  | emit (mail : Al5Mail)

inductive CodecMove where
  /-- `al5_codec_open`, or the start of `al5_codec_set_firmware`. -/
  | bind (kind : UserKind)
  | enter (file : ℕ) (op : UserOp)
  | call (file i : ℕ) (choice : Choice)
  | interrupt
  | handle (choice : Choice)
  | mcu (step : McuStep)

def Al5Mail.Echoes (reply : Al5Mail) (mailUid : MailUid) (word : ℕ) (value : Word) :
    Prop :=
  reply.uid? = some mailUid ∧ al5MailGetWord reply word = value

instance (reply : Al5Mail) (mailUid : MailUid) (word : ℕ) (value : Word) :
    Decidable (reply.Echoes mailUid word value) := by
  unfold Al5Mail.Echoes
  infer_instance

/-- The mails that are a feedback for a channel and not the reply to its creation
or destruction. -/
def isFeedback : Option MailUid → Bool
  | some .createChannel | some .destroyChannel | some .init
  | some .searchStartCode | some .trace => false
  | _ => true

namespace Codec

def freeSlot (maxUsersNb : ℕ) (codec : Codec) : Option ℕ :=
  (List.range maxUsersNb).find? fun slot => (codec.users slot).isNone

/-- `al5_group_bind_user`. -/
def bindUser (maxUsersNb : ℕ) (kind : UserKind) (codec : Codec) : Option Codec :=
  if codec.handler.isIdle then
    (codec.freeSlot maxUsersNb).map fun slot =>
      { codec with
        files := codec.files ++ [File.opened kind (BitVec.ofNat 32 slot)]
        users := Function.update codec.users slot (some codec.files.length) }
  else
    none

def enter (f : ℕ) (op : UserOp) (codec : Codec) : Option Codec := do
  let file ← codec.files[f]?
  let config ← file.machine.next file.config (.enter op)
  some { codec with files := codec.files.set f { file with config := config } }

/-- An action of a call, with its effect on the ring or the table. -/
def call (f i : ℕ) (choice : Choice) (codec : Codec) : Option Codec := do
  let file ← codec.files[f]?
  let outcome ← file.step i choice
  let codec' := { codec with files := codec.files.set f outcome.1 }
  match outcome.2 with
  | .nothing => some codec'
  | .sends mail =>
      some { codec' with
        commands := codec.commands ++ [⟨mail, some f, file.current⟩] }
  | .unbinds =>
      if codec.handler.isIdle then
        some { codec' with users := Function.update codec.users file.uid.toNat none }
      else
        none

/-- `al5_group_user_from_uid`. -/
def userFromUid (maxUsersNb : ℕ) (codec : Codec) (userUid : Word) : Option ℕ :=
  if userUid.toInt ≥ maxUsersNb ∨ userUid.toInt < 0 then none
  else codec.users userUid.toNat

def hasChannelId (codec : Codec) (f : ℕ) (chanUid : Word) : Bool :=
  match codec.files[f]? with
  | some file => file.state.chanUid == chanUid
  | none => false

/-- `retrieve_user` up to the loop over the slots. -/
def route (maxUsersNb nbMsg : ℕ) (mail : McuMail) (codec : Codec) : Handler :=
  match mail.mail.uid? with
  | some .trace => .freeing nbMsg mail
  | some .createChannel | some .init | some .searchStartCode =>
      match codec.userFromUid maxUsersNb
          (al5MailGetWord mail.mail (routeWord mail.mail.uid?)) with
      | some f => .delivering nbMsg mail f
      | none => .rejected nbMsg mail
  | _ => .scanning nbMsg mail 0

/-- One round of the loop of `al5_group_user_from_chan_uid`. -/
def scan (maxUsersNb nbMsg : ℕ) (mail : McuMail) (slot : ℕ) (codec : Codec) :
    Handler :=
  if slot < maxUsersNb then
    match codec.users slot with
    | some f =>
        if codec.hasChannelId f (mailChanUid mail.mail) then
          .delivering nbMsg mail f
        else
          .scanning nbMsg mail (slot + 1)
    | none => .scanning nbMsg mail (slot + 1)
  else
    .rejected nbMsg mail

/-- `destroy_orphan_channel`: the mail cannot be built, or not be sent, when the
choice is to fail. -/
def destroyOrphanChannel (mail : McuMail) (choice : Choice) (codec : Codec) :
    List Command :=
  match choice, createQuietDestroyChannelMsg true (al5MailGetChanUid mail.mail) with
  | .succeed, .ok (some command) => codec.commands ++ [⟨command, none, mail.grant⟩]
  | _, _ => codec.commands

/-- The file that held the channel of a mail when it was emitted still does. -/
def stillHeld (codec : Codec) (mail : McuMail) : Bool :=
  match mail.holder.bind fun f => codec.files[f]? with
  | some file => file.state.bound && file.state.chanUid == mailChanUid mail.mail
  | none => false

def handle (maxUsersNb : ℕ) (choice : Choice) (codec : Codec) : Option Codec :=
  match codec.handler with
  | .idle => none
  | .looking nbMsg =>
      match codec.statuses with
      | mail :: rest =>
          if nbMsg < maxMailboxMsg then
            some { codec with
              handler := .routing (nbMsg + 1) mail
              statuses := rest
              received := mail.mail :: codec.received }
          else
            some { codec with handler := .idle }
      | [] => some { codec with handler := .idle }
  | .routing nbMsg mail =>
      some { codec with handler := codec.route maxUsersNb nbMsg mail }
  | .scanning nbMsg mail slot =>
      some { codec with handler := codec.scan maxUsersNb nbMsg mail slot }
  | .delivering nbMsg mail f => do
      let file ← codec.files[f]?
      let file' ← file.deliver mail
      some { codec with
        files := codec.files.set f file'
        handler := .looking nbMsg
        settled := codec.settled ++ [(mail, .queued f)] }
  | .orphaning nbMsg mail =>
      some { codec with
        commands := codec.destroyOrphanChannel mail choice
        handler := .freeing nbMsg mail }
  | .freeing nbMsg mail =>
      some { codec with
        handler := .looking nbMsg
        freed := mail.mail :: codec.freed
        settled := codec.settled ++ [(mail, .freed (codec.stillHeld mail))] }

/-- The bound file that records the allocation of a channel uid. -/
def holder (codec : Codec) (chanUid : Word) (grant : ℕ) : Option ℕ :=
  codec.files.findIdx? fun file => file.Records chanUid (some grant)

def emit (mail : McuMail) (codec : Codec) : Codec :=
  { codec with
    statuses := codec.statuses ++ [mail]
    emitted := codec.emitted ++ [mail] }

def mcu (codec : Codec) : McuStep → Option Codec
  | .take =>
      match codec.commands with
      | command :: rest =>
          if command.mail.uid? = some .destroyChannel ∨
              command.mail.uid? = some .quietDestroyChannel then
            none
          else if command.mail.uid? = some .createChannel ∨
              command.mail.uid? = some .searchStartCode then
            some { codec with
              commands := rest
              taken := codec.taken ++ [command] }
          else
            some { codec with commands := rest }
      | [] => none
  | .create index chanUid reply =>
      match codec.taken[index]? with
      | some command =>
          if command.mail.uid? = some .createChannel ∧ chanUid ≠ badChan ∧
              codec.live chanUid = none ∧ reply.Echoes .createChannel 0 chanUid ∧
              reply.Echoes .createChannel 1 (mailChanUid command.mail) then
            some (emit ⟨reply, command.sender, codec.granted, none⟩ { codec with
              taken := codec.taken.eraseIdx index
              live := Function.update codec.live chanUid (some codec.granted)
              granted := codec.granted + 1
              asker := Function.update codec.asker codec.granted command.sender })
          else
            none
      | none => none
  | .refuse index reply =>
      match codec.taken[index]? with
      | some command =>
          if command.mail.uid? = some .createChannel ∧
              reply.Echoes .createChannel 0 badChan ∧
              reply.Echoes .createChannel 1 (mailChanUid command.mail) then
            some (emit ⟨reply, command.sender, none, none⟩
              { codec with taken := codec.taken.eraseIdx index })
          else
            none
      | none => none
  | .found index reply =>
      match codec.taken[index]? with
      | some command =>
          if command.mail.uid? = some .searchStartCode ∧
              reply.Echoes .searchStartCode 0 (mailChanUid command.mail) then
            some (emit ⟨reply, command.sender, none, none⟩
              { codec with taken := codec.taken.eraseIdx index })
          else
            none
      | none => none
  | .destroy reply =>
      match codec.commands with
      | command :: rest =>
          let chanUid := mailChanUid command.mail
          if command.mail.uid? = some .destroyChannel ∧
              reply.Echoes .destroyChannel 0 chanUid then
            some (emit ⟨reply, command.sender, command.grant, none⟩ { codec with
              commands := rest
              live := Function.update codec.live chanUid none })
          else
            none
      | [] => none
  | .quietDestroy =>
      match codec.commands with
      | command :: rest =>
          if command.mail.uid? = some .quietDestroyChannel then
            some { codec with
              commands := rest
              live := Function.update codec.live (mailChanUid command.mail) none }
          else
            none
      | [] => none
  | .feedback mail =>
      match codec.live (mailChanUid mail) with
      | some grant =>
          if isFeedback mail.uid? then
            some (codec.emit
              ⟨mail, codec.asker grant, grant, codec.holder (mailChanUid mail) grant⟩)
          else
            none
      | none => none
  | .emit mail => some (codec.emit ⟨mail, none, none, none⟩)

end Codec

def codecNext (maxUsersNb : ℕ) (codec : Codec) : CodecMove → Option Codec
  | .bind kind => codec.bindUser maxUsersNb kind
  | .enter f op => codec.enter f op
  | .call f i choice => codec.call f i choice
  | .interrupt =>
      if codec.handler.isIdle then some { codec with handler := .looking 0 } else none
  | .handle choice => codec.handle maxUsersNb choice
  | .mcu step => codec.mcu step

end VcuDriver

import VcuDriver.Conc.Ensures
import VcuDriver.UserAllocations

/-!
# Requests whose mail is `NULL`

`al5_check_and_send` turns a mail that could not be allocated into `-ENOMEM`.  It does
so only if the constructor of the mail returns: `al5_mail_write` does not test its
mail, so a constructor which writes before it tests stops the kernel.

Each request below is the function of the source that builds a mail and sends it.  The
creation of an encoder's channel goes on to build the mails of its buffers, and a
creation that is resumed builds only those.
-/

namespace VcuDriver

open Conc

/-- `destroy_orphan_channel`, which reports `-ENOMEM` to the log only. -/
def orphanDestroy (chanUid : Word) : UserProg ℤ := do
  let mail ← buildMail fun kmalloc => createQuietDestroyChannelMsg kmalloc chanUid
  match mail with
  | none => pure (-ENOMEM)
  | some mail => Prog.perform (UserAct.send mail)

/-- The requests that build a mail, with their arguments. -/
inductive MailRequest where
  | encoderCreate (uid : Word) (param : Al5Params) (status : Al5eChannelStatus)
  | encoderResume (uid : Word) (param : Al5Params) (status : Al5eChannelStatus)
  | decoderCreate (uid : Word) (param : Al5Params) (status : Al5dChannelStatus)
  | encodeOneFrame (msg : Al5EncodeMsg)
  | decodeOneFrame (msg : Al5DecodeMsg)
  | decodeOneSlice (msg : Al5DecodeMsg)
  | searchStartCode (uid : Word) (msg : Al5SearchScMsg)
  | putStreamBuffer (buffer : Al5Buffer)
  | getRec
  | releaseRec (fd : Word)
  | pushIntermediate
  | pushReference
  | destroy
  | quietDestroy
  | init (uid : Word) (msg : List Byte)
  | orphanDestroy (chanUid : Word)

namespace MailRequest

def program : MailRequest → UserProg ℤ
  | .encoderCreate uid param status | .encoderResume uid param status =>
      (al5eUserCreateChannel uid param status).bind fun result => .ret result.1
  | .decoderCreate uid param status =>
      (al5dUserCreateChannel uid param status).bind fun result => .ret result.1
  | .encodeOneFrame msg => al5eUserEncodeOneFrame msg
  | .decodeOneFrame msg => al5dUserDecodeOneFrame msg
  | .decodeOneSlice msg => al5dUserDecodeOneSlice msg
  | .searchStartCode uid msg => al5dUserSearchStartCode uid msg
  | .putStreamBuffer buffer => al5eUserPutStreamBuffer buffer
  | .getRec => al5eUserGetRec.bind fun result => .ret result.1
  | .releaseRec fd => al5eUserReleaseRec fd
  | .pushIntermediate => sendIntermediateBuffers
  | .pushReference => sendReferenceBuffers
  | .destroy => al5UserDestroyChannel false
  | .quietDestroy => al5UserDestroyChannel true
  | .init uid msg => initMcu uid msg
  | .orphanDestroy chanUid => VcuDriver.orphanDestroy chanUid

/-- How many allocations the function makes at most: its mails, and in `init_mcu` the
memory pool of the MCU first. -/
def allocations : MailRequest → ℕ
  | .encoderCreate .. | .encoderResume .. => 3
  | .init .. => 2
  | _ => 1

end MailRequest

/-! ## Runs in which allocations are refused -/

/-- A user, the answers to its next allocations, and whether one was refused.  When the
list has come to its end every allocation is granted. -/
structure Refusal where
  user : UserState
  answers : List Bool
  refused : Bool

namespace Refusal

/-- The answers after an action; none if it had another result. -/
def answered (state : Refusal) : (action : UserAct) → action.Res → Option Refusal
  | .kmalloc, result =>
      if result = state.answers.headD true then
        some { state with
          answers := state.answers.tail
          refused := state.refused || !result }
      else
        none
  | _, _ => some state

def act (state : Refusal) (i : ℕ) (action : UserAct) (choice : Choice) :
    Option (action.Res × Refusal) := do
  let outcome ← state.user.act i action choice
  let after ← state.answered action outcome.1
  some (outcome.1, { after with user := outcome.2 })

/-- An action with any part of the kernel in it. -/
def exec (i : ℕ) (action : UserAct) (state : Refusal) (result : action.Res)
    (state' : Refusal) : Prop :=
  ∃ choice, state.act i action choice = some (result, state')

/-- Once an allocation was refused the call makes no invalid access. -/
def admits (action : UserAct) (state : Refusal) : Prop :=
  action = .oops → state.refused = false

end Refusal

/-- The mails which a user has put in the command ring. -/
def acceptedMails (log : List Event) : List Al5Mail :=
  log.filterMap fun event =>
    match event with
    | .sent _ mail => some mail
    | _ => none

/-- Nothing was sent, and the channel, the checkpoint and the pools are the same. -/
structure Untouched (before after : UserState) : Prop where
  chanUid : after.chanUid = before.chanUid
  checkpoint : after.checkpoint = before.checkpoint
  pools : after.pools = before.pools
  sent : acceptedMails after.log = acceptedMails before.log

theorem Untouched.refl (before : UserState) : Untouched before before :=
  ⟨rfl, rfl, rfl, rfl⟩

section

variable {i : ℕ} {before state state' : UserState} {action : UserAct} {choice : Choice}

theorem Untouched.trans {middle after : UserState} (hfirst : Untouched before middle)
    (hsecond : Untouched middle after) : Untouched before after where
  chanUid := hsecond.chanUid.trans hfirst.chanUid
  checkpoint := hsecond.checkpoint.trans hfirst.checkpoint
  pools := hsecond.pools.trans hfirst.pools
  sent := hsecond.sent.trans hfirst.sent

/-! ## The rules of the actions -/

section

variable {post : ℤ → Refusal → Prop} {answers : List Bool} {refused : Bool}

end

end

/-! ## Requests to which nothing is refused -/

namespace MailRequest

theorem allocates (request : MailRequest) :
    Allocates request.allocations request.program := by
  cases request with
  | encoderCreate uid param status => exact (allocates_encoderCreate uid param status).map _
  | encoderResume uid param status => exact (allocates_encoderCreate uid param status).map _
  | decoderCreate uid param status => exact (allocates_decoderCreate uid param status).map _
  | encodeOneFrame msg => exact allocates_sendFrameCommand _
  | decodeOneFrame msg => exact allocates_sendFrameCommand _
  | decodeOneSlice msg => exact allocates_sendFrameCommand _
  | searchStartCode uid msg => exact allocates_sendBuilt _
  | putStreamBuffer buffer => exact allocates_putStreamBuffer buffer
  | getRec => exact allocates_getRec.map _
  | releaseRec fd => exact allocates_releaseRec fd
  | pushIntermediate => exact allocates_sendBuffers _ _
  | pushReference => exact allocates_sendBuffers _ _
  | destroy => exact allocates_destroyChannel false
  | quietDestroy => exact allocates_destroyChannel true
  | init uid msg => exact allocates_initMcu uid msg
  | orphanDestroy chanUid =>
      refine allocates_bind (n := 0) (allocates_buildMail _) ?_
      rintro (_ | mail)
      · exact allocates_ret _
      · exact allocates_act rfl fun err => allocates_ret err

variable {answers : List Bool}

end MailRequest

/-! ## The creation of an encoder's channel -/

namespace MailRequest

end MailRequest

/-! ## Requests that write first -/

section

variable {α : Type} {i : ℕ} {action : UserAct} {choice : Choice} {choices : List Choice}
variable {state : Refusal}

end

end VcuDriver

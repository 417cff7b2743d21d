import VcuDriver.Words

/-!
# Mails

The driver and the MCU exchange mails: a 16-bit uid, a 16-bit body size and a
body whose first words carry the addressee.  A mail under construction keeps
how many bytes were allocated for its body, so that a write can be checked
against the allocation; `body` holds the bytes written so far and its length
is the `body_offset` of the source.
-/

namespace VcuDriver

/-! ## Error codes and in-band sentinels -/

def EPERM : ℤ := 1

def EINTR : ℤ := 4

def EAGAIN : ℤ := 11

def ENOMEM : ℤ := 12

def EFAULT : ℤ := 14

def EINVAL : ℤ := 22

def ERESTARTSYS : ℤ := 512

/-- `BAD_CHAN`: the user has no channel, or the MCU refused one. -/
def badChan : Word := 0xff

/-- `NO_CHECKPOINT`: no channel creation is pending. -/
def noCheckpoint : ℤ := -1

/-! ## Mail uids -/

/-- `enum al5_mail_uid`, without its sentinel. -/
inductive MailUid where
  | init
  | deinit
  | ipInt
  | cpuInt
  | cpuRsp
  | createChannel
  | destroyChannel
  | encodeOneFrm
  | decodeOneFrm
  | searchStartCode
  | quietDestroyChannel
  | getResource
  | setBuffer
  | shutdown
  | pushBufferIntermediate
  | pushBufferReference
  | getReconstructedPicture
  | releaseReconstructedPicture
  | putStreamBuffer
  | trace
  | randomTest
  | setTimerBuffer
  | setIrqTimerBuffer
  | decodeOneSlice
  deriving DecidableEq, Repr

def MailUid.code : MailUid → Word
  | .init => 0
  | .deinit => 1
  | .ipInt => 2
  | .cpuInt => 3
  | .cpuRsp => 4
  | .createChannel => 5
  | .destroyChannel => 6
  | .encodeOneFrm => 7
  | .decodeOneFrm => 8
  | .searchStartCode => 9
  | .quietDestroyChannel => 10
  | .getResource => 11
  | .setBuffer => 12
  | .shutdown => 13
  | .pushBufferIntermediate => 14
  | .pushBufferReference => 15
  | .getReconstructedPicture => 16
  | .releaseReconstructedPicture => 17
  | .putStreamBuffer => 18
  | .trace => 19
  | .randomTest => 20
  | .setTimerBuffer => 21
  | .setIrqTimerBuffer => 22
  | .decodeOneSlice => 23

/-- The mail uid a received value stands for, if it is one of the enumeration. -/
def MailUid.ofCode? (code : Word) : Option MailUid :=
  match code.toNat with
  | 0 => some .init
  | 1 => some .deinit
  | 2 => some .ipInt
  | 3 => some .cpuInt
  | 4 => some .cpuRsp
  | 5 => some .createChannel
  | 6 => some .destroyChannel
  | 7 => some .encodeOneFrm
  | 8 => some .decodeOneFrm
  | 9 => some .searchStartCode
  | 10 => some .quietDestroyChannel
  | 11 => some .getResource
  | 12 => some .setBuffer
  | 13 => some .shutdown
  | 14 => some .pushBufferIntermediate
  | 15 => some .pushBufferReference
  | 16 => some .getReconstructedPicture
  | 17 => some .releaseReconstructedPicture
  | 18 => some .putStreamBuffer
  | 19 => some .trace
  | 20 => some .randomTest
  | 21 => some .setTimerBuffer
  | 22 => some .setIrqTimerBuffer
  | 23 => some .decodeOneSlice
  | _ => none

theorem MailUid.ofCode?_code (uid : MailUid) :
    MailUid.ofCode? uid.code = some uid := by
  cases uid <;> rfl

/-! ## The mail structure -/

/-- `struct al5_mail`, with the size of the allocation behind `body`. -/
structure Al5Mail where
  msgUid : BitVec 16
  bodySize : BitVec 16
  contentSize : ℕ
  body : List Byte
  deriving DecidableEq, Repr

/-- What a memory access of a mail constructor can do wrong. -/
inductive Fault where
  | nullMail
  | sourceOverread
  | bodyOverflow
  deriving DecidableEq, Repr

/-- The outcome of a constructor: a fault, `NULL`, or a mail. -/
abbrev MailResult := Except Fault (Option Al5Mail)

/-- `al5_mail_create`; `kmalloc` tells whether the allocation succeeds. -/
def al5MailCreate (kmalloc : Bool) (msgUid contentSize : Word) :
    Option Al5Mail :=
  if kmalloc then
    some {
      msgUid := msgUid.setWidth 16
      bodySize := contentSize.setWidth 16
      contentSize := contentSize.toNat
      body := [] }
  else
    none

/-- `al5_mail_write`: copy `size` bytes from an array of `content` bytes. -/
def al5MailWrite (mail : Option Al5Mail) (content : List Byte) (size : ℕ) :
    MailResult :=
  match mail with
  | none => .error .nullMail
  | some mail =>
      if content.length < size then
        .error .sourceOverread
      else if mail.contentSize < mail.body.length + size then
        .error .bodyOverflow
      else
        .ok (some { mail with body := mail.body ++ content.take size })

def al5MailWriteWord (mail : Option Al5Mail) (word : Word) : MailResult :=
  al5MailWrite mail (wordBytes word) 4

def al5MailGetUid (mail : Al5Mail) : Word :=
  mail.msgUid.setWidth 32

def al5MailGetSize (mail : Al5Mail) : ℕ :=
  mail.bodySize.toNat

def al5MailGetBody (mail : Al5Mail) : List Byte :=
  mail.body

def al5MailGetWord (mail : Al5Mail) (wordOffset : ℕ) : Word :=
  wordAt mail.body (4 * wordOffset)

def Al5Mail.uid? (mail : Al5Mail) : Option MailUid :=
  MailUid.ofCode? (al5MailGetUid mail)

/-- A mail whose body is complete: `body_size` bytes were written. -/
def Al5Mail.Complete (mail : Al5Mail) : Prop :=
  mail.body.length = al5MailGetSize mail

def al5MailGetChanUid (mail : Al5Mail) : Word :=
  match mail.uid? with
  | some .init | some .searchStartCode | some .trace => -1
  | _ => al5MailGetWord mail 0

/-! ## Writes inside the allocation -/

theorem al5MailWrite_eq_ok
    {mail : Al5Mail} {content : List Byte} {size : ℕ}
    (hsource : size ≤ content.length)
    (hroom : mail.body.length + size ≤ mail.contentSize) :
    al5MailWrite (some mail) content size =
      .ok (some { mail with body := mail.body ++ content.take size }) := by
  simp [al5MailWrite, Nat.not_lt.mpr hsource, Nat.not_lt.mpr hroom]

theorem al5MailWrite_inv
    {mail : Option Al5Mail} {content : List Byte} {size : ℕ}
    {result : Option Al5Mail}
    (hwrite : al5MailWrite mail content size = .ok result) :
    ∃ before, mail = some before ∧ size ≤ content.length ∧
      before.body.length + size ≤ before.contentSize ∧
      result = some { before with body := before.body ++ content.take size } := by
  cases mail with
  | none => simp [al5MailWrite] at hwrite
  | some before =>
      simp only [al5MailWrite] at hwrite
      split_ifs at hwrite with hsource hroom
      simp only [Except.ok.injEq] at hwrite
      exact ⟨before, rfl, by omega, by omega, hwrite.symm⟩

theorem al5MailWriteWord_inv
    {mail : Option Al5Mail} {word : Word} {result : Option Al5Mail}
    (hwrite : al5MailWriteWord mail word = .ok result) :
    ∃ before, mail = some before ∧
      before.body.length + 4 ≤ before.contentSize ∧
      result = some { before with body := before.body ++ wordBytes word } := by
  obtain ⟨before, hmail, _, hroom, hresult⟩ := al5MailWrite_inv hwrite
  exact ⟨before, hmail, hroom, hresult⟩

end VcuDriver

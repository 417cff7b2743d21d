import VcuDriver.UserOps

/-!
# Reading a feedback mail

The interrupt handler routes a received mail by words of its body, and the
operation that pops it copies parts of the body into a structure.  No one
compares the body length, which the MCU chose, with what is read; here every
access is checked, so that reading past the body or writing past a destination
is a fault.

`Feedback.Fits` says for each mail uid which lengths are handled in bounds.
-/

namespace VcuDriver

inductive FeedbackFault where
  | bodyOverread
  | destinationOverflow
  deriving DecidableEq, Repr

abbrev Access (α : Type) := Except FeedbackFault α

/-! ## Checked accesses -/

def readBody (mail : Al5Mail) (offset size : ℕ) : Access (List Byte) :=
  if offset + size ≤ mail.body.length then
    .ok ((mail.body.drop offset).take size)
  else
    .error .bodyOverread

/-- `memcpy` from a body into a destination of `room` bytes. -/
def copyBody (room : ℕ) (mail : Al5Mail) (offset size : ℕ) :
    Access (List Byte) :=
  if size ≤ room then readBody mail offset size else .error .destinationOverflow

def readWord (mail : Al5Mail) (wordOffset : ℕ) : Access Word := do
  let _ ← readBody mail (4 * wordOffset) 4
  pure (al5MailGetWord mail wordOffset)

/-! ## Routing -/

/-- The lookups of a group: by user uid and by channel uid. -/
structure Lookup (User : Type) where
  al5GroupUserFromUid : Word → Option User
  al5GroupUserFromChanUid : Word → Option User

section

variable {User : Type}

def retrieveUser (group : Lookup User) (mail : Al5Mail) : Access (Option User) :=
  match mail.uid? with
  | some .createChannel => do
      let userUid ← readWord mail 1
      pure (group.al5GroupUserFromUid userUid)
  | some .init | some .searchStartCode => do
      let userUid ← readWord mail 0
      pure (group.al5GroupUserFromUid userUid)
  | _ => do
      let chanUid ← readWord mail 0
      pure (group.al5GroupUserFromChanUid chanUid)

def shouldDestroyChannelOnBadFeedback (mailUid : Option MailUid) : Bool :=
  match mailUid with
  | some .init | some .searchStartCode | some .destroyChannel => false
  | _ => true

def readChanUid (mail : Al5Mail) : Access Word :=
  match mail.uid? with
  | some .init | some .searchStartCode | some .trace => pure (-1)
  | _ => readWord mail 0

/-- `al5_print_mcu_trace`: the body is printed up to its first zero byte. -/
def al5PrintMcuTrace (mail : Al5Mail) : Access Unit :=
  if (0 : Byte) ∈ mail.body then pure () else .error .bodyOverread

inductive Routed (User : Type) where
  | traced
  | delivered (user : User)
  | destroyedOrphan (chanUid : Word)
  | dropped
  deriving DecidableEq

/-- `handle_mail` once the user was looked up. -/
def handleRetrieved (mail : Al5Mail) : Option User → Access (Routed User)
  | some user => pure (.delivered user)
  | none =>
      if shouldDestroyChannelOnBadFeedback mail.uid? then do
        let chanUid ← readChanUid mail
        pure (.destroyedOrphan chanUid)
      else
        pure .dropped

def handleMail (group : Lookup User) (mail : Al5Mail) : Access (Routed User) :=
  if mail.uid? = some .trace then do
    al5PrintMcuTrace mail
    pure .traced
  else do
    let user ← retrieveUser group mail
    handleRetrieved mail user

end

/-! ## Consumers -/

/-- The operations that read the mail which they pop. -/
inductive Consumer where
  | encoderCreate
  | decoderCreate
  | encoderStatus
  | decoderStatus
  | startCode
  | getRec
  deriving DecidableEq

namespace Consumer

def kind : Consumer → UserKind
  | .encoderCreate | .encoderStatus | .getRec => .encoder
  | .decoderCreate | .decoderStatus | .startCode => .decoder

def queue : Consumer → UserMail
  | .encoderCreate | .decoderCreate => .create
  | .encoderStatus | .decoderStatus => .status
  | .startCode => .sc
  | .getRec => .reconstructed

end Consumer

def feedbackChannelSize : ℕ := 44

def opaqueSize : ℕ := 512

def scstatusSize : ℕ := 8

/-- `try_to_create_channel` on its feedback. -/
def readFeedbackChannel (mail : Al5Mail) : Access Al5eFeedbackChannel := do
  let _ ← copyBody feedbackChannelSize mail 0 feedbackChannelSize
  pure (feedbackOfMail mail)

/-- `al5d_user_create_channel` on its feedback: `update_chan_param` and
`init_chan`. -/
def readChannelStatus (mail : Al5Mail) : Access (Al5dChannelStatus × Word) := do
  let _ ← copyBody 4 mail 8 4
  let _ ← copyBody 4 mail 12 4
  let chanUid ← readChanUid mail
  pure (al5dUpdateChanParam mail, chanUid)

/-- `al5e_mail_get_status` and `al5d_mail_get_status`. -/
def readStatus (mail : Al5Mail) : Access (Word × List Byte) := do
  let size : Word := BitVec.ofNat 32 (al5MailGetSize mail) - 4
  let bytes ← copyBody opaqueSize mail 4 size.toNat
  pure (size, bytes)

/-- `al5d_mail_get_sc_status`. -/
def readScStatus (mail : Al5Mail) : Access Al5Scstatus := do
  let _ ← copyBody scstatusSize mail 4 scstatusSize
  pure (al5dMailGetScStatus mail)

/-- `al5e_user_get_rec` on its feedback; `getUserRecBuffer` is the descriptor
which the pool gives for an id. -/
def readReconstructed (getUserRecBuffer : Word → Word) (mail : Al5Mail) :
    Access (Option Al5ReconstructedInfo) := do
  let id ← readWord mail 1
  let fd := getUserRecBuffer id
  if fd = -1 then
    pure none
  else do
    let picStruct ← readWord mail 2
    let poc ← readWord mail 3
    pure (some ⟨fd, picStruct, poc⟩)

def Consumer.ReadsInBounds (getUserRecBuffer : Word → Word) (mail : Al5Mail) :
    Consumer → Prop
  | .encoderCreate => ∃ message, readFeedbackChannel mail = .ok message
  | .decoderCreate => ∃ status, readChannelStatus mail = .ok status
  | .encoderStatus | .decoderStatus => ∃ status, readStatus mail = .ok status
  | .startCode => ∃ status, readScStatus mail = .ok status
  | .getRec => ∃ info, readReconstructed getUserRecBuffer mail = .ok info

/-! ## Lengths that are handled in bounds -/

/-- The length of the body suits the consumer. -/
def Consumer.Fits (getUserRecBuffer : Word → Word) (mail : Al5Mail) :
    Consumer → Prop
  | .encoderCreate => 44 ≤ mail.body.length
  | .decoderCreate => 16 ≤ mail.body.length
  | .encoderStatus | .decoderStatus =>
      4 ≤ mail.body.length ∧ mail.body.length ≤ 516
  | .startCode => 12 ≤ mail.body.length
  | .getRec =>
      16 ≤ mail.body.length ∨
        8 ≤ mail.body.length ∧ getUserRecBuffer (al5MailGetWord mail 1) = -1

/-- The word of the body by which a mail is routed. -/
def routeWord : Option MailUid → ℕ
  | some .createChannel => 1
  | _ => 0

def RouteFits (mail : Al5Mail) : Prop :=
  if mail.uid? = some .trace then
    (0 : Byte) ∈ mail.body
  else
    4 * routeWord mail.uid? + 4 ≤ mail.body.length

section

variable {mail : Al5Mail}

theorem readBody_eq_ok {offset size : ℕ} (hfits : offset + size ≤ mail.body.length) :
    readBody mail offset size = .ok ((mail.body.drop offset).take size) := by
  unfold readBody
  rw [if_pos hfits]

theorem readBody_eq_error {offset size : ℕ}
    (hfits : ¬ offset + size ≤ mail.body.length) :
    readBody mail offset size = .error .bodyOverread := by
  unfold readBody
  rw [if_neg hfits]

theorem readWord_eq_ok {word : ℕ} (hfits : 4 * word + 4 ≤ mail.body.length) :
    readWord mail word = .ok (al5MailGetWord mail word) := by
  unfold readWord
  rw [readBody_eq_ok hfits]
  rfl

theorem readWord_eq_error {word : ℕ} (hfits : ¬ 4 * word + 4 ≤ mail.body.length) :
    readWord mail word = .error .bodyOverread := by
  unfold readWord
  rw [readBody_eq_error hfits]
  rfl

/-- A program that begins with the word does not fault iff the word is there
and the rest does not. -/
theorem readWord_bind_eq_ok_iff
    {α : Type} {word : ℕ} {rest : Word → Access α} :
    (∃ result, readWord mail word >>= rest = .ok result) ↔
      4 * word + 4 ≤ mail.body.length ∧
        ∃ result, rest (al5MailGetWord mail word) = .ok result := by
  by_cases hfits : 4 * word + 4 ≤ mail.body.length
  · rw [readWord_eq_ok hfits]
    simp [bind, Except.bind, hfits]
  · rw [readWord_eq_error hfits]
    simp [bind, Except.bind, hfits]

theorem copyBody_bind_eq_ok_iff
    {α : Type} {room offset size : ℕ} {rest : List Byte → Access α} :
    (∃ result, copyBody room mail offset size >>= rest = .ok result) ↔
      size ≤ room ∧ offset + size ≤ mail.body.length ∧
        ∃ result, rest ((mail.body.drop offset).take size) = .ok result := by
  unfold copyBody
  by_cases hroom : size ≤ room
  · by_cases hfits : offset + size ≤ mail.body.length
    · rw [if_pos hroom, readBody_eq_ok hfits]
      simp [bind, Except.bind, hroom, hfits]
    · rw [if_pos hroom, readBody_eq_error hfits]
      simp [bind, Except.bind, hfits]
  · rw [if_neg hroom]
    simp [bind, Except.bind, hroom]

theorem pure_eq_ok {α : Type} (value : α) :
    ∃ result, (pure value : Access α) = .ok result :=
  ⟨value, rfl⟩

theorem readChanUid_bind_eq_ok
    {α : Type} {rest : Word → Access α} (hfits : 4 ≤ mail.body.length)
    (hrest : ∀ chanUid, ∃ result, rest chanUid = .ok result) :
    ∃ result, readChanUid mail >>= rest = .ok result := by
  unfold readChanUid
  split
  · exact hrest _
  · exact hrest _
  · exact hrest _
  · exact readWord_bind_eq_ok_iff.mpr ⟨by omega, hrest _⟩

end

section

variable {User : Type} {group : Lookup User} {mail : Al5Mail}

def lookupUser (group : Lookup User) (mailUid : Option MailUid) (uid : Word) :
    Option User :=
  match mailUid with
  | some .createChannel | some .init | some .searchStartCode =>
      group.al5GroupUserFromUid uid
  | _ => group.al5GroupUserFromChanUid uid

theorem retrieveUser_bind {α : Type} (rest : Option User → Access α) :
    retrieveUser group mail >>= rest =
      readWord mail (routeWord mail.uid?) >>= fun uid =>
        rest (lookupUser group mail.uid? uid) := by
  have hsame : retrieveUser group mail =
      readWord mail (routeWord mail.uid?) >>= fun uid =>
        pure (lookupUser group mail.uid? uid) := by
    unfold retrieveUser lookupUser routeWord
    cases mail.uid? with
    | none => rfl
    | some mailUid => cases mailUid <;> rfl
  rw [hsame, bind_assoc]
  rfl

/-- After the lookup, which reads at least the first word, nothing faults. -/
theorem handleRetrieved_eq_ok
    (hfits : 4 ≤ mail.body.length) (user : Option User) :
    ∃ routed, handleRetrieved mail user = .ok routed := by
  unfold handleRetrieved
  cases user with
  | some user => exact pure_eq_ok _
  | none =>
      dsimp only
      split
      · exact readChanUid_bind_eq_ok hfits fun _ => pure_eq_ok _
      · exact pure_eq_ok _

/-- Only a user that was found gets the mail. -/
theorem handleRetrieved_eq_delivered_iff {found : Option User} {user : User} :
    handleRetrieved mail found = .ok (.delivered user) ↔ found = some user := by
  unfold handleRetrieved
  cases found with
  | some found => simp [pure, Except.pure]
  | none =>
      dsimp only
      split
      · cases readChanUid mail with
        | error fault => simp [bind, Except.bind]
        | ok chanUid => simp [pure, Except.pure, bind, Except.bind]
      · simp [pure, Except.pure]

/-- Routing reads the body in bounds exactly when the length suits it. -/
theorem handleMail_eq_ok_iff :
    (∃ routed, handleMail group mail = .ok routed) ↔ RouteFits mail := by
  unfold handleMail RouteFits
  by_cases htrace : mail.uid? = some .trace
  · rw [if_pos htrace, if_pos htrace]
    unfold al5PrintMcuTrace
    by_cases hzero : (0 : Byte) ∈ mail.body
    · rw [if_pos hzero]
      exact ⟨fun _ => hzero, fun _ => pure_eq_ok _⟩
    · rw [if_neg hzero]
      simp only [bind, Except.bind]
      constructor
      · rintro ⟨routed, hrouted⟩
        exact absurd hrouted (by simp)
      · exact fun h => absurd h hzero
  · rw [if_neg htrace, if_neg htrace, retrieveUser_bind, readWord_bind_eq_ok_iff]
    constructor
    · exact fun h => h.1
    · intro hfits
      exact ⟨hfits, handleRetrieved_eq_ok (by omega) _⟩

/-- The handler delivers a mail whose routing is in bounds iff the lookup finds a
user. -/
theorem handleMail_eq_delivered_iff
    (hroute : RouteFits mail) {user : User} :
    handleMail group mail = .ok (.delivered user) ↔
      mail.uid? ≠ some .trace ∧
        lookupUser group mail.uid? (al5MailGetWord mail (routeWord mail.uid?)) =
          some user := by
  unfold RouteFits at hroute
  unfold handleMail
  by_cases htrace : mail.uid? = some .trace
  · rw [if_pos htrace] at hroute
    rw [if_pos htrace]
    unfold al5PrintMcuTrace
    rw [if_pos hroute]
    simp [htrace, pure, Except.pure, bind, Except.bind]
  · rw [if_neg htrace] at hroute
    rw [if_neg htrace, retrieveUser_bind, readWord_eq_ok hroute]
    exact handleRetrieved_eq_delivered_iff.trans (by simp [htrace])

/-! ## Consumers -/

/-- A consumer reads the mail in bounds exactly when its length suits it. -/
theorem Consumer.readsInBounds_iff
    (hcomplete : mail.Complete) (getUserRecBuffer : Word → Word)
    (consumer : Consumer) :
    consumer.ReadsInBounds getUserRecBuffer mail ↔
      consumer.Fits getUserRecBuffer mail := by
  have hlength : mail.body.length < 2 ^ 16 := by
    rw [hcomplete]
    exact mail.bodySize.isLt
  have hstatus : (∃ status, readStatus mail = .ok status) ↔
      4 ≤ mail.body.length ∧ mail.body.length ≤ 516 := by
    have hsize : (BitVec.ofNat 32 (al5MailGetSize mail) - 4 : Word).toNat =
        if 4 ≤ mail.body.length then mail.body.length - 4
        else 2 ^ 32 - 4 + mail.body.length := by
      rw [← hcomplete, BitVec.toNat_sub, BitVec.toNat_ofNat]
      split <;> simp <;> omega
    unfold readStatus
    rw [copyBody_bind_eq_ok_iff, hsize]
    unfold opaqueSize
    split
    · constructor
      · exact fun h => by omega
      · exact fun h => ⟨by omega, by omega, pure_eq_ok _⟩
    · constructor
      · exact fun h => by omega
      · exact fun h => by omega
  cases consumer with
  | encoderCreate =>
      unfold ReadsInBounds Fits readFeedbackChannel feedbackChannelSize
      rw [copyBody_bind_eq_ok_iff]
      exact ⟨fun h => by omega, fun h => ⟨by omega, by omega, pure_eq_ok _⟩⟩
  | decoderCreate =>
      unfold ReadsInBounds Fits readChannelStatus
      rw [copyBody_bind_eq_ok_iff, copyBody_bind_eq_ok_iff]
      constructor
      · exact fun h => by omega
      · intro h
        exact ⟨by omega, by omega, by omega, by omega,
          readChanUid_bind_eq_ok (by omega) fun _ => pure_eq_ok _⟩
  | encoderStatus => exact hstatus
  | decoderStatus => exact hstatus
  | startCode =>
      unfold ReadsInBounds Fits readScStatus scstatusSize
      rw [copyBody_bind_eq_ok_iff]
      exact ⟨fun h => by omega, fun h => ⟨by omega, by omega, pure_eq_ok _⟩⟩
  | getRec =>
      unfold ReadsInBounds Fits readReconstructed
      rw [readWord_bind_eq_ok_iff]
      by_cases hfd : getUserRecBuffer (al5MailGetWord mail 1) = -1
      · rw [if_pos hfd]
        constructor
        · exact fun h => .inr ⟨by omega, hfd⟩
        · exact fun h => ⟨by omega, pure_eq_ok _⟩
      · rw [if_neg hfd, readWord_bind_eq_ok_iff, readWord_bind_eq_ok_iff]
        constructor
        · exact fun h => .inl (by omega)
        · rintro (h | h)
          · exact ⟨by omega, by omega, by omega, pure_eq_ok _⟩
          · exact absurd h.2 hfd

/-! ## A feedback from its reception to its consumer -/

/-- Routing the mail is in bounds, and so is every operation of the codec that
pops it once it is delivered. -/
def HandledInBounds (kind : UserKind) (group : Lookup User)
    (getUserRecBuffer : Word → Word) (mail : Al5Mail) : Prop :=
  ∃ routed, handleMail group mail = .ok routed ∧
    ∀ user, routed = .delivered user →
      ∀ consumer : Consumer, consumer.kind = kind →
        consumer.queue = mailToQueue mail.uid? →
          consumer.ReadsInBounds getUserRecBuffer mail

/-- The length of the body suits the routing and, when the addressee of the mail
is a user of the group, the operation that pops mails of its kind. -/
def FeedbackFits (kind : UserKind) (group : Lookup User)
    (getUserRecBuffer : Word → Word) (mail : Al5Mail) : Prop :=
  RouteFits mail ∧
    (mail.uid? ≠ some .trace →
      (lookupUser group mail.uid?
        (al5MailGetWord mail (routeWord mail.uid?))).isSome = true →
        ∀ consumer : Consumer, consumer.kind = kind →
          consumer.queue = mailToQueue mail.uid? →
            consumer.Fits getUserRecBuffer mail)

/-- A feedback is handled in bounds exactly when its length suits its routing
and its consumer. -/
theorem handledInBounds_iff
    (kind : UserKind) (group : Lookup User) (getUserRecBuffer : Word → Word)
    (mail : Al5Mail) (hcomplete : mail.Complete) :
    HandledInBounds kind group getUserRecBuffer mail ↔
      FeedbackFits kind group getUserRecBuffer mail := by
  constructor
  · rintro ⟨routed, hrouted, hconsumers⟩
    have hroute : RouteFits mail := handleMail_eq_ok_iff.mp ⟨routed, hrouted⟩
    refine ⟨hroute, ?_⟩
    intro htrace hfound consumer hkind hqueue
    obtain ⟨user, hlookup⟩ := Option.isSome_iff_exists.mp hfound
    have hdelivered := (handleMail_eq_delivered_iff hroute).mpr ⟨htrace, hlookup⟩
    rw [hrouted] at hdelivered
    have hreads :=
      hconsumers user (Except.ok.inj hdelivered) consumer hkind hqueue
    exact (consumer.readsInBounds_iff hcomplete getUserRecBuffer).mp hreads
  · rintro ⟨hroute, hfits⟩
    have hhandled : ∃ routed, handleMail group mail = .ok routed :=
      handleMail_eq_ok_iff.mpr hroute
    obtain ⟨routed, hrouted⟩ := hhandled
    refine ⟨routed, hrouted, ?_⟩
    rintro user rfl consumer hkind hqueue
    obtain ⟨htrace, hlookup⟩ := (handleMail_eq_delivered_iff hroute).mp hrouted
    have hfound : (lookupUser group mail.uid?
        (al5MailGetWord mail (routeWord mail.uid?))).isSome = true := by
      rw [hlookup]
      rfl
    exact (consumer.readsInBounds_iff hcomplete getUserRecBuffer).mpr
      (hfits htrace hfound consumer hkind hqueue)

end

/-- A status feedback of the encoder with the given number of zero bytes. -/
def zeroStatus (size : ℕ) : Al5Mail where
  msgUid := 7
  bodySize := BitVec.ofNat 16 size
  contentSize := size
  body := List.replicate size 0

def onlyUser : Lookup Unit where
  al5GroupUserFromUid := fun _ => some ()
  al5GroupUserFromChanUid := fun _ => some ()

theorem zeroStatus_length (size : ℕ) : (zeroStatus size).body.length = size :=
  List.length_replicate

theorem zeroStatus_complete {size : ℕ} (hsize : size < 2 ^ 16) :
    (zeroStatus size).Complete := by
  unfold Al5Mail.Complete
  rw [zeroStatus_length]
  exact (Nat.mod_eq_of_lt hsize).symm

theorem zeroStatus_uid? (size : ℕ) :
    (zeroStatus size).uid? = some .encodeOneFrm :=
  rfl

theorem zeroStatus_routeFits {size : ℕ} (hsize : 4 ≤ size) :
    RouteFits (zeroStatus size) := by
  unfold RouteFits
  rw [zeroStatus_uid?, zeroStatus_length]
  exact hsize

theorem handledInBounds_of_full_status :
    HandledInBounds .encoder onlyUser (fun _ => -1) (zeroStatus 516) := by
  refine (handledInBounds_iff _ _ _ _ (zeroStatus_complete (by decide))).mpr
    ⟨zeroStatus_routeFits (by decide), ?_⟩
  intro htrace hfound consumer hkind hqueue
  rw [zeroStatus_uid?] at hqueue
  cases consumer with
  | encoderStatus =>
      unfold Consumer.Fits
      rw [zeroStatus_length]
      decide
  | encoderCreate => exact absurd hqueue (by decide)
  | getRec => exact absurd hqueue (by decide)
  | decoderCreate => exact absurd hkind (by decide)
  | decoderStatus => exact absurd hkind (by decide)
  | startCode => exact absurd hkind (by decide)

/-- A status feedback of 517 bytes overflows the array of the status. -/
theorem not_handledInBounds_of_long_status :
    ¬ ∀ (kind : UserKind) (group : Lookup Unit) (getUserRecBuffer : Word → Word)
        (mail : Al5Mail), mail.Complete →
          HandledInBounds kind group getUserRecBuffer mail := by
  intro hall
  obtain ⟨routed, hrouted, hconsumers⟩ :=
    hall .encoder onlyUser (fun _ => -1) (zeroStatus 517)
      (zeroStatus_complete (by decide))
  have hdelivered : handleMail onlyUser (zeroStatus 517) = .ok (.delivered ()) :=
    (handleMail_eq_delivered_iff (zeroStatus_routeFits (by decide))).mpr
      ⟨by decide, rfl⟩
  rw [hdelivered] at hrouted
  have hreads : Consumer.encoderStatus.ReadsInBounds (fun _ => -1) (zeroStatus 517) :=
    hconsumers () (Except.ok.inj hrouted).symm .encoderStatus rfl rfl
  have hfits := (Consumer.readsInBounds_iff (zeroStatus_complete (by decide)) _ _).mp
    hreads
  unfold Consumer.Fits at hfits
  rw [zeroStatus_length] at hfits
  omega

end VcuDriver

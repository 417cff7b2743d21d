import VcuDriver.CodecChannels
import VcuDriver.CodecReplies
import VcuDriver.CodecSettlement

/-!
# The feedback of a channel

A feedback names a channel by its uid.  `al5_group_user_from_chan_uid` gives it to the
first user that holds this uid, so it finds the owner of the channel only as long as no
other user holds the uid.  The MCU may grant a uid anew as soon as it has processed the
destroy, which is before the driver forgets the channel; in this window two users can
hold the same uid.
-/

namespace VcuDriver

open Conc

variable {maxUsersNb f i g : ℕ} {conditions : Set CodecCondition}
variable {file file' other : File} {codec codec' : Codec} {move : CodecMove}

/-! ## A feedback and the channels of the driver -/

def McuMail.IsFeedback (mail : McuMail) : Prop :=
  isFeedback mail.mail.uid? = true

/-- The channels which a file names are not taken for the one of the feedback: a
channel with its uid is that channel, and if the feedback was emitted for a holder, only
the holder still has it. -/
structure McuMail.Suits (mail : McuMail) (f : ℕ) (file : File) : Prop where
  grant : ∀ entry ∈ file.references, entry.1 = mailChanUid mail.mail →
    entry.2 = mail.grant
  coming : mail.holder ≠ none → ∀ entry ∈ file.coming, entry.1 ≠ mailChanUid mail.mail
  holder : ∀ g, mail.holder = some g →
    ∀ entry ∈ file.recorded, entry.1 = mailChanUid mail.mail → f = g

/-- The same for what an earlier mail grants. -/
structure McuMail.Follows (mail earlier : McuMail) : Prop where
  grant : ∀ entry ∈ earlier.grants, entry.1 = mailChanUid mail.mail →
    entry.2 = mail.grant
  holder : mail.holder ≠ none →
    ∀ entry ∈ earlier.grants, entry.1 ≠ mailChanUid mail.mail

theorem File.mem_references {entry : Word × Option ℕ} :
    entry ∈ file.references ↔ entry ∈ file.coming ∨ entry ∈ file.recorded :=
  List.mem_append

/-- A file that has forgotten a channel and is not about to hold it does not record
it. -/
theorem File.Forgets.recorded
    {entry : Word × Option ℕ} (hforgets : file.Forgets file')
    (hmem : entry ∈ file'.recorded) : entry ∈ file.coming ∨ entry ∈ file.recorded :=
  File.mem_references.mp
    (hforgets.references.subset (File.mem_references.mpr (.inr hmem)))

theorem McuMail.Suits.forgets
    {mail : McuMail} (hsuits : mail.Suits f file) (hforgets : file.Forgets file') :
    mail.Suits f file' := by
  refine ⟨?_, ?_, ?_⟩
  · exact fun entry hmem => hsuits.grant entry (hforgets.references.subset hmem)
  · exact fun hholder entry hmem =>
      hsuits.coming hholder entry (hforgets.coming entry hmem)
  · intro g hholder entry hmem heq
    rcases hforgets.recorded hmem with hcoming | hrecorded
    · exact absurd heq (hsuits.coming (by rw [hholder]; simp) entry hcoming)
    · exact hsuits.holder g hholder entry hrecorded heq

theorem McuMail.Suits.receives
    {mail earlier : McuMail} (hsuits : mail.Suits f file) (hfollows : mail.Follows earlier)
    (hdeliver : file.deliver earlier = some file') : mail.Suits f file' := by
  obtain ⟨hcoming, hrecorded⟩ := File.coming_receives hdeliver
  refine ⟨?_, ?_, ?_⟩
  · intro entry hmem
    rcases List.mem_append.mp ((File.references_receives hdeliver).subset hmem) with hnew | hold
    · exact hfollows.grant entry hnew
    · exact hsuits.grant entry hold
  · intro hholder entry hmem
    rcases List.mem_append.mp (hcoming.subset hmem) with hnew | hold
    · exact hfollows.holder hholder entry hnew
    · exact hsuits.coming hholder entry hold
  · rw [hrecorded]
    exact hsuits.holder

theorem McuMail.suits_opened (mail : McuMail) (f : ℕ) (kind : UserKind) (uid : Word) :
    mail.Suits f (File.opened kind uid) :=
  ⟨fun _ hmem => absurd hmem List.not_mem_nil,
    fun _ _ hmem => absurd hmem List.not_mem_nil,
    fun _ _ _ hmem => absurd hmem List.not_mem_nil⟩

/-! ## The invariant -/

/-- The mail which the handler holds, and the slots up to which it has found no user
that holds its channel. -/
def Handler.passed (maxUsersNb : ℕ) : Handler → List (McuMail × ℕ)
  | .scanning _ mail slot => [(mail, slot)]
  | .orphaning _ mail | .freeing _ mail => [(mail, maxUsersNb)]
  | _ => []

/-- The mails which the handler has not given away yet, also those for which it has
found no file. -/
def Codec.unsettled (codec : Codec) : List McuMail :=
  codec.handler.held ++ codec.statuses

structure Codec.Fed (maxUsersNb : ℕ) (codec : Codec) : Prop where
  follows : codec.arriving.Pairwise fun earlier mail =>
    mail.IsFeedback → mail.Follows earlier
  suits : ∀ mail ∈ codec.unsettled, mail.IsFeedback →
    ∀ (f : ℕ) file, codec.files[f]? = some file → mail.Suits f file
  good : ∀ mail ∈ codec.unsettled, mail.IsFeedback → mailChanUid mail.mail ≠ badChan
  passed : ∀ mail slot, (mail, slot) ∈ codec.handler.passed maxUsersNb →
    mail.IsFeedback → ∀ g, mail.holder = some g → ∀ file, codec.files[g]? = some file →
      file.uid.toNat < slot → ∀ entry ∈ file.recorded, entry.1 ≠ mailChanUid mail.mail
  delivering : ∀ nbMsg mail f, codec.handler = .delivering nbMsg mail f →
    mail.IsFeedback → ∀ g, mail.holder = some g → f = g

theorem Handler.mem_unsettled_of_passed
    {mail : McuMail} {slot : ℕ} (hmem : (mail, slot) ∈ codec.handler.passed maxUsersNb) :
    mail ∈ codec.unsettled := by
  apply List.mem_append_left
  cases hhandler : codec.handler with
  | scanning nbMsg mail' slot' =>
      rw [hhandler] at hmem
      obtain ⟨rfl, -⟩ := Prod.mk.inj (List.mem_singleton.mp hmem)
      exact List.mem_singleton_self mail
  | orphaning nbMsg mail' =>
      rw [hhandler] at hmem
      obtain ⟨rfl, -⟩ := Prod.mk.inj (List.mem_singleton.mp hmem)
      exact List.mem_singleton_self mail
  | freeing nbMsg mail' =>
      rw [hhandler] at hmem
      obtain ⟨rfl, -⟩ := Prod.mk.inj (List.mem_singleton.mp hmem)
      exact List.mem_singleton_self mail
  | _ =>
      rw [hhandler] at hmem
      exact absurd hmem List.not_mem_nil

namespace Codec

/-! ## Moves of the files -/

/-- What a move of the files does to each of them, as far as the names go. -/
inductive FileKeeps (codec : Codec) (f : ℕ) (file' : File) : Prop where
  | forgets (file : File) (file_eq : codec.files[f]? = some file)
      (forgets : file.Forgets file') (uid : file'.uid = file.uid)
  | opened (kind : UserKind) (uid : Word) (eq : file' = File.opened kind uid)

theorem FileKeeps.refl (hfile : codec.files[f]? = some file) : FileKeeps codec f file :=
  .forgets file hfile (File.forgets_of_eq rfl rfl) rfl

theorem FileKeeps.of_set
    (hfile : codec.files[f]? = some file) (hforgets : file.Forgets file')
    (huid : file'.uid = file.uid) (hother : (codec.files.set f file')[g]? = some other) :
    FileKeeps codec g other := by
  rcases getElem?_set_cases hother with ⟨rfl, rfl⟩ | ⟨-, hold⟩
  · exact .forgets file hfile hforgets huid
  · exact .refl hold

theorem FileKeeps.suits
    {mail : McuMail} (hkeeps : FileKeeps codec f file')
    (hsuits : ∀ (f : ℕ) file, codec.files[f]? = some file → mail.Suits f file) :
    mail.Suits f file' := by
  cases hkeeps with
  | forgets file hfile hforgets huid => exact (hsuits f file hfile).forgets hforgets
  | opened kind uid heq =>
      rw [heq]
      exact mail.suits_opened f kind uid

/-- What the files have forgotten they do not record again. -/
theorem Fed.passed_of_keeps
    {mail : McuMail} {slot : ℕ} (hfed : codec.Fed maxUsersNb)
    (hmem : (mail, slot) ∈ codec.handler.passed maxUsersNb) (hfeedback : mail.IsFeedback)
    (hholder : mail.holder = some g) (hkeeps : FileKeeps codec g file')
    (hlt : file'.uid.toNat < slot) :
    ∀ entry ∈ file'.recorded, entry.1 ≠ mailChanUid mail.mail := by
  intro entry hentry
  cases hkeeps with
  | forgets file hfile hforgets huid =>
      rcases hforgets.recorded hentry with hcoming | hrecorded
      · have hsuits := hfed.suits mail (Handler.mem_unsettled_of_passed hmem) hfeedback g
          file hfile
        exact hsuits.coming (by rw [hholder]; simp) entry hcoming
      · exact hfed.passed mail slot hmem hfeedback g hholder file hfile (huid ▸ hlt) entry
          hrecorded
  | opened kind uid heq =>
      rw [heq] at hentry
      exact absurd hentry List.not_mem_nil

theorem Fed.of_files
    (hfed : codec.Fed maxUsersNb) (hhandler : codec'.handler = codec.handler)
    (hstatuses : codec'.statuses = codec.statuses)
    (hfiles : ∀ (f : ℕ) file', codec'.files[f]? = some file' → FileKeeps codec f file') :
    codec'.Fed maxUsersNb := by
  have harriving : codec'.arriving = codec.arriving := by
    unfold arriving
    rw [hhandler, hstatuses]
  have hunsettled : codec'.unsettled = codec.unsettled := by
    unfold unsettled
    rw [hhandler, hstatuses]
  refine ⟨?_, ?_, ?_, ?_, ?_⟩
  · rw [harriving]
    exact hfed.follows
  · rw [hunsettled]
    exact fun mail hmem hfeedback f file hfile =>
      (hfiles f file hfile).suits (hfed.suits mail hmem hfeedback)
  · rw [hunsettled]
    exact hfed.good
  · rw [hhandler]
    exact fun mail slot hmem hfeedback g hholder file hfile hlt =>
      hfed.passed_of_keeps hmem hfeedback hholder (hfiles g file hfile) hlt
  · rw [hhandler]
    exact hfed.delivering

/-! ## Steps of the handler -/

/-- The handler gives no mail to a file. -/
theorem Fed.of_handler
    (hfed : codec.Fed maxUsersNb) (hfiles : codec'.files = codec.files)
    (harriving : codec'.arriving.Sublist codec.arriving)
    (hunsettled : ∀ mail ∈ codec'.unsettled, mail ∈ codec.unsettled)
    (hpassed : ∀ mail slot, (mail, slot) ∈ codec'.handler.passed maxUsersNb →
      mail.IsFeedback → ∀ g, mail.holder = some g →
        ∀ file, codec.files[g]? = some file → file.uid.toNat < slot →
          ∀ entry ∈ file.recorded, entry.1 ≠ mailChanUid mail.mail)
    (hdelivering : ∀ nbMsg mail f, codec'.handler = .delivering nbMsg mail f →
      mail.IsFeedback → ∀ g, mail.holder = some g → f = g) : codec'.Fed maxUsersNb := by
  refine ⟨hfed.follows.sublist harriving, ?_, ?_, ?_, hdelivering⟩
  · rw [hfiles]
    exact fun mail hmem => hfed.suits mail (hunsettled mail hmem)
  · exact fun mail hmem => hfed.good mail (hunsettled mail hmem)
  · rw [hfiles]
    exact hpassed

/-- A user that has the channel of the feedback is its holder. -/
theorem Fed.eq_holder
    {mail : McuMail} (hfed : codec.Fed maxUsersNb)
    (htabled : Tabled maxUsersNb codec.files codec.users) (hmem : mail ∈ codec.unsettled)
    (hfeedback : mail.IsFeedback) {slot : ℕ} (huser : codec.users slot = some f)
    (hhas : codec.hasChannelId f (mailChanUid mail.mail) = true)
    (hholder : mail.holder = some g) : f = g := by
  obtain ⟨file, hfile, hbound, -⟩ := htabled.slots slot f huser
  have hchanUid : file.state.chanUid = mailChanUid mail.mail := by
    unfold hasChannelId at hhas
    rw [hfile] at hhas
    exact eq_of_beq hhas
  have hrecorded : (file.state.chanUid, file.current) ∈ file.recorded := by
    apply File.mem_recorded.mpr
    refine ⟨hbound, ?_, rfl⟩
    rw [hchanUid]
    exact hfed.good mail hmem hfeedback
  exact (hfed.suits mail hmem hfeedback f file hfile).holder g hholder _ hrecorded hchanUid

/-- A user that has not the channel of the feedback does not record it. -/
theorem not_recorded_of_hasNot
    {chanUid : Word} (htabled : Tabled maxUsersNb codec.files codec.users)
    (hfile : codec.files[g]? = some file)
    (hhasNot : ∀ f, codec.users file.uid.toNat = some f →
      codec.hasChannelId f chanUid = false) :
    ∀ entry ∈ file.recorded, entry.1 ≠ chanUid := by
  intro entry hentry heq
  obtain ⟨hbound, -, rfl⟩ := File.mem_recorded.mp hentry
  have hnot := hhasNot g (htabled.bound g file hfile hbound)
  unfold hasChannelId at hnot
  rw [hfile] at hnot
  exact absurd (beq_iff_eq.mpr heq) (Bool.eq_false_iff.mp hnot)

theorem Fed.routes
    {nbMsg : ℕ} {mail : McuMail} {handler : Handler} (hfed : codec.Fed maxUsersNb)
    (hrouting : codec.handler = .routing nbMsg mail)
    (hroutes : Routes maxUsersNb codec nbMsg mail handler) :
    Codec.Fed maxUsersNb { codec with handler := handler } := by
  have harriving : codec.arriving = mail :: codec.statuses := by
    unfold arriving
    rw [hrouting]
    rfl
  refine hfed.of_handler rfl ?_ ?_ ?_ ?_
  · rw [harriving]
    exact hroutes.pending.append (List.Sublist.refl _)
  · intro other hmem
    unfold unsettled
    rw [hrouting]
    cases hroutes <;> exact hmem
  · intro other slot hmem hfeedback
    cases hroutes with
    | frees hother hchan =>
        obtain ⟨rfl, -⟩ := Prod.mk.inj (List.mem_singleton.mp hmem)
        exact absurd (hchan.symm.trans hfeedback) Bool.false_ne_true
    | orphans hcreate hnotFound =>
        obtain ⟨rfl, -⟩ := Prod.mk.inj (List.mem_singleton.mp hmem)
        exact absurd hcreate (isFeedback_ne_create hfeedback)
    | scans hcreate hinit hsearch htrace =>
        obtain ⟨-, rfl⟩ := Prod.mk.inj (List.mem_singleton.mp hmem)
        exact fun g _ file _ hlt => absurd hlt (Nat.not_lt_zero _)
    | _ => exact absurd hmem List.not_mem_nil
  · rintro nbMsg' other f rfl hfeedback
    cases hroutes with
    | finds f hchan hnamed =>
        exact absurd (hchan.symm.trans hfeedback) Bool.false_ne_true

theorem Fed.scans
    {nbMsg slot : ℕ} {mail : McuMail} {handler : Handler} (hfed : codec.Fed maxUsersNb)
    (htabled : Tabled maxUsersNb codec.files codec.users)
    (hscanning : codec.handler = .scanning nbMsg mail slot)
    (hscans : Scans maxUsersNb codec nbMsg mail slot handler) :
    Codec.Fed maxUsersNb { codec with handler := handler } := by
  have harriving : codec.arriving = mail :: codec.statuses := by
    unfold arriving
    rw [hscanning]
    rfl
  have hunsettled : mail ∈ codec.unsettled := by
    unfold unsettled
    rw [hscanning]
    exact List.mem_cons_self
  have hbefore : (mail, slot) ∈ codec.handler.passed maxUsersNb := by
    rw [hscanning]
    exact List.mem_singleton_self _
  refine hfed.of_handler rfl ?_ ?_ ?_ ?_
  · rw [harriving]
    exact hscans.pending.append (List.Sublist.refl _)
  · intro other hmem
    unfold unsettled
    rw [hscanning]
    cases hscans <;> exact hmem
  · intro other slot' hmem hfeedback g hholder file hfile hlt
    cases hscans with
    | passes hslot hhasNot =>
        obtain ⟨rfl, rfl⟩ := Prod.mk.inj (List.mem_singleton.mp hmem)
        rcases Nat.lt_succ_iff_lt_or_eq.mp hlt with hlt | rfl
        · exact hfed.passed other slot hbefore hfeedback g hholder file hfile hlt
        · exact not_recorded_of_hasNot htabled hfile hhasNot
    | orphans hle hshould =>
        obtain ⟨rfl, rfl⟩ := Prod.mk.inj (List.mem_singleton.mp hmem)
        exact hfed.passed other slot hbefore hfeedback g hholder file hfile
          (Nat.lt_of_lt_of_le hlt hle)
    | frees hle hshould =>
        obtain ⟨rfl, rfl⟩ := Prod.mk.inj (List.mem_singleton.mp hmem)
        exact hfed.passed other slot hbefore hfeedback g hholder file hfile
          (Nat.lt_of_lt_of_le hlt hle)
    | _ => exact absurd hmem List.not_mem_nil
  · rintro nbMsg' other f rfl hfeedback g hholder
    cases hscans with
    | finds f hlt huser hhas =>
        exact hfed.eq_holder htabled hunsettled hfeedback huser hhas hholder

theorem Fed.delivers
    {nbMsg : ℕ} {mail : McuMail} (hfed : codec.Fed maxUsersNb)
    (hdelivering : codec.handler = .delivering nbMsg mail f)
    (hfile : codec.files[f]? = some file) (hdeliver : file.deliver mail = some file') :
    Codec.Fed maxUsersNb { codec with
      files := codec.files.set f file'
      handler := .looking nbMsg
      settled := codec.settled ++ [(mail, .queued f)] } := by
  have harriving : codec.arriving = mail :: codec.statuses := by
    unfold arriving
    rw [hdelivering]
    rfl
  have hfollows := hfed.follows
  rw [harriving, List.pairwise_cons] at hfollows
  have hunsettled : ∀ other ∈ codec.statuses, other ∈ codec.unsettled := by
    intro other hmem
    exact List.mem_append_right _ hmem
  refine ⟨hfollows.2, ?_, ?_, fun _ _ hmem => absurd hmem List.not_mem_nil,
    (fun _ _ _ h => nomatch h)⟩
  · intro other hmem hfeedback g file₁ hfile₁
    have hsuits := hfed.suits other (hunsettled other hmem) hfeedback
    rcases getElem?_set_cases hfile₁ with ⟨rfl, rfl⟩ | ⟨-, hold⟩
    · exact (hsuits g file hfile).receives (hfollows.1 other hmem hfeedback) hdeliver
    · exact hsuits g file₁ hold
  · exact fun other hmem => hfed.good other (hunsettled other hmem)

theorem Fed.handles
    {choice : Choice} (hfed : codec.Fed maxUsersNb)
    (htabled : Tabled maxUsersNb codec.files codec.users)
    (hhandles : Handles maxUsersNb choice codec codec') : codec'.Fed maxUsersNb := by
  cases hhandles with
  | reads nbMsg mail rest hlooking hstatuses =>
      refine hfed.of_handler rfl ?_ ?_ (fun _ _ hmem => absurd hmem List.not_mem_nil)
        (fun _ _ _ h => nomatch h)
      · unfold arriving
        rw [hlooking, hstatuses]
        exact List.Sublist.refl _
      · unfold unsettled
        rw [hlooking, hstatuses]
        exact fun _ hmem => hmem
  | leaves nbMsg hlooking =>
      refine hfed.of_handler rfl ?_ ?_ (fun _ _ hmem => absurd hmem List.not_mem_nil)
        (fun _ _ _ h => nomatch h)
      · unfold arriving
        rw [hlooking]
        exact List.Sublist.refl _
      · unfold unsettled
        rw [hlooking]
        exact fun _ hmem => hmem
  | routes nbMsg mail hrouting => exact hfed.routes hrouting (route_cases nbMsg mail)
  | scans nbMsg mail slot hscanning =>
      exact hfed.scans htabled hscanning (scan_cases nbMsg mail slot)
  | delivers nbMsg mail f file file' hdelivering hfile hdeliver =>
      exact hfed.delivers hdelivering hfile hdeliver
  | destroysOrphan nbMsg mail horphaning =>
      refine hfed.of_handler rfl ?_ ?_ ?_ (fun _ _ _ h => nomatch h)
      · unfold arriving
        rw [horphaning]
        exact List.Sublist.refl _
      · unfold unsettled
        rw [horphaning]
        exact fun _ hmem => hmem
      · have hpassed := hfed.passed
        rw [horphaning] at hpassed
        exact hpassed
  | frees nbMsg mail hfreeing =>
      refine hfed.of_handler rfl ?_ ?_ (fun _ _ hmem => absurd hmem List.not_mem_nil)
        (fun _ _ _ h => nomatch h)
      · unfold arriving
        rw [hfreeing]
        exact List.Sublist.refl _
      · unfold unsettled
        rw [hfreeing]
        exact fun _ hmem => List.mem_cons_of_mem mail hmem

/-! ## Steps of the MCU -/

theorem holder_eq_some
    {chanUid : Word} {grant : ℕ} (hholder : codec.holder chanUid grant = some g) :
    ∃ file, codec.files[g]? = some file ∧ file.Records chanUid (some grant) := by
  unfold holder at hholder
  obtain ⟨hlt, hrecords, -⟩ := List.findIdx?_eq_some_iff_getElem.mp hholder
  exact ⟨codec.files[g], List.getElem?_eq_getElem hlt, of_decide_eq_true hrecords⟩

theorem File.mem_recorded_of_records
    {chanUid : Word} {grant : Option ℕ} (hrecords : file.Records chanUid grant)
    (hbad : chanUid ≠ badChan) : (chanUid, grant) ∈ file.recorded := by
  obtain ⟨hbound, rfl, rfl⟩ := hrecords
  exact File.mem_recorded.mpr ⟨hbound, hbad, rfl⟩

/-- What holds of a feedback when the MCU emits it. -/
theorem Named.suits_emitted
    {mail : McuMail} {grant : ℕ} (hnamed : codec.Named)
    (hlive : codec.live (mailChanUid mail.mail) = some grant) (hgrant : mail.grant = grant)
    (hholder : mail.holder = codec.holder (mailChanUid mail.mail) grant) :
    mailChanUid mail.mail ≠ badChan ∧ (∀ earlier ∈ codec.arriving, mail.Follows earlier) ∧
      ∀ (f : ℕ) file, codec.files[f]? = some file → mail.Suits f file := by
  have hbad : mailChanUid mail.mail ≠ badChan := by
    intro heq
    rw [heq, hnamed.bad] at hlive
    exact absurd hlive (by simp)
  have hrecords : ∀ g, mail.holder = some g → ∃ file, codec.files[g]? = some file ∧
      (mailChanUid mail.mail, mail.grant) ∈ file.recorded := by
    intro g hg
    obtain ⟨file, hfile, hrecords⟩ := holder_eq_some (hholder.symm.trans hg)
    exact ⟨file, hfile, hgrant ▸ File.mem_recorded_of_records hrecords hbad⟩
  have hagree : ∀ entry ∈ codec.references, entry.1 = mailChanUid mail.mail →
      entry.2 = mail.grant := by
    intro entry hmem heq
    rw [hgrant]
    exact hnamed.agree _ grant hlive entry hmem heq
  refine ⟨hbad, ?_, ?_⟩
  · intro earlier hmem
    refine ⟨fun entry hentry => hagree entry (mem_references_of_arriving hmem hentry), ?_⟩
    intro hsome entry hentry
    obtain ⟨g, hg⟩ := Option.ne_none_iff_exists'.mp hsome
    obtain ⟨file, hfile, hrecorded⟩ := hrecords g hg
    exact hnamed.not_arriving hfile (File.mem_references.mpr (.inr hrecorded)) hmem hentry
  · intro f file hfile
    refine ⟨fun entry hentry => hagree entry (mem_references_of_file hfile hentry), ?_, ?_⟩
    · intro hsome entry hentry heq
      obtain ⟨g, hg⟩ := Option.ne_none_iff_exists'.mp hsome
      obtain ⟨file', hfile', hrecorded⟩ := hrecords g hg
      have hsame := hnamed.file_unique hfile hfile' (File.mem_references.mpr (.inl hentry))
        (File.mem_references.mpr (.inr hrecorded)) heq
      subst hsame
      obtain rfl := Option.some.inj (hfile.symm.trans hfile')
      exact hnamed.not_coming hfile hrecorded hentry heq
    · intro g hg entry hentry heq
      obtain ⟨file', hfile', hrecorded⟩ := hrecords g hg
      exact hnamed.file_unique hfile hfile' (File.mem_references.mpr (.inr hentry))
        (File.mem_references.mpr (.inr hrecorded)) heq

theorem Fed.emits
    {mail : McuMail} (hfed : codec.Fed maxUsersNb) (hfiles : codec'.files = codec.files)
    (hhandler : codec'.handler = codec.handler)
    (hstatuses : codec'.statuses = codec.statuses ++ [mail])
    (hnew : mail.IsFeedback →
      mailChanUid mail.mail ≠ badChan ∧ (∀ earlier ∈ codec.arriving, mail.Follows earlier) ∧
        ∀ (f : ℕ) file, codec.files[f]? = some file → mail.Suits f file) :
    codec'.Fed maxUsersNb := by
  have harriving := arriving_emit hhandler hstatuses
  have hunsettled : ∀ other ∈ codec'.unsettled, other ∈ codec.unsettled ∨ other = mail := by
    intro other hmem
    unfold unsettled at hmem ⊢
    rw [hhandler, hstatuses, ← List.append_assoc] at hmem
    exact (List.mem_append.mp hmem).imp_right List.mem_singleton.mp
  refine ⟨?_, ?_, ?_, ?_, ?_⟩
  · rw [harriving, List.pairwise_append]
    refine ⟨hfed.follows, List.pairwise_singleton _ _, ?_⟩
    intro earlier hearlier other hother hfeedback
    obtain rfl := List.mem_singleton.mp hother
    exact (hnew hfeedback).2.1 earlier hearlier
  · rw [hfiles]
    intro other hmem hfeedback
    rcases hunsettled other hmem with hold | rfl
    · exact hfed.suits other hold hfeedback
    · exact (hnew hfeedback).2.2
  · intro other hmem hfeedback
    rcases hunsettled other hmem with hold | rfl
    · exact hfed.good other hold hfeedback
    · exact (hnew hfeedback).1
  · rw [hhandler, hfiles]
    exact hfed.passed
  · rw [hhandler]
    exact hfed.delivering

theorem Fed.mcu
    {step : McuStep} (hmodelled : .modelled ∈ conditions) (hnamed : codec.Named)
    (hfed : codec.Fed maxUsersNb)
    (hadmits : codecAdmits maxUsersNb conditions codec (.mcu step))
    (hdoes : McuDoes codec step codec') : codec'.Fed maxUsersNb := by
  have hsilent : ∀ {mail : McuMail} {uid : MailUid}, mail.mail.uid? = some uid →
      isFeedback (some uid) = false → ¬ mail.IsFeedback := by
    intro mail uid huid hnot hfeedback
    unfold McuMail.IsFeedback at hfeedback
    rw [huid, hnot] at hfeedback
    exact absurd hfeedback Bool.false_ne_true
  have hkeeps : ∀ (f : ℕ) file, codec.files[f]? = some file → FileKeeps codec f file :=
    fun f file hfile => .refl hfile
  cases hdoes with
  | keeps command rest hcommands huid => exact hfed.of_files rfl rfl hkeeps
  | takes command rest hcommands => exact hfed.of_files rfl rfl hkeeps
  | creates index chanUid reply command htaken huid hgood hdead hnames hechoes =>
      exact hfed.emits rfl rfl rfl fun hfeedback => absurd hfeedback (hsilent hnames.1 rfl)
  | refuses index reply command htaken huid hbad hechoes =>
      exact hfed.emits rfl rfl rfl fun hfeedback => absurd hfeedback (hsilent hbad.1 rfl)
  | finds index reply command htaken huid hechoes =>
      exact hfed.emits rfl rfl rfl fun hfeedback => absurd hfeedback (hsilent hechoes.1 rfl)
  | destroys reply command rest hcommands huid hechoes =>
      exact hfed.emits rfl rfl rfl fun hfeedback => absurd hfeedback (hsilent hechoes.1 rfl)
  | destroysQuietly command rest hcommands huid => exact hfed.of_files rfl rfl hkeeps
  | feeds mail grant hlive hfeedback =>
      exact hfed.emits rfl rfl rfl fun _ => hnamed.suits_emitted hlive rfl rfl
  | emits mail =>
      refine hfed.emits rfl rfl rfl fun hfeedback => ?_
      rcases hadmits _ hmodelled with huid | huid
      · exact absurd hfeedback (hsilent huid rfl)
      · exact absurd hfeedback (hsilent huid rfl)

/-! ## Every run -/

theorem fed_of_run
    (hmax : maxUsersNb < 2 ^ 31) (hmodelled : .modelled ∈ conditions)
    (hforgotten : .grantsForgotten ∈ conditions)
    (hrun : CodecRun maxUsersNb conditions codec) : codec.Fed maxUsersNb := by
  refine hrun.invariant (Codec.Fed maxUsersNb) ?_ ?_
  · exact ⟨List.Pairwise.nil, fun _ hmem => absurd hmem List.not_mem_nil,
      fun _ hmem => absurd hmem List.not_mem_nil,
      fun _ _ hmem => absurd hmem List.not_mem_nil, (fun _ _ _ h => nomatch h)⟩
  · intro codec codec' move hsteps hfed hadmits hnext
    have hreached' := files_reached (.next hsteps hadmits hnext)
    cases move with
    | bind kind =>
        obtain ⟨-, slot, -, -, -, rfl⟩ := bindUser_cases hnext
        refine hfed.of_files rfl rfl fun f file hfile => ?_
        rcases getElem?_concat_cases hfile with hold | ⟨-, rfl⟩
        · exact .refl hold
        · exact .opened kind _ rfl
    | enter f op =>
        obtain ⟨file, config, hfile, henter, rfl⟩ := enter_cases hnext
        exact hfed.of_files rfl rfl fun g other hother =>
          .of_set hfile (File.forgets_enters henter) rfl hother
    | call f i choice =>
        obtain ⟨file, file', effect, codec₁, hfile, hstep, houtside, rfl⟩ :=
          call_cases hnext
        obtain ⟨op, action, config, hperforms, hconfig, rfl, -⟩ := File.step_cases hstep
        obtain ⟨result, hact⟩ := File.step_state hperforms hconfig
        have hmem := List.mem_of_getElem? hfile
        have hreached := files_reached hsteps file hmem
        have hforgets := File.forgets_acts (files_mirror hsteps file hmem) hreached
          (hreached' _ (List.mem_of_getElem? (getElem?_set_of_some hfile)))
          (hreached.bound_of_acts hconfig) hact
        have hkeeps : ∀ (g : ℕ) other,
            (codec.files.set f { file.note op action with config := config })[g]? =
              some other → FileKeeps codec g other :=
          fun g other hother => .of_set hfile hforgets (File.note_uid file op action) hother
        cases houtside with
        | nothing => exact hfed.of_files rfl rfl hkeeps
        | sends mail => exact hfed.of_files rfl rfl hkeeps
        | unbinds hidle => exact hfed.of_files rfl rfl hkeeps
    | interrupt =>
        obtain ⟨hidle, rfl⟩ := interrupt_cases hnext
        refine hfed.of_handler rfl ?_ ?_ (fun _ _ hmem => absurd hmem List.not_mem_nil)
          (fun _ _ _ h => nomatch h)
        · unfold arriving
          rw [hidle]
          exact List.Sublist.refl _
        · unfold unsettled
          rw [hidle]
          exact fun _ hmem => hmem
    | handle choice => exact hfed.handles (codec_tabled hmax hsteps) (handle_cases hnext)
    | mcu step =>
        exact hfed.mcu hmodelled (named_of_run hmodelled hforgotten hsteps) hadmits
          (mcu_cases hnext)

end Codec

/-! ## Feedback reaches the holder of its channel -/

def McuMail.IsFrame (mail : McuMail) : Prop :=
  mail.mail.uid? = some .encodeOneFrm ∨ mail.mail.uid? = some .decodeOneFrm

/-- No two bound files have the same channel uid.  The file that records the uid of a
live channel is its holder.  The handler settles the mails in the order of their
emission: the feedback of a frame which was emitted for a holder goes to the status queue
of the holder, and is freed only if the holder has forgotten the channel.  What is given
to a file for a queue goes to the end of it, and the calls pop from its front. -/
structure Codec.FeedbackOwned (codec : Codec) : Prop where
  distinct : ∀ (f g : ℕ) file other, codec.files[f]? = some file →
    codec.files[g]? = some other → file.state.bound = true → other.state.bound = true →
      file.state.chanUid = other.state.chanUid → file.state.chanUid ≠ badChan → f = g
  holder : ∀ (f : ℕ) file grant, codec.files[f]? = some file → file.state.bound = true →
    codec.live file.state.chanUid = some grant →
      codec.holder file.state.chanUid grant = some f
  delivered : ∀ f file mail, codec.Delivers f file mail → mail.IsFrame →
    ∀ g, mail.holder = some g → f = g
  queued : ∀ (f : ℕ) file, codec.files[f]? = some file → ∀ which,
    ∀ mail ∈ file.queued which, mail.IsFrame →
      which = .status ∧ ∀ g, mail.holder = some g → f = g
  kept : ∀ nbMsg mail, codec.handler = .orphaning nbMsg mail ∨
    codec.handler = .freeing nbMsg mail → mail.IsFrame →
      ∀ (g : ℕ) file, mail.holder = some g → codec.files[g]? = some file →
        file.state.bound = true → file.state.chanUid ≠ mailChanUid mail.mail
  emitted : codec.emitted =
    codec.settled.map Prod.fst ++ codec.handler.held ++ codec.statuses
  settled : ∀ mail settlement, (mail, settlement) ∈ codec.settled → mail.IsFrame →
    ∀ g, mail.holder = some g → settlement = .queued g ∨ settlement = .freed false
  appended : ∀ (f : ℕ) file, codec.files[f]? = some file → ∀ which,
    codec.given f which = poppedFrom which file.state.log ++ (file.state.queues which).mails

theorem McuMail.IsFrame.isFeedback {mail : McuMail} (hframe : mail.IsFrame) :
    mail.IsFeedback := by
  unfold McuMail.IsFeedback
  rcases hframe with huid | huid <;> rw [huid] <;> rfl

theorem McuMail.IsFrame.queue {mail : McuMail} (hframe : mail.IsFrame) :
    mailToQueue mail.mail.uid? = .status := by
  rcases hframe with huid | huid <;> rw [huid] <;> rfl

namespace Codec

theorem Named.distinct
    (hnamed : codec.Named) (hfile : codec.files[f]? = some file)
    (hother : codec.files[g]? = some other) (hbound : file.state.bound = true)
    (hbound' : other.state.bound = true)
    (hsame : file.state.chanUid = other.state.chanUid)
    (hbad : file.state.chanUid ≠ badChan) : f = g := by
  have hrecorded : (file.state.chanUid, file.current) ∈ file.recorded :=
    File.mem_recorded.mpr ⟨hbound, hbad, rfl⟩
  have hrecorded' : (other.state.chanUid, other.current) ∈ other.recorded :=
    File.mem_recorded.mpr ⟨hbound', hsame ▸ hbad, rfl⟩
  exact hnamed.file_unique hfile hother (File.mem_references.mpr (.inr hrecorded))
    (File.mem_references.mpr (.inr hrecorded')) hsame

/-- The holder of a live channel is the file that records its uid. -/
theorem Named.holder_eq
    {grant : ℕ} (hnamed : codec.Named) (hfile : codec.files[f]? = some file)
    (hbound : file.state.bound = true)
    (hlive : codec.live file.state.chanUid = some grant) :
    codec.holder file.state.chanUid grant = some f := by
  have hbad : file.state.chanUid ≠ badChan := by
    intro heq
    rw [heq, hnamed.bad] at hlive
    exact absurd hlive (by simp)
  have hrecorded : (file.state.chanUid, file.current) ∈ file.recorded :=
    File.mem_recorded.mpr ⟨hbound, hbad, rfl⟩
  have hcurrent : file.current = some grant := by
    apply hnamed.agree _ grant hlive (file.state.chanUid, file.current) _ rfl
    exact mem_references_of_file hfile (File.mem_references.mpr (.inr hrecorded))
  cases hholder : codec.holder file.state.chanUid grant with
  | none =>
      have hnone := List.findIdx?_eq_none_iff.mp hholder file (List.mem_of_getElem? hfile)
      exact absurd ⟨hbound, rfl, hcurrent⟩ (of_decide_eq_false hnone)
  | some g =>
      obtain ⟨other, hother, hbound', hchanUid, -⟩ := holder_eq_some hholder
      rw [hnamed.distinct hfile hother hbound hbound' hchanUid.symm hbad]

/-- The holder of a feedback for which the handler has found no user has forgotten the
channel. -/
theorem Fed.kept
    {nbMsg : ℕ} {mail : McuMail} (hfed : codec.Fed maxUsersNb)
    (htabled : Tabled maxUsersNb codec.files codec.users)
    (hhandler : codec.handler = .orphaning nbMsg mail ∨ codec.handler = .freeing nbMsg mail)
    (hfeedback : mail.IsFeedback) (hholder : mail.holder = some g)
    (hfile : codec.files[g]? = some file) (hbound : file.state.bound = true) :
    file.state.chanUid ≠ mailChanUid mail.mail := by
  intro hchanUid
  have hpassed : (mail, maxUsersNb) ∈ codec.handler.passed maxUsersNb := by
    rcases hhandler with hhandler | hhandler <;> rw [hhandler] <;>
      exact List.mem_singleton_self _
  have hgood := hfed.good mail (Handler.mem_unsettled_of_passed hpassed) hfeedback
  have hrange := htabled.range file (List.mem_of_getElem? hfile)
  have hrecorded : (file.state.chanUid, file.current) ∈ file.recorded :=
    File.mem_recorded.mpr ⟨hbound, hchanUid ▸ hgood, rfl⟩
  exact hfed.passed mail maxUsersNb hpassed hfeedback g hholder file hfile hrange _
    hrecorded hchanUid

theorem Fed.not_stillHeld
    {nbMsg : ℕ} {mail : McuMail} (hfed : codec.Fed maxUsersNb)
    (htabled : Tabled maxUsersNb codec.files codec.users)
    (hfreeing : codec.handler = .freeing nbMsg mail) (hfeedback : mail.IsFeedback) :
    codec.stillHeld mail = false := by
  unfold stillHeld
  cases hheld : mail.holder.bind fun g => codec.files[g]? with
  | none => rfl
  | some file =>
      obtain ⟨g, hholder, hfile⟩ := Option.bind_eq_some_iff.mp hheld
      change (file.state.bound && file.state.chanUid == mailChanUid mail.mail) = false
      cases hbound : file.state.bound with
      | false => rfl
      | true =>
          have hforgotten := hfed.kept htabled (.inr hfreeing) hfeedback hholder hfile hbound
          exact beq_eq_false_iff_ne.mpr hforgotten

/-- What the handler has done with a feedback that was emitted for a holder. -/
theorem settled_of_run
    (hmax : maxUsersNb < 2 ^ 31) (hmodelled : .modelled ∈ conditions)
    (hforgotten : .grantsForgotten ∈ conditions)
    (hrun : CodecRun maxUsersNb conditions codec) :
    ∀ mail settlement, (mail, settlement) ∈ codec.settled → mail.IsFeedback →
      ∀ g, mail.holder = some g → settlement = .queued g ∨ settlement = .freed false := by
  refine hrun.invariant (fun codec => ∀ mail settlement,
    (mail, settlement) ∈ codec.settled → mail.IsFeedback → ∀ g, mail.holder = some g →
      settlement = .queued g ∨ settlement = .freed false) ?_ ?_
  · exact fun mail settlement hmem => absurd hmem List.not_mem_nil
  · intro codec codec' move hsteps hsettled hadmits hnext
    have hfed := fed_of_run hmax hmodelled hforgotten hsteps
    have hsettles := settlesNext_of_next hnext
    generalize codec'.settled = entries at hsettles
    intro mail settlement hmem hfeedback g hholder
    cases hsettles with
    | same => exact hsettled mail settlement hmem hfeedback g hholder
    | queues nbMsg mail' f hdelivering =>
        rcases List.mem_append.mp hmem with hold | hnew
        · exact hsettled mail settlement hold hfeedback g hholder
        · obtain ⟨rfl, rfl⟩ := Prod.mk.inj (List.mem_singleton.mp hnew)
          exact .inl (congrArg _ (hfed.delivering nbMsg mail f hdelivering hfeedback g hholder))
    | frees nbMsg mail' hfreeing =>
        rcases List.mem_append.mp hmem with hold | hnew
        · exact hsettled mail settlement hold hfeedback g hholder
        · obtain ⟨rfl, rfl⟩ := Prod.mk.inj (List.mem_singleton.mp hnew)
          have hnot := hfed.not_stillHeld (codec_tabled hmax hsteps) hfreeing hfeedback
          exact .inr (congrArg _ hnot)

end Codec

/-- In every run in which a channel uid is granted only when the driver has forgotten its
last channel, the feedback of a channel reaches the file that holds it. -/
theorem feedback_owned
    (maxUsersNb : ℕ) (hmax : maxUsersNb < 2 ^ 31) (codec : Codec)
    (hrun : CodecRun maxUsersNb {.modelled, .grantsForgotten} codec) :
    codec.FeedbackOwned := by
  have hnamed := Codec.named_of_run (by simp) (by simp) hrun
  have hfed := Codec.fed_of_run hmax (by simp) (by simp) hrun
  have hdelivered : ∀ codec, CodecRun maxUsersNb {.modelled, .grantsForgotten} codec →
      ∀ f file mail, codec.Delivers f file mail → mail.IsFrame →
        ∀ g, mail.holder = some g → f = g := by
    rintro codec hrun f file mail ⟨⟨nbMsg, hdelivering⟩, -⟩ hframe
    exact (Codec.fed_of_run hmax (by simp) (by simp) hrun).delivering nbMsg mail f
      hdelivering hframe.isFeedback
  refine ⟨?_, ?_, hdelivered codec hrun, ?_, ?_, Codec.inOrder_of_run hrun, ?_,
    (Codec.appended_of_run hrun).flow⟩
  · exact fun f g file other hfile hother => hnamed.distinct hfile hother
  · exact fun f file grant hfile => hnamed.holder_eq hfile
  · intro f file hfile which mail hmem hframe
    refine ⟨?_, queued_of_run _ hdelivered hrun f file hfile which mail hmem hframe⟩
    have hfileMem := List.mem_of_getElem? hfile
    have hsorted := (files_mirror hrun file hfileMem).sorted
      (files_reached hrun file hfileMem) hmem
    exact hsorted.symm.trans hframe.queue
  · intro nbMsg mail hhandler hframe g file hholder hfile hbound
    exact hfed.kept (codec_tabled hmax hrun) hhandler hframe.isFeedback hholder hfile hbound
  · intro mail settlement hmem hframe
    exact Codec.settled_of_run hmax (by simp) (by simp) hrun mail settlement hmem
      hframe.isFeedback

def channelMoves (f i : ℕ) (chanUid : Word) : List CodecMove :=
  requestMoves f i ++
    [.mcu .take,
      .mcu (.create 0 chanUid (replyMail .createChannel chanUid (BitVec.ofNat 32 f))),
      .interrupt] ++
    List.replicate 4 (.handle .succeed) ++ List.replicate 6 (.call f i .succeed)

def sendDestroyMoves (f i : ℕ) : List CodecMove :=
  .enter f (.destroy false) :: List.replicate 16 (.call f i .succeed)

/-- The first file sends the destroy of channel 5, and the MCU grants the channel to the
second file before the first one has taken the reply; then a frame of the second file is
done. -/
def collidingMoves : List CodecMove :=
  [.bind .decoder, .bind .decoder] ++ channelMoves 0 0 5 ++ sendDestroyMoves 0 1 ++
    .mcu (.destroy (replyMail .destroyChannel 5 0)) :: requestMoves 1 0 ++
    [.mcu .take, .mcu (.create 0 5 (replyMail .createChannel 5 1)), .interrupt] ++
    List.replicate 8 (.handle .succeed) ++ List.replicate 6 (.call 1 0 .succeed) ++
    [.mcu (.feedback (replyMail .decodeOneFrm 5 0)), .interrupt] ++
    List.replicate 4 (.handle .succeed)

set_option maxRecDepth 20000 in
theorem run_collidingMoves :
    ∃ (codec : Codec) (file : File) (mail : McuMail),
      runSteps (codecNext 2)
          (fun codec move => [CodecCondition.modelled].all fun condition =>
            condition.passes 2 codec move) collidingMoves codecStart = some codec ∧
        codec.files[0]? = some file ∧ file.queued .status = [mail] ∧
        mail.mail.uid? = some .decodeOneFrm ∧ mail.holder = some 1 :=
  ⟨_, _, _, rfl, rfl, rfl, rfl, rfl⟩

theorem not_feedback_owned :
    ¬ ∀ (maxUsersNb : ℕ) (codec : Codec), maxUsersNb < 2 ^ 31 →
      CodecRun maxUsersNb {.modelled} codec → codec.FeedbackOwned := by
  intro hall
  obtain ⟨codec, file, mail, hrun, hfile, hqueued, huid, hholder⟩ := run_collidingMoves
  have hsteps : CodecRun 2 {.modelled} codec := codecRun_of_passes (by simp) hrun
  have hmem : mail ∈ file.queued .status := by
    rw [hqueued]
    exact List.mem_singleton_self mail
  have howned := (hall 2 codec (by decide) hsteps).queued 0 file hfile .status mail hmem
    (.inr huid)
  exact absurd (howned.2 1 hholder) (by decide)

/-- Two files get channels of their own, and a frame of the second one is done. -/
def twoChannelsMoves : List CodecMove :=
  [.bind .decoder, .bind .decoder] ++ channelMoves 0 0 5 ++ channelMoves 1 0 6 ++
    [.mcu (.feedback (replyMail .decodeOneFrm 6 0)), .interrupt] ++
    List.replicate 5 (.handle .succeed)

set_option maxRecDepth 20000 in
theorem run_twoChannelsMoves :
    ∃ (codec : Codec) (file : File) (mail : McuMail),
      runSteps (codecNext 2)
          (fun codec move => [CodecCondition.modelled, .grantsForgotten].all fun condition =>
            condition.passes 2 codec move) twoChannelsMoves codecStart = some codec ∧
        codec.files[1]? = some file ∧ file.queued .status = [mail] ∧
        mail.mail.uid? = some .decodeOneFrm ∧ mail.holder = some 1 :=
  ⟨_, _, _, rfl, rfl, rfl, rfl, rfl⟩

theorem feedback_owned_of_two_channels :
    ∃ (codec : Codec) (file : File) (mail : McuMail),
      codec.files[1]? = some file ∧ mail ∈ file.queued .status ∧
        ∀ (f : ℕ) other which, codec.files[f]? = some other →
          mail ∈ other.queued which → f = 1 ∧ which = .status := by
  obtain ⟨codec, file, mail, hrun, hfile, hqueued, huid, hholder⟩ := run_twoChannelsMoves
  have hsteps : CodecRun 2 {.modelled, .grantsForgotten} codec :=
    codecRun_of_passes (by simp) hrun
  have howned := feedback_owned 2 (by decide) codec hsteps
  refine ⟨codec, file, mail, hfile, hqueued ▸ List.mem_singleton_self mail, ?_⟩
  intro f other which hother hmem
  obtain ⟨hwhich, hf⟩ := howned.queued f other hother which mail hmem (.inr huid)
  exact ⟨hf 1 hholder, hwhich⟩

end VcuDriver

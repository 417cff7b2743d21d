import VcuDriver.CodecFiles
import Mathlib.Data.List.Perm.Subperm

/-!
# The channels which the driver knows

A channel uid that was granted is named by the create feedback, then by the hand of
the call that popped it, and then by `chan_uid` of its file.  No move names it twice,
and only a create step of the MCU adds a name.  As long as a uid is granted anew only
when it is named nowhere, the names agree with the live channels of the MCU, and a
feedback finds the file that holds its channel.
-/

namespace VcuDriver

open Conc

variable {maxUsersNb f i : ℕ} {conditions : Set CodecCondition}
variable {file file' : File} {codec codec' : Codec} {move : CodecMove}
variable {op : UserOp} {action : UserAct} {choice : Choice}

/-! ## The queues of a file -/

/-- The bookkeeping of a file follows the queues of its user. -/
def File.Mirrors (file : File) : Prop :=
  ∀ which, (file.queued which).map McuMail.mail = (file.state.queues which).mails

theorem File.Mirrors.acts
    {config : UserConfig} {result : action.Res} (hmirrors : file.Mirrors)
    (hact : file.state.act i action choice = some (result, config.state)) :
    ({ file.note op action with config := config } : File).Mirrors := by
  intro which
  cases action with
  | listPop other =>
      obtain ⟨-, hstate⟩ := act_listPop hact
      change (Function.update file.queued other (file.queued other).tail which).map
        McuMail.mail = (config.state.queues which).mails
      rw [hstate]
      by_cases hwhich : which = other
      · subst hwhich
        rw [Function.update_self, List.map_tail, hmirrors which]
        simp [UserState.pop, UserState.record, UserState.setQueue]
      · rw [Function.update_of_ne hwhich, UserState.queues_pop_of_ne hwhich]
        exact hmirrors which
  | freeMail mail =>
      cases choice with
      | succeed =>
          obtain ⟨-, hstate⟩ := Prod.mk.inj (Option.some.inj hact)
          change (file.queued which).map McuMail.mail = (config.state.queues which).mails
          rw [← hstate]
          exact hmirrors which
      | _ => exact absurd hact (by simp [UserState.act])
  | _ =>
      have hsame := (act_keepsMails rfl hact).1 which
      change (file.queued which).map McuMail.mail = (config.state.queues which).mails
      rw [hsame]
      exact hmirrors which

theorem File.Mirrors.receives
    {mail : McuMail} (hmirrors : file.Mirrors) (hdeliver : file.deliver mail = some file') :
    file'.Mirrors := by
  obtain ⟨-, rfl⟩ := File.deliver_cases hdeliver
  intro which
  change (Function.update file.queued (mailToQueue mail.mail.uid?) _ which).map
    McuMail.mail = ((al5UserDeliver mail.mail file.state).queues which).mails
  by_cases hwhich : which = mailToQueue mail.mail.uid?
  · subst hwhich
    rw [Function.update_self, List.map_append, hmirrors]
    simp [al5UserDeliver, UserState.setQueue]
  · rw [Function.update_of_ne hwhich, hmirrors]
    simp [al5UserDeliver, UserState.setQueue, Function.update_of_ne hwhich]

theorem FileMoves.mirrors
    (hmoves : FileMoves conditions file file') (hmirrors : file.Mirrors) :
    file'.Mirrors := by
  cases hmoves with
  | enters hnext =>
      intro which
      change (file.queued which).map McuMail.mail = _
      rw [hmirrors which]
      exact congrArg (fun queues => (queues which).mails)
        (File.enter_state hnext).2.2.1.symm
  | acts hperforms hnext hadmitted =>
      obtain ⟨result, hact⟩ := File.step_state hperforms hnext
      exact hmirrors.acts hact
  | receives hdeliver hadmitted => exact hmirrors.receives hdeliver

theorem files_mirror
    (hrun : CodecRun maxUsersNb conditions codec) :
    ∀ file ∈ codec.files, file.Mirrors :=
  File.invariant File.Mirrors (fun _ _ _ _ => rfl)
    (fun hmirrors hmoves => hmoves.mirrors hmirrors) hrun

/-- A create queue holds create feedbacks only. -/
theorem File.Mirrors.sorted
    {user : Set Condition} {which : UserMail} {mail : McuMail}
    (hmirrors : file.Mirrors) (hreached : file.Reached user)
    (hmem : mail ∈ file.queued which) : mailToQueue mail.mail.uid? = which := by
  apply (user_inv hreached).sorted which
  change mail.mail ∈ (file.state.queues which).mails
  rw [← hmirrors which]
  exact List.mem_map_of_mem hmem

theorem uid?_of_mailToQueue_create
    {uid : Option MailUid} (hqueue : mailToQueue uid = .create) :
    uid = some .createChannel := by
  unfold mailToQueue at hqueue
  split at hqueue <;> first | rfl | exact absurd hqueue (by decide)

/-! ## What a file names -/

/-- The actions that change nothing which the file holds or is about to hold. -/
def UserAct.keepsChannel : UserAct → Bool
  | .listPop .create | .setChanUid _ | .unbind => false
  | _ => true

theorem Hist.inHand_popped
    {which : UserMail} (hist : Hist) (mail : Option Al5Mail) (hwhich : which ≠ .create) :
    (hist.next (.popped i which mail)).inHand = hist.inHand := by
  cases which with
  | create => exact absurd rfl hwhich
  | _ => rfl

theorem Hist.inHand_send (hist : Hist) (mail : Al5Mail) :
    (hist.send mail).inHand = hist.inHand := by
  unfold Hist.send
  split <;> rfl

theorem act_keepsChannel
    {state state' : UserState} {result : action.Res} (hkeeps : action.keepsChannel = true)
    (hact : state.act i action choice = some (result, state')) :
    state'.chanUid = state.chanUid ∧ state'.bound = state.bound ∧
      state'.hist.inHand = state.hist.inHand := by
  cases action with
  | setChanUid value => exact absurd hkeeps Bool.false_ne_true
  | unbind => exact absurd hkeeps Bool.false_ne_true
  | listPop which =>
      obtain ⟨-, rfl⟩ := act_listPop hact
      have hwhich : which ≠ .create := by
        rintro rfl
        exact absurd hkeeps Bool.false_ne_true
      refine ⟨rfl, rfl, ?_⟩
      change ((state.setQueue which _).record _).hist.inHand = state.hist.inHand
      rw [UserState.hist_record]
      exact Hist.inHand_popped state.hist _ hwhich
  | send mail =>
      cases choice with
      | succeed =>
          obtain ⟨-, rfl⟩ := Prod.mk.inj (Option.some.inj hact)
          refine ⟨rfl, rfl, ?_⟩
          rw [UserState.hist_record]
          exact Hist.inHand_send state.hist mail
      | fail =>
          obtain ⟨-, rfl⟩ := Prod.mk.inj (Option.some.inj hact)
          exact ⟨rfl, rfl, rfl⟩
      | _ => exact absurd hact (by simp [UserState.act])
  | _ =>
      cases choice <;> simp only [UserState.act] at hact <;>
        first
          | (obtain ⟨-, rfl⟩ := Prod.mk.inj (Option.some.inj hact)
             exact ⟨rfl, rfl, rfl⟩)
          | (split_ifs at hact
             all_goals
               obtain ⟨-, rfl⟩ := Prod.mk.inj (Option.some.inj hact)
               exact ⟨rfl, rfl, rfl⟩)
          | exact absurd hact (by simp)

/-- What a file is about to hold depends on its queue and on its hand. -/
theorem File.coming_congr
    (hbound : file'.state.bound = file.state.bound)
    (hqueued : file'.queued .create = file.queued .create)
    (hinHand : file'.state.hist.inHand = file.state.hist.inHand)
    (hpopped : file'.popped = file.popped) : file'.coming = file.coming := by
  unfold File.coming
  rw [hbound, hqueued, hinHand, hpopped]

theorem File.recorded_congr
    (hbound : file'.state.bound = file.state.bound)
    (hchanUid : file'.state.chanUid = file.state.chanUid)
    (hcurrent : file'.current = file.current) : file'.recorded = file.recorded := by
  unfold File.recorded
  rw [hbound, hchanUid, hcurrent]

theorem File.coming_of_bound (hbound : file.state.bound = true) :
    file.coming = (file.queued .create).flatMap McuMail.grants ++
      (file.state.hist.inHand.map fun chanUid => (chanUid, file.popped)).toList :=
  if_pos hbound

theorem File.recorded_of_bad (hbad : file.state.chanUid = badChan) :
    file.recorded = [] :=
  if_neg fun hboth => hboth.2 hbad

theorem File.recorded_of_ne
    (hbound : file.state.bound = true) (hbad : file.state.chanUid ≠ badChan) :
    file.recorded = [(file.state.chanUid, file.current)] :=
  if_pos ⟨hbound, hbad⟩

theorem File.mem_recorded {entry : Word × Option ℕ} :
    entry ∈ file.recorded ↔ file.state.bound = true ∧ file.state.chanUid ≠ badChan ∧
      entry = (file.state.chanUid, file.current) := by
  unfold File.recorded
  split
  · rename_i hboth
    simp [hboth.1, hboth.2]
  · rename_i hnot
    simp only [List.not_mem_nil, false_iff]
    exact fun hall => hnot ⟨hall.1, hall.2.1⟩

theorem File.coming_of_unbound (hbound : file.state.bound = false) : file.coming = [] :=
  if_neg (by rw [hbound]; exact Bool.false_ne_true)

theorem File.recorded_of_unbound (hbound : file.state.bound = false) :
    file.recorded = [] :=
  if_neg fun hboth => absurd (hbound.symm.trans hboth.1) Bool.false_ne_true

theorem McuMail.grants_of_create
    {mail : McuMail} (huid : mail.mail.uid? = some .createChannel) :
    mail.grants =
      ((grantedChannel mail.mail).map fun chanUid => (chanUid, mail.grant)).toList :=
  if_pos huid

theorem McuMail.grants_of_other
    {mail : McuMail} (huid : mail.mail.uid? ≠ some .createChannel) : mail.grants = [] :=
  if_neg huid

/-- What a file names after a move was named by it before, and what it is about to
hold it was about to hold. -/
structure File.Forgets (file file' : File) : Prop where
  references : file'.references.Subperm file.references
  coming : ∀ entry ∈ file'.coming, entry ∈ file.coming

theorem File.forgets_of_eq
    (hcoming : file'.coming = file.coming) (hrecorded : file'.recorded = file.recorded) :
    file.Forgets file' := by
  constructor
  · unfold File.references
    rw [hcoming, hrecorded]
  · rw [hcoming]
    exact fun _ hmem => hmem

/-- A file whose record stays has forgotten what it was about to hold. -/
theorem File.forgets_of_coming
    (hcoming : file'.coming.Subperm file.coming) (hrecorded : file'.recorded = file.recorded) :
    file.Forgets file' := by
  constructor
  · unfold File.references
    rw [hrecorded]
    exact (List.subperm_append_right _).mpr hcoming
  · exact fun entry hmem => hcoming.subset hmem

theorem File.forgets_of_unbound (hbound : file'.state.bound = false) :
    file.Forgets file' := by
  have hcoming := File.coming_of_unbound hbound
  constructor
  · unfold File.references
    rw [hcoming, File.recorded_of_unbound hbound]
    exact List.nil_subperm
  · rw [hcoming]
    exact fun entry hmem => absurd hmem List.not_mem_nil

theorem File.note_keepsChannel
    (file : File) (op : UserOp) (hkeeps : action.keepsChannel = true) :
    (file.note op action).queued .create = file.queued .create ∧
      (file.note op action).popped = file.popped ∧
      (file.note op action).current = file.current := by
  cases action with
  | setChanUid value => exact absurd hkeeps Bool.false_ne_true
  | unbind => exact absurd hkeeps Bool.false_ne_true
  | listPop which =>
      have hwhich : UserMail.create ≠ which := by
        rintro rfl
        exact absurd hkeeps Bool.false_ne_true
      refine ⟨Function.update_of_ne hwhich _ _, ?_, rfl⟩
      exact if_neg fun hboth => hwhich hboth.1.symm
  | _ => exact ⟨rfl, rfl, rfl⟩

/-- A pop of the create queue passes what the head grants to the hand of the call, or
drops it. -/
theorem File.forgets_popCreate
    {user : Set Condition} {config : UserConfig} {result : Option Al5Mail}
    (hmirrors : file.Mirrors) (hreached : file.Reached user)
    (hreached' : ({ file.note op (.listPop .create) with config := config } : File).Reached
      user)
    (hbound : file.state.bound = true)
    (hact : file.state.act i (.listPop .create) choice = some (result, config.state)) :
    file.Forgets { file.note op (.listPop .create) with config := config } := by
  obtain ⟨-, hstate⟩ := act_listPop hact
  set file' : File := { file.note op (.listPop .create) with config := config } with hfile'
  have hstate' : file'.state = file.state.pop i .create := hstate
  have hbound' : file'.state.bound = true := by
    rw [hstate']
    exact hbound
  have hqueued : file'.queued .create = (file.queued .create).tail := by
    change Function.update file.queued .create (file.queued .create).tail .create = _
    exact Function.update_self _ _ _
  have hrecorded : file'.recorded = file.recorded := by
    apply File.recorded_congr
    · rw [hbound, hbound']
    · rw [hstate']
      rfl
    · rfl
  apply File.forgets_of_coming _ hrecorded
  have hhist : file'.state.hist =
      file.state.hist.next (.popped i .create (file.state.queues .create).mails.head?) := by
    rw [hstate']
    rfl
  rw [File.coming_of_bound hbound', File.coming_of_bound hbound, hqueued, hhist]
  have htail : ((file.queued .create).tail.flatMap McuMail.grants).Subperm
      ((file.queued .create).flatMap McuMail.grants) :=
    ((List.tail_sublist _).flatMap McuMail.grants).subperm
  by_cases hawaiting : file.state.hist.awaiting = true
  · -- The hand was empty, and now it holds what the head of the queue grants.
    have hok : OkEvent _ _ file.state.hist
        (.popped i .create (file.state.queues .create).mails.head?) :=
      hreached'.okEvent (by rw [hstate']; rfl)
    have hpopped : file'.popped = (file.queued .create).head?.bind McuMail.grant :=
      if_pos ⟨rfl, hawaiting⟩
    rw [hist_popped_create hawaiting, hpopped, (hok hawaiting).1, ← hmirrors .create]
    cases hqueue : file.queued .create with
    | nil => simp
    | cons mail rest =>
        have huid : mail.mail.uid? = some .createChannel := by
          apply uid?_of_mailToQueue_create
          apply hmirrors.sorted hreached
          rw [hqueue]
          exact List.mem_cons_self
        simp only [List.tail_cons, List.map_cons, List.head?_cons, Option.bind_some,
          List.flatMap_cons, Option.map_none, Option.toList_none, List.append_nil,
          McuMail.grants_of_create huid]
        exact List.perm_append_comm.subperm
  · have hpopped : file'.popped = file.popped := if_neg fun hboth => hawaiting hboth.2
    have hsame : file.state.hist.next
        (.popped i .create (file.state.queues .create).mails.head?) = file.state.hist :=
      if_neg hawaiting
    rw [hsame, hpopped]
    exact (List.subperm_append_right _).mpr htail

/-- A write of `chan_uid` takes the channel from the hand of the call. -/
theorem File.forgets_setChanUid
    {user : Set Condition} {config : UserConfig} {result : Unit} {value : Word}
    (hreached : file.Reached user)
    (hreached' : ({ file.note op (.setChanUid value) with config := config } : File).Reached
      user)
    (hbound : file.state.bound = true)
    (hact : file.state.act i (.setChanUid value) choice = some (result, config.state)) :
    file.Forgets { file.note op (.setChanUid value) with config := config } := by
  cases choice with
  | succeed =>
      obtain ⟨-, hstate⟩ := Prod.mk.inj (Option.some.inj hact)
      set file' : File := { file.note op (.setChanUid value) with config := config }
        with hfile'
      have hstate' : file'.state =
          { file.state.record (.chanUid value) with chanUid := value } := hstate.symm
      have hbound' : file'.state.bound = true := by
        rw [hstate']
        exact hbound
      have hhist : file'.state.hist = file.state.hist.next (.chanUid value) := by
        rw [hstate']
        rfl
      have hchanUid : file'.state.chanUid = value := by
        rw [hstate']
      by_cases hbad : value = badChan
      · have hcoming : file'.coming = file.coming := by
          apply File.coming_congr (hbound'.trans hbound.symm) rfl _ rfl
          rw [hhist, hbad]
          rfl
        constructor
        · unfold File.references
          rw [hcoming, File.recorded_of_bad (hchanUid.trans hbad), List.append_nil]
          exact (List.sublist_append_left _ _).subperm
        · rw [hcoming]
          exact fun _ hmem => hmem
      · -- The call has the channel in its hand, and the file holds none.
        have hok : OkEvent _ _ file.state.hist (.chanUid value) :=
          hreached'.okEvent (by rw [hstate']; rfl)
        rw [OkEvent, if_neg hbad] at hok
        have hbefore : file.state.chanUid = badChan :=
          (user_inv hreached).chanUid.symm.trans hok.2
        have hcurrent : file'.current = file.popped := if_neg hbad
        have hcoming : file'.coming = (file.queued .create).flatMap McuMail.grants := by
          rw [File.coming_of_bound hbound', hhist, hist_obtain file.state.hist hbad]
          exact List.append_nil _
        have hrecorded : file'.recorded = [(value, file.popped)] := by
          rw [File.recorded_of_ne hbound' (by rw [hchanUid]; exact hbad), hchanUid, hcurrent]
        have hold : file.coming =
            (file.queued .create).flatMap McuMail.grants ++ [(value, file.popped)] := by
          rw [File.coming_of_bound hbound, hok.1]
          rfl
        constructor
        · unfold File.references
          rw [hcoming, hrecorded, hold, File.recorded_of_bad hbefore, List.append_nil]
        · rw [hcoming, hold]
          exact fun entry hmem => List.mem_append_left _ hmem
  | _ => exact absurd hact (by simp [UserState.act])

theorem File.forgets_acts
    {user : Set Condition} {config : UserConfig} {result : action.Res}
    (hmirrors : file.Mirrors) (hreached : file.Reached user)
    (hreached' : ({ file.note op action with config := config } : File).Reached user)
    (hbound : file.state.bound = true)
    (hact : file.state.act i action choice = some (result, config.state)) :
    file.Forgets { file.note op action with config := config } := by
  by_cases hkeeps : action.keepsChannel = true
  · obtain ⟨hchanUid, hstill, hinHand⟩ := act_keepsChannel hkeeps hact
    obtain ⟨hqueued, hpopped, hcurrent⟩ := file.note_keepsChannel op hkeeps
    exact File.forgets_of_eq (File.coming_congr hstill hqueued hinHand hpopped)
      (File.recorded_congr hstill hchanUid hcurrent)
  · cases action with
    | listPop which =>
        cases which with
        | create => exact File.forgets_popCreate hmirrors hreached hreached' hbound hact
        | _ => exact absurd rfl hkeeps
    | setChanUid value => exact File.forgets_setChanUid hreached hreached' hbound hact
    | unbind => exact File.forgets_of_unbound (act_unbind hact)
    | _ => exact absurd rfl hkeeps

theorem mailToQueue_ne_create
    {uid : Option MailUid} (huid : uid ≠ some .createChannel) :
    mailToQueue uid ≠ .create :=
  fun hqueue => huid (uid?_of_mailToQueue_create hqueue)

/-- A file is about to hold what is delivered to it. -/
theorem File.coming_receives
    {mail : McuMail} (hdeliver : file.deliver mail = some file') :
    file'.coming.Perm (mail.grants ++ file.coming) ∧ file'.recorded = file.recorded := by
  obtain ⟨hbound, heq⟩ := File.deliver_cases hdeliver
  have hbound' : file'.state.bound = file.state.bound := by
    rw [heq]
    rfl
  have hinHand : file'.state.hist.inHand = file.state.hist.inHand := by
    rw [heq]
    rfl
  have hpopped : file'.popped = file.popped := by
    rw [heq]
  refine ⟨?_, File.recorded_congr hbound' (by rw [heq]; rfl) (by rw [heq])⟩
  by_cases huid : mail.mail.uid? = some .createChannel
  · have hqueue : mailToQueue mail.mail.uid? = .create := by rw [huid]; rfl
    have hqueued : file'.queued .create = file.queued .create ++ [mail] := by
      rw [heq, hqueue]
      exact Function.update_self UserMail.create _ file.queued
    rw [File.coming_of_bound (hbound'.trans hbound), File.coming_of_bound hbound, hqueued,
      hinHand, hpopped, List.flatMap_append, List.flatMap_singleton, ← List.append_assoc]
    exact List.perm_append_comm.append_right _
  · have hqueued : file'.queued .create = file.queued .create := by
      rw [heq]
      exact Function.update_of_ne (mailToQueue_ne_create huid).symm _ _
    rw [McuMail.grants_of_other huid]
    exact List.Perm.of_eq (File.coming_congr hbound' hqueued hinHand hpopped)

theorem File.references_receives
    {mail : McuMail} (hdeliver : file.deliver mail = some file') :
    file'.references.Perm (mail.grants ++ file.references) := by
  obtain ⟨hcoming, hrecorded⟩ := File.coming_receives hdeliver
  unfold File.references
  rw [hrecorded, ← List.append_assoc]
  exact hcoming.append_right _

theorem File.forgets_enters
    {config : UserConfig} (hnext : file.machine.next file.config (.enter op) = some config) :
    file.Forgets { file with config := config } := by
  obtain ⟨hbound, hlog, -, hchanUid⟩ := File.enter_state hnext
  have hhist : config.state.hist = file.state.hist := congrArg Hist.of hlog
  exact File.forgets_of_eq
    (File.coming_congr hbound rfl (congrArg Hist.inHand hhist) rfl)
    (File.recorded_congr hbound hchanUid rfl)

@[simp] theorem File.references_opened (kind : UserKind) (uid : Word) :
    (File.opened kind uid).references = [] := rfl

/-! ## What the driver names -/

theorem Codec.references_eq (codec : Codec) :
    codec.references = codec.arriving.flatMap McuMail.grants ++
      codec.files.flatMap File.references := rfl

/-- Only one file names other channels: it forgets some, or was handed some. -/
theorem subperm_files_set
    {files : List File} (hfile : files[f]? = some file) (hforgets : file.Forgets file') :
    ((files.set f file').flatMap File.references).Subperm
      (files.flatMap File.references) := by
  have hset : ((files.set f file').flatMap File.references ++ file.references).Perm
      (files.flatMap File.references ++ file'.references) := perm_flatMap_set hfile
  apply (List.subperm_append_right file.references).mp
  exact hset.subperm.trans ((List.subperm_append_left _).mpr hforgets.references)

theorem perm_files_handed
    {files : List File} {handed : List (Word × Option ℕ)} (hfile : files[f]? = some file)
    (hhanded : file'.references.Perm (handed ++ file.references)) :
    ((files.set f file').flatMap File.references).Perm
      (handed ++ files.flatMap File.references) := by
  have hset : ((files.set f file').flatMap File.references ++ file.references).Perm
      (files.flatMap File.references ++ file'.references) := perm_flatMap_set hfile
  rw [List.perm_iff_count]
  intro entry
  have hcount₁ := hset.count_eq entry
  have hcount₂ := hhanded.count_eq entry
  simp only [List.count_append] at *
  omega

namespace Codec

inductive NamesMove (codec codec' : Codec) : Prop where
  | forgets (references : codec'.references.Subperm codec.references)
      (live : ∀ chanUid grant, codec'.live chanUid = some grant →
        codec.live chanUid = some grant)
      (granted : codec'.granted = codec.granted)
  | grants (chanUid : Word) (good : chanUid ≠ badChan)
      (forgotten : chanUid ∉ codec.references.map Prod.fst)
      (references :
        codec'.references.Perm ((chanUid, some codec.granted) :: codec.references))
      (live : codec'.live = Function.update codec.live chanUid (some codec.granted))
      (granted : codec'.granted = codec.granted + 1)

theorem NamesMove.of_same
    (harriving : codec'.arriving.Sublist codec.arriving)
    (hfiles : (codec'.files.flatMap File.references).Subperm
      (codec.files.flatMap File.references))
    (hlive : codec'.live = codec.live) (hgranted : codec'.granted = codec.granted) :
    NamesMove codec codec' := by
  refine .forgets ?_ (fun chanUid grant h => hlive ▸ h) hgranted
  rw [references_eq, references_eq]
  exact (harriving.flatMap McuMail.grants).subperm.append hfiles

theorem references_emit_append (mail : McuMail) (codec : Codec) :
    (emit mail codec).references =
      (codec.arriving.flatMap McuMail.grants ++ mail.grants) ++
        codec.files.flatMap File.references := by
  have harriving : (emit mail codec).arriving = codec.arriving ++ [mail] :=
    arriving_emit rfl rfl
  rw [references_eq, harriving, List.flatMap_append, List.flatMap_singleton]
  rfl

/-- The MCU emits a mail that grants nothing. -/
theorem references_emit
    {mail : McuMail} (hfiles : codec'.files = codec.files)
    (hhandler : codec'.handler = codec.handler)
    (hstatuses : codec'.statuses = codec.statuses ++ [mail]) (hgrants : mail.grants = []) :
    codec'.references = codec.references := by
  rw [references_eq, references_eq, hfiles, arriving_emit hhandler hstatuses,
    List.flatMap_append, List.flatMap_singleton, hgrants, List.append_nil]

theorem live_of_update_none
    {live : Word → Option ℕ} {chanUid chanUid' : Word} {grant : ℕ}
    (hlive : Function.update live chanUid none chanUid' = some grant) :
    live chanUid' = some grant := by
  by_cases heq : chanUid' = chanUid
  · subst heq
    rw [Function.update_self] at hlive
    exact absurd hlive (by simp)
  · rwa [Function.update_of_ne heq] at hlive

theorem isFeedback_ne_create
    {uid : Option MailUid} (hfeedback : isFeedback uid = true) :
    uid ≠ some .createChannel := by
  rintro rfl
  exact absurd hfeedback Bool.false_ne_true

theorem McuDoes.namesMove
    {step : McuStep} (hmodelled : .modelled ∈ conditions)
    (hforgotten : .grantsForgotten ∈ conditions)
    (hadmits : codecAdmits maxUsersNb conditions codec (.mcu step))
    (hdoes : McuDoes codec step codec') : NamesMove codec codec' := by
  cases hdoes with
  | keeps command rest hcommands huid =>
      exact .forgets (List.Subperm.refl _) (fun _ _ h => h) rfl
  | takes command rest hcommands =>
      exact .forgets (List.Subperm.refl _) (fun _ _ h => h) rfl
  | creates index chanUid reply command htaken huid hgood hdead hnames hechoes =>
      refine .grants chanUid hgood (hadmits _ hforgotten) ?_ rfl rfl
      have hchanUid : mailChanUid reply = chanUid := hnames.2
      have hgrants : McuMail.grants ⟨reply, command.sender, codec.granted, none⟩ =
          [(chanUid, some codec.granted)] := by
        rw [McuMail.grants_of_create hnames.1,
          grantedChannel_of_ne (by rw [hchanUid]; exact hgood), hchanUid]
        rfl
      rw [references_emit_append, hgrants]
      exact List.perm_append_comm.append_right _
  | refuses index reply command htaken huid hbad hechoes =>
      refine .forgets (List.Perm.of_eq ?_).subperm (fun _ _ h => h) rfl
      refine references_emit rfl rfl rfl ?_
      rw [McuMail.grants_of_create hbad.1, grantedChannel_of_eq hbad.2]
      rfl
  | finds index reply command htaken huid hechoes =>
      refine .forgets (List.Perm.of_eq ?_).subperm (fun _ _ h => h) rfl
      exact references_emit rfl rfl rfl (McuMail.grants_of_other (by rw [hechoes.1]; simp))
  | destroys reply command rest hcommands huid hechoes =>
      refine .forgets (List.Perm.of_eq ?_).subperm (fun _ _ => live_of_update_none) rfl
      exact references_emit rfl rfl rfl (McuMail.grants_of_other (by rw [hechoes.1]; simp))
  | destroysQuietly command rest hcommands huid =>
      exact .forgets (List.Subperm.refl _) (fun _ _ => live_of_update_none) rfl
  | feeds mail grant hlive hfeedback =>
      refine .forgets (List.Perm.of_eq ?_).subperm (fun _ _ h => h) rfl
      exact references_emit rfl rfl rfl
        (McuMail.grants_of_other (isFeedback_ne_create hfeedback))
  | emits mail =>
      refine .forgets (List.Perm.of_eq ?_).subperm (fun _ _ h => h) rfl
      refine references_emit rfl rfl rfl (McuMail.grants_of_other ?_)
      rcases hadmits _ hmodelled with huid | huid <;> rw [huid] <;> simp

/-- Only a create step of the MCU adds a name. -/
theorem namesMove_of_next
    (hmodelled : .modelled ∈ conditions) (hforgotten : .grantsForgotten ∈ conditions)
    (hrun : CodecRun maxUsersNb conditions codec)
    (hadmits : codecAdmits maxUsersNb conditions codec move)
    (hnext : codecNext maxUsersNb codec move = some codec') : NamesMove codec codec' := by
  have hreached' := files_reached (.next hrun hadmits hnext)
  cases move with
  | bind kind =>
      obtain ⟨-, slot, -, -, -, rfl⟩ := bindUser_cases hnext
      refine .of_same (List.Sublist.refl _) (List.Perm.of_eq ?_).subperm rfl rfl
      rw [List.flatMap_append, List.flatMap_singleton, File.references_opened,
        List.append_nil]
  | enter f op =>
      obtain ⟨file, config, hfile, henter, rfl⟩ := enter_cases hnext
      exact .of_same (List.Sublist.refl _)
        (subperm_files_set hfile (File.forgets_enters henter)) rfl rfl
  | call f i choice =>
      obtain ⟨file, file', effect, codec₁, hfile, hstep, houtside, rfl⟩ :=
        call_cases hnext
      obtain ⟨op, action, config, hperforms, hconfig, rfl, -⟩ := File.step_cases hstep
      obtain ⟨result, hact⟩ := File.step_state hperforms hconfig
      have hmem := List.mem_of_getElem? hfile
      have hreached := files_reached hrun file hmem
      have hforgets := File.forgets_acts (files_mirror hrun file hmem) hreached
        (hreached' _ (List.mem_of_getElem? (getElem?_set_of_some hfile)))
        (hreached.bound_of_acts hconfig) hact
      have hfiles := subperm_files_set hfile hforgets
      cases houtside with
      | nothing => exact .of_same (List.Sublist.refl _) hfiles rfl rfl
      | sends mail => exact .of_same (List.Sublist.refl _) hfiles rfl rfl
      | unbinds hidle => exact .of_same (List.Sublist.refl _) hfiles rfl rfl
  | interrupt =>
      obtain ⟨hidle, rfl⟩ := interrupt_cases hnext
      refine .of_same ?_ (List.Subperm.refl _) rfl rfl
      unfold arriving
      rw [hidle]
      exact List.Sublist.refl _
  | handle choice =>
      have hhandles := handle_cases hnext
      have hlive : codec'.live = codec.live ∧ codec'.granted = codec.granted := by
        cases hhandles <;> exact ⟨rfl, rfl⟩
      rcases hhandles.arriving with ⟨harriving, hfiles⟩ |
          ⟨nbMsg, mail, f, file, file', -, hfile, hdeliver, harriving, hfiles⟩
      · exact .of_same harriving (by rw [hfiles]) hlive.1 hlive.2
      · refine .forgets ?_ (fun _ _ h => hlive.1 ▸ h) hlive.2
        have hhanded := perm_files_handed hfile (File.references_receives hdeliver)
        rw [references_eq, references_eq, hfiles, harriving, List.flatMap_cons]
        refine ((List.Perm.refl _).append hhanded).subperm.trans (List.Perm.subperm ?_)
        rw [← List.append_assoc]
        exact List.perm_append_comm.append_right _
  | mcu step => exact (mcu_cases hnext).namesMove hmodelled hforgotten hadmits

/-- No two names are the same, and those of live channels have the right grant. -/
structure Named (codec : Codec) : Prop where
  nodup : (codec.references.map Prod.fst).Nodup
  agree : ∀ chanUid grant, codec.live chanUid = some grant →
    ∀ entry ∈ codec.references, entry.1 = chanUid → entry.2 = some grant
  numbered : ∀ entry ∈ codec.references, ∃ grant, entry.2 = some grant ∧
    grant < codec.granted
  granted : ∀ chanUid grant, codec.live chanUid = some grant → grant < codec.granted
  bad : codec.live badChan = none

theorem nodup_of_subperm
    {names names' : List (Word × Option ℕ)} (hsubperm : names'.Subperm names)
    (hnodup : (names.map Prod.fst).Nodup) : (names'.map Prod.fst).Nodup := by
  obtain ⟨between, hperm, hsublist⟩ := hsubperm
  have hbetween := (hsublist.map Prod.fst).nodup hnodup
  exact (hperm.map Prod.fst).nodup_iff.mp hbetween

theorem Named.next (hnamed : codec.Named) (hmove : NamesMove codec codec') :
    codec'.Named := by
  cases hmove with
  | forgets hreferences hlive hgranted =>
      constructor
      · exact nodup_of_subperm hreferences hnamed.nodup
      · intro chanUid grant h entry hmem
        exact hnamed.agree chanUid grant (hlive chanUid grant h) entry
          (hreferences.subset hmem)
      · rw [hgranted]
        exact fun entry hmem => hnamed.numbered entry (hreferences.subset hmem)
      · rw [hgranted]
        exact fun chanUid grant h => hnamed.granted chanUid grant (hlive chanUid grant h)
      · cases hbad : codec'.live badChan with
        | none => rfl
        | some grant => exact (hlive _ _ hbad).symm.trans hnamed.bad
  | grants chanUid hgood hforgotten hreferences hlive hgranted =>
      constructor
      · rw [(hreferences.map Prod.fst).nodup_iff, List.map_cons, List.nodup_cons]
        exact ⟨hforgotten, hnamed.nodup⟩
      · intro chanUid' grant h entry hmem heq
        rw [hlive] at h
        rcases List.mem_cons.mp (hreferences.subset hmem) with rfl | hmem
        · subst heq
          rw [Function.update_self] at h
          exact h
        · have hne : chanUid' ≠ chanUid := by
            rintro rfl
            exact hforgotten (heq ▸ List.mem_map_of_mem hmem)
          rw [Function.update_of_ne hne] at h
          exact hnamed.agree chanUid' grant h entry hmem heq
      · intro entry hmem
        rw [hgranted]
        rcases List.mem_cons.mp (hreferences.subset hmem) with rfl | hmem
        · exact ⟨codec.granted, rfl, Nat.lt_succ_self _⟩
        · obtain ⟨grant, heq, hlt⟩ := hnamed.numbered entry hmem
          exact ⟨grant, heq, Nat.lt_succ_of_lt hlt⟩
      · intro chanUid' grant h
        rw [hlive] at h
        rw [hgranted]
        by_cases heq : chanUid' = chanUid
        · subst heq
          rw [Function.update_self] at h
          exact Option.some.inj h ▸ Nat.lt_succ_self _
        · rw [Function.update_of_ne heq] at h
          exact Nat.lt_succ_of_lt (hnamed.granted chanUid' grant h)
      · rw [hlive, Function.update_of_ne hgood.symm]
        exact hnamed.bad

theorem named_of_run
    (hmodelled : .modelled ∈ conditions) (hforgotten : .grantsForgotten ∈ conditions)
    (hrun : CodecRun maxUsersNb conditions codec) : codec.Named := by
  refine hrun.invariant Named ?_ ?_
  · exact ⟨List.nodup_nil, fun _ _ h => absurd h (by simp [codecStart]),
      fun entry hmem => absurd hmem List.not_mem_nil,
      fun _ _ h => absurd h (by simp [codecStart]), rfl⟩
  · exact fun hsteps hnamed hadmits hnext =>
      hnamed.next (namesMove_of_next hmodelled hforgotten hsteps hadmits hnext)

section

variable {g : ℕ} {other : File} {entry entry' : Word × Option ℕ}

theorem mem_references_of_file
    (hfile : codec.files[f]? = some file) (hmem : entry ∈ file.references) :
    entry ∈ codec.references :=
  List.mem_append_right _ (List.mem_flatMap.mpr ⟨file, List.mem_of_getElem? hfile, hmem⟩)

theorem mem_references_of_arriving
    {mail : McuMail} (hmail : mail ∈ codec.arriving) (hmem : entry ∈ mail.grants) :
    entry ∈ codec.references :=
  List.mem_append_left _ (List.mem_flatMap.mpr ⟨mail, hmail, hmem⟩)

theorem Named.nodup_files (hnamed : codec.Named) :
    (codec.files.flatMap fun file => file.references.map Prod.fst).Nodup := by
  have hnodup := hnamed.nodup
  rw [references_eq, List.map_append, List.nodup_append, List.map_flatMap] at hnodup
  have hfiles := hnodup.2.1
  rwa [List.map_flatMap] at hfiles

/-- A uid is named by one file at most. -/
theorem Named.file_unique
    (hnamed : codec.Named) (hfile : codec.files[f]? = some file)
    (hother : codec.files[g]? = some other) (hmem : entry ∈ file.references)
    (hmem' : entry' ∈ other.references) (heq : entry.1 = entry'.1) : f = g := by
  have hpairwise := (List.nodup_flatMap.mp hnamed.nodup_files).2
  obtain ⟨hf, rfl⟩ := List.getElem?_eq_some_iff.mp hfile
  obtain ⟨hg, rfl⟩ := List.getElem?_eq_some_iff.mp hother
  have hfst := List.mem_map_of_mem (f := Prod.fst) hmem
  have hfst' := List.mem_map_of_mem (f := Prod.fst) hmem'
  rcases Nat.lt_trichotomy f g with hlt | heq' | hgt
  · exact absurd (heq ▸ hfst')
      (List.pairwise_iff_getElem.mp hpairwise f g hf hg hlt hfst)
  · exact heq'
  · exact absurd (heq ▸ hfst)
      (List.pairwise_iff_getElem.mp hpairwise g f hg hf hgt (heq ▸ hfst'))

/-- A uid that is recorded is not about to be recorded. -/
theorem Named.not_coming
    (hnamed : codec.Named) (hfile : codec.files[f]? = some file)
    (hmem : entry ∈ file.recorded) (hmem' : entry' ∈ file.coming) :
    entry'.1 ≠ entry.1 := by
  have hnodup := (List.nodup_flatMap.mp hnamed.nodup_files).1 file
    (List.mem_of_getElem? hfile)
  unfold File.references at hnodup
  rw [List.map_append, List.nodup_append] at hnodup
  exact hnodup.2.2 _ (List.mem_map_of_mem hmem') _ (List.mem_map_of_mem hmem)

theorem Named.not_arriving
    {mail : McuMail} (hnamed : codec.Named) (hfile : codec.files[f]? = some file)
    (hmem : entry ∈ file.references) (hmail : mail ∈ codec.arriving)
    (hmem' : entry' ∈ mail.grants) : entry'.1 ≠ entry.1 := by
  have hnodup := hnamed.nodup
  rw [references_eq, List.map_append, List.nodup_append] at hnodup
  apply hnodup.2.2
  · exact List.mem_map_of_mem (List.mem_flatMap.mpr ⟨mail, hmail, hmem'⟩)
  · exact List.mem_map_of_mem
      (List.mem_flatMap.mpr ⟨file, List.mem_of_getElem? hfile, hmem⟩)

end

end Codec

end VcuDriver

import VcuDriver.UserCreation
import VcuDriver.UserPushes
import VcuDriver.Conc.Watch

/-!
# A creation which is taken up again

A creation that could not send its buffers stops at a checkpoint, and the next call
goes on from there.  Whatever the calls are that create a channel, and wherever each
of them stops, together they send what one creation sends: `Pushes` never goes astray.

Everything but the queues belongs to the owner of the create mutex, so the proof
follows a call through the data which it then owns.
-/

namespace VcuDriver

open Conc

/-! ## Runs of creations -/

/-- Only creations are called, and their buffers can be allocated. -/
def creationRegime : Regime UserState UserAct Choice UserOp Al5Mail where
  enter _ op := ∃ param status, op = .encoderCreate param status
  step _ _ _ action choice :=
    ∀ pool count size, action = .bufpoolAllocate pool count size → choice ≠ .fail
  env _ _ := True

/-- The mail names the channel and all of these buffers. -/
def BuffersMail (mailUid : MailUid) (chanUid : Word) (buffers : List DmaBuffer)
    (mail : Al5Mail) : Prop :=
  createMailFromBufpool mailUid.code chanUid buffers true = .ok (some mail)

/-- What the owner of the create mutex owns. -/
structure CreationData where
  log : List Event
  chanUid : Word
  checkpoint : ℤ
  pools : BufferPool → List DmaBuffer

def UserState.creation (state : UserState) : CreationData :=
  ⟨state.log, state.chanUid, state.checkpoint, state.pools⟩

namespace CreationData

/-- The log and the channel fit together. -/
def Pushed (data : CreationData) : Prop :=
  match Pushes.of data.log with
  | .searching => data.chanUid = badChan
  | .obtained chanUid => data.chanUid = chanUid ∧ chanUid ≠ badChan
  | .half chanUid intermediate =>
      (data.chanUid = chanUid ∧ chanUid ≠ badChan) ∧
        BuffersMail .pushBufferIntermediate chanUid (data.pools .intBuffers) intermediate
  | .complete chanUid intermediate reference =>
      (data.chanUid = chanUid ∧ chanUid ≠ badChan) ∧
        BuffersMail .pushBufferIntermediate chanUid (data.pools .intBuffers)
          intermediate ∧
        BuffersMail .pushBufferReference chanUid (data.pools .recBuffers) reference
  | .astray => False

/-- The checkpoint between two calls. -/
def AtRest (data : CreationData) : Prop :=
  match Pushes.of data.log with
  | .obtained _ => data.checkpoint = checkpointSendIntermediateBuffers
  | .half .. => data.checkpoint = checkpointSendReferenceBuffers
  | _ => data.checkpoint = noCheckpoint

end CreationData

def Complete (log : List Event) : Prop :=
  ∃ chanUid intermediate reference,
    Pushes.of log = .complete chanUid intermediate reference

def PushedReference (i : ℕ) (log : List Event) : Prop :=
  ∃ mail, (i, mail) ∈ sentMails log ∧ mail.uid? = some .pushBufferReference

/-- A call returns 0 if the reference buffers were accepted from it, and only then. -/
def Reports (i : ℕ) (err : ℤ) (state : UserState) : Prop :=
  state.locks .create ≠ some i ∧ (err = 0 ↔ PushedReference i state.log)

/-! ## The outline -/

structure CreationRely (i : ℕ) (state state' : UserState) : Prop where
  lock : state'.locks .create = some i ↔ state.locks .create = some i
  data : state.locks .create = some i → state'.creation = state.creation
  own : ∀ mail, (i, mail) ∈ sentMails state'.log ↔ (i, mail) ∈ sentMails state.log
  complete : Complete state.log →
    Complete state'.log ∧ sentMails state'.log = sentMails state.log

theorem CreationRely.of_same
    {state state' : UserState} (i : ℕ) (hlocks : state'.locks = state.locks)
    (hdata : state'.creation = state.creation) : CreationRely i state state' := by
  have hlog : state'.log = state.log := congrArg CreationData.log hdata
  refine ⟨by rw [hlocks], fun _ => hdata, fun _ => by rw [hlog], fun hcomplete => ?_⟩
  rw [hlog]
  exact ⟨hcomplete, rfl⟩

theorem CreationRely.trans
    {i : ℕ} {state₁ state₂ state₃ : UserState}
    (hfirst : CreationRely i state₁ state₂) (hsecond : CreationRely i state₂ state₃) :
    CreationRely i state₁ state₃ where
  lock := hsecond.lock.trans hfirst.lock
  data hlock := (hsecond.data (hfirst.lock.mpr hlock)).trans (hfirst.data hlock)
  own mail := (hsecond.own mail).trans (hfirst.own mail)
  complete hcomplete := by
    obtain ⟨hcomplete', hsame⟩ := hfirst.complete hcomplete
    obtain ⟨hcomplete'', hsame'⟩ := hsecond.complete hcomplete'
    exact ⟨hcomplete'', hsame'.trans hsame⟩

structure Unbegun (i : ℕ) (state : UserState) : Prop where
  lock : state.locks .create ≠ some i
  silent : ∀ mail, (i, mail) ∉ sentMails state.log

theorem Unbegun.rely
    {i : ℕ} {state state' : UserState} (hunbegun : Unbegun i state)
    (hrely : CreationRely i state state') : Unbegun i state' where
  lock hlock := hunbegun.lock (hrely.lock.mp hlock)
  silent mail hsent := hunbegun.silent mail ((hrely.own mail).mp hsent)

theorem Reports.rely
    {i : ℕ} {err : ℤ} {state state' : UserState} (hreports : Reports i err state)
    (hrely : CreationRely i state state') : Reports i err state' := by
  refine ⟨fun hlock => hreports.1 (hrely.lock.mp hlock), ?_⟩
  unfold PushedReference
  simp only [hrely.own]
  exact hreports.2

def creationOutline (uid : Word) :
    Outline (userMachine .encoder uid) creationRegime where
  inv state := state.creation.Pushed ∧
    (state.locks .create = none → state.creation.AtRest)
  rely := CreationRely
  fresh := Unbegun
  post i _ out state :=
    ∃ err status, out = .encoderChannel err status ∧ Reports i err state
  rely_refl i _ := .of_same i rfl rfl
  rely_trans := .trans
  fresh_rely hrely hfresh := hfresh.rely hrely
  post_rely := by
    rintro i op out state state' hrely ⟨err, status, hout, hreports⟩
    exact ⟨err, status, hout, hreports.rely hrely⟩

section

variable {uid : Word} {i : ℕ} {op : UserOp} {α β : Type}
variable {post : α → UserState → Prop} {state state' : UserState}
variable {data data' : CreationData}

abbrev creationWp (uid : Word) (i : ℕ) (op : UserOp) {α : Type}
    (program : UserProg α) (post : α → UserState → Prop) (state : UserState) : Prop :=
  (creationOutline uid).wp i op program post state

structure Creates (i : ℕ) (data : CreationData) (state : UserState) : Prop where
  lock : state.locks .create = some i
  data : state.creation = data

theorem Creates.rely
    (hcreates : Creates i data state) (hrely : CreationRely i state state') :
    Creates i data state' where
  lock := hrely.lock.mpr hcreates.lock
  data := (hrely.data hcreates.lock).trans hcreates.data

structure Advances (i : ℕ) (log log' : List Event) : Prop where
  own : ∀ j mail, j ≠ i → ((j, mail) ∈ sentMails log' ↔ (j, mail) ∈ sentMails log)
  complete : Complete log → Complete log' ∧ sentMails log' = sentMails log

theorem Advances.refl (i : ℕ) (log : List Event) : Advances i log log where
  own _ _ _ := Iff.rfl
  complete hcomplete := ⟨hcomplete, rfl⟩

theorem Advances.silent
    {event : Event} (hsilent : event.isSilent = true) (log : List Event) :
    Advances i log (event :: log) where
  own _ _ _ := by rw [sentMails_of_silent hsilent]
  complete hcomplete := by
    unfold Complete
    rw [pushes_of_silent hsilent, sentMails_of_silent hsilent]
    exact ⟨hcomplete, rfl⟩

theorem Advances.sent
    {log : List Event} (mail : Al5Mail) (hopen : ¬ Complete log) :
    Advances i log (.sent i mail :: log) where
  own j other hj := by simp [sentMails, hj]
  complete hcomplete := absurd hcomplete hopen

theorem Advances.obtained
    {log : List Event} (value : Word) (hopen : ¬ Complete log) :
    Advances i log (.chanUid value :: log) where
  own _ _ _ := Iff.rfl
  complete hcomplete := absurd hcomplete hopen

theorem Pushed.silent
    {event : Event} (hsilent : event.isSilent = true) (hpushed : data.Pushed)
    (checkpoint : ℤ) :
    ({ data with log := event :: data.log, checkpoint := checkpoint } :
      CreationData).Pushed := by
  unfold CreationData.Pushed
  rw [pushes_of_silent hsilent]
  exact hpushed

/-! ## Rules -/

/-- An action of the owner. -/
theorem creation_act
    {action : UserAct} {next : action.Res → UserProg α} (hcreates : Creates i data state)
    (hstep : ∀ state₁ choice result state₂, Creates i data state₁ →
      state₁.act i action choice = some (result, state₂) →
      (∀ pool count size, action = .bufpoolAllocate pool count size → choice ≠ .fail) →
        ∃ data', Creates i data' state₂ ∧ data'.Pushed ∧
          Advances i data.log data'.log ∧ creationWp uid i op (next result) post state₂) :
    creationWp uid i op (Prog.perform action >>= next) post state := by
  intro state₁ hrely _ choice result state₂ hexec hallowed
  have hcreates₁ := hcreates.rely hrely
  obtain ⟨data', hcreates', hpushed', hadvances, hwp⟩ :=
    hstep state₁ choice result state₂ hcreates₁ (act_of_exec hexec) hallowed
  have hlog₁ : state₁.log = data.log := congrArg CreationData.log hcreates₁.data
  have hlog₂ : state₂.log = data'.log := congrArg CreationData.log hcreates'.data
  refine ⟨⟨by rw [hcreates'.data]; exact hpushed', fun hfree => ?_⟩, fun j hj => ?_, hwp⟩
  · rw [hcreates'.lock] at hfree
    cases hfree
  · refine ⟨?_, fun hlock => ?_, fun mail => ?_, ?_⟩
    · rw [hcreates₁.lock, hcreates'.lock]
    · rw [hcreates₁.lock] at hlock
      exact absurd (Option.some.inj hlock) (Ne.symm hj)
    · rw [hlog₁, hlog₂]
      exact hadvances.own j mail hj
    · rw [hlog₁, hlog₂]
      exact hadvances.complete

theorem creation_query
    {action : UserAct} {next : action.Res → UserProg α} (hquery : action.isQuery = true)
    (hcreates : Creates i data state) (hpushed : data.Pushed)
    (hnext : ∀ state₁ choice result, Creates i data state₁ →
      state₁.act i action choice = some (result, state₁) →
        creationWp uid i op (next result) post state₁) :
    creationWp uid i op (Prog.perform action >>= next) post state := by
  apply creation_act hcreates
  intro state₁ choice result state₂ hcreates₁ hact _
  obtain rfl := act_query hquery hact
  exact ⟨data, hcreates₁, hpushed, .refl i data.log,
    hnext _ choice result hcreates₁ hact⟩

theorem creation_getChanUid
    {next : Word → UserProg α} (hcreates : Creates i data state) (hpushed : data.Pushed)
    (hnext : ∀ state₁, Creates i data state₁ →
      creationWp uid i op (next data.chanUid) post state₁) :
    creationWp uid i op (Prog.perform .getChanUid >>= next) post state := by
  apply creation_query rfl hcreates hpushed
  intro state₁ choice result hcreates₁ hact
  cases choice with
  | succeed =>
      obtain ⟨rfl, -⟩ := Prod.mk.inj (Option.some.inj hact)
      rw [show state₁.chanUid = data.chanUid from
        congrArg CreationData.chanUid hcreates₁.data]
      exact hnext state₁ hcreates₁
  | _ => exact absurd hact (Option.some_ne_none _).symm

theorem creation_getCheckpoint
    {next : ℤ → UserProg α} (hcreates : Creates i data state) (hpushed : data.Pushed)
    (hnext : ∀ state₁, Creates i data state₁ →
      creationWp uid i op (next data.checkpoint) post state₁) :
    creationWp uid i op (Prog.perform .getCheckpoint >>= next) post state := by
  apply creation_query rfl hcreates hpushed
  intro state₁ choice result hcreates₁ hact
  cases choice with
  | succeed =>
      obtain ⟨rfl, -⟩ := Prod.mk.inj (Option.some.inj hact)
      rw [show state₁.checkpoint = data.checkpoint from
        congrArg CreationData.checkpoint hcreates₁.data]
      exact hnext state₁ hcreates₁
  | _ => exact absurd hact (Option.some_ne_none _).symm

theorem creation_getBufpool
    {pool : BufferPool} {next : List DmaBuffer → UserProg α}
    (hcreates : Creates i data state) (hpushed : data.Pushed)
    (hnext : ∀ state₁, Creates i data state₁ →
      creationWp uid i op (next (data.pools pool)) post state₁) :
    creationWp uid i op (Prog.perform (.getBufpool pool) >>= next) post state := by
  apply creation_query rfl hcreates hpushed
  intro state₁ choice result hcreates₁ hact
  cases choice with
  | succeed =>
      obtain ⟨rfl, -⟩ := Prod.mk.inj (Option.some.inj hact)
      rw [show state₁.pools pool = data.pools pool from
        congrFun (congrArg CreationData.pools hcreates₁.data) pool]
      exact hnext state₁ hcreates₁
  | _ => exact absurd hact (Option.some_ne_none _).symm

theorem creation_setCheckpoint
    {value : ℤ} {next : Unit → UserProg α} (hcreates : Creates i data state)
    (hpushed : data.Pushed)
    (hnext : ∀ state₁,
      Creates i { data with
        log := .checkpoint value :: data.log, checkpoint := value } state₁ →
      creationWp uid i op (next ()) post state₁) :
    creationWp uid i op (Prog.perform (.setCheckpoint value) >>= next) post state := by
  apply creation_act hcreates
  intro state₁ choice result state₂ hcreates₁ hact _
  cases choice with
  | succeed =>
      obtain ⟨rfl, rfl⟩ := Prod.mk.inj (Option.some.inj hact)
      have hafter : Creates i { data with
          log := .checkpoint value :: data.log, checkpoint := value }
          { state₁.record (.checkpoint value) with checkpoint := value } := by
        refine ⟨hcreates₁.lock, ?_⟩
        rw [← hcreates₁.data]
        rfl
      exact ⟨_, hafter, Pushed.silent rfl hpushed value, .silent rfl data.log,
        hnext _ hafter⟩
  | _ => exact absurd hact (Option.some_ne_none _).symm

theorem creation_unlock
    {err : ℤ} (hcreates : Creates i data state) (hpushed : data.Pushed)
    (hrest : data.AtRest) (hreports : err = 0 ↔ PushedReference i data.log) :
    creationWp uid i op (Prog.perform (.mutexUnlock .create) >>= fun _ => pure err)
      (Reports i) state := by
  intro state₁ hrely _ choice result state₂ hexec _
  have hcreates₁ := hcreates.rely hrely
  have hact := act_of_exec hexec
  cases choice with
  | succeed =>
      obtain ⟨-, rfl⟩ := Prod.mk.inj (Option.some.inj hact)
      have hdata : (state₁.setLock .create none).creation = data := hcreates₁.data
      have hlog : state₁.log = data.log := congrArg CreationData.log hcreates₁.data
      have hfree : (state₁.setLock .create none).locks .create = none :=
        UserState.setLock_self ..
      refine ⟨⟨by rw [hdata]; exact hpushed, fun _ => by rw [hdata]; exact hrest⟩,
        fun j hj => ⟨?_, fun hlock => ?_, fun _ => Iff.rfl, fun h => ⟨h, rfl⟩⟩, ?_⟩
      · rw [hfree, hcreates₁.lock]
        simp [Ne.symm hj]
      · rw [hcreates₁.lock] at hlock
        exact absurd (Option.some.inj hlock) (Ne.symm hj)
      · refine ⟨by rw [hfree]; simp, ?_⟩
        change err = 0 ↔ PushedReference i state₁.log
        rw [hlog]
        exact hreports
  | _ => exact absurd hact (Option.some_ne_none _).symm

/-- A mail is built from what the call owns, and sent or refused. -/
theorem creation_sendBuilt
    {constructor : Bool → MailResult} {post : ℤ → UserState → Prop}
    (hcreates : Creates i data state) (hpushed : data.Pushed)
    (hopen : ¬ Complete data.log)
    (hsound : ∀ kmalloc mail, constructor kmalloc = .ok (some mail) →
      ({ data with log := .sent i mail :: data.log } : CreationData).Pushed)
    (hrefused : ∀ state₁ err, Creates i data state₁ → err ≠ 0 → post err state₁)
    (hsent : ∀ state₁ kmalloc mail, constructor kmalloc = .ok (some mail) →
      Creates i { data with log := .sent i mail :: data.log } state₁ →
        post 0 state₁) :
    creationWp uid i op (sendBuilt constructor) post state := by
  unfold sendBuilt buildMail
  rw [Prog.bind_eq, Prog.bind_eq, Prog.bind_assoc]
  apply creation_query rfl hcreates hpushed
  intro state₁ _ kmalloc hcreates₁ _
  cases hbuild : constructor kmalloc with
  | error fault =>
      apply creation_act hcreates₁
      intro state₂ choice result state₃ _ hact
      cases choice <;> exact absurd hact (Option.some_ne_none _).symm
  | ok built =>
      cases built with
      | none => exact hrefused state₁ (-ENOMEM) hcreates₁ (by decide)
      | some mail =>
          change creationWp uid i op
            (Prog.perform (.send mail) >>= fun err => pure err) post state₁
          apply creation_act hcreates₁
          intro state₂ choice result state₃ hcreates₂ hact _
          cases choice with
          | succeed =>
              obtain ⟨rfl, rfl⟩ := Prod.mk.inj (Option.some.inj hact)
              have hafter : Creates i { data with log := .sent i mail :: data.log }
                  (state₂.record (.sent i mail)) := by
                refine ⟨hcreates₂.lock, ?_⟩
                rw [← hcreates₂.data]
                rfl
              exact ⟨_, hafter, hsound kmalloc mail hbuild, .sent mail hopen,
                hsent _ kmalloc mail hbuild hafter⟩
          | fail =>
              obtain ⟨rfl, rfl⟩ := Prod.mk.inj (Option.some.inj hact)
              exact ⟨data, hcreates₂, hpushed, .refl i data.log,
                hrefused _ (-EAGAIN) hcreates₂ (by decide)⟩
          | _ => exact absurd hact (Option.some_ne_none _).symm

/-! ## The stages of a creation -/

theorem buffersMail_of_build
    {mailUid : MailUid} {chanUid : Word} {buffers : List DmaBuffer} {kmalloc : Bool}
    {mail : Al5Mail}
    (hbuild : createMailFromBufpool mailUid.code chanUid buffers kmalloc =
      .ok (some mail)) :
    BuffersMail mailUid chanUid buffers mail := by
  cases kmalloc with
  | true => exact hbuild
  | false =>
      unfold createMailFromBufpool at hbuild
      obtain ⟨mid, hfirst, -⟩ := bind_eq_ok hbuild
      obtain ⟨before, hnull, -⟩ := al5MailWriteWord_inv hfirst
      cases hnull

/-- Between two calls nothing of a channel is known. -/
structure SearchingAt (data : CreationData) : Prop where
  pushes : Pushes.of data.log = .searching
  chanUid : data.chanUid = badChan
  checkpoint : data.checkpoint = noCheckpoint

structure ObtainedAt (chanUid : Word) (data : CreationData) : Prop where
  pushes : Pushes.of data.log = .obtained chanUid
  created : chanUid ≠ badChan
  holds : data.chanUid = chanUid

structure HalfAt (chanUid : Word) (intermediate : Al5Mail) (data : CreationData) :
    Prop where
  pushes : Pushes.of data.log = .half chanUid intermediate
  created : chanUid ≠ badChan
  holds : data.chanUid = chanUid
  mail : BuffersMail .pushBufferIntermediate chanUid (data.pools .intBuffers) intermediate
  checkpoint : data.checkpoint = checkpointSendReferenceBuffers

/-- Where a call goes on that finds a checkpoint. -/
def ResumableAt (chanUid : Word) (data : CreationData) : Prop :=
  (ObtainedAt chanUid data ∧ data.checkpoint = checkpointSendIntermediateBuffers) ∨
    ∃ intermediate, HalfAt chanUid intermediate data

section

variable {chanUid : Word} {intermediate : Al5Mail}

theorem SearchingAt.pushed (hsearching : SearchingAt data) : data.Pushed := by
  unfold CreationData.Pushed
  rw [hsearching.pushes]
  exact hsearching.chanUid

theorem ObtainedAt.pushed (hobtained : ObtainedAt chanUid data) : data.Pushed := by
  unfold CreationData.Pushed
  rw [hobtained.pushes]
  exact ⟨hobtained.holds, hobtained.created⟩

theorem HalfAt.pushed (hhalf : HalfAt chanUid intermediate data) : data.Pushed := by
  unfold CreationData.Pushed
  rw [hhalf.pushes]
  exact ⟨⟨hhalf.holds, hhalf.created⟩, hhalf.mail⟩

theorem not_complete
    {log : List Event} {pushes : Pushes} (hpushes : Pushes.of log = pushes)
    (hopen : ∀ chanUid intermediate reference,
      pushes ≠ .complete chanUid intermediate reference) : ¬ Complete log := by
  rintro ⟨chanUid, intermediate, reference, hcomplete⟩
  exact hopen chanUid intermediate reference (hpushes.symm.trans hcomplete)

theorem not_pushedReference
    {log : List Event} {pushes : Pushes} (hpushes : Pushes.of log = pushes)
    (hopen : ∀ chanUid intermediate reference,
      pushes ≠ .complete chanUid intermediate reference) (hastray : pushes ≠ .astray) :
    ¬ PushedReference i log := by
  rintro ⟨mail, hsent, huid⟩
  obtain ⟨chanUid, intermediate, reference, hcomplete⟩ | hlost :=
    complete_of_reference hsent huid
  · exact hopen chanUid intermediate reference (hpushes.symm.trans hcomplete)
  · exact hastray (hpushes.symm.trans hlost)

/-- The call gives up: it reports an error and sent no reference buffers. -/
theorem creation_giveUp
    {err : ℤ} {pushes : Pushes} (hcreates : Creates i data state) (hpushed : data.Pushed)
    (hrest : data.AtRest) (herr : err ≠ 0) (hpushes : Pushes.of data.log = pushes)
    (hopen : ∀ chanUid intermediate reference,
      pushes ≠ .complete chanUid intermediate reference) (hastray : pushes ≠ .astray) :
    creationWp uid i op (Prog.perform (.mutexUnlock .create) >>= fun _ => pure err)
      (Reports i) state :=
  creation_unlock hcreates hpushed hrest
    ⟨fun hzero => absurd hzero herr,
      fun hsent => absurd hsent (not_pushedReference hpushes hopen hastray)⟩

def SentBuffers (i : ℕ) (data : CreationData) (mailUid : MailUid) (pool : BufferPool)
    (err : ℤ) (state : UserState) : Prop :=
  err ≠ 0 ∧ Creates i data state ∨
    err = 0 ∧ ∃ mail, BuffersMail mailUid data.chanUid (data.pools pool) mail ∧
      mail.uid? = some mailUid ∧
      Creates i { data with log := .sent i mail :: data.log } state

theorem creation_sendBuffers
    {mailUid : MailUid} {pool : BufferPool} (hcreates : Creates i data state)
    (hpushed : data.Pushed) (hopen : ¬ Complete data.log)
    (hsound : ∀ mail, BuffersMail mailUid data.chanUid (data.pools pool) mail →
      mail.uid? = some mailUid →
        ({ data with log := .sent i mail :: data.log } : CreationData).Pushed) :
    creationWp uid i op (sendBuffers mailUid pool)
      (SentBuffers i data mailUid pool) state := by
  have huid : ∀ {kmalloc mail}, createMailFromBufpool mailUid.code data.chanUid
      (data.pools pool) kmalloc = .ok (some mail) → mail.uid? = some mailUid :=
    fun hbuild => (builds_mailFromBufpool mailUid _ _ _ _ hbuild).uid?_eq
  apply creation_getChanUid hcreates hpushed
  intro state₁ hcreates₁
  apply creation_getBufpool hcreates₁ hpushed
  intro state₂ hcreates₂
  apply creation_sendBuilt hcreates₂ hpushed hopen
  · exact fun kmalloc mail hbuild =>
      hsound mail (buffersMail_of_build hbuild) (huid hbuild)
  · exact fun state₃ err hcreates₃ herr => .inl ⟨herr, hcreates₃⟩
  · exact fun state₃ kmalloc mail hbuild hcreates₃ =>
      .inr ⟨rfl, mail, buffersMail_of_build hbuild, huid hbuild, hcreates₃⟩

theorem creation_sendReference
    (hhalf : HalfAt chanUid intermediate data) (hcreates : Creates i data state) :
    creationWp uid i op createSendReference (Reports i) state := by
  have hopen : ∀ chanUid' intermediate' reference', Pushes.half chanUid intermediate ≠
      .complete chanUid' intermediate' reference' := by simp
  have hcomplete : ∀ {mail : Al5Mail}, mail.uid? = some .pushBufferReference →
      Pushes.of (.sent i mail :: data.log) = .complete chanUid intermediate mail := by
    intro mail huid
    change (Pushes.of data.log).send mail = _
    rw [hhalf.pushes]
    exact if_pos huid
  have hsound : ∀ mail, BuffersMail .pushBufferReference data.chanUid
      (data.pools .recBuffers) mail → mail.uid? = some .pushBufferReference →
        ({ data with log := .sent i mail :: data.log } : CreationData).Pushed := by
    intro mail hmail huid
    unfold CreationData.Pushed
    rw [hcomplete huid]
    exact ⟨⟨hhalf.holds, hhalf.created⟩, hhalf.mail, hhalf.holds ▸ hmail⟩
  apply creation_getCheckpoint hcreates hhalf.pushed
  intro state₁ hcreates₁
  rw [if_pos hhalf.checkpoint]
  apply Outline.wp_seq (creation_sendBuffers hcreates₁ hhalf.pushed
    (not_complete hhalf.pushes hopen) hsound)
  rintro err state₂ (⟨herr, hcreates₂⟩ | ⟨rfl, mail, hmail, huid, hcreates₂⟩)
  · rw [if_pos herr]
    have hrest : data.AtRest := by
      unfold CreationData.AtRest
      rw [hhalf.pushes]
      exact hhalf.checkpoint
    exact creation_giveUp hcreates₂ hhalf.pushed hrest herr hhalf.pushes hopen (by simp)
  · rw [if_neg (by decide)]
    have hpushed₂ := hsound mail hmail huid
    apply creation_setCheckpoint hcreates₂ hpushed₂
    intro state₃ hcreates₃
    apply creation_unlock hcreates₃ (Pushed.silent rfl hpushed₂ noCheckpoint)
    · unfold CreationData.AtRest
      rw [pushes_of_silent rfl, hcomplete huid]
    · refine ⟨fun _ => ⟨mail, ?_, huid⟩, fun _ => rfl⟩
      simp [sentMails]

theorem creation_sendIntermediate
    (hstage : ResumableAt chanUid data) (hcreates : Creates i data state) :
    creationWp uid i op createSendIntermediate (Reports i) state := by
  obtain ⟨hobtained, hcheckpoint⟩ | ⟨intermediate, hhalf⟩ := hstage
  · have hopen : ∀ chanUid' intermediate' reference', Pushes.obtained chanUid ≠
        .complete chanUid' intermediate' reference' := by simp
    have hnext : ∀ {mail : Al5Mail}, mail.uid? = some .pushBufferIntermediate →
        Pushes.of (.sent i mail :: data.log) = .half chanUid mail := by
      intro mail huid
      change (Pushes.of data.log).send mail = _
      rw [hobtained.pushes]
      exact if_pos huid
    have hsound : ∀ mail, BuffersMail .pushBufferIntermediate data.chanUid
        (data.pools .intBuffers) mail → mail.uid? = some .pushBufferIntermediate →
          ({ data with log := .sent i mail :: data.log } : CreationData).Pushed := by
      intro mail hmail huid
      unfold CreationData.Pushed
      rw [hnext huid]
      exact ⟨⟨hobtained.holds, hobtained.created⟩, hobtained.holds ▸ hmail⟩
    apply creation_getCheckpoint hcreates hobtained.pushed
    intro state₁ hcreates₁
    rw [if_pos hcheckpoint]
    apply Outline.wp_seq (creation_sendBuffers hcreates₁ hobtained.pushed
      (not_complete hobtained.pushes hopen) hsound)
    rintro err state₂ (⟨herr, hcreates₂⟩ | ⟨rfl, mail, hmail, huid, hcreates₂⟩)
    · rw [if_pos herr]
      have hrest : data.AtRest := by
        unfold CreationData.AtRest
        rw [hobtained.pushes]
        exact hcheckpoint
      exact creation_giveUp hcreates₂ hobtained.pushed hrest herr hobtained.pushes hopen
        (by simp)
    · rw [if_neg (by decide)]
      apply creation_setCheckpoint hcreates₂ (hsound mail hmail huid)
      intro state₃ hcreates₃
      have hhalf : HalfAt chanUid mail
          ⟨.checkpoint checkpointSendReferenceBuffers :: .sent i mail :: data.log,
            data.chanUid, checkpointSendReferenceBuffers, data.pools⟩ := by
        refine ⟨?_, hobtained.created, hobtained.holds, hobtained.holds ▸ hmail, rfl⟩
        rw [pushes_of_silent rfl]
        exact hnext huid
      exact creation_sendReference hhalf hcreates₃
  · apply creation_getCheckpoint hcreates hhalf.pushed
    intro state₁ hcreates₁
    have hother : ¬ data.checkpoint = checkpointSendIntermediateBuffers := by
      rw [hhalf.checkpoint]
      decide
    rw [if_neg hother]
    exact creation_sendReference hhalf hcreates₁

/-- Buffers are allocated for a channel that was obtained. -/
theorem creation_bufpoolAllocate
    {pool : BufferPool} {count size : Word} {next : ℤ → UserProg α}
    (hobtained : ObtainedAt chanUid data) (hcreates : Creates i data state)
    (hnext : ∀ state₁ data', ObtainedAt chanUid data' → Creates i data' state₁ →
      creationWp uid i op (next 0) post state₁) :
    creationWp uid i op (Prog.perform (.bufpoolAllocate pool count size) >>= next) post
      state := by
  apply creation_act hcreates
  intro state₁ choice result state₂ hcreates₁ hact hallowed
  cases choice with
  | buffers handles =>
      simp only [UserState.act] at hact
      split at hact
      · obtain ⟨rfl, rfl⟩ := Prod.mk.inj (Option.some.inj hact)
        have hlog : state₁.log = data.log := congrArg CreationData.log hcreates₁.data
        have hafter : ObtainedAt chanUid
            { log := .allocated (state₁.pools pool).length :: state₁.log
              chanUid := state₁.chanUid
              checkpoint := state₁.checkpoint
              pools := Function.update state₁.pools pool
                (handles.map fun handle => ⟨handle, size⟩) } := by
          refine ⟨?_, hobtained.created, ?_⟩
          · rw [pushes_of_silent rfl, hlog]
            exact hobtained.pushes
          · exact (congrArg CreationData.chanUid hcreates₁.data).trans hobtained.holds
        have hadvances : Advances i data.log
            (.allocated (state₁.pools pool).length :: state₁.log) := by
          rw [← hlog]
          exact .silent rfl state₁.log
        exact ⟨_, ⟨hcreates₁.lock, rfl⟩, hafter.pushed, hadvances,
          hnext _ _ hafter ⟨hcreates₁.lock, rfl⟩⟩
      · exact absurd hact (by simp)
  | fail => exact absurd rfl (hallowed pool count size rfl)
  | _ => exact absurd hact (Option.some_ne_none _).symm

/-- `allocate_channel_buffers`, when the buffers can be allocated. -/
def Allocated (i : ℕ) (chanUid : Word) (err : ℤ) (state : UserState) : Prop :=
  err = 0 ∧ ∃ data, ObtainedAt chanUid data ∧ Creates i data state

theorem creation_allocateBuffers
    {buffers : Al5ChannelBuffers} (hobtained : ObtainedAt chanUid data)
    (hcreates : Creates i data state) :
    creationWp uid i op (allocateChannelBuffers buffers) (Allocated i chanUid) state := by
  apply creation_bufpoolAllocate hobtained hcreates
  intro state₁ data₁ hobtained₁ hcreates₁
  rw [if_neg (show ¬ (0 : ℤ) ≠ 0 from by decide)]
  exact creation_bufpoolAllocate hobtained₁ hcreates₁
    fun state₂ data₂ hobtained₂ hcreates₂ => ⟨rfl, data₂, hobtained₂, hcreates₂⟩

theorem creation_allocate
    {message : Al5eFeedbackChannel}
    (hstage : (ObtainedAt chanUid data ∧ data.checkpoint = checkpointAllocateBuffers) ∨
      ResumableAt chanUid data)
    (hcreates : Creates i data state) :
    creationWp uid i op (createAllocate message) (Reports i) state := by
  obtain ⟨hobtained, hcheckpoint⟩ | hresumable := hstage
  · apply creation_getCheckpoint hcreates hobtained.pushed
    intro state₁ hcreates₁
    rw [if_pos hcheckpoint]
    apply Outline.wp_seq (creation_allocateBuffers hobtained hcreates₁)
    rintro err state₂ ⟨rfl, data₂, hobtained₂, hcreates₂⟩
    rw [if_neg (show ¬ (0 : ℤ) ≠ 0 from by decide)]
    apply creation_setCheckpoint hcreates₂ hobtained₂.pushed
    intro state₃ hcreates₃
    have hobtained₃ : ObtainedAt chanUid
        ⟨.checkpoint checkpointSendIntermediateBuffers :: data₂.log, data₂.chanUid,
          checkpointSendIntermediateBuffers, data₂.pools⟩ := by
      refine ⟨?_, hobtained₂.created, hobtained₂.holds⟩
      rw [pushes_of_silent rfl]
      exact hobtained₂.pushes
    exact creation_sendIntermediate (.inl ⟨hobtained₃, rfl⟩) hcreates₃
  · have hpushed : data.Pushed := by
      obtain ⟨hobtained, -⟩ | ⟨intermediate, hhalf⟩ := hresumable
      · exact hobtained.pushed
      · exact hhalf.pushed
    have hother : ¬ data.checkpoint = checkpointAllocateBuffers := by
      obtain ⟨-, hcheckpoint⟩ | ⟨intermediate, hhalf⟩ := hresumable
      · rw [hcheckpoint]
        decide
      · rw [hhalf.checkpoint]
        decide
    apply creation_getCheckpoint hcreates hpushed
    intro state₁ hcreates₁
    rw [if_neg hother]
    exact creation_sendIntermediate hresumable hcreates₁

/-! ## A request for a channel -/

theorem SearchingAt.silent
    {event : Event} (hsilent : event.isSilent = true) (hsearching : SearchingAt data) :
    SearchingAt { data with log := event :: data.log } where
  pushes := by
    rw [pushes_of_silent hsilent]
    exact hsearching.pushes
  chanUid := hsearching.chanUid
  checkpoint := hsearching.checkpoint

theorem creation_listPop
    {next : Option Al5Mail → UserProg α} (hsearching : SearchingAt data)
    (hcreates : Creates i data state)
    (hnext : ∀ state₁ mail,
      Creates i { data with log := .popped i .create mail :: data.log } state₁ →
        creationWp uid i op (next mail) post state₁) :
    creationWp uid i op (Prog.perform (.listPop .create) >>= next) post state := by
  apply creation_act hcreates
  intro state₁ choice result state₂ hcreates₁ hact _
  cases choice with
  | succeed =>
      obtain ⟨rfl, rfl⟩ := Prod.mk.inj (Option.some.inj hact)
      have hafter : ∀ mail, Creates i { data with log := .popped i .create mail :: data.log }
          ((state₁.setQueue .create { state₁.queues .create with
            mails := (state₁.queues .create).mails.tail }).record
              (.popped i .create mail)) := by
        intro mail
        refine ⟨hcreates₁.lock, ?_⟩
        rw [← hcreates₁.data]
        rfl
      exact ⟨_, hafter _, (hsearching.silent rfl).pushed, .silent rfl data.log,
        hnext _ _ (hafter _)⟩
  | _ => exact absurd hact (Option.some_ne_none _).symm

theorem creation_freeMail
    {mail : Al5Mail} {next : Unit → UserProg α} (hsearching : SearchingAt data)
    (hcreates : Creates i data state)
    (hnext : ∀ state₁, Creates i { data with log := .freed i mail :: data.log } state₁ →
      creationWp uid i op (next ()) post state₁) :
    creationWp uid i op (Prog.perform (.freeMail mail) >>= next) post state := by
  apply creation_act hcreates
  intro state₁ choice result state₂ hcreates₁ hact _
  cases choice with
  | succeed =>
      obtain ⟨rfl, rfl⟩ := Prod.mk.inj (Option.some.inj hact)
      have hafter : Creates i { data with log := .freed i mail :: data.log }
          (state₁.record (.freed i mail)) := by
        refine ⟨hcreates₁.lock, ?_⟩
        rw [← hcreates₁.data]
        rfl
      exact ⟨_, hafter, (hsearching.silent rfl).pushed, .silent rfl data.log,
        hnext _ hafter⟩
  | _ => exact absurd hact (Option.some_ne_none _).symm

theorem creation_setChanUid
    {value : Word} {next : Unit → UserProg α} (hsearching : SearchingAt data)
    (hcreated : value ≠ badChan) (hcreates : Creates i data state)
    (hnext : ∀ state₁ data', ObtainedAt value data' → Creates i data' state₁ →
      creationWp uid i op (next ()) post state₁) :
    creationWp uid i op (Prog.perform (.setChanUid value) >>= next) post state := by
  apply creation_act hcreates
  intro state₁ choice result state₂ hcreates₁ hact _
  cases choice with
  | succeed =>
      obtain ⟨rfl, rfl⟩ := Prod.mk.inj (Option.some.inj hact)
      have hafter : Creates i
          { data with log := .chanUid value :: data.log, chanUid := value }
          { state₁.record (.chanUid value) with chanUid := value } := by
        refine ⟨hcreates₁.lock, ?_⟩
        rw [← hcreates₁.data]
        rfl
      have hobtained : ObtainedAt value
          { data with log := .chanUid value :: data.log, chanUid := value } := by
        refine ⟨?_, hcreated, rfl⟩
        change (Pushes.of data.log).obtain value = .obtained value
        rw [hsearching.pushes]
        exact if_neg hcreated
      exact ⟨_, hafter, hobtained.pushed,
        .obtained value (not_complete hsearching.pushes (by simp)),
        hnext _ _ hobtained hafter⟩
  | _ => exact absurd hact (Option.some_ne_none _).symm

def Attempted (i : ℕ) (err : ℤ) (state : UserState) : Prop :=
  (err ≠ 0 ∧ ∃ data, SearchingAt data ∧ Creates i data state) ∨
    err = 0 ∧ ∃ chanUid data, ObtainedAt chanUid data ∧ Creates i data state

theorem creation_sendRequest
    {param : Al5Params} (hsearching : SearchingAt data) (hcreates : Creates i data state) :
    creationWp uid i op (sendBuilt fun kmalloc => al5eCreateChannelParamMsg kmalloc uid param)
      (fun _ last => ∃ data, SearchingAt data ∧ Creates i data last) state := by
  have hsent : ∀ {kmalloc mail},
      al5eCreateChannelParamMsg kmalloc uid param = .ok (some mail) →
        SearchingAt { data with log := .sent i mail :: data.log } := by
    intro kmalloc mail hbuild
    have huid : mail.uid? = some .createChannel :=
      ((Request.builds (.encoderCreateChannel uid param)) kmalloc mail hbuild).uid?_eq
    refine ⟨?_, hsearching.chanUid, hsearching.checkpoint⟩
    change (Pushes.of data.log).send mail = .searching
    rw [hsearching.pushes]
    exact if_pos huid
  apply creation_sendBuilt hcreates hsearching.pushed
    (not_complete hsearching.pushes (by simp))
  · exact fun kmalloc mail hbuild => (hsent hbuild).pushed
  · exact fun state₁ err hcreates₁ _ => ⟨data, hsearching, hcreates₁⟩
  · exact fun state₁ kmalloc mail hbuild hcreates₁ => ⟨_, hsent hbuild, hcreates₁⟩

theorem creation_tryToCreate
    {param : Al5Params} {status : Al5eChannelStatus} (hsearching : SearchingAt data)
    (hcreates : Creates i data state) :
    creationWp uid i op (tryToCreateChannel uid param status)
      (fun result last => Attempted i result.1 last) state := by
  apply Outline.wp_seq (creation_sendRequest hsearching hcreates)
  rintro err state₁ ⟨data₁, hsearching₁, hcreates₁⟩
  split
  · rename_i herr
    exact .inl ⟨herr, data₁, hsearching₁, hcreates₁⟩
  · apply creation_query rfl hcreates₁ hsearching₁.pushed
    intro state₂ _ err hcreates₂ _
    apply creation_listPop hsearching₁ hcreates₂
    intro state₃ popped hcreates₃
    have hsearching₃ : ∀ mail, SearchingAt
        { data₁ with log := .popped i .create mail :: data₁.log } :=
      fun mail => hsearching₁.silent rfl
    cases popped with
    | none =>
        left
        refine ⟨?_, _, hsearching₃ none, hcreates₃⟩
        change (if waitError err ≠ 0 then waitError err else -EINVAL) ≠ 0
        split
        · assumption
        · decide
    | some mail =>
        apply creation_freeMail (hsearching₃ (some mail)) hcreates₃
        intro state₄ hcreates₄
        have hsearching₄ := (hsearching₃ (some mail)).silent
          (show (Event.freed i mail).isSilent = true from rfl)
        by_cases hbad : (feedbackOfMail mail).chanUid = badChan
        · rw [if_pos hbad]
          exact .inl ⟨show -EINVAL ≠ 0 from by decide, _, hsearching₄, hcreates₄⟩
        · rw [if_neg hbad]
          apply creation_setChanUid hsearching₄ hbad hcreates₄
          intro state₅ data₅ hobtained₅ hcreates₅
          exact .inr ⟨rfl, _, data₅, hobtained₅, hcreates₅⟩

/-! ## A whole call -/

/-- What the next call finds. -/
theorem CreationData.Pushed.atRest_cases
    (hpushed : data.Pushed) (hrest : data.AtRest) :
    SearchingAt data ∨ (∃ chanUid, ResumableAt chanUid data) ∨
      Complete data.log ∧ data.chanUid ≠ badChan ∧ data.checkpoint = noCheckpoint := by
  unfold CreationData.Pushed at hpushed
  unfold CreationData.AtRest at hrest
  cases hpushes : Pushes.of data.log with
  | searching =>
      rw [hpushes] at hpushed hrest
      exact .inl ⟨hpushes, hpushed, hrest⟩
  | obtained chanUid =>
      rw [hpushes] at hpushed hrest
      exact .inr (.inl ⟨chanUid, .inl ⟨⟨hpushes, hpushed.2, hpushed.1⟩, hrest⟩⟩)
  | half chanUid intermediate =>
      rw [hpushes] at hpushed hrest
      exact .inr (.inl ⟨chanUid, .inr ⟨intermediate, hpushes, hpushed.1.2, hpushed.1.1,
        hpushed.2, hrest⟩⟩)
  | complete chanUid intermediate reference =>
      rw [hpushes] at hpushed hrest
      exact .inr (.inr ⟨⟨_, _, _, hpushes⟩, hpushed.1.1 ▸ hpushed.1.2, hrest⟩)
  | astray =>
      rw [hpushes] at hpushed
      exact hpushed.elim

theorem creation_lock
    {next : ℤ → UserProg α} (hunbegun : Unbegun i state)
    (hkilled : ∀ state₁, Unbegun i state₁ →
      creationWp uid i op (next (-EINTR)) post state₁)
    (hlocked : ∀ state₁ data, data.Pushed → data.AtRest →
      (∀ mail, (i, mail) ∉ sentMails data.log) → Creates i data state₁ →
        creationWp uid i op (next 0) post state₁) :
    creationWp uid i op (Prog.perform (.mutexLockKillable .create) >>= next) post
      state := by
  intro state₁ hrely hinv choice result state₂ hexec _
  have hunbegun₁ := hunbegun.rely hrely
  have hact := act_of_exec hexec
  cases choice with
  | succeed =>
      simp only [UserState.act] at hact
      split at hact
      · rename_i hfree
        rw [if_neg (by decide)] at hact
        obtain ⟨rfl, rfl⟩ := Prod.mk.inj (Option.some.inj hact)
        have howner : (state₁.setLock .create (some i)).locks .create = some i :=
          UserState.setLock_self ..
        refine ⟨⟨hinv.1, fun hnone => ?_⟩, fun j hj => ⟨?_, fun hlock => ?_,
          fun _ => Iff.rfl, fun h => ⟨h, rfl⟩⟩, ?_⟩
        · rw [howner] at hnone
          cases hnone
        · rw [howner, hfree]
          simp [Ne.symm hj]
        · rw [hfree] at hlock
          cases hlock
        · exact hlocked _ state₁.creation hinv.1 (hinv.2 hfree) hunbegun₁.silent
            ⟨howner, rfl⟩
      · cases hact
  | signal =>
      simp only [UserState.act] at hact
      split at hact
      · cases hact
      · obtain ⟨rfl, rfl⟩ := Prod.mk.inj (Option.some.inj hact)
        exact ⟨hinv, fun j _ => .of_same j rfl rfl,
          hkilled _ ⟨hunbegun₁.lock, hunbegun₁.silent⟩⟩
  | _ => exact absurd hact (Option.some_ne_none _).symm

theorem creation_isFullyCreated (hcreates : Creates i data state) (hpushed : data.Pushed) :
    creationWp uid i op channelIsFullyCreated
      (fun created last =>
        created = decide (data.chanUid ≠ badChan ∧ data.checkpoint = noCheckpoint) ∧
          Creates i data last) state := by
  apply creation_getChanUid hcreates hpushed
  intro state₁ hcreates₁
  by_cases hbad : data.chanUid = badChan
  · rw [if_pos hbad]
    exact ⟨by simp [hbad], hcreates₁⟩
  · rw [if_neg hbad]
    apply creation_getCheckpoint hcreates₁ hpushed
    intro state₂ hcreates₂
    exact ⟨by simp [hbad], hcreates₂⟩

/-- `al5e_user_create_channel`, from any point at which the calls before it stopped. -/
theorem creation_createChannel
    {param : Al5Params} {status : Al5eChannelStatus} (hunbegun : Unbegun i state) :
    creationWp uid i op (al5eUserCreateChannel uid param status)
      (fun result last => Reports i result.1 last) state := by
  have hsilent : ∀ {log : List Event}, (∀ mail, (i, mail) ∉ sentMails log) →
      ¬ PushedReference i log := fun hnone ⟨mail, hsent, _⟩ => hnone mail hsent
  apply creation_lock hunbegun
  · intro state₁ hunbegun₁
    rw [if_pos rfl]
    refine ⟨hunbegun₁.lock, fun hzero => ?_, fun hsent => absurd hsent
      (hsilent hunbegun₁.silent)⟩
    exact absurd hzero (show -EINTR ≠ 0 from by decide)
  · intro state₁ data hpushed hrest hnone hcreates₁
    rw [if_neg (show ¬ (0 : ℤ) = -EINTR from by decide)]
    apply Outline.wp_seq (creation_isFullyCreated hcreates₁ hpushed)
    rintro created state₂ ⟨rfl, hcreates₂⟩
    have hreturn : ∀ {err : ℤ} {status : Al5eChannelStatus} {state₃ : UserState},
        creationWp uid i op (Prog.perform (.mutexUnlock .create) >>= fun _ => pure err)
          (Reports i) state₃ →
        creationWp uid i op
          (Prog.perform (.mutexUnlock .create) >>= fun _ => pure (err, status))
          (fun result last => Reports i result.1 last) state₃ := fun hwp => hwp
    obtain hsearching | ⟨chanUid, hresumable⟩ | ⟨_, hcreated, hno⟩ :=
      hpushed.atRest_cases hrest
    · have hnot : decide (data.chanUid ≠ badChan ∧ data.checkpoint = noCheckpoint) =
          false := by simp [hsearching.chanUid]
      rw [hnot, if_neg Bool.false_ne_true]
      apply creation_getCheckpoint hcreates₂ hpushed
      intro state₃ hcreates₃
      rw [if_pos hsearching.checkpoint]
      apply Outline.wp_seq (creation_tryToCreate hsearching hcreates₃)
      rintro ⟨err, newStatus, message⟩ state₄
        (⟨herr, data₄, hsearching₄, hcreates₄⟩ | ⟨herr, chanUid, data₄, hobtained₄, hcreates₄⟩)
      · change err ≠ 0 at herr
        dsimp only
        rw [if_pos herr]
        have hrest₄ : data₄.AtRest := by
          unfold CreationData.AtRest
          rw [hsearching₄.pushes]
          exact hsearching₄.checkpoint
        exact hreturn (creation_giveUp hcreates₄ hsearching₄.pushed hrest₄ herr
          hsearching₄.pushes (by simp) (by simp))
      · change err = 0 at herr
        dsimp only
        rw [if_neg (not_not.mpr herr)]
        apply creation_setCheckpoint hcreates₄ hobtained₄.pushed
        intro state₅ hcreates₅
        have hobtained₅ : ObtainedAt chanUid
            ⟨.checkpoint checkpointAllocateBuffers :: data₄.log, data₄.chanUid,
              checkpointAllocateBuffers, data₄.pools⟩ := by
          refine ⟨?_, hobtained₄.created, hobtained₄.holds⟩
          rw [pushes_of_silent rfl]
          exact hobtained₄.pushes
        apply Outline.wp_seq (creation_allocate (.inl ⟨hobtained₅, rfl⟩) hcreates₅)
        exact fun _ last hreports => hreports
    · have hstarted : data.checkpoint ≠ noCheckpoint := by
        obtain ⟨-, hcheckpoint⟩ | ⟨intermediate, hhalf⟩ := hresumable
        · rw [hcheckpoint]
          decide
        · rw [hhalf.checkpoint]
          decide
      have hnot : decide (data.chanUid ≠ badChan ∧ data.checkpoint = noCheckpoint) =
          false := by simp [hstarted]
      rw [hnot, if_neg Bool.false_ne_true]
      apply creation_getCheckpoint hcreates₂ hpushed
      intro state₃ hcreates₃
      rw [if_neg hstarted]
      apply Outline.wp_seq (creation_allocate (.inr hresumable) hcreates₃)
      exact fun _ last hreports => hreports
    · have hfull : decide (data.chanUid ≠ badChan ∧ data.checkpoint = noCheckpoint) =
          true := by simp [hcreated, hno]
      rw [hfull, if_pos rfl]
      refine hreturn (creation_unlock hcreates₂ hpushed hrest ⟨fun hzero => ?_,
        fun hsent => absurd hsent (hsilent hnone)⟩)
      exact absurd hzero (show -EPERM ≠ 0 from by decide)

end

end

/-! ## Every run -/

structure WithoutChannel (state : UserState) : Prop where
  chanUid : state.chanUid = badChan
  checkpoint : state.checkpoint = noCheckpoint
  lock : state.locks .create = none
  log : state.log = []

theorem creationOutline_valid
    (uid : Word) {start : UserState} (hstart : WithoutChannel start) :
    (creationOutline uid).Valid start where
  init := by
    have hpushes : Pushes.of start.creation.log = .searching :=
      congrArg Pushes.of hstart.log
    have hsearching : SearchingAt start.creation :=
      ⟨hpushes, hstart.chanUid, hstart.checkpoint⟩
    refine ⟨hsearching.pushed, fun _ => ?_⟩
    unfold CreationData.AtRest
    rw [hpushes]
    exact hstart.checkpoint
  init_fresh i := by
    refine ⟨by rw [hstart.lock]; simp, fun mail hsent => ?_⟩
    rw [hstart.log] at hsent
    exact absurd hsent List.not_mem_nil
  env := by
    intro mail state state' hinv henv _
    simp only [userMachine] at henv
    split at henv
    · obtain rfl := Option.some.inj henv
      exact ⟨hinv, fun i => .of_same i rfl rfl⟩
    · cases henv
  enter := by
    intro calls op state state' hinv henter hop hcovered hfresh
    obtain ⟨param, status, rfl⟩ := hop
    simp only [userMachine, userEnter] at henter
    split at henter
    · obtain rfl := Option.some.inj henter
      refine ⟨hinv, hcovered, fun j hj => hfresh j (Nat.le_of_lt hj), ?_⟩
      apply Outline.wp_seq (creation_createChannel (hfresh _ (Nat.le_refl _)))
      exact fun result last hreports => ⟨result.1, result.2, rfl, hreports⟩
    · cases henter

theorem creation_holds
    {uid : Word} {start : UserState} {config : UserConfig} (hstart : WithoutChannel start)
    (hreach : (userMachine .encoder uid).Reach creationRegime ⟨start, []⟩ config) :
    (creationOutline uid).Holds config :=
  (creationOutline_valid uid hstart).sound hreach

/-! ## Calls that come too late -/

section

variable {uid : Word} {i : ℕ} {op : UserOp} {state : UserState} {data : CreationData}

theorem Creates.ends_getChanUid
    {α : Type} {next : Word → UserProg α} {post : α → UserState → Prop}
    (hcreates : Creates i data state)
    (hnext : ∀ state₁, Creates i data state₁ →
      (creationOutline uid).watch.Ends i op (next data.chanUid) post state₁) :
    (creationOutline uid).watch.Ends i op (Prog.perform .getChanUid >>= next) post
      state := by
  intro state₁ hrely _ choice result state₂ hexec _ _
  have hcreates₁ := hcreates.rely hrely
  have hact := act_of_exec hexec
  cases choice with
  | succeed =>
      obtain ⟨rfl, rfl⟩ := Prod.mk.inj (Option.some.inj hact)
      rw [show state₁.chanUid = data.chanUid from
        congrArg CreationData.chanUid hcreates₁.data]
      exact hnext _ hcreates₁
  | _ => exact absurd hact (Option.some_ne_none _).symm

theorem Creates.ends_getCheckpoint
    {α : Type} {next : ℤ → UserProg α} {post : α → UserState → Prop}
    (hcreates : Creates i data state)
    (hnext : ∀ state₁, Creates i data state₁ →
      (creationOutline uid).watch.Ends i op (next data.checkpoint) post state₁) :
    (creationOutline uid).watch.Ends i op (Prog.perform .getCheckpoint >>= next) post
      state := by
  intro state₁ hrely _ choice result state₂ hexec _ _
  have hcreates₁ := hcreates.rely hrely
  have hact := act_of_exec hexec
  cases choice with
  | succeed =>
      obtain ⟨rfl, rfl⟩ := Prod.mk.inj (Option.some.inj hact)
      rw [show state₁.checkpoint = data.checkpoint from
        congrArg CreationData.checkpoint hcreates₁.data]
      exact hnext _ hcreates₁
  | _ => exact absurd hact (Option.some_ne_none _).symm

/-- A call that takes the mutex of a complete channel. -/
theorem ends_lock_of_complete
    {α : Type} {next : ℤ → UserProg α} {post : α → UserState → Prop}
    (hcomplete : Complete state.log)
    (hkilled : ∀ state₁, (creationOutline uid).watch.Ends i op (next (-EINTR)) post state₁)
    (hlocked : ∀ state₁ data, data.chanUid ≠ badChan → data.checkpoint = noCheckpoint →
      Creates i data state₁ →
        (creationOutline uid).watch.Ends i op (next 0) post state₁) :
    (creationOutline uid).watch.Ends i op
      (Prog.perform (.mutexLockKillable .create) >>= next) post state := by
  intro state₁ hrely hinv choice result state₂ hexec _ _
  have hcomplete₁ := (hrely.complete hcomplete).1
  have hact := act_of_exec hexec
  cases choice with
  | succeed =>
      simp only [UserState.act] at hact
      split at hact
      · rename_i hfree
        rw [if_neg (by decide)] at hact
        obtain ⟨rfl, rfl⟩ := Prod.mk.inj (Option.some.inj hact)
        obtain hsearching | ⟨chanUid, hobtained | ⟨intermediate, hhalf⟩⟩ | hfull :=
          hinv.1.atRest_cases (hinv.2 hfree)
        · exact absurd hcomplete₁ (not_complete hsearching.pushes (by simp))
        · exact absurd hcomplete₁ (not_complete hobtained.1.pushes (by simp))
        · exact absurd hcomplete₁ (not_complete hhalf.pushes (by simp))
        · exact hlocked _ state₁.creation hfull.2.1 hfull.2.2
            ⟨UserState.setLock_self .., rfl⟩
      · cases hact
  | signal =>
      simp only [UserState.act] at hact
      split at hact
      · cases hact
      · obtain ⟨rfl, rfl⟩ := Prod.mk.inj (Option.some.inj hact)
        exact hkilled _
  | _ => exact absurd hact (Option.some_ne_none _).symm

/-- A creation that begins when the channel is complete is refused, or killed. -/
theorem late_createChannel
    {param : Al5Params} {status : Al5eChannelStatus} (hcomplete : Complete state.log) :
    (creationOutline uid).watch.Ends i op (al5eUserCreateChannel uid param status)
      (fun result _ => result.1 = -EPERM ∨ result.1 = -EINTR) state := by
  apply ends_lock_of_complete hcomplete
  · intro state₁
    rw [if_pos rfl]
    exact .inr rfl
  · intro state₁ data hcreated hno hcreates₁
    rw [if_neg (show ¬ (0 : ℤ) = -EINTR from by decide)]
    have hchecked : (creationOutline uid).watch.Ends i op channelIsFullyCreated
        (fun created _ => created = true) state₁ := by
      apply hcreates₁.ends_getChanUid
      intro state₂ hcreates₂
      rw [if_neg hcreated]
      apply hcreates₂.ends_getCheckpoint
      intro state₃ _
      exact decide_eq_true hno
    apply Watch.ends_bind hchecked
    rintro created state₂ rfl
    rw [if_pos rfl]
    intro _ _ _ _ _ _ _ _ _
    exact .inl rfl

end

/-- What a complete channel leaves to be done: nothing. -/
theorem complete_of_reach
    {uid : Word} {config config' : UserConfig}
    (hsees : (creationOutline uid).watch.Sees config) (hcomplete : Complete config.state.log)
    (hreach : (userMachine .encoder uid).Reach creationRegime config config') :
    Complete config'.state.log ∧
      sentMails config'.state.log = sentMails config.state.log := by
  induction hreach with
  | start => exact ⟨hcomplete, rfl⟩
  | @next mid config' move hreach hallowed hnext ih =>
      have hrely : ∃ j, CreationRely j mid.state config'.state := by
        cases move with
        | enter op =>
            obtain ⟨state, henter, rfl⟩ := Machine.next_enter_eq_some hnext
            obtain ⟨param, status, rfl⟩ := hallowed
            simp only [userMachine, userEnter] at henter
            split at henter
            · obtain rfl := Option.some.inj henter
              exact ⟨0, .of_same 0 rfl rfl⟩
            · cases henter
        | step i choice =>
            exact ⟨i + 1, hsees.step hreach hallowed hnext (i + 1) (Nat.succ_ne_self i)⟩
        | env mail => exact ⟨0, hsees.env hreach hallowed hnext 0⟩
      obtain ⟨j, hrely⟩ := hrely
      obtain ⟨hcomplete', hsame⟩ := hrely.complete ih.1
      exact ⟨hcomplete', hsame.trans ih.2⟩

/-- The call came when the channel was complete, and was refused or killed. -/
def Refused (first i : ℕ) (out : UserOut) : Prop :=
  first ≤ i → ∀ err status, out = .encoderChannel err status → err = -EPERM ∨ err = -EINTR

theorem refused_of_complete
    {uid : Word} {config config' : UserConfig}
    (hsees : (creationOutline uid).watch.Sees config) (hcomplete : Complete config.state.log)
    (hreach : (userMachine .encoder uid).Reach creationRegime config config') :
    (creationOutline uid).watch.Follows
      (fun i _ out _ => Refused config.calls.length i out) config' := by
  refine hsees.follows (fun _ hrefused => hrefused) ?_ ?_ hreach
  · intro i call hcall
    have hlt : i < config.calls.length := (List.getElem?_eq_some_iff.mp hcall).1
    exact Watch.ends_of_forall fun out _ hle => absurd hle (Nat.not_le.mpr hlt)
  · intro mid after op hmid hallowed hnext hfollows
    obtain ⟨state, henter, rfl⟩ := Machine.next_enter_eq_some hnext
    obtain ⟨param, status, rfl⟩ := hallowed
    have hsame : state = mid.state := by
      simp only [userMachine, userEnter] at henter
      split at henter
      · exact (Option.some.inj henter).symm
      · cases henter
    subst hsame
    intro i call hcall
    rcases getElem?_concat_cases hcall with hold | ⟨rfl, rfl⟩
    · exact hfollows i call hold
    · apply Watch.ends_bind (late_createChannel (complete_of_reach hsees hcomplete hmid).1)
      rintro result _ hresult _ err status hout
      injection hout with herr
      rw [← herr]
      exact hresult

/-! ## What all calls send together -/

/-- The mails which may follow once a channel is obtained: those of its intermediate
buffers and then of its reference buffers, as far as the creation has come. -/
inductive BuffersPushed (state : UserState) : List Al5Mail → Prop
  | none : BuffersPushed state []
  | intermediate {first : Al5Mail}
      (hfirst : BuffersMail .pushBufferIntermediate state.chanUid
        (state.pools .intBuffers) first) : BuffersPushed state [first]
  | both {first second : Al5Mail}
      (hfirst : BuffersMail .pushBufferIntermediate state.chanUid
        (state.pools .intBuffers) first)
      (hsecond : BuffersMail .pushBufferReference state.chanUid
        (state.pools .recBuffers) second) : BuffersPushed state [first, second]

/-- All calls together send requests until a channel is obtained, and then its buffers;
0 is returned by the call from which the reference buffers were accepted. -/
structure PushesOnce (config : UserConfig) : Prop where
  sends : (NoChannel config.state.log ∧ RequestsOnly config.state.log) ∨
    ∃ mails, config.state.chanUid ≠ badChan ∧
      ObtainedThen config.state.log config.state.chanUid mails ∧
      BuffersPushed config.state mails
  returns : ∀ i op err status,
    config.calls[i]? = some ⟨op, .ret (.encoderChannel err status)⟩ →
      (err = 0 ↔ PushedReference i config.state.log)

theorem pushesOnce_of_holds
    {uid : Word} {config : UserConfig} (hholds : (creationOutline uid).Holds config) :
    PushesOnce config := by
  constructor
  · have hpushed := hholds.inv.1
    have hdescribes := pushes_describe config.state.log
    have hdata : ∀ {pushes}, Pushes.of config.state.log = pushes →
        Pushes.of config.state.creation.log = pushes := fun hpushes => hpushes
    unfold CreationData.Pushed at hpushed
    cases hpushes : Pushes.of config.state.log with
    | searching =>
        rw [hpushes] at hdescribes
        exact .inl hdescribes
    | obtained chanUid =>
        rw [hdata hpushes] at hpushed
        rw [hpushes] at hdescribes
        obtain ⟨rfl, hcreated⟩ := hpushed
        exact .inr ⟨[], hcreated, hdescribes.2, .none⟩
    | half chanUid intermediate =>
        rw [hdata hpushes] at hpushed
        rw [hpushes] at hdescribes
        obtain ⟨⟨rfl, hcreated⟩, hfirst⟩ := hpushed
        exact .inr ⟨_, hcreated, hdescribes.2.1, .intermediate hfirst⟩
    | complete chanUid intermediate reference =>
        rw [hdata hpushes] at hpushed
        rw [hpushes] at hdescribes
        obtain ⟨⟨rfl, hcreated⟩, hfirst, hsecond⟩ := hpushed
        exact .inr ⟨_, hcreated, hdescribes.2.1, .both hfirst hsecond⟩
    | astray =>
        rw [hdata hpushes] at hpushed
        exact hpushed.elim
  · intro i op err status hcall
    obtain ⟨err', status', hout, hreports⟩ := hholds.covered i _ hcall
    injection hout with herr
    rw [herr]
    exact hreports.2

/-- In every run of creations, whatever mails arrive and whichever sends are refused:
together they push each pool once and in order, and once the reference buffers were
accepted nothing more is sent and every later call is refused. -/
theorem creation_pushes_once
    (uid : Word) (start : UserState) (config config' : UserConfig)
    (hstart : WithoutChannel start)
    (hreach : (userMachine .encoder uid).Reach creationRegime ⟨start, []⟩ config)
    (hlater : (userMachine .encoder uid).Reach creationRegime config config') :
    PushesOnce config ∧
      ∀ call, PushedReference call config.state.log →
        sentMails config'.state.log = sentMails config.state.log ∧
        ∀ i op err status, config.calls.length ≤ i →
          config'.calls[i]? = some ⟨op, .ret (.encoderChannel err status)⟩ →
            err = -EPERM ∨ err = -EINTR := by
  have hholds := creation_holds hstart hreach
  have hsees := (creationOutline_valid uid hstart).sees hholds
  refine ⟨pushesOnce_of_holds hholds, ?_⟩
  rintro call ⟨mail, hsent, huid⟩
  have hcomplete : Complete config.state.log := by
    obtain hcomplete | hastray := complete_of_reference hsent huid
    · exact hcomplete
    · have hpushed := hholds.inv.1
      unfold CreationData.Pushed at hpushed
      rw [show Pushes.of config.state.creation.log = .astray from hastray] at hpushed
      exact hpushed.elim
  refine ⟨(complete_of_reach hsees hcomplete hlater).2, ?_⟩
  intro i op err status hlate hcall
  exact refused_of_complete hsees hcomplete hlater i _ hcall hlate err status rfl

/-- The move is one of a run of creations. -/
def creationPasses (config : UserConfig) : UserMove → Bool
  | .enter (.encoderCreate ..) => true
  | .enter _ => false
  | .step i choice =>
      match config.calls[i]? with
      | some ⟨_, .act (.bufpoolAllocate ..) _⟩ => !choice.isFail
      | _ => true
  | .env _ => true

theorem creation_of_passes
    (config : UserConfig) (move : UserMove) (hpass : creationPasses config move = true) :
    creationRegime.Allows config move := by
  cases move with
  | enter op =>
      cases op <;> first | exact ⟨_, _, rfl⟩ | exact absurd hpass Bool.false_ne_true
  | step i choice =>
      rintro op action next hcall pool count size rfl rfl
      simp only [creationPasses, hcall] at hpass
      exact absurd hpass Bool.false_ne_true
  | env mail => trivial

def resumedMoves : List UserMove :=
  fullMailboxMoves ++ [.enter (.encoderCreate zeroParams ⟨0, 0, 0, 0⟩)] ++
    List.replicate 13 (.step 1 .succeed)

def refusedMoves : List UserMove :=
  [.enter (.encoderCreate zeroParams ⟨0, 0, 0, 0⟩)] ++ List.replicate 4 (.step 2 .succeed)

set_option maxRecDepth 20000 in
theorem run_resumedMoves :
    ∃ (config config' : UserConfig) (op op' : UserOp) (status status' : Al5eChannelStatus)
        (mail : Al5Mail) (earlier : List Event),
      (userMachine .encoder 0).runWhere creationPasses resumedMoves userStart =
          some config ∧
        (userMachine .encoder 0).runWhere creationPasses refusedMoves config =
          some config' ∧
        config.state.log = .checkpoint noCheckpoint :: .sent 1 mail :: earlier ∧
        mail.uid? = some .pushBufferReference ∧ config.calls.length = 2 ∧
        config.calls[1]? = some ⟨op, .ret (.encoderChannel 0 status)⟩ ∧
        config'.calls[2]? = some ⟨op', .ret (.encoderChannel (-EPERM) status')⟩ :=
  ⟨_, _, _, _, _, _, _, _, rfl, rfl, rfl, rfl, rfl, rfl, rfl⟩

theorem creation_pushes_once_resumed :
    ∃ config config' : UserConfig,
      (userMachine .encoder 0).runWhere creationPasses resumedMoves userStart =
          some config ∧
        (userMachine .encoder 0).runWhere creationPasses refusedMoves config =
          some config' ∧
        PushesOnce config ∧
        sentMails config'.state.log = sentMails config.state.log := by
  obtain ⟨config, config', op, op', status, status', mail, earlier, hrun, hrun', hlog,
    huid, _⟩ := run_resumedMoves
  have honce := creation_pushes_once 0 al5UserInit config config' ⟨rfl, rfl, rfl, rfl⟩
    (Machine.reach_of_runWhere creation_of_passes hrun)
    (Machine.reach_of_runWhere creation_of_passes hrun')
  refine ⟨config, config', hrun, hrun', honce.1, (honce.2 1 ⟨mail, ?_, huid⟩).1⟩
  rw [hlog]
  simp [sentMails]

end VcuDriver

import VcuDriver.UserClosing
import VcuDriver.UserCreation
import VcuDriver.Conc.Watch

/-!
# The status which a creation reports

The feedback of a create request lies in a local of the call that took it, and that
call alone copies it to the status of its caller.  A call that goes on with the
creation afterwards gives back the status which it was given.

Any other calls may run meanwhile; what they cannot touch is the create mutex and what
belongs to its owner.
-/

namespace VcuDriver

open Conc

/-! ## The feedback of the channel held -/

/-- The last feedback which a call took for its create request, with the call. -/
def lastFeedback : List Event → Option (ℕ × Al5Mail)
  | [] => none
  | .popped call .create (some mail) :: earlier =>
      if (Hist.of earlier).awaiting then some (call, mail) else lastFeedback earlier
  | _ :: earlier => lastFeedback earlier

/-- The feedback from which the channel held was obtained, with the call. -/
def heldFeedback : List Event → Option (ℕ × Al5Mail)
  | [] => none
  | .chanUid value :: earlier =>
      if value = badChan then none else lastFeedback earlier
  | _ :: earlier => heldFeedback earlier

/-- The feedback of the channel for which the reference buffers were accepted from a
call: the one that the call should report when it returns 0. -/
def creationFeedback (i : ℕ) : List Event → Option (ℕ × Al5Mail)
  | [] => none
  | .sent call mail :: earlier =>
      if call = i ∧ mail.uid? = some .pushBufferReference then heldFeedback earlier
      else creationFeedback i earlier
  | _ :: earlier => creationFeedback i earlier

theorem hist_of_cons (event : Event) (log : List Event) :
    Hist.of (event :: log) = (Hist.of log).next event := rfl

/-- Only the events of a creation or a destroy change the channel. -/
theorem hist_chanUid_next
    (hist : Hist) {event : Event} (hevent : ∀ value, event ≠ .chanUid value) :
    (hist.next event).chanUid = hist.chanUid := by
  cases event with
  | sent call mail =>
      simp only [Hist.next, Hist.send]
      split <;> rfl
  | chanUid value => exact absurd rfl (hevent value)
  | checkpoint value => rfl
  | popped call which mail =>
      cases which <;> first | rfl | (simp only [Hist.next]; split <;> rfl)
  | freed call mail => rfl
  | allocated buffers => rfl

theorem heldFeedback_cons
    {event : Event} (log : List Event) (hevent : ∀ value, event ≠ .chanUid value) :
    heldFeedback (event :: log) = heldFeedback log := by
  cases event <;> first | rfl | exact absurd rfl (hevent _)

theorem heldFeedback_eq_none
    {log : List Event} (hbad : (Hist.of log).chanUid = badChan) :
    heldFeedback log = none := by
  induction log with
  | nil => rfl
  | cons event log ih =>
      by_cases hevent : ∃ value, event = .chanUid value
      · obtain ⟨value, rfl⟩ := hevent
        by_cases hvalue : value = badChan
        · exact if_pos hvalue
        · rw [hist_of_cons, Hist.next, if_neg hvalue] at hbad
          exact absurd hbad hvalue
      · have hother : ∀ value, event ≠ .chanUid value :=
          fun value heq => hevent ⟨value, heq⟩
        rw [heldFeedback_cons log hother]
        rw [hist_of_cons, hist_chanUid_next _ hother] at hbad
        exact ih hbad

/-- A channel uid in hand is the one of the last feedback. -/
theorem lastFeedback_of_inHand
    {log : List Event} {value : Word} (hinHand : (Hist.of log).inHand = some value) :
    ∃ taker feedback, lastFeedback log = some (taker, feedback) ∧
      mailChanUid feedback = value := by
  induction log with
  | nil => cases hinHand
  | cons event log ih =>
      rw [hist_of_cons] at hinHand
      cases event with
      | sent call mail =>
          have hsame : ((Hist.of log).next (.sent call mail)).inHand =
              (Hist.of log).inHand := by
            simp only [Hist.next, Hist.send]
            split <;> rfl
          exact ih (hsame ▸ hinHand)
      | chanUid other =>
          by_cases hbad : other = badChan
          · rw [Hist.next, if_pos hbad] at hinHand
            exact ih hinHand
          · rw [Hist.next, if_neg hbad] at hinHand
            cases hinHand
      | popped call which mail =>
          cases which with
          | create =>
              by_cases hawaiting : (Hist.of log).awaiting = true
              · rw [Hist.next, if_pos hawaiting] at hinHand
                cases mail with
                | none => cases hinHand
                | some mail =>
                    refine ⟨call, mail, if_pos hawaiting, ?_⟩
                    have hgranted : grantedChannel mail = some value := hinHand
                    unfold grantedChannel at hgranted
                    split at hgranted
                    · cases hgranted
                    · exact Option.some.inj hgranted
              · rw [Hist.next, if_neg hawaiting] at hinHand
                obtain ⟨taker, feedback, hlast, hchan⟩ := ih hinHand
                refine ⟨taker, feedback, ?_, hchan⟩
                cases mail with
                | none => exact hlast
                | some mail => exact (if_neg hawaiting).trans hlast
          | _ => exact ih hinHand
      | _ => exact ih hinHand

/-- A channel that is held was obtained from a feedback. -/
theorem heldFeedback_of_chanUid
    {uid : Word} {log : List Event} (hevents : EachEvent (OkEvent uid ∅) log)
    (hchan : (Hist.of log).chanUid ≠ badChan) :
    ∃ taker feedback, heldFeedback log = some (taker, feedback) ∧
      mailChanUid feedback = (Hist.of log).chanUid := by
  induction log with
  | nil => exact absurd rfl hchan
  | cons event log ih =>
      obtain ⟨hevent, hevents⟩ := eachEvent_cons.mp hevents
      by_cases hset : ∃ value, event = .chanUid value
      · obtain ⟨value, rfl⟩ := hset
        by_cases hvalue : value = badChan
        · rw [hist_of_cons, Hist.next, if_pos hvalue] at hchan
          exact absurd rfl hchan
        · have hok : (Hist.of log).inHand = some value := by
            rw [OkEvent, if_neg hvalue] at hevent
            exact hevent.1
          obtain ⟨taker, feedback, hlast, hmail⟩ := lastFeedback_of_inHand hok
          refine ⟨taker, feedback, (if_neg hvalue).trans hlast, ?_⟩
          rw [hist_of_cons, Hist.next, if_neg hvalue]
          exact hmail
      · have hother : ∀ value, event ≠ .chanUid value :=
          fun value heq => hset ⟨value, heq⟩
        rw [heldFeedback_cons log hother, hist_of_cons, hist_chanUid_next _ hother]
        rw [hist_of_cons, hist_chanUid_next _ hother] at hchan
        exact ih hevents hchan

theorem lastFeedback_popped
    {log : List Event} {taker : ℕ} {feedback : Al5Mail}
    (hlast : lastFeedback log = some (taker, feedback)) :
    .popped taker .create (some feedback) ∈ log := by
  induction log with
  | nil => cases hlast
  | cons event log ih =>
      cases event with
      | popped call which mail =>
          cases which with
          | create =>
              cases mail with
              | none => exact List.mem_cons_of_mem _ (ih hlast)
              | some mail =>
                  rw [lastFeedback] at hlast
                  split at hlast
                  · obtain ⟨rfl, rfl⟩ := Prod.mk.inj (Option.some.inj hlast)
                    exact List.mem_cons_self
                  · exact List.mem_cons_of_mem _ (ih hlast)
          | _ => exact List.mem_cons_of_mem _ (ih hlast)
      | _ => exact List.mem_cons_of_mem _ (ih hlast)

theorem heldFeedback_popped
    {log : List Event} {taker : ℕ} {feedback : Al5Mail}
    (hheld : heldFeedback log = some (taker, feedback)) :
    .popped taker .create (some feedback) ∈ log := by
  induction log with
  | nil => cases hheld
  | cons event log ih =>
      cases event with
      | chanUid value =>
          rw [heldFeedback] at hheld
          split at hheld
          · cases hheld
          · exact List.mem_cons_of_mem _ (lastFeedback_popped hheld)
      | _ => exact List.mem_cons_of_mem _ (ih hheld)

/-! ## What the others leave alone -/

structure SameCreation (state state' : UserState) : Prop where
  channel : state'.channel = state.channel
  held : heldFeedback state'.log = heldFeedback state.log
  last : lastFeedback state'.log = lastFeedback state.log

/-- What a call relies on while it creates a channel. -/
structure StatusRely (i : ℕ) (state state' : UserState) : Prop where
  lock : state'.locks .create = some i ↔ state.locks .create = some i
  closer : state'.closer = state.closer
  creating : state.locks .create = some i → SameCreation state state'
  reported : creationFeedback i state'.log = creationFeedback i state.log
  popped : ∀ which mail, .popped i which mail ∈ state'.log →
    .popped i which mail ∈ state.log

theorem StatusRely.of_same
    {state state' : UserState} (i : ℕ) (hlocks : state'.locks = state.locks)
    (hcloser : state'.closer = state.closer) (hchannel : state'.channel = state.channel)
    (hlog : state'.log = state.log) : StatusRely i state state' where
  lock := by rw [hlocks]
  closer := hcloser
  creating _ := ⟨hchannel, by rw [hlog], by rw [hlog]⟩
  reported := by rw [hlog]
  popped _ _ hmem := hlog ▸ hmem

theorem StatusRely.trans
    {i : ℕ} {state₁ state₂ state₃ : UserState}
    (hfirst : StatusRely i state₁ state₂) (hsecond : StatusRely i state₂ state₃) :
    StatusRely i state₁ state₃ where
  lock := hsecond.lock.trans hfirst.lock
  closer := hsecond.closer.trans hfirst.closer
  creating hlock := by
    have hsame := hfirst.creating hlock
    have hsame' := hsecond.creating (hfirst.lock.mpr hlock)
    exact ⟨hsame'.channel.trans hsame.channel, hsame'.held.trans hsame.held,
      hsame'.last.trans hsame.last⟩
  reported := hsecond.reported.trans hfirst.reported
  popped which mail hmem := hfirst.popped which mail (hsecond.popped which mail hmem)

def statusWatch (uid : Word) :
    Watch (userMachine .encoder uid) (userRegime ∅) where
  inv := UserInv .encoder uid ∅
  rely := StatusRely
  rely_refl i _ := .of_same i rfl rfl rfl rfl
  rely_trans := .trans

section

variable {uid : Word} {i : ℕ} {state state' : UserState} {event : Event}

def Event.caller : Event → Option ℕ
  | .sent call _ | .popped call _ _ => some call
  | _ => none

/-- An action adds at most one event to the log, and it is one of the call. -/
theorem act_event
    {action : UserAct} {choice : Choice} {result : action.Res}
    (hact : state.act i action choice = some (result, state')) :
    state'.log = state.log ∨
      ∃ event, state'.log = event :: state.log ∧ ∀ call ∈ event.caller, call = i := by
  cases action <;> cases choice <;> simp only [UserState.act] at hact <;>
    first
      | (obtain ⟨-, rfl⟩ := Prod.mk.inj (Option.some.inj hact)
         exact .inl rfl)
      | (obtain ⟨-, rfl⟩ := Prod.mk.inj (Option.some.inj hact)
         exact .inr ⟨_, rfl, by simp [Event.caller]⟩)
      | (split_ifs at hact
         all_goals
           obtain ⟨-, rfl⟩ := Prod.mk.inj (Option.some.inj hact)
           first
             | exact .inl rfl
             | exact .inr ⟨_, rfl, by simp [Event.caller]⟩)
      | exact absurd hact (by simp)

theorem creationFeedback_cons
    {j : ℕ} (log : List Event) (hcaller : j ∉ event.caller) :
    creationFeedback j (event :: log) = creationFeedback j log := by
  cases event with
  | sent call mail =>
      have hcall : ¬ (call = j ∧ mail.uid? = some .pushBufferReference) :=
        fun hboth => hcaller (hboth.1 ▸ rfl)
      exact if_neg hcall
  | _ => rfl

/-- An event that changes nothing of what the log says about the channel leaves its
feedback alone. -/
theorem feedback_of_hist
    {log : List Event} (hok : OkEvent uid ∅ (Hist.of log) event)
    (hsame : (Hist.of log).next event = Hist.of log) :
    heldFeedback (event :: log) = heldFeedback log ∧
      lastFeedback (event :: log) = lastFeedback log := by
  cases event with
  | chanUid value =>
      refine ⟨?_, rfl⟩
      by_cases hvalue : value = badChan
      · have hbad : (Hist.of log).chanUid = badChan := by
          rw [← hsame, Hist.next, if_pos hvalue]
        rw [heldFeedback_eq_none hbad]
        exact if_pos hvalue
      · rw [OkEvent, if_neg hvalue] at hok
        rw [Hist.next, if_neg hvalue] at hsame
        have hnone : (Hist.of log).inHand = none := by rw [← hsame]
        cases hnone.symm.trans hok.1
  | popped call which mail =>
      refine ⟨heldFeedback_cons log (by simp), ?_⟩
      cases which with
      | create =>
          cases mail with
          | none => rfl
          | some mail =>
              by_cases hawaiting : (Hist.of log).awaiting = true
              · rw [Hist.next, if_pos hawaiting] at hsame
                have hidle : (Hist.of log).awaiting = false := by rw [← hsame]
                cases hidle.symm.trans hawaiting
              · exact if_neg hawaiting
      | _ => rfl
  | _ => exact ⟨rfl, rfl⟩

/-- A step of a call, as the others see it. -/
theorem statusRely_of_act
    {j : ℕ} {action : UserAct} {choice : Choice} {result : action.Res} (hj : j ≠ i)
    (hinv : UserInv .encoder uid ∅ state') (hrely : UserRely j state state')
    (hact : state.act i action choice = some (result, state')) :
    StatusRely j state state' where
  lock := hrely.locks .create
  closer := hrely.closer
  creating hlock := by
    have hchannel := hrely.creating hlock
    obtain hlog | ⟨event, hlog, -⟩ := act_event hact
    · exact ⟨hchannel, by rw [hlog], by rw [hlog]⟩
    · have hsame : (Hist.of state.log).next event = Hist.of state.log := by
        have hhist : Hist.of state'.log = Hist.of state.log :=
          congrArg ChannelData.hist hchannel
        rwa [hlog] at hhist
      have hevents := hinv.events
      rw [hlog] at hevents
      obtain ⟨hheld, hlast⟩ := feedback_of_hist (eachEvent_cons.mp hevents).1 hsame
      rw [← hlog] at hheld hlast
      exact ⟨hchannel, hheld, hlast⟩
  reported := by
    obtain hlog | ⟨event, hlog, hcaller⟩ := act_event hact
    · rw [hlog]
    · rw [hlog, creationFeedback_cons]
      exact fun hmem => hj (hcaller j hmem)
  popped which mail hmem := by
    obtain hlog | ⟨event, hlog, hcaller⟩ := act_event hact
    · exact hlog ▸ hmem
    · rw [hlog] at hmem
      obtain heq | hmem := List.mem_cons.mp hmem
      · exact absurd (hcaller j (by rw [← heq]; rfl)) hj
      · exact hmem

end

theorem statusWatch_sees (uid : Word) : (statusWatch uid).Sees userStart where
  inv hreach := user_inv hreach
  step := by
    intro config config' i choice hreach hallowed hnext j hj
    have hguarantee := (user_holds hreach).guarantee hallowed hnext j hj
    have hinv' := user_inv (.next hreach hallowed hnext)
    obtain ⟨op, action, rest, result, state, -, hexec, rfl⟩ :=
      Machine.next_step_eq_some hnext
    exact statusRely_of_act hj hinv' hguarantee (act_of_exec hexec)
  env := by
    intro config config' mail hreach hallowed hnext j
    obtain ⟨state, henv, rfl⟩ := Machine.next_env_eq_some hnext
    simp only [userMachine] at henv
    split at henv
    · obtain rfl := Option.some.inj henv
      exact .of_same j rfl rfl rfl rfl
    · cases henv

/-! ## The buffers of a channel -/

abbrev statusEnds (uid : Word) (i : ℕ) (op : UserOp) {α : Type} (program : UserProg α)
    (post : α → UserState → Prop) (state : UserState) : Prop :=
  (statusWatch uid).Ends i op program post state

section

variable {uid : Word} {i : ℕ} {op : UserOp} {α : Type}
variable {post : α → UserState → Prop} {state state' : UserState}
variable {held : ℕ × Al5Mail} {checkpoint : ℤ}

/-- The call owns the creation of a channel that was obtained from this feedback. -/
structure Resumes (i : ℕ) (held : ℕ × Al5Mail) (checkpoint : ℤ) (state : UserState) :
    Prop where
  lock : state.locks .create = some i
  held : heldFeedback state.log = some held
  checkpoint : state.checkpoint = checkpoint

theorem Resumes.rely
    (hresumes : Resumes i held checkpoint state) (hrely : StatusRely i state state') :
    Resumes i held checkpoint state' := by
  have hsame := hrely.creating hresumes.lock
  exact ⟨hrely.lock.mpr hresumes.lock, hsame.held.trans hresumes.held,
    (congrArg ChannelData.checkpoint hsame.channel).trans hresumes.checkpoint⟩

def UserAct.keepsCreation : UserAct → Bool
  | .bufpoolAllocate .. => true
  | action => action.isQuery

theorem Resumes.act
    {action : UserAct} {choice : Choice} {result : action.Res}
    (hkeeps : action.keepsCreation = true) (hresumes : Resumes i held checkpoint state)
    (hact : state.act i action choice = some (result, state')) :
    Resumes i held checkpoint state' := by
  by_cases hquery : action.isQuery = true
  · rw [act_query hquery hact]
    exact hresumes
  cases action with
  | bufpoolAllocate pool count size =>
      cases choice with
      | buffers handles =>
          simp only [UserState.act] at hact
          split at hact
          · obtain ⟨-, rfl⟩ := Prod.mk.inj (Option.some.inj hact)
            exact ⟨hresumes.lock, hresumes.held, hresumes.checkpoint⟩
          · cases hact
      | fail =>
          obtain ⟨-, rfl⟩ := Prod.mk.inj (Option.some.inj hact)
          exact ⟨hresumes.lock, hresumes.held, hresumes.checkpoint⟩
      | _ => exact absurd hact (Option.some_ne_none _).symm
  | _ => exact absurd hkeeps hquery

theorem Resumes.ends_act
    {action : UserAct} {next : action.Res → UserProg α}
    (hkeeps : action.keepsCreation = true) (hresumes : Resumes i held checkpoint state)
    (hnext : ∀ state₁ result, Resumes i held checkpoint state₁ →
      statusEnds uid i op (next result) post state₁) :
    statusEnds uid i op (Prog.perform action >>= next) post state := by
  intro state₁ hrely _ choice result state₂ hexec _ _
  exact hnext state₂ result ((hresumes.rely hrely).act hkeeps (act_of_exec hexec))

theorem Resumes.ends_getCheckpoint
    {next : ℤ → UserProg α} (hresumes : Resumes i held checkpoint state)
    (hnext : ∀ state₁, Resumes i held checkpoint state₁ →
      statusEnds uid i op (next checkpoint) post state₁) :
    statusEnds uid i op (Prog.perform .getCheckpoint >>= next) post state := by
  intro state₁ hrely _ choice result state₂ hexec _ _
  have hresumes₁ := hresumes.rely hrely
  have hact := act_of_exec hexec
  cases choice with
  | succeed =>
      obtain ⟨rfl, rfl⟩ := Prod.mk.inj (Option.some.inj hact)
      rw [hresumes₁.checkpoint]
      exact hnext _ hresumes₁
  | _ => exact absurd hact (Option.some_ne_none _).symm

theorem Resumes.ends_setCheckpoint
    {value : ℤ} {next : Unit → UserProg α} (hresumes : Resumes i held checkpoint state)
    (hnext : ∀ state₁, Resumes i held value state₁ →
      statusEnds uid i op (next ()) post state₁) :
    statusEnds uid i op (Prog.perform (.setCheckpoint value) >>= next) post state := by
  intro state₁ hrely _ choice result state₂ hexec _ _
  have hresumes₁ := hresumes.rely hrely
  have hact := act_of_exec hexec
  cases choice with
  | succeed =>
      obtain ⟨-, rfl⟩ := Prod.mk.inj (Option.some.inj hact)
      exact hnext _ ⟨hresumes₁.lock, hresumes₁.held, rfl⟩
  | _ => exact absurd hact (Option.some_ne_none _).symm

/-- The mail of a pool is sent or refused; the reference buffers are those of the
channel held. -/
theorem Resumes.ends_sendBuffers
    {mailUid : MailUid} {pool : BufferPool}
    (hresumes : Resumes i held checkpoint state) :
    statusEnds uid i op (sendBuffers mailUid pool)
      (fun err last => Resumes i held checkpoint last ∧
        (err = 0 → mailUid = .pushBufferReference →
          creationFeedback i last.log = some held)) state := by
  apply hresumes.ends_act rfl
  intro state₁ chanUid hresumes₁
  apply hresumes₁.ends_act rfl
  intro state₂ bufpool hresumes₂
  unfold sendBuilt buildMail
  rw [Prog.bind_eq, Prog.bind_eq, Prog.bind_assoc]
  apply hresumes₂.ends_act rfl
  intro state₃ kmalloc hresumes₃
  cases hbuild : createMailFromBufpool mailUid.code chanUid bufpool kmalloc with
  | error fault =>
      intro _ _ _ choice _ _ hexec _ _
      have hact := act_of_exec hexec
      cases choice <;> exact absurd hact (Option.some_ne_none _).symm
  | ok built =>
      cases built with
      | none => exact ⟨hresumes₃, fun hzero => absurd hzero (by decide)⟩
      | some mail =>
          have huid := (builds_mailFromBufpool mailUid _ _ _ _ hbuild).uid?_eq
          intro state₄ hrely _ choice result state₅ hexec _ _
          have hresumes₄ := hresumes₃.rely hrely
          have hact := act_of_exec hexec
          cases choice with
          | succeed =>
              obtain ⟨rfl, rfl⟩ := Prod.mk.inj (Option.some.inj hact)
              refine ⟨⟨hresumes₄.lock, hresumes₄.held, hresumes₄.checkpoint⟩,
                fun _ hreference => ?_⟩
              rw [hreference] at huid
              exact (if_pos ⟨rfl, huid⟩).trans hresumes₄.held
          | fail =>
              obtain ⟨rfl, rfl⟩ := Prod.mk.inj (Option.some.inj hact)
              exact ⟨hresumes₄, fun hzero => absurd hzero
                (show -EAGAIN ≠ 0 from by decide)⟩
          | _ => exact absurd hact (Option.some_ne_none _).symm

/-- A call that returns 0 had its reference buffers accepted, for this feedback. -/
def CreatedFrom (i : ℕ) (held : ℕ × Al5Mail) (err : ℤ) (state : UserState) : Prop :=
  err = 0 → creationFeedback i state.log = some held

theorem ends_next
    {action : UserAct} {next : action.Res → UserProg α}
    (hnext : ∀ state result, statusEnds uid i op (next result) post state) :
    statusEnds uid i op (Prog.perform action >>= next) post state :=
  fun _ _ _ _ result state₂ _ _ _ => hnext state₂ result

theorem ends_failed
    {program : UserProg α} {err : ℤ} (herr : err ≠ 0) :
    statusEnds uid i op (program >>= fun _ => pure err) (CreatedFrom i held) state := by
  have htrivial : statusEnds uid i op program (fun _ _ => True) state :=
    Watch.ends_of_forall fun _ _ => trivial
  exact Watch.ends_bind htrivial fun _ _ _ hzero => absurd hzero herr

theorem ends_finished (hreported : creationFeedback i state.log = some held) :
    statusEnds uid i op
      (Prog.perform (.setCheckpoint noCheckpoint) >>= fun _ =>
        Prog.perform (.mutexUnlock .create) >>= fun _ => pure 0)
      (CreatedFrom i held) state := by
  intro state₁ hrely₁ _ choice result state₂ hexec _ _
  have hact := act_of_exec hexec
  cases choice with
  | succeed =>
      obtain ⟨-, rfl⟩ := Prod.mk.inj (Option.some.inj hact)
      intro state₃ hrely₃ _ choice' result' state₄ hexec' _ _
      have hact' := act_of_exec hexec'
      cases choice' with
      | succeed =>
          obtain ⟨-, rfl⟩ := Prod.mk.inj (Option.some.inj hact')
          have hreported₁ := hrely₁.reported.trans hreported
          exact fun _ => hrely₃.reported.trans hreported₁
      | _ => exact absurd hact' (Option.some_ne_none _).symm
  | _ => exact absurd hact (Option.some_ne_none _).symm

theorem Resumes.ends_sendReference
    (hresumes : Resumes i held checkpointSendReferenceBuffers state) :
    statusEnds uid i op createSendReference (CreatedFrom i held) state := by
  apply hresumes.ends_getCheckpoint
  intro state₁ hresumes₁
  rw [if_pos rfl]
  apply Watch.ends_bind hresumes₁.ends_sendBuffers
  rintro err state₂ ⟨-, hsent⟩
  split
  · rename_i herr
    exact ends_failed herr
  · rename_i herr
    exact ends_finished (hsent (not_not.mp herr) rfl)

theorem Resumes.ends_sendIntermediate
    (hresumes : Resumes i held checkpoint state)
    (hcheckpoint : checkpoint = checkpointSendIntermediateBuffers ∨
      checkpoint = checkpointSendReferenceBuffers) :
    statusEnds uid i op createSendIntermediate (CreatedFrom i held) state := by
  apply hresumes.ends_getCheckpoint
  intro state₁ hresumes₁
  obtain rfl | rfl := hcheckpoint
  · rw [if_pos rfl]
    apply Watch.ends_bind hresumes₁.ends_sendBuffers
    rintro err state₂ ⟨hresumes₂, -⟩
    split
    · rename_i herr
      exact ends_failed herr
    · apply hresumes₂.ends_setCheckpoint
      intro state₃ hresumes₃
      exact hresumes₃.ends_sendReference
  · rw [if_neg (by decide)]
    exact hresumes₁.ends_sendReference

theorem Resumes.ends_allocateBuffers
    {buffers : Al5ChannelBuffers} (hresumes : Resumes i held checkpoint state) :
    statusEnds uid i op (allocateChannelBuffers buffers)
      (fun _ last => Resumes i held checkpoint last) state := by
  apply hresumes.ends_act rfl
  intro state₁ err hresumes₁
  split
  · exact hresumes₁
  · exact hresumes₁.ends_act rfl fun _ _ hresumes₂ => hresumes₂

theorem Resumes.ends_allocate
    {message : Al5eFeedbackChannel} (hresumes : Resumes i held checkpoint state)
    (hcheckpoint : checkpoint = checkpointAllocateBuffers ∨
      checkpoint = checkpointSendIntermediateBuffers ∨
      checkpoint = checkpointSendReferenceBuffers) :
    statusEnds uid i op (createAllocate message) (CreatedFrom i held) state := by
  apply hresumes.ends_getCheckpoint
  intro state₁ hresumes₁
  obtain rfl | hcheckpoint := hcheckpoint
  · rw [if_pos rfl]
    apply Watch.ends_bind hresumes₁.ends_allocateBuffers
    intro err state₂ hresumes₂
    split
    · rename_i herr
      exact ends_next fun _ _ => ends_next fun _ _ => ends_failed herr
    · apply hresumes₂.ends_setCheckpoint
      intro state₃ hresumes₃
      exact hresumes₃.ends_sendIntermediate (.inl rfl)
  · have hother : ¬ checkpoint = checkpointAllocateBuffers := by
      obtain rfl | rfl := hcheckpoint <;> decide
    rw [if_neg hother]
    exact hresumes₁.ends_sendIntermediate hcheckpoint

/-! ## Taking the feedback -/

structure Awaiting (i : ℕ) (state : UserState) : Prop where
  lock : state.locks .create = some i
  awaiting : state.hist.awaiting = true

theorem Awaiting.rely
    (hawaiting : Awaiting i state) (hrely : StatusRely i state state') :
    Awaiting i state' := by
  have hsame := hrely.creating hawaiting.lock
  refine ⟨hrely.lock.mpr hawaiting.lock, ?_⟩
  rw [show state'.hist = state.hist from congrArg ChannelData.hist hsame.channel]
  exact hawaiting.awaiting

structure TookFeedback (i : ℕ) (mail : Al5Mail) (state : UserState) : Prop where
  lock : state.locks .create = some i
  last : lastFeedback state.log = some (i, mail)

theorem TookFeedback.rely
    {mail : Al5Mail} (htook : TookFeedback i mail state)
    (hrely : StatusRely i state state') : TookFeedback i mail state' :=
  ⟨hrely.lock.mpr htook.lock, (hrely.creating htook.lock).last.trans htook.last⟩

theorem ends_sendRequest
    {param : Al5Params} (hlock : state.locks .create = some i) :
    statusEnds uid i op
      (sendBuilt fun kmalloc => al5eCreateChannelParamMsg kmalloc uid param)
      (fun err last => err = 0 → Awaiting i last) state := by
  intro state₁ hrely₁ _ choice kmalloc state₂ hexec _ _
  obtain rfl := act_query rfl (act_of_exec hexec)
  have hlock₁ : state₂.locks .create = some i := hrely₁.lock.mpr hlock
  change statusEnds uid i op (Prog.bind _ userCheckAndSend) _ state₂
  simp only [Prog.ret_bind]
  cases hbuild : al5eCreateChannelParamMsg kmalloc uid param with
  | error fault =>
      intro _ _ _ choice _ _ hexec _ _
      have hact := act_of_exec hexec
      cases choice <;> exact absurd hact (Option.some_ne_none _).symm
  | ok built =>
      cases built with
      | none => exact fun hzero => absurd hzero (by decide)
      | some mail =>
          have huid := ((Request.builds (.encoderCreateChannel uid param)) kmalloc mail
            hbuild).uid?_eq
          intro state₃ hrely₃ _ choice result state₄ hexec _ _
          have hact := act_of_exec hexec
          cases choice with
          | succeed =>
              obtain ⟨rfl, rfl⟩ := Prod.mk.inj (Option.some.inj hact)
              refine fun _ => ⟨hrely₃.lock.mpr hlock₁, ?_⟩
              change (state₃.hist.send mail).awaiting = true
              unfold Hist.send
              rw [huid]
              rfl
          | fail =>
              obtain ⟨rfl, rfl⟩ := Prod.mk.inj (Option.some.inj hact)
              exact fun hzero => absurd hzero (show -EAGAIN ≠ 0 from by decide)
          | _ => exact absurd hact (Option.some_ne_none _).symm

/-- After `try_to_create_channel`: the call obtained a channel from the feedback which
it reports. -/
def ObtainedFrom (i : ℕ)
    (result : ℤ × Al5eChannelStatus × Al5eFeedbackChannel) (state : UserState) : Prop :=
  result.1 = 0 → ∃ mail, state.locks .create = some i ∧
    heldFeedback state.log = some (i, mail) ∧
    result.2.1 = al5eUpdateChanParam (feedbackOfMail mail)

theorem TookFeedback.ends_obtain
    {mail : Al5Mail} (htook : TookFeedback i mail state) :
    statusEnds uid i op
      (Prog.perform (.freeMail mail) >>= fun _ =>
        (if (feedbackOfMail mail).chanUid = badChan then
          pure (-EINVAL, al5eUpdateChanParam (feedbackOfMail mail), feedbackOfMail mail)
        else do
          Prog.perform (UserAct.setChanUid (feedbackOfMail mail).chanUid)
          pure (0, al5eUpdateChanParam (feedbackOfMail mail), feedbackOfMail mail) :
            UserProg (ℤ × Al5eChannelStatus × Al5eFeedbackChannel)))
      (ObtainedFrom i) state := by
  intro state₁ hrely₁ _ choice result state₂ hexec _ _
  have htook₁ := htook.rely hrely₁
  have hact := act_of_exec hexec
  cases choice with
  | succeed =>
      obtain ⟨-, rfl⟩ := Prod.mk.inj (Option.some.inj hact)
      have htook₂ : TookFeedback i mail (state₁.record (.freed i mail)) :=
        ⟨htook₁.lock, htook₁.last⟩
      by_cases hbad : (feedbackOfMail mail).chanUid = badChan
      · rw [if_pos hbad]
        exact fun hzero => absurd hzero (show -EINVAL ≠ 0 from by decide)
      · rw [if_neg hbad]
        intro state₃ hrely₃ _ choice' result' state₄ hexec' _ _
        have htook₃ := htook₂.rely hrely₃
        have hact' := act_of_exec hexec'
        cases choice' with
        | succeed =>
            obtain ⟨-, rfl⟩ := Prod.mk.inj (Option.some.inj hact')
            exact fun _ => ⟨mail, htook₃.lock, (if_neg hbad).trans htook₃.last, rfl⟩
        | _ => exact absurd hact' (Option.some_ne_none _).symm
  | _ => exact absurd hact (Option.some_ne_none _).symm

theorem ends_tryToCreate
    {param : Al5Params} {passed : Al5eChannelStatus}
    (hlock : state.locks .create = some i) :
    statusEnds uid i op (tryToCreateChannel uid param passed) (ObtainedFrom i) state := by
  apply Watch.ends_bind (ends_sendRequest hlock)
  intro err state₁ hsent
  split
  · rename_i herr
    exact fun hzero => absurd hzero herr
  · rename_i herr
    have hawaiting := hsent (not_not.mp herr)
    intro state₂ hrely₂ _ _ err state₃ hexec _ _
    obtain rfl := act_query rfl (act_of_exec hexec)
    have hawaiting₂ := hawaiting.rely hrely₂
    intro state₄ hrely₄ _ choice popped state₅ hexec' _ _
    have hawaiting₄ := hawaiting₂.rely hrely₄
    have hact := act_of_exec hexec'
    cases choice with
    | succeed =>
        obtain ⟨rfl, rfl⟩ := Prod.mk.inj (Option.some.inj hact)
        cases hhead : (state₄.queues .create).mails.head? with
        | none =>
            have herror : (if waitError err ≠ 0 then waitError err else -EINVAL) ≠ 0 := by
              split
              · assumption
              · decide
            exact fun hzero => absurd hzero herror
        | some mail =>
            have htook : TookFeedback i mail
                ((state₄.setQueue .create { state₄.queues .create with
                  mails := (state₄.queues .create).mails.tail }).record
                    (.popped i .create (some mail))) :=
              ⟨hawaiting₄.lock, if_pos hawaiting₄.awaiting⟩
            exact htook.ends_obtain
    | _ => exact absurd hact (Option.some_ne_none _).symm

/-! ## A whole call -/

/-- The call owns the create mutex and has not taken a feedback. -/
structure Begun (i : ℕ) (channel : ChannelData) (state : UserState) : Prop where
  lock : state.locks .create = some i
  channel : state.channel = channel
  popped : ∀ which mail, .popped i which mail ∉ state.log

theorem Begun.rely
    {channel : ChannelData} (hbegun : Begun i channel state)
    (hrely : StatusRely i state state') : Begun i channel state' :=
  ⟨hrely.lock.mpr hbegun.lock, (hrely.creating hbegun.lock).channel.trans hbegun.channel,
    fun which mail hmem => hbegun.popped which mail (hrely.popped which mail hmem)⟩

theorem Begun.ends_query
    {channel : ChannelData} {action : UserAct} {next : action.Res → UserProg α}
    (hquery : action.isQuery = true) (hbegun : Begun i channel state)
    (hnext : ∀ state₁ choice result, UserInv .encoder uid ∅ state₁ →
      Begun i channel state₁ → state₁.act i action choice = some (result, state₁) →
        statusEnds uid i op (next result) post state₁) :
    statusEnds uid i op (Prog.perform action >>= next) post state := by
  intro state₁ hrely hinv choice result state₂ hexec _ _
  have hact := act_of_exec hexec
  obtain rfl := act_query hquery hact
  exact hnext _ choice result hinv (hbegun.rely hrely) hact

theorem Begun.ends_getCheckpoint
    {channel : ChannelData} {next : ℤ → UserProg α} (hbegun : Begun i channel state)
    (hnext : ∀ state₁, UserInv .encoder uid ∅ state₁ → Begun i channel state₁ →
      statusEnds uid i op (next channel.checkpoint) post state₁) :
    statusEnds uid i op (Prog.perform .getCheckpoint >>= next) post state := by
  apply hbegun.ends_query rfl
  intro state₁ choice result hinv hbegun₁ hact
  cases choice with
  | succeed =>
      obtain ⟨rfl, -⟩ := Prod.mk.inj (Option.some.inj hact)
      rw [show state₁.checkpoint = channel.checkpoint from
        congrArg ChannelData.checkpoint hbegun₁.channel]
      exact hnext state₁ hinv hbegun₁
  | _ => exact absurd hact (Option.some_ne_none _).symm

theorem Begun.ends_isFullyCreated
    {channel : ChannelData} (hbegun : Begun i channel state) :
    statusEnds uid i op channelIsFullyCreated (fun _ last => Begun i channel last)
      state := by
  apply hbegun.ends_query rfl
  intro state₁ _ chanUid _ hbegun₁ _
  split
  · exact hbegun₁
  · exact hbegun₁.ends_getCheckpoint fun _ _ hbegun₂ => hbegun₂

/-- What a call that returned 0 reports: the status of the feedback if it took that
itself, and what it was given otherwise. -/
def ReportsOwn (i : ℕ) (passed status : Al5eChannelStatus) (log : List Event) : Prop :=
  ∃ taker feedback, creationFeedback i log = some (taker, feedback) ∧
    (status = al5eUpdateChanParam (feedbackOfMail feedback) ↔
      taker = i ∨ passed = al5eUpdateChanParam (feedbackOfMail feedback))

theorem ends_createChannel
    {param : Al5Params} {passed : Al5eChannelStatus}
    (hfree : state.locks .create ≠ some i) (hcloser : state.closer = none)
    (hpopped : ∀ which mail, .popped i which mail ∉ state.log) :
    statusEnds uid i op (al5eUserCreateChannel uid param passed)
      (fun result last => result.1 = 0 → ReportsOwn i passed result.2 last.log) state := by
  have hfailed : ∀ {program : UserProg Unit} {err : ℤ} {status : Al5eChannelStatus}
      {state₁ : UserState}, err ≠ 0 →
        statusEnds uid i op (program >>= fun _ => pure (err, status))
          (fun result last => result.1 = 0 → ReportsOwn i passed result.2 last.log)
          state₁ := by
    intro program err status state₁ herr
    have htrivial : statusEnds uid i op program (fun _ _ => True) state₁ :=
      Watch.ends_of_forall fun _ _ => trivial
    exact Watch.ends_bind htrivial fun _ _ _ hzero => absurd hzero herr
  unfold al5eUserCreateChannel
  intro state₁ hrely₁ hinv₁ choice result state₂ hexec _ _
  have hact := act_of_exec hexec
  have hpopped₁ : ∀ which mail, .popped i which mail ∉ state₁.log :=
    fun which mail hmem => hpopped which mail (hrely₁.popped which mail hmem)
  cases choice with
  | signal =>
      simp only [UserState.act] at hact
      split at hact
      · cases hact
      · obtain ⟨rfl, rfl⟩ := Prod.mk.inj (Option.some.inj hact)
        exact fun hzero => absurd hzero (show -EINTR ≠ 0 from by decide)
  | succeed =>
      simp only [UserState.act] at hact
      split at hact
      · rename_i hnone
        rw [if_neg (by decide)] at hact
        obtain ⟨rfl, rfl⟩ := Prod.mk.inj (Option.some.inj hact)
        have hsettled := hinv₁.settled rfl (hrely₁.closer.trans hcloser) hnone
        have hbegun₂ : Begun i state₁.channel (state₁.setLock .create (some i)) :=
          ⟨UserState.setLock_self .., rfl, hpopped₁⟩
        generalize state₁.channel = channel at hsettled hbegun₂
        apply Watch.ends_bind hbegun₂.ends_isFullyCreated
        intro created state₃ hbegun₃
        cases created with
        | true => exact hfailed (show -EPERM ≠ 0 from by decide)
        | false =>
            rw [if_neg Bool.false_ne_true]
            apply hbegun₃.ends_getCheckpoint
            intro state₄ hinv₄ hbegun₄
            by_cases hno : channel.checkpoint = noCheckpoint
            · rw [if_pos hno]
              apply Watch.ends_bind (ends_tryToCreate hbegun₄.lock)
              rintro ⟨err, status, message⟩ state₅ hobtained
              dsimp only
              split
              · rename_i herr
                exact hfailed herr
              · rename_i herr
                obtain ⟨mail, hlock, hheld, hstatus⟩ := hobtained (not_not.mp herr)
                have hresumes : Resumes i (i, mail) state₅.checkpoint state₅ :=
                  ⟨hlock, hheld, rfl⟩
                apply hresumes.ends_setCheckpoint
                intro state₆ hresumes₆
                apply Watch.ends_bind (hresumes₆.ends_allocate (.inl rfl))
                intro err state₇ hcreated hzero
                exact ⟨i, mail, hcreated hzero, fun _ => .inl rfl, fun _ => hstatus⟩
            · rw [if_neg hno]
              -- The checkpoint belongs to a channel that an earlier call obtained.
              have hchan : state₄.hist.chanUid ≠ badChan := by
                rw [hinv₄.chanUid]
                have hcreated := (hsettled.resumable hno).1
                rw [← hbegun₄.channel] at hcreated
                exact hcreated
              obtain ⟨taker, feedback, hheld, -⟩ :=
                heldFeedback_of_chanUid hinv₄.events hchan
              have htaker : taker ≠ i := by
                rintro rfl
                exact hbegun₄.popped _ _ (heldFeedback_popped hheld)
              have hresumes : Resumes i (taker, feedback) channel.checkpoint state₄ :=
                ⟨hbegun₄.lock, hheld, congrArg ChannelData.checkpoint hbegun₄.channel⟩
              have hstage : channel.checkpoint = checkpointSendIntermediateBuffers ∨
                  channel.checkpoint = checkpointSendReferenceBuffers :=
                hsettled.stage.resolve_left hno
              apply Watch.ends_bind (hresumes.ends_allocate (.inr hstage))
              intro err state₅ hcreated hzero
              exact ⟨taker, feedback, hcreated hzero, .inr,
                fun hor => hor.resolve_left htaker⟩
      · cases hact
  | _ => exact absurd hact (Option.some_ne_none _).symm

end

/-! ## Every run -/

/-- Every creation that returned 0 reports as above. -/
def StatusPost (i : ℕ) (op : UserOp) (out : UserOut) (state : UserState) : Prop :=
  ∀ param passed status, op = .encoderCreate param passed →
    out = .encoderChannel 0 status → ReportsOwn i passed status state.log

theorem ends_userBody
    {uid : Word} {i : ℕ} (op : UserOp) {state : UserState}
    (hfree : state.locks .create ≠ some i)
    (hcloser : (∃ param passed, op = .encoderCreate param passed) → state.closer = none)
    (hpopped : ∀ which mail, .popped i which mail ∉ state.log) :
    statusEnds uid i op (userBody uid op) (StatusPost i op) state := by
  cases op with
  | encoderCreate param passed =>
      apply Watch.ends_bind (ends_createChannel hfree (hcloser ⟨_, _, rfl⟩) hpopped)
      intro result last hreports param' passed' status hop hout
      injection hop with _ hpassed
      injection hout with herr hstatus
      rw [← hpassed, ← hstatus]
      exact hreports herr
  | _ =>
      apply Watch.ends_of_forall
      intro _ _ _ _ _ hop
      cases hop

theorem status_follows
    {uid : Word} {config : UserConfig}
    (hreach : (userMachine .encoder uid).Reach (userRegime ∅) userStart config) :
    (statusWatch uid).Follows StatusPost config := by
  refine (statusWatch_sees uid).follows ?_ ?_ ?_ hreach
  · intro i op out state state' hrely hpost param passed status hop hout
    obtain ⟨taker, feedback, hreported, hiff⟩ := hpost param passed status hop hout
    exact ⟨taker, feedback, hrely.reported.trans hreported, hiff⟩
  · intro i call hcall
    exact absurd hcall (by simp [userStart])
  · intro config config' op hreach _ hnext hfollows
    obtain ⟨state, henter, rfl⟩ := Machine.next_enter_eq_some hnext
    have hfree := (user_holds hreach).fresh config.calls.length (Nat.le_refl _)
    have hpopped : ∀ which mail,
        .popped config.calls.length which mail ∉ config.state.log :=
      fun which mail hmem =>
        absurd ((closingInv_of_reach hreach).popped _ which mail hmem) (lt_irrefl _)
    have hnew : state.locks = config.state.locks ∧ state.log = config.state.log ∧
        ((∃ param passed, op = .encoderCreate param passed) → state.closer = none) ∧
        (state = config.state ∨
          ∀ call ∈ config.calls, call.prog.finished = true) := by
      simp only [userMachine, userEnter] at henter
      split_ifs at henter with hopen hcloses hfinished
      · obtain rfl := Option.some.inj henter
        refine ⟨rfl, rfl, ?_, .inr (List.all_eq_true.mp hfinished)⟩
        rintro ⟨param, passed, rfl⟩
        cases hcloses
      · obtain rfl := Option.some.inj henter
        exact ⟨rfl, rfl, fun _ => hopen.1, .inl rfl⟩
    obtain ⟨hlocks, hlog, hcloser, hcalls⟩ := hnew
    intro i call hcall
    rcases getElem?_concat_cases hcall with hold | ⟨rfl, rfl⟩
    · obtain rfl | hfinished := hcalls
      · exact hfollows i call hold
      · have hends := hfollows i call hold
        have hdone := hfinished call (List.mem_of_getElem? hold)
        obtain ⟨callOp, prog⟩ := call
        cases prog with
        | ret out =>
            intro param passed status hop hout
            have hpost : StatusPost i callOp out config.state := hends
            change ReportsOwn i passed status state.log
            rw [hlog]
            exact hpost param passed status hop hout
        | act action next => cases hdone
    · apply ends_userBody op
      · rw [hlocks]
        exact hfree .create
      · exact hcloser
      · rw [hlog]
        exact hpopped

/-- In every run of any calls on an encoder: a creation that returns 0 reports the
status of the feedback of its channel exactly if it took this feedback itself, or was
given that status. -/
theorem createStatus_iff
    (uid : Word) (config : UserConfig)
    (hreach : (userMachine .encoder uid).Reach .free userStart config)
    (i : ℕ) (param : Al5Params) (passed status : Al5eChannelStatus)
    (hcall : config.calls[i]? =
      some ⟨.encoderCreate param passed, .ret (.encoderChannel 0 status)⟩) :
    ∃ taker feedback,
      creationFeedback i config.state.log = some (taker, feedback) ∧
        (status = al5eUpdateChanParam (feedbackOfMail feedback) ↔
          taker = i ∨ passed = al5eUpdateChanParam (feedbackOfMail feedback)) :=
  status_follows (reach_userRegime_empty hreach) i _ hcall param passed status rfl rfl

/-- A creation with no refused send. -/
def straightMoves : List UserMove :=
  fullMailboxMoves.take 26 ++ List.replicate 3 (.step 0 .succeed)

set_option maxRecDepth 20000 in
theorem run_straightMoves :
    ∃ (config : UserConfig) (status : Al5eChannelStatus),
      (userMachine .encoder 0).run straightMoves userStart = some config ∧
        config.calls[0]? = some ⟨.encoderCreate zeroParams ⟨0, 0, 0, 0⟩,
          .ret (.encoderChannel 0 status)⟩ ∧
        creationFeedback 0 config.state.log = some (0, buffersReply) :=
  ⟨_, _, rfl, rfl, rfl⟩

theorem createStatus_iff_straight :
    ∃ (config : UserConfig) (status : Al5eChannelStatus),
      (userMachine .encoder 0).run straightMoves userStart = some config ∧
        config.calls[0]? = some ⟨.encoderCreate zeroParams ⟨0, 0, 0, 0⟩,
          .ret (.encoderChannel 0 status)⟩ ∧
        status = al5eUpdateChanParam (feedbackOfMail buffersReply) := by
  obtain ⟨config, status, hrun, hcall, hreported⟩ := run_straightMoves
  obtain ⟨taker, feedback, hreported', hiff⟩ :=
    createStatus_iff 0 config (Machine.reach_of_run hrun) 0 _ _ _ hcall
  obtain ⟨rfl, rfl⟩ := Prod.mk.inj (Option.some.inj (hreported.symm.trans hreported'))
  exact ⟨config, status, hrun, hcall, hiff.mpr (.inl rfl)⟩

/-- The mailbox is full when the reference buffers are sent, and the next call is
given another status. -/
def otherStatusMoves : List UserMove :=
  fullMailboxMoves ++ [.enter (.encoderCreate zeroParams ⟨9, 9, 9, 9⟩)] ++
    List.replicate 13 (.step 1 .succeed)

set_option maxRecDepth 20000 in
theorem run_otherStatusMoves :
    ∃ config : UserConfig,
      (userMachine .encoder 0).run otherStatusMoves userStart = some config ∧
        config.calls[1]? = some ⟨.encoderCreate zeroParams ⟨9, 9, 9, 9⟩,
          .ret (.encoderChannel 0 ⟨9, 9, 9, 9⟩)⟩ ∧
        creationFeedback 1 config.state.log = some (0, buffersReply) :=
  ⟨_, rfl, rfl, rfl⟩

theorem not_createStatus_resumed :
    ¬ ∀ (uid : Word) (config : UserConfig),
      (userMachine .encoder uid).Reach .free userStart config →
        ∀ i param passed status, config.calls[i]? =
            some ⟨.encoderCreate param passed, .ret (.encoderChannel 0 status)⟩ →
          ∀ taker feedback,
            creationFeedback i config.state.log = some (taker, feedback) →
              status = al5eUpdateChanParam (feedbackOfMail feedback) := by
  intro hclaim
  obtain ⟨config, hrun, hcall, hreported⟩ := run_otherStatusMoves
  have hstatus := hclaim 0 config (Machine.reach_of_run hrun) 1 _ _ _ hcall 0
    buffersReply hreported
  have hoptions : (9 : Word) = (feedbackOfMail buffersReply).options :=
    congrArg Al5eChannelStatus.options hstatus
  exact absurd hoptions (by decide)

end VcuDriver

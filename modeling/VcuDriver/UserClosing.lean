import VcuDriver.UserSound
import VcuDriver.UserCustody

/-!
# The closing of a file

The last call on a user releases its file or, on the root user, boots the MCU.  A
release pops every queue until it pops nothing, and unbinds the user at its very
end.  The boot unbinds the root user at its end, too, when it succeeds, but pops
only the mails which it waits for.
-/

namespace VcuDriver

open Conc

/-! ## What a closing call does -/

/-- The queues from which the call has popped nothing, and whether it has unbound
the user. -/
structure ClosingRecord where
  drained : List UserMail
  unbound : Bool

namespace ClosingRecord

def empty : ClosingRecord :=
  ⟨[], false⟩

def next (record : ClosingRecord) : (action : UserAct) → action.Res → ClosingRecord
  | .listPop which, mail =>
      if mail.isNone then { record with drained := which :: record.drained } else record
  | .unbind, _ => { record with unbound := true }
  | _, _ => record

def Closed (record : ClosingRecord) : Prop :=
  record.unbound = true ∧ ∀ which, which ∈ record.drained

end ClosingRecord

/-- An action that stops its call has no result. -/
def UserAct.returns : UserAct → Prop
  | .oops => False
  | _ => True

/-- Unbinding the user is the last action. -/
def closingDiscipline : Discipline UserAct UserAct.Res ClosingRecord where
  may record _ := record.unbound = false
  possible action _ := action.returns
  next := ClosingRecord.next

/-! ## Rules -/

section

variable {α β : Type} {record : ClosingRecord}

def StaysBound (program : UserProg α) : Prop :=
  ∀ record : ClosingRecord, record.unbound = false →
    closingDiscipline.Follows record program fun _ last => last.unbound = false

theorem staysBound_pure (value : α) : StaysBound (pure value : UserProg α) :=
  fun _ hbound => hbound

theorem staysBound_perform
    {action : UserAct} {rest : action.Res → UserProg α} (hne : action ≠ .unbind)
    (hrest : ∀ result, StaysBound (rest result)) :
    StaysBound (Prog.perform action >>= rest) := by
  intro record hbound
  refine ⟨hbound, fun result _ => hrest result _ ?_⟩
  cases action with
  | unbind => exact absurd rfl hne
  | listPop which =>
      change (if result.isNone then _ else _ : ClosingRecord).unbound = false
      split
      · exact hbound
      · exact hbound
  | _ => exact hbound

theorem staysBound_perform_last
    {action : UserAct} (hne : action ≠ .unbind) :
    StaysBound (Prog.perform action : UserProg action.Res) :=
  staysBound_perform hne fun result => staysBound_pure result

theorem staysBound_bind
    {program : UserProg α} {f : α → UserProg β} (hfirst : StaysBound program)
    (hrest : ∀ value, StaysBound (f value)) : StaysBound (program >>= f) := by
  intro record hbound
  exact (hfirst record hbound).bind fun value last hlast => hrest value last hlast

/-! ## The operations -/

theorem staysBound_sendBuilt (constructor : Bool → MailResult) :
    StaysBound (sendBuilt constructor) := by
  unfold sendBuilt buildMail
  apply staysBound_bind
  · apply staysBound_perform (by simp)
    intro kmalloc
    split
    · exact staysBound_pure _
    · exact staysBound_perform (by simp) fun _ => staysBound_pure _
  · intro mail
    unfold userCheckAndSend
    split
    · exact staysBound_pure _
    · exact staysBound_perform_last (by simp)

theorem staysBound_queuePop (which : UserMail) : StaysBound (al5QueuePop which) :=
  staysBound_perform (by simp) fun _ => staysBound_perform_last (by simp)

theorem staysBound_queuePopTimeout (which : UserMail) :
    StaysBound (al5QueuePopTimeout which) := by
  apply staysBound_perform (by simp)
  intro err
  apply staysBound_perform (by simp)
  intro mail
  cases mail with
  | none => exact staysBound_pure _
  | some mail => exact staysBound_pure _

theorem staysBound_unlockAll (taken : List UserOperation) :
    StaysBound (unlockAll taken) := by
  induction taken with
  | nil => exact staysBound_pure ()
  | cons operation rest ih => exact staysBound_perform (by simp) fun _ => ih

theorem staysBound_lockAll (rest taken : List UserOperation) :
    StaysBound (lockAll rest taken) := by
  induction rest generalizing taken with
  | nil => exact staysBound_pure true
  | cons operation rest ih =>
      apply staysBound_perform (by simp)
      intro err
      split
      · exact staysBound_bind (staysBound_unlockAll taken) fun _ => staysBound_pure _
      · exact ih _

theorem staysBound_userQueuesUnlock : StaysBound userQueuesUnlock :=
  staysBound_perform (by simp) fun _ => staysBound_perform (by simp) fun _ =>
    staysBound_perform (by simp) fun _ => staysBound_perform_last (by simp)

theorem staysBound_userQueuesLock : StaysBound userQueuesLock :=
  staysBound_perform (by simp) fun _ => staysBound_perform (by simp) fun _ =>
    staysBound_perform (by simp) fun _ => staysBound_perform_last (by simp)

theorem staysBound_destroyChannelResources :
    StaysBound al5UserDestroyChannelResources :=
  staysBound_perform (by simp) fun _ => staysBound_perform_last (by simp)

theorem staysBound_forgetChannel : StaysBound forgetChannel :=
  staysBound_perform (by simp) fun _ => staysBound_perform (by simp) fun _ =>
    staysBound_destroyChannelResources

theorem staysBound_destroyUnderLocks (quiet : Bool) :
    StaysBound (destroyUnderLocks quiet) := by
  apply staysBound_perform (by simp)
  intro chanUid
  split
  · apply staysBound_bind (staysBound_sendBuilt _)
    intro err
    split
    · exact staysBound_pure _
    · exact staysBound_bind staysBound_forgetChannel fun _ => staysBound_pure _
  · apply staysBound_bind (staysBound_sendBuilt _)
    intro err
    split
    · exact staysBound_pure _
    · apply staysBound_bind (staysBound_queuePop _)
      intro mail
      cases mail with
      | none => exact staysBound_pure _
      | some mail =>
          apply staysBound_perform (by simp)
          intro _
          exact staysBound_bind staysBound_forgetChannel fun _ => staysBound_pure _

theorem staysBound_destroyChannel (quiet : Bool) :
    StaysBound (al5UserDestroyChannel quiet) := by
  apply staysBound_perform (by simp)
  intro chanUid
  split
  · exact staysBound_pure _
  · apply staysBound_bind staysBound_userQueuesUnlock
    intro _
    apply staysBound_bind (staysBound_lockAll _ _)
    intro locked
    split
    · apply staysBound_bind (staysBound_destroyUnderLocks quiet)
      intro err
      apply staysBound_bind (staysBound_unlockAll _)
      intro _
      exact staysBound_bind staysBound_userQueuesLock fun _ => staysBound_pure _
    · exact staysBound_bind staysBound_userQueuesLock fun _ => staysBound_pure _

theorem staysBound_quietDestroyLoop (tries : ℕ) :
    StaysBound (quietDestroyLoop tries) := by
  induction tries with
  | zero => exact staysBound_pure ()
  | succ tries ih =>
      apply staysBound_bind (staysBound_destroyChannel true)
      intro ret
      split
      · exact staysBound_pure ()
      · exact ih

theorem staysBound_initMcu (uid : Word) (msg : List Byte) :
    StaysBound (initMcu uid msg) := by
  apply staysBound_perform (by simp)
  intro err
  split
  · exact staysBound_pure _
  · apply staysBound_bind (staysBound_queuePopTimeout _)
    rintro ⟨err, feedback⟩
    cases feedback with
    | none => exact staysBound_perform (by simp) fun _ => staysBound_pure _
    | some mail =>
        apply staysBound_perform (by simp)
        intro _
        apply staysBound_perform (by simp)
        intro suballocBuf
        split
        · apply staysBound_bind (staysBound_sendBuilt _)
          intro err
          split
          · exact staysBound_perform (by simp) fun _ => staysBound_pure _
          · apply staysBound_bind (staysBound_queuePopTimeout _)
            rintro ⟨err, feedback⟩
            cases feedback with
            | none => exact staysBound_perform (by simp) fun _ => staysBound_pure _
            | some mail =>
                exact staysBound_perform (by simp) fun _ =>
                  staysBound_perform (by simp) fun _ => staysBound_pure _
        · exact staysBound_perform (by simp) fun _ => staysBound_pure _

/-- The loop over a queue ends when it pops nothing. -/
theorem follows_drainQueue
    (which : UserMail) (rounds : ℕ) (hbound : record.unbound = false) :
    closingDiscipline.Follows record (drainQueue which rounds) fun _ last =>
      last.unbound = false ∧ which ∈ last.drained ∧ record.drained ⊆ last.drained := by
  induction rounds with
  | zero => exact ⟨hbound, fun _ hreturns => hreturns.elim⟩
  | succ rounds ih =>
      refine ⟨hbound, fun _ _ => ⟨hbound, fun mail _ => ?_⟩⟩
      cases mail with
      | none => exact ⟨hbound, List.mem_cons_self, List.subset_cons_self which _⟩
      | some mail => exact ⟨hbound, fun _ _ => ih⟩

theorem follows_removeResidualMessages
    (rounds : ℕ) (queues : List UserMail) (hbound : record.unbound = false) :
    closingDiscipline.Follows record (removeResidualMessages rounds queues)
      fun _ last => last.unbound = false ∧ queues ⊆ last.drained ∧
        record.drained ⊆ last.drained := by
  induction queues generalizing record with
  | nil => exact ⟨hbound, List.nil_subset _, List.Subset.refl _⟩
  | cons which queues ih =>
      refine ⟨hbound, fun _ _ => ?_⟩
      apply (follows_drainQueue which rounds hbound).bind
      rintro _ mid ⟨hbound₁, hwhich, hkeeps₁⟩
      refine (ih hbound₁).mono ?_
      rintro _ last ⟨hbound₂, hrest, hkeeps₂⟩
      exact ⟨hbound₂, List.cons_subset.mpr ⟨hkeeps₂ hwhich, hrest⟩,
        List.Subset.trans hkeeps₁ hkeeps₂⟩

/-- The end of a release: drain, then unbind. -/
theorem follows_residualThenUnbind
    (rounds : ℕ) (hbound : record.unbound = false) :
    closingDiscipline.Follows record
      (al5UserRemoveResidualMessages rounds >>= fun _ => Prog.perform UserAct.unbind)
      fun _ last => last.Closed := by
  apply (follows_removeResidualMessages rounds userMails hbound).bind
  rintro _ mid ⟨hbound₁, hall, _⟩
  refine ⟨hbound₁, fun _ _ => ⟨rfl, fun which => hall ?_⟩⟩
  cases which <;> decide

theorem follows_release (rounds : ℕ) :
    closingDiscipline.Follows .empty (al5CodecRelease rounds) fun _ last =>
      last.Closed := by
  refine ⟨rfl, fun chanUid _ => ?_⟩
  dsimp only [Prog.bind]
  split
  · exact follows_residualThenUnbind rounds rfl
  · apply (staysBound_quietDestroyLoop 10000 _ rfl).bind
    intro _ mid hbound
    apply (staysBound_destroyChannelResources _ hbound).bind
    intro _ last hbound₁
    exact follows_residualThenUnbind rounds hbound₁

theorem follows_setFirmware (uid : Word) (msg : List Byte) :
    closingDiscipline.Follows .empty (al5CodecSetFirmware uid msg) fun _ _ => True := by
  apply (staysBound_initMcu uid msg _ rfl).bind
  intro err mid hbound
  split
  · trivial
  · exact ⟨hbound, fun _ _ => trivial⟩

/-- A release ends with every queue drained and the user unbound. -/
def closedBy (op : UserOp) (record : ClosingRecord) : Prop :=
  op.isRelease = true → record.Closed

theorem follows_closing (uid : Word) {op : UserOp} (hcloses : op.closes = true) :
    closingDiscipline.Follows .empty (userBody uid op) fun _ last => closedBy op last := by
  cases op with
  | release rounds =>
      apply (follows_release rounds).bind
      intro _ last hclosed
      exact fun _ => hclosed
  | setFirmware msg =>
      apply (follows_setFirmware uid msg).bind
      intro err last _
      exact fun hrelease => absurd hrelease (by simp [UserOp.isRelease])
  | _ => exact absurd hcloses (by simp [UserOp.closes])

end

/-! ## Runs -/

/-- The log has the pops which the record of call `i` speaks of. -/
def NotesPops (log : List Event) (i : ℕ) (record : ClosingRecord) : Prop :=
  ∀ which ∈ record.drained, .popped i which none ∈ log

/-- The rest of a closing call unbinds the user at its end. -/
def ClosesWell (log : List Event) (i : ℕ) (call : UserCall) : Prop :=
  ∃ record : ClosingRecord, NotesPops log i record ∧
    closingDiscipline.Follows record call.prog fun _ last => closedBy call.op last

structure ClosingInv (config : UserConfig) : Prop where
  calls : ∀ (i : ℕ) call, config.calls[i]? = some call → call.op.closes = true →
    ClosesWell config.state.log i call
  popped : ∀ call which mail, .popped call which mail ∈ config.state.log →
    call < config.calls.length
  closer : ∀ closer : ℕ, config.state.closer = some closer →
    ∃ call, config.calls[closer]? = some call ∧ call.op.closes = true
  unbound : config.state.bound = false → ∃ (closer : ℕ) (op : UserOp) (out : UserOut),
    config.state.closer = some closer ∧ config.calls[closer]? = some ⟨op, .ret out⟩

section

variable {kind : UserKind} {uid : Word} {config config' : UserConfig}
variable {state state' : UserState} {i : ℕ} {choice : Choice}

theorem ClosesWell.mono
    {log log' : List Event} {call : UserCall} (hwell : ClosesWell log i call)
    (hlog : ∀ event ∈ log, event ∈ log') : ClosesWell log' i call := by
  obtain ⟨record, hnotes, hfollows⟩ := hwell
  exact ⟨record, fun which hmem => hlog _ (hnotes which hmem), hfollows⟩

/-- An action adds its own events to the log, unbinds only if it is to, and leaves
the closing call of the user the same. -/
theorem act_log
    {action : UserAct} {result : action.Res}
    (hact : state.act i action choice = some (result, state')) :
    (∃ events, state'.log = events ++ state.log ∧
      ∀ call which mail, .popped call which mail ∈ events → call = i) ∧
    (action ≠ .unbind → state'.bound = state.bound) ∧
    state'.closer = state.closer := by
  cases action with
  | listPop which =>
      cases choice with
      | succeed =>
          obtain ⟨-, rfl⟩ := Prod.mk.inj (Option.some.inj hact)
          refine ⟨⟨[_], rfl, ?_⟩, fun _ => rfl, rfl⟩
          intro call which' mail hmem
          rw [List.mem_singleton] at hmem
          injection hmem
      | _ => exact absurd hact (by simp [UserState.act])
  | unbind =>
      cases choice with
      | succeed =>
          obtain ⟨-, rfl⟩ := Prod.mk.inj (Option.some.inj hact)
          exact ⟨⟨[], rfl, by simp⟩, fun hne => absurd rfl hne, rfl⟩
      | _ => exact absurd hact (by simp [UserState.act])
  | _ =>
      cases choice <;> simp only [UserState.act] at hact <;>
        first
          | (obtain ⟨-, rfl⟩ := Prod.mk.inj (Option.some.inj hact)
             exact ⟨⟨[], rfl, by simp⟩, fun _ => rfl, rfl⟩)
          | (obtain ⟨-, rfl⟩ := Prod.mk.inj (Option.some.inj hact)
             exact ⟨⟨[_], rfl, by simp⟩, fun _ => rfl, rfl⟩)
          | (split_ifs at hact
             all_goals
               obtain ⟨-, rfl⟩ := Prod.mk.inj (Option.some.inj hact)
               first
                 | exact ⟨⟨[], rfl, by simp⟩, fun _ => rfl, rfl⟩
                 | exact ⟨⟨[_], rfl, by simp⟩, fun _ => rfl, rfl⟩)
          | exact absurd hact (by simp)

/-- The record of a closing call after one of its actions. -/
theorem closesWell_act
    {op : UserOp} {action : UserAct} {rest : action.Res → UserProg UserOut}
    {result : action.Res}
    (hwell : ClosesWell state.log i ⟨op, .act action rest⟩)
    (hact : state.act i action choice = some (result, state')) :
    ClosesWell state'.log i ⟨op, rest result⟩ := by
  obtain ⟨record, hnotes, _, hfollows⟩ := hwell
  obtain ⟨⟨events, hlog, _⟩, _, _⟩ := act_log hact
  have hold : NotesPops state'.log i record := by
    intro which hmem
    rw [hlog]
    exact List.mem_append_right events (hnotes which hmem)
  have hreturns : action.returns := by
    cases action with
    | oops => cases choice <;> exact absurd hact (by simp [UserState.act])
    | _ => trivial
  refine ⟨record.next action result, ?_, hfollows result hreturns⟩
  cases action with
  | listPop which =>
      cases choice with
      | succeed =>
          obtain ⟨rfl, rfl⟩ := Prod.mk.inj (Option.some.inj hact)
          intro other hmem
          simp only [ClosingRecord.next] at hmem
          split at hmem
          · rename_i hnone
            rcases List.mem_cons.mp hmem with rfl | hmem
            · rw [Option.isNone_iff_eq_none.mp hnone]
              exact List.mem_cons_self
            · exact hold other hmem
          · exact hold other hmem
      | _ => exact absurd hact (by simp [UserState.act])
  | _ => exact hold

/-- Nothing follows once the user is unbound. -/
theorem returns_of_unbind
    {op : UserOp} {rest : Unit → UserProg UserOut}
    (hwell : ClosesWell state.log i ⟨op, .act .unbind rest⟩) :
    ∃ out, rest () = .ret out := by
  obtain ⟨record, _, _, hfollows⟩ := hwell
  have hlast := hfollows () trivial
  cases hrest : rest () with
  | ret out => exact ⟨out, rfl⟩
  | act action next =>
      rw [hrest] at hlast
      exact absurd hlast.1 (by simp [ClosingRecord.next, closingDiscipline])

theorem closingInv_step
    (hinv : UserInv kind uid ∅ config'.state) (hclosing : ClosingInv config)
    (hnext : (userMachine kind uid).next config (.step i choice) = some config') :
    ClosingInv config' := by
  obtain ⟨op, action, rest, result, state, hcall, hexec, rfl⟩ :=
    Machine.next_step_eq_some hnext
  simp only [userMachine] at hexec
  split at hexec
  · rename_i hcloser
    have hlt : i < config.calls.length := (List.getElem?_eq_some_iff.mp hcall).1
    obtain ⟨⟨events, hlog, hown⟩, hbound, hsame⟩ := act_log hexec
    constructor
    · intro j call hj hcloses
      rcases getElem?_set_cases hj with ⟨rfl, rfl⟩ | ⟨-, hold⟩
      · exact closesWell_act (hclosing.calls j _ hcall hcloses) hexec
      · refine (hclosing.calls j call hold hcloses).mono ?_
        intro event hmem
        rw [hlog]
        exact List.mem_append_right events hmem
    · intro call which mail hmem
      rw [List.length_set]
      rw [hlog] at hmem
      rcases List.mem_append.mp hmem with hmem | hmem
      · rw [hown call which mail hmem]
        exact hlt
      · exact hclosing.popped call which mail hmem
    · intro closer hsome
      rw [hsame] at hsome
      obtain ⟨call, hclosingCall, hcloses⟩ := hclosing.closer closer hsome
      by_cases hci : closer = i
      · subst hci
        rw [hcall] at hclosingCall
        obtain rfl := Option.some.inj hclosingCall
        exact ⟨_, List.getElem?_set_self hlt, hcloses⟩
      · exact ⟨call, by rw [List.getElem?_set_ne (Ne.symm hci)]; exact hclosingCall,
          hcloses⟩
    · intro hunbound
      by_cases hunbind : action = .unbind
      · -- Only the closing call unbinds, and it returns then.
        subst hunbind
        obtain ⟨closer, hsome⟩ : ∃ closer, state.closer = some closer := by
          rw [← Option.ne_none_iff_exists']
          intro hnone
          have hstill := hinv.bound hnone
          rw [hunbound] at hstill
          exact absurd hstill (by simp)
        have hbefore : config.state.closer = some closer := hsame ▸ hsome
        have hi : closer = i := by simpa [hbefore] using hcloser
        subst hi
        obtain ⟨call, hclosingCall, hcloses⟩ := hclosing.closer closer hbefore
        rw [hcall] at hclosingCall
        obtain rfl := Option.some.inj hclosingCall
        obtain ⟨out, hout⟩ := returns_of_unbind (hclosing.calls closer _ hcall hcloses)
        refine ⟨closer, op, out, hsome, ?_⟩
        rw [List.getElem?_set_self hlt]
        exact congrArg (fun prog => some (Call.mk op prog)) hout
      · rw [hbound hunbind] at hunbound
        obtain ⟨closer, op', out, hsome, hreturned⟩ := hclosing.unbound hunbound
        have hi : closer = i := by simpa [hsome] using hcloser
        subst hi
        rw [hcall] at hreturned
        injection hreturned with hreturned
        injection hreturned with _ hprog
        cases hprog
  · exact absurd hexec (by simp)

theorem closingInv_enter
    {op : UserOp} (hinv : UserInv kind uid ∅ config.state) (hclosing : ClosingInv config)
    (hnext : (userMachine kind uid).next config (.enter op) = some config') :
    ClosingInv config' := by
  obtain ⟨state, henter, rfl⟩ := Machine.next_enter_eq_some hnext
  have hstate : config.state.closer = none ∧ state.log = config.state.log ∧
      state.bound = config.state.bound ∧
      (∀ closer, state.closer = some closer →
        closer = config.calls.length ∧ op.closes = true) := by
    simp only [userMachine, userEnter] at henter
    split_ifs at henter with hopen hcloses hfinished
    · obtain rfl := Option.some.inj henter
      exact ⟨hopen.1, rfl, rfl, fun closer hsome =>
        ⟨(Option.some.inj hsome).symm, hcloses⟩⟩
    · obtain rfl := Option.some.inj henter
      refine ⟨hopen.1, rfl, rfl, fun closer hsome => ?_⟩
      rw [hopen.1] at hsome
      exact absurd hsome (by simp)
  obtain ⟨hnone, hlog, hbound, hcloser⟩ := hstate
  constructor
  · intro i call hi hcloses
    rw [hlog]
    rcases getElem?_concat_cases hi with hold | ⟨-, rfl⟩
    · exact hclosing.calls i call hold hcloses
    · exact ⟨.empty, fun _ hmem => absurd hmem List.not_mem_nil,
        follows_closing uid hcloses⟩
  · intro call which mail hmem
    rw [hlog] at hmem
    rw [List.length_append, List.length_singleton]
    exact Nat.lt_succ_of_lt (hclosing.popped call which mail hmem)
  · intro closer hsome
    obtain ⟨rfl, hcloses⟩ := hcloser closer hsome
    exact ⟨_, List.getElem?_concat_length, hcloses⟩
  · intro hunbound
    rw [hbound, hinv.bound hnone] at hunbound
    exact absurd hunbound (by simp)

/-- What holds of closing calls in every run. -/
theorem closingInv_of_reach
    (hreach : (userMachine kind uid).Reach (userRegime ∅) userStart config) :
    ClosingInv config := by
  induction hreach with
  | start =>
      refine ⟨by simp [userStart], by simp [userStart, al5UserInit], ?_, ?_⟩
      · intro closer hsome
        exact absurd hsome (by simp [userStart, al5UserInit])
      · intro hunbound
        exact absurd hunbound (by simp [userStart, al5UserInit])
  | next hreach hallowed hstep ih =>
      rename_i config config' move
      cases move with
      | enter op => exact closingInv_enter (user_inv hreach) ih hstep
      | step i choice =>
          exact closingInv_step (user_inv (.next hreach hallowed hstep)) ih hstep
      | env mail =>
          obtain ⟨state, henv, rfl⟩ := Machine.next_env_eq_some hstep
          simp only [userMachine] at henv
          split_ifs at henv
          obtain rfl := Option.some.inj henv
          exact ⟨ih.calls, ih.popped, ih.closer, ih.unbound⟩

/-- Only a pop is logged as a pop. -/
theorem popped_of_act
    {action : UserAct} {result : action.Res} {call : ℕ} {which : UserMail}
    {mail : Option Al5Mail} (hpop : ∀ other, action ≠ .listPop other)
    (hact : state.act i action choice = some (result, state'))
    (hmem : .popped call which mail ∈ state'.log) :
    .popped call which mail ∈ state.log := by
  cases action with
  | listPop other => exact absurd rfl (hpop other)
  | _ =>
      cases choice <;> simp only [UserState.act] at hact <;>
        first
          | (obtain ⟨-, rfl⟩ := Prod.mk.inj (Option.some.inj hact)
             first
               | exact hmem
               | simpa [UserState.record] using hmem)
          | (split_ifs at hact
             all_goals
               obtain ⟨-, rfl⟩ := Prod.mk.inj (Option.some.inj hact)
               first
                 | exact hmem
                 | simpa [UserState.record] using hmem)
          | exact absurd hact (by simp)

def StaysDrained (state : UserState) (i : ℕ) : Prop :=
  ∀ which, .popped i which none ∈ state.log → (state.queues which).mails = []

/-- A call does not fill the queues which it has emptied. -/
theorem staysDrained_act
    {action : UserAct} {result : action.Res} (hdrained : StaysDrained state i)
    (hact : state.act i action choice = some (result, state')) :
    StaysDrained state' i := by
  intro which hmem
  cases action with
  | listPop other =>
      cases choice with
      | succeed =>
          obtain ⟨-, rfl⟩ := Prod.mk.inj (Option.some.inj hact)
          by_cases hother : which = other
          · subst hother
            have hempty : (state.queues which).mails = [] := by
              rcases List.mem_cons.mp hmem with heq | hmem
              · injection heq with _ _ hhead
                exact List.head?_eq_none_iff.mp hhead.symm
              · exact hdrained which hmem
            simp [UserState.record, UserState.setQueue, hempty]
          · have hsame : (state.queues which).mails = [] := by
              rcases List.mem_cons.mp hmem with heq | hmem
              · injection heq with _ hwhich _
                exact absurd hwhich hother
              · exact hdrained which hmem
            simpa [UserState.record, UserState.setQueue, Function.update_of_ne hother]
              using hsame
      | _ => exact absurd hact (by simp [UserState.act])
  | freeMail mail =>
      have hold := popped_of_act (by simp) hact hmem
      cases choice with
      | succeed =>
          obtain ⟨-, rfl⟩ := Prod.mk.inj (Option.some.inj hact)
          exact hdrained which hold
      | _ => exact absurd hact (by simp [UserState.act])
  | _ =>
      have hold := popped_of_act (by simp) hact hmem
      rw [(act_keepsMails rfl hact).1 which]
      exact hdrained which hold

/-- Every call was offered to the user, and a call that closes the user is the one
which the state names. -/
structure CallsListed (kind : UserKind) (config : UserConfig) : Prop where
  offered : ∀ (i : ℕ) call, config.calls[i]? = some call → call.op.offeredTo kind = true
  closer : ∀ (i : ℕ) call, config.calls[i]? = some call → call.op.closes = true →
    config.state.closer = some i

theorem callsListed_enter
    {op : UserOp} (hlisted : CallsListed kind config)
    (hnext : (userMachine kind uid).next config (.enter op) = some config') :
    CallsListed kind config' := by
  obtain ⟨state, henter, rfl⟩ := Machine.next_enter_eq_some hnext
  have hentered : config.state.closer = none ∧ op.offeredTo kind = true ∧
      (op.closes = true → state.closer = some config.calls.length) := by
    simp only [userMachine, userEnter] at henter
    split_ifs at henter with hopen hcloses hfinished
    · obtain rfl := Option.some.inj henter
      exact ⟨hopen.1, hopen.2, fun _ => rfl⟩
    · exact ⟨hopen.1, hopen.2, fun hclosing => absurd hclosing hcloses⟩
  obtain ⟨hnone, hoffered, hcloser⟩ := hentered
  constructor
  · intro i call hcall
    rcases getElem?_concat_cases hcall with hold | ⟨-, rfl⟩
    · exact hlisted.offered i call hold
    · exact hoffered
  · intro i call hcall hcloses
    rcases getElem?_concat_cases hcall with hold | ⟨rfl, rfl⟩
    · rw [hlisted.closer i call hold hcloses] at hnone
      exact absurd hnone (by simp)
    · exact hcloser hcloses

theorem callsListed_step
    (hlisted : CallsListed kind config)
    (hnext : (userMachine kind uid).next config (.step i choice) = some config') :
    CallsListed kind config' := by
  obtain ⟨op, action, rest, result, state, hcall, hexec, rfl⟩ :=
    Machine.next_step_eq_some hnext
  simp only [userMachine] at hexec
  split at hexec
  · have hsame : state.closer = config.state.closer := (act_log hexec).2.2
    have hcases : ∀ (j : ℕ) call, (config.calls.set i ⟨op, rest result⟩)[j]? = some call →
        ∃ call', config.calls[j]? = some call' ∧ call'.op = call.op := by
      intro j call hj
      rcases getElem?_set_cases hj with ⟨rfl, rfl⟩ | ⟨-, hold⟩
      · exact ⟨_, hcall, rfl⟩
      · exact ⟨call, hold, rfl⟩
    constructor
    · intro j call hj
      obtain ⟨call', hcall', hop⟩ := hcases j call hj
      rw [← hop]
      exact hlisted.offered j call' hcall'
    · intro j call hj hcloses
      obtain ⟨call', hcall', hop⟩ := hcases j call hj
      change state.closer = some j
      rw [hsame]
      exact hlisted.closer j call' hcall' (hop ▸ hcloses)
  · exact absurd hexec (by simp)

theorem callsListed_of_reach
    (hreach : (userMachine kind uid).Reach (userRegime ∅) userStart config) :
    CallsListed kind config := by
  induction hreach with
  | start => exact ⟨by simp [userStart], by simp [userStart]⟩
  | @next config config' move _ _ hstep ih =>
      cases move with
      | enter op => exact callsListed_enter ih hstep
      | step i choice => exact callsListed_step ih hstep
      | env mail =>
          obtain ⟨state, henv, rfl⟩ := Machine.next_env_eq_some hstep
          simp only [userMachine] at henv
          split_ifs at henv
          obtain rfl := Option.some.inj henv
          exact ⟨ih.offered, ih.closer⟩

end

end VcuDriver

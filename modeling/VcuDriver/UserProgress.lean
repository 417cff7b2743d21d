import VcuDriver.UserMutex
import VcuDriver.UserRelease

/-!
# Who waits, waits for the MCU

Calls on a user wait for the mutexes of other calls and for mails.  A call which waits
for a mutex holds earlier mutexes only, so a chain of waiting calls comes to an end: at
a call which can go on, at one which waits for a mail which has not come, or at one
which an invalid access has stopped.
-/

namespace VcuDriver

open Conc

/-! ## Chains of waiting calls -/

/-- The chain from a waiting call has an end, since the awaited mutexes come later and
later. -/
theorem exists_last_of_awaits
    {config : UserConfig} (hkept : Disciplined config) (n : ℕ)
    {i : ℕ} {operation : UserOperation} (hawaits : Awaits config i operation)
    (hrank : 8 ≤ operation.rank + n) :
    ∃ j, Relation.ReflTransGen (WaitsFor config) i j ∧ ∀ k, ¬ WaitsFor config j k := by
  induction n generalizing i operation with
  | zero => exact absurd hrank (by cases operation <;> decide)
  | succ n ih =>
      by_cases hwaits : ∃ k, WaitsFor config i k
      · obtain ⟨k, other, hother, hlock⟩ := hwaits
        obtain rfl := hawaits.unique hother
        have hfirst : WaitsFor config i k := ⟨operation, hawaits, hlock⟩
        by_cases hnext : ∃ later, Awaits config k later
        · obtain ⟨later, hlater⟩ := hnext
          have hlt := rank_lt_of_awaits hkept hlater hlock
          obtain ⟨j, hchain, hlast⟩ := ih hlater (by omega)
          exact ⟨j, .head hfirst hchain, hlast⟩
        · refine ⟨k, .single hfirst, ?_⟩
          rintro l ⟨later, hlater, -⟩
          exact hnext ⟨later, hlater⟩
      · exact ⟨i, .refl, fun k hk => hwaits ⟨k, hk⟩⟩

theorem exists_last
    {config : UserConfig} (hkept : Disciplined config) (i : ℕ) :
    ∃ j, Relation.ReflTransGen (WaitsFor config) i j ∧ ∀ k, ¬ WaitsFor config j k := by
  by_cases hawaits : ∃ operation, Awaits config i operation
  · obtain ⟨operation, hawaits⟩ := hawaits
    exact exists_last_of_awaits hkept 8 hawaits (by omega)
  · refine ⟨i, .refl, ?_⟩
    rintro k ⟨operation, hoperation, -⟩
    exact hawaits ⟨operation, hoperation⟩

/-! ## Calls in progress -/

def InProgress (config : UserConfig) (i : ℕ) : Prop :=
  ∃ op action next, config.calls[i]? = some ⟨op, .act action next⟩

/-- The call goes on without a signal and without a timeout. -/
def GoesOn (kind : UserKind) (uid : Word) (config : UserConfig) (i : ℕ) : Prop :=
  ∃ choice config', choice ≠ .signal ∧ choice ≠ .timeout ∧
    (userMachine kind uid).next config (.step i choice) = some config'

def AwaitsMail (config : UserConfig) (i : ℕ) : Prop :=
  ∃ op action next which, config.calls[i]? = some ⟨op, .act action next⟩ ∧
    (action = .waitEvent which ∨ action = .waitEventTimeout which) ∧
    (config.state.queues which).mails = [] ∧ (config.state.queues which).locked = true

def Crashed (config : UserConfig) (i : ℕ) : Prop :=
  ∃ op next, config.calls[i]? = some ⟨op, .act .oops next⟩

/-- Whoever holds a mutex is in progress. -/
theorem inProgress_of_lock
    {config : UserConfig} {i : ℕ} {operation : UserOperation}
    (hkept : Disciplined config) (hlock : config.state.locks operation = some i) :
    InProgress config i := by
  rcases Nat.lt_or_ge i config.calls.length with hlt | hge
  · have hcall := List.getElem?_eq_getElem hlt
    obtain ⟨record, hkeeps, hfollows⟩ := hkept.calls i _ hcall
    generalize config.calls[i] = call at hcall hfollows
    obtain ⟨op, prog⟩ := call
    cases prog with
    | ret out =>
        have howns : OwnsNothing record := hfollows
        have hmem := (hkeeps.mutexes operation).mp hlock
        rw [howns.1] at hmem
        exact absurd hmem List.not_mem_nil
    | act action next => exact ⟨op, action, next, hcall⟩
  · exact absurd (((hkept.fresh i hge).mutexes operation).mp hlock) List.not_mem_nil

theorem inProgress_of_chain
    {config : UserConfig} {i j : ℕ} (hkept : Disciplined config)
    (hi : InProgress config i) (hchain : Relation.ReflTransGen (WaitsFor config) i j) :
    InProgress config j := by
  cases hchain with
  | refl => exact hi
  | tail _ hlast =>
      obtain ⟨operation, -, hlock⟩ := hlast
      exact inProgress_of_lock hkept hlock

/-- While a call closes the user, the others have returned. -/
theorem eq_closer_of_inProgress
    {kind : UserKind} {uid : Word} {config : UserConfig}
    (hreach : (userMachine kind uid).Reach .free userStart config)
    {closer i : ℕ} (hcloser : config.state.closer = some closer)
    (hi : InProgress config i) : i = closer := by
  have hinv := Machine.Reach.invariant
    (fun config => ∀ closer, config.state.closer = some closer →
      ∀ i, InProgress config i → i = closer) ?_ ?_ hreach
  · exact hinv closer hcloser i hi
  · intro closer hcloser
    exact absurd hcloser (by simp [userStart, al5UserInit])
  · intro config config' move ih _ hnext closer hcloser i hi
    cases move with
    | enter op =>
        obtain ⟨state, henter, rfl⟩ := Machine.next_enter_eq_some hnext
        simp only [userMachine, userEnter] at henter
        obtain ⟨op', action, rest, hcall⟩ := hi
        split_ifs at henter with hopen hcloses hfinished
        · obtain rfl := Option.some.inj henter
          rcases getElem?_concat_cases hcall with hold | ⟨rfl, -⟩
          · have hdone := List.all_eq_true.mp hfinished _ (List.mem_of_getElem? hold)
            exact absurd hdone (by simp)
          · exact Option.some.inj hcloser
        · obtain rfl := Option.some.inj henter
          exact absurd hcloser (by simp [hopen.1])
    | step j choice =>
        obtain ⟨op, action, rest, result, state, hcall, hexec, rfl⟩ :=
          Machine.next_step_eq_some hnext
        have hsame : config.state.closer = some closer :=
          (act_closer (act_of_exec hexec)).symm.trans hcloser
        obtain ⟨op', action', rest', hcall'⟩ := hi
        rcases getElem?_set_cases hcall' with ⟨rfl, -⟩ | ⟨-, hold⟩
        · exact ih closer hsame i ⟨op, action, rest, hcall⟩
        · exact ih closer hsame i ⟨op', action', rest', hold⟩
    | env mail =>
        obtain ⟨state, henv, rfl⟩ := Machine.next_env_eq_some hnext
        obtain rfl := eq_deliver_of_env henv
        exact ih closer hcloser i hi

theorem Al5Queue.empty_of_not_available
    {queue : Al5Queue} (havailable : ¬ queue.mailIsAvailable = true) :
    queue.mails = [] ∧ queue.locked = true := by
  simpa [Al5Queue.mailIsAvailable] using havailable

/-- Every action has an outcome which is no signal and no timeout, unless it waits for a
mutex or for a mail, or is an invalid access. -/
theorem act_enabled (state : UserState) (i : ℕ) (action : UserAct) :
    (∃ choice outcome, choice ≠ .signal ∧ choice ≠ .timeout ∧
        state.act i action choice = some outcome) ∨
      (∃ operation j, action = .mutexLockKillable operation ∧
        state.locks operation = some j) ∨
      (∃ which, (action = .waitEvent which ∨ action = .waitEventTimeout which) ∧
        (state.queues which).mails = [] ∧ (state.queues which).locked = true) ∨
      action = .oops := by
  cases action with
  | mutexLockKillable operation =>
      cases hlock : state.locks operation with
      | none => exact .inl ⟨.succeed, _, by simp, by simp, if_pos hlock⟩
      | some j => exact .inr (.inl ⟨operation, j, rfl, hlock⟩)
  | mutexTrylock operation =>
      by_cases hlock : state.locks operation = none
      · exact .inl ⟨.succeed, _, by simp, by simp, if_pos hlock⟩
      · exact .inl ⟨.succeed, _, by simp, by simp, if_neg hlock⟩
  | waitEvent which =>
      by_cases havailable : (state.queues which).mailIsAvailable = true
      · exact .inl ⟨.succeed, _, by simp, by simp, if_pos havailable⟩
      · exact .inr (.inr (.inl ⟨which, .inl rfl, Al5Queue.empty_of_not_available havailable⟩))
  | waitEventTimeout which =>
      by_cases havailable : (state.queues which).mailIsAvailable = true
      · exact .inl ⟨.succeed, _, by simp, by simp, if_pos havailable⟩
      · exact .inr (.inr (.inl ⟨which, .inr rfl, Al5Queue.empty_of_not_available havailable⟩))
  | bufpoolAllocate pool count size => exact .inl ⟨.fail, _, by simp, by simp, rfl⟩
  | bufpoolReserveFd id => exact .inl ⟨.number 0, _, by simp, by simp, rfl⟩
  | bufpoolGetId fd => exact .inl ⟨.number 0, _, by simp, by simp, rfl⟩
  | getDmabufInfo handle => exact .inl ⟨.info (.error 0), _, by simp, by simp, rfl⟩
  | oops => exact .inr (.inr (.inr rfl))
  | _ => exact .inl ⟨.succeed, _, by simp, by simp, rfl⟩

/-! ## Every run -/

/-- In every reachable configuration of any calls on a user: from a call in progress a
chain of calls, each waiting for a mutex of the next, leads to a call which goes on, which
waits for a mail which has not come, or which an invalid access has stopped. -/
theorem waits_end
    (kind : UserKind) (uid : Word) (config : UserConfig)
    (hreach : (userMachine kind uid).Reach .free userStart config)
    (i : ℕ) (hi : InProgress config i) :
    ∃ j, Relation.ReflTransGen (WaitsFor config) i j ∧
      (GoesOn kind uid config j ∨ AwaitsMail config j ∨ Crashed config j) := by
  have hkept : Disciplined config := userDiscipline_kept hreach
  obtain ⟨j, hchain, hlast⟩ := exists_last hkept i
  have hj := inProgress_of_chain hkept hi hchain
  refine ⟨j, hchain, ?_⟩
  have hsolo : config.state.closer.all (· == j) = true := by
    cases hcloser : config.state.closer with
    | none => rfl
    | some closer =>
        rw [eq_closer_of_inProgress hreach hcloser hj]
        exact beq_self_eq_true closer
  obtain ⟨op, action, next, hcall⟩ := hj
  rcases act_enabled config.state j action with
    ⟨choice, outcome, hsignal, htimeout, hact⟩ | ⟨operation, k, rfl, hlock⟩ |
      ⟨which, haction, hmails, hlocked⟩ | rfl
  · left
    refine ⟨choice, ⟨outcome.2, config.calls.set j ⟨op, next outcome.1⟩⟩, hsignal,
      htimeout, ?_⟩
    simp only [Machine.next, hcall, userMachine, hsolo, if_true, hact, Option.map_some]
  · exact absurd ⟨operation, ⟨op, next, hcall⟩, hlock⟩ (hlast k)
  · exact .inr (.inl ⟨op, action, next, which, hcall, haction, hmails, hlocked⟩)
  · exact .inr (.inr ⟨op, next, hcall⟩)

/-- A destroy waits for the mutex of a call which waits for a start code. -/
def destroyWaitsMoves : List UserMove :=
  obtainMoves ++ [.enter .waitForStartCode, .step 1 .succeed, .enter (.destroy false)] ++
    List.replicate 10 (.step 2 .succeed)

set_option maxRecDepth 20000 in
theorem run_destroyWaitsMoves :
    ∃ config : UserConfig,
      (userMachine .decoder 0).run destroyWaitsMoves userStart = some config ∧
        WaitsFor config 2 1 ∧ InProgress config 2 :=
  ⟨_, rfl, ⟨.sc, ⟨_, _, rfl⟩, rfl⟩, ⟨_, _, _, rfl⟩⟩

theorem waits_end_of_destroy :
    ∃ config : UserConfig,
      (userMachine .decoder 0).run destroyWaitsMoves userStart = some config ∧
        WaitsFor config 2 1 ∧
        ∃ j, Relation.ReflTransGen (WaitsFor config) 2 j ∧
          (GoesOn .decoder 0 config j ∨ AwaitsMail config j ∨ Crashed config j) := by
  obtain ⟨config, hrun, hwaits, hi⟩ := run_destroyWaitsMoves
  exact ⟨config, hrun, hwaits,
    waits_end .decoder 0 config (Machine.reach_of_run hrun) 2 hi⟩

/-! ## The queues which a release has unlocked -/

/-- A call that waits for mails of the queues only which it has unlocked. -/
def unlockDiscipline : Discipline UserAct UserAct.Res (List UserMail) where
  may unlocked action :=
    ∀ which, action = .waitEvent which ∨ action = .waitEventTimeout which → which ∈ unlocked
  possible _ _ := True
  next unlocked action _ :=
    match action with
    | .queueUnlock which => which :: unlocked
    | .queueLock which => unlocked.filter fun other => other ≠ which
    | _ => unlocked

/-- Whatever was unlocked before, the program waits for an unlocked queue only. -/
def WaitsUnlocked {α : Type} (program : UserProg α) : Prop :=
  ∀ unlocked : List UserMail, unlockDiscipline.Follows unlocked program fun _ _ => True

def UserAct.isWait : UserAct → Bool
  | .waitEvent _ | .waitEventTimeout _ => true
  | _ => false

section

variable {α β : Type}

theorem waitsUnlocked_ret (value : α) : WaitsUnlocked (.ret value : UserProg α) :=
  fun _ => trivial

theorem may_of_isWait_eq_false
    {action : UserAct} (hwait : action.isWait = false) (unlocked : List UserMail) :
    unlockDiscipline.may unlocked action := by
  rintro which (rfl | rfl)
  · cases hwait
  · cases hwait

theorem waitsUnlocked_act
    {action : UserAct} {next : action.Res → UserProg α} (hwait : action.isWait = false)
    (hnext : ∀ result, WaitsUnlocked (next result)) :
    WaitsUnlocked (.act action next) :=
  fun unlocked => Discipline.follows_act (may_of_isWait_eq_false hwait unlocked)
    fun result _ => hnext result _

theorem waitsUnlocked_bind
    {program : UserProg α} {f : α → UserProg β} (hfirst : WaitsUnlocked program)
    (hrest : ∀ value, WaitsUnlocked (f value)) : WaitsUnlocked (program.bind f) :=
  fun unlocked => (hfirst unlocked).bind fun value last _ => hrest value last

theorem waitsUnlocked_unlockAll (operations : List UserOperation) :
    WaitsUnlocked (unlockAll operations) := by
  induction operations with
  | nil => exact waitsUnlocked_ret ()
  | cons operation rest ih => exact waitsUnlocked_act rfl fun _ => ih

theorem waitsUnlocked_lockAll (operations taken : List UserOperation) :
    WaitsUnlocked (lockAll operations taken) := by
  induction operations generalizing taken with
  | nil => exact waitsUnlocked_ret true
  | cons operation rest ih =>
      refine waitsUnlocked_act rfl fun err => ?_
      rw [Prog.ret_bind]
      split_ifs
      · exact waitsUnlocked_bind (waitsUnlocked_unlockAll taken) fun _ => waitsUnlocked_ret false
      · exact ih (taken ++ [operation])

theorem waitsUnlocked_sendBuilt (constructor : Bool → MailResult) :
    WaitsUnlocked (sendBuilt constructor) := by
  unfold sendBuilt buildMail
  refine waitsUnlocked_bind ?_ ?_
  · refine waitsUnlocked_act rfl fun kmalloc => ?_
    rw [Prog.ret_bind]
    cases constructor kmalloc with
    | ok mail => exact waitsUnlocked_ret mail
    | error _ => exact waitsUnlocked_act rfl fun _ => waitsUnlocked_ret none
  · rintro (_ | mail)
    · exact waitsUnlocked_ret _
    · exact waitsUnlocked_act rfl fun err => waitsUnlocked_ret err

theorem waitsUnlocked_freeResources : WaitsUnlocked al5UserDestroyChannelResources :=
  waitsUnlocked_act rfl fun _ => waitsUnlocked_act rfl waitsUnlocked_ret

theorem waitsUnlocked_destroyUnderLocks : WaitsUnlocked (destroyUnderLocks true) := by
  refine waitsUnlocked_act rfl fun chanUid => ?_
  rw [Prog.ret_bind, if_pos rfl]
  refine waitsUnlocked_bind (waitsUnlocked_sendBuilt _) fun err => ?_
  split_ifs
  · exact waitsUnlocked_ret err
  · refine waitsUnlocked_bind ?_ fun _ => waitsUnlocked_ret 0
    exact waitsUnlocked_act rfl fun _ => waitsUnlocked_act rfl fun _ =>
      waitsUnlocked_freeResources

/-- A quiet destroy waits for mutexes only. -/
theorem waitsUnlocked_quietDestroy : WaitsUnlocked (al5UserDestroyChannel true) := by
  have hunlock : WaitsUnlocked userQueuesUnlock :=
    waitsUnlocked_act rfl fun _ => waitsUnlocked_act rfl fun _ =>
      waitsUnlocked_act rfl fun _ => waitsUnlocked_act rfl waitsUnlocked_ret
  have hlock : WaitsUnlocked userQueuesLock :=
    waitsUnlocked_act rfl fun _ => waitsUnlocked_act rfl fun _ =>
      waitsUnlocked_act rfl fun _ => waitsUnlocked_act rfl waitsUnlocked_ret
  refine waitsUnlocked_act rfl fun chanUid => ?_
  rw [Prog.ret_bind]
  split_ifs
  · exact waitsUnlocked_ret _
  · refine waitsUnlocked_bind hunlock fun _ => ?_
    refine waitsUnlocked_bind (waitsUnlocked_lockAll userOperations []) fun locked => ?_
    split_ifs
    · refine waitsUnlocked_bind waitsUnlocked_destroyUnderLocks fun err => ?_
      refine waitsUnlocked_bind (waitsUnlocked_unlockAll userOperations) fun _ => ?_
      exact waitsUnlocked_bind hlock fun _ => waitsUnlocked_ret err
    · exact waitsUnlocked_bind hlock fun _ => waitsUnlocked_ret _

theorem waitsUnlocked_quietDestroyLoop (tries : ℕ) :
    WaitsUnlocked (quietDestroyLoop tries) := by
  induction tries with
  | zero => exact waitsUnlocked_ret ()
  | succ tries ih =>
      refine waitsUnlocked_bind waitsUnlocked_quietDestroy fun ret => ?_
      split_ifs
      · exact waitsUnlocked_ret ()
      · exact ih

/-- The queue stays unlocked while it is drained. -/
theorem follows_drainUnlocked
    (which : UserMail) (rounds : ℕ) {unlocked : List UserMail} (hmem : which ∈ unlocked) :
    unlockDiscipline.Follows unlocked (drainQueue which rounds) fun _ _ => True := by
  induction rounds with
  | zero => exact waitsUnlocked_act rfl waitsUnlocked_ret unlocked
  | succ rounds ih =>
      refine Discipline.follows_act ?_ fun _ _ => ?_
      · rintro other (hother | hother) <;> cases hother
        exact hmem
      · refine Discipline.follows_act (may_of_isWait_eq_false rfl _) fun mail _ => ?_
        cases mail with
        | none => trivial
        | some mail =>
            exact Discipline.follows_act (may_of_isWait_eq_false rfl _) fun _ _ => ih

theorem waitsUnlocked_removeResidualMessages (rounds : ℕ) (queues : List UserMail) :
    WaitsUnlocked (removeResidualMessages rounds queues) := by
  induction queues with
  | nil => exact waitsUnlocked_ret ()
  | cons which rest ih =>
      intro unlocked
      refine Discipline.follows_act (may_of_isWait_eq_false rfl _) fun _ _ => ?_
      rw [Prog.ret_bind]
      have hdrained := follows_drainUnlocked which rounds (List.mem_cons_self (l := unlocked))
      exact hdrained.bind fun _ last _ => ih last

theorem waitsUnlocked_release (rounds : ℕ) : WaitsUnlocked (al5CodecRelease rounds) := by
  have hresidual : WaitsUnlocked (al5UserRemoveResidualMessages rounds) :=
    waitsUnlocked_removeResidualMessages rounds userMails
  have hunbind : WaitsUnlocked (Prog.perform UserAct.unbind) :=
    waitsUnlocked_act rfl waitsUnlocked_ret
  refine waitsUnlocked_act rfl fun chanUid => ?_
  rw [Prog.ret_bind]
  split_ifs
  · exact waitsUnlocked_bind hresidual fun _ => hunbind
  · refine waitsUnlocked_bind (waitsUnlocked_quietDestroyLoop 10000) fun _ => ?_
    refine waitsUnlocked_bind waitsUnlocked_freeResources fun _ => ?_
    exact waitsUnlocked_bind hresidual fun _ => hunbind

end

/-! ## A release never waits -/

def UserState.Unlocked (state : UserState) (unlocked : List UserMail) : Prop :=
  ∀ which ∈ unlocked, (state.queues which).locked = false

/-- A release closes the user, and its record tells the truth. -/
structure Releasing (config : UserConfig) (i : ℕ) (call : UserCall) : Prop where
  closer : config.state.closer = some i
  waits : ∃ unlocked, config.state.Unlocked unlocked ∧
    unlockDiscipline.Follows unlocked call.prog fun _ _ => True

theorem act_queues
    {i : ℕ} {state state' : UserState} {action : UserAct} {choice : Choice}
    {result : action.Res} (hact : state.act i action choice = some (result, state'))
    (which : UserMail) (hunlock : action ≠ .queueUnlock which)
    (hlock : action ≠ .queueLock which) :
    (state'.queues which).locked = (state.queues which).locked := by
  have hupdate : ∀ (other : UserMail) (queue : Al5Queue),
      (other = which → queue.locked = (state.queues which).locked) →
        (Function.update state.queues other queue which).locked =
          (state.queues which).locked := by
    intro other queue hqueue
    by_cases hother : which = other
    · subst hother
      rw [Function.update_self]
      exact hqueue rfl
    · rw [Function.update_of_ne hother]
  cases action <;> cases choice <;> simp only [UserState.act] at hact <;>
    first
      | (obtain ⟨-, rfl⟩ := Prod.mk.inj (Option.some.inj hact)
         first
           | rfl
           | exact hupdate _ _ (by rintro rfl; rfl)
           | exact hupdate _ _ (by rintro rfl; exact absurd rfl hunlock)
           | exact hupdate _ _ (by rintro rfl; exact absurd rfl hlock))
      | (split_ifs at hact
         all_goals
           obtain ⟨-, rfl⟩ := Prod.mk.inj (Option.some.inj hact)
           rfl)
      | exact absurd hact (by simp)

theorem UserState.Unlocked.act
    {i : ℕ} {state state' : UserState} {unlocked : List UserMail} {action : UserAct}
    {choice : Choice} {result : action.Res} (hunlocked : state.Unlocked unlocked)
    (hact : state.act i action choice = some (result, state')) :
    state'.Unlocked (unlockDiscipline.next unlocked action result) := by
  intro which hmem
  by_cases hunlock : action = .queueUnlock which
  · subst hunlock
    cases choice <;> simp only [UserState.act, reduceCtorEq] at hact
    obtain ⟨-, rfl⟩ := Prod.mk.inj (Option.some.inj hact)
    simp [UserState.setQueue]
  by_cases hlock : action = .queueLock which
  · subst hlock
    exact absurd rfl (of_decide_eq_true (List.mem_filter.mp hmem).2)
  rw [act_queues hact which hunlock hlock]
  apply hunlocked
  cases action with
  | queueUnlock other =>
      exact (List.mem_cons.mp hmem).resolve_left fun heq => hunlock (heq ▸ rfl)
  | queueLock other => exact (List.mem_filter.mp hmem).1
  | _ => exact hmem

theorem UserState.Unlocked.deliver
    {state : UserState} {unlocked : List UserMail} (hunlocked : state.Unlocked unlocked)
    (mail : Al5Mail) : (al5UserDeliver mail state).Unlocked unlocked := by
  intro which hmem
  rw [← hunlocked which hmem]
  by_cases hwhich : which = mailToQueue mail.uid?
  · subst hwhich
    simp [al5UserDeliver, UserState.setQueue]
  · simp [al5UserDeliver, UserState.setQueue, hwhich]

/-- A release begins with an empty record. -/
theorem releasing_of_enter
    {kind : UserKind} {uid : Word} {config : UserConfig} {op : UserOp} {state : UserState}
    (henter : userEnter kind config.calls op config.state = some state)
    (hrelease : op.isRelease = true) :
    Releasing ⟨state, config.calls ++ [⟨op, userBody uid op⟩]⟩ config.calls.length
      ⟨op, userBody uid op⟩ := by
  cases op with
  | release rounds =>
      simp only [userEnter] at henter
      split_ifs at henter with hopen hcloses hfinished
      · obtain rfl := Option.some.inj henter
        refine ⟨rfl, [], fun _ hmem => absurd hmem (by simp), ?_⟩
        exact waitsUnlocked_bind (waitsUnlocked_release rounds)
          (fun _ => waitsUnlocked_ret _) []
      · exact absurd rfl hcloses
  | _ => cases hrelease

theorem releasing_of_reach
    {kind : UserKind} {uid : Word} {config : UserConfig}
    (hreach : (userMachine kind uid).Reach .free userStart config)
    {i : ℕ} {call : UserCall} (hcall : config.calls[i]? = some call)
    (hrelease : call.op.isRelease = true) : Releasing config i call := by
  refine Machine.Reach.invariant
    (fun config => ∀ (i : ℕ) call, config.calls[i]? = some call →
      call.op.isRelease = true → Releasing config i call) ?_ ?_ hreach i call hcall hrelease
  · intro i call hcall
    exact absurd hcall (by simp [userStart])
  · intro config config' move ih _ hnext i call hcall hrelease
    cases move with
    | enter op =>
        obtain ⟨state, henter, rfl⟩ := Machine.next_enter_eq_some hnext
        rcases getElem?_concat_cases hcall with hold | ⟨rfl, rfl⟩
        · have hcloser := (ih i call hold hrelease).closer
          exact absurd rfl ((closer_next hcloser hnext).2 op)
        · exact releasing_of_enter henter hrelease
    | step j choice =>
        obtain ⟨op, action, rest, result, state, hstepped, hexec, rfl⟩ :=
          Machine.next_step_eq_some hnext
        have hact := act_of_exec hexec
        rcases getElem?_set_cases hcall with ⟨rfl, rfl⟩ | ⟨hne, hold⟩
        · obtain ⟨hcloser, unlocked, hunlocked, -, hrest⟩ := ih i _ hstepped hrelease
          exact ⟨(act_closer hact).trans hcloser, _, hunlocked.act hact, hrest result trivial⟩
        · have hcloser := (ih i call hold hrelease).closer
          exact absurd (eq_of_exec_closer hcloser hexec) (Ne.symm hne)
    | env mail =>
        obtain ⟨state, henv, rfl⟩ := Machine.next_env_eq_some hnext
        obtain rfl := eq_deliver_of_env henv
        obtain ⟨hcloser, unlocked, hunlocked, hfollows⟩ := ih i call hcall hrelease
        exact ⟨hcloser, unlocked, hunlocked.deliver mail, hfollows⟩

/-- In every run of any calls on a user: the release of its file goes on without a signal
from any point, unless an invalid access has stopped it. -/
theorem release_goes_on
    (kind : UserKind) (uid : Word) (config : UserConfig)
    (hreach : (userMachine kind uid).Reach .free userStart config)
    (i rounds : ℕ) (action : UserAct) (next : action.Res → UserProg UserOut)
    (hcall : config.calls[i]? = some ⟨.release rounds, .act action next⟩) :
    GoesOn kind uid config i ∨ action = .oops := by
  obtain ⟨hcloser, unlocked, hunlocked, hmay, -⟩ := releasing_of_reach hreach hcall rfl
  have hi : InProgress config i := ⟨_, action, next, hcall⟩
  obtain ⟨j, hchain, hend⟩ := waits_end kind uid config hreach i hi
  have hkept : Disciplined config := userDiscipline_kept hreach
  obtain rfl : j = i :=
    eq_closer_of_inProgress hreach hcloser (inProgress_of_chain hkept hi hchain)
  rcases hend with hgoes | ⟨op, action', next', which, hcall', hwait, -, hlocked⟩ | hcrashed
  · exact .inl hgoes
  · rw [hcall] at hcall'
    obtain ⟨rfl, hprog⟩ := Call.mk.inj (Option.some.inj hcall')
    obtain ⟨rfl, -⟩ := Prog.act.inj hprog
    have hopen := hunlocked which (hmay which hwait)
    rw [hlocked] at hopen
    exact absurd hopen (by simp)
  · obtain ⟨op, next', hcall'⟩ := hcrashed
    rw [hcall] at hcall'
    obtain ⟨-, hprog⟩ := Call.mk.inj (Option.some.inj hcall')
    exact .inr (Prog.act.inj hprog).1

theorem release_goes_on_at_once :
    ∃ config : UserConfig,
      (userMachine .decoder 0).run [.enter (.release 1), .step 0 .succeed] userStart =
          some config ∧
        GoesOn .decoder 0 config 0 := by
  have hrun : ∃ (config : UserConfig) (next : Unit → UserProg UserOut),
      (userMachine .decoder 0).run [.enter (.release 1), .step 0 .succeed] userStart =
          some config ∧
        config.calls[0]? = some ⟨.release 1, .act (.queueUnlock .init) next⟩ :=
    ⟨_, _, rfl, rfl⟩
  obtain ⟨config, next, hrun, hcall⟩ := hrun
  have hgoes := release_goes_on .decoder 0 config (Machine.reach_of_run hrun) 0 1
    (.queueUnlock .init) next hcall
  exact ⟨config, hrun, hgoes.resolve_right (by simp)⟩

end VcuDriver

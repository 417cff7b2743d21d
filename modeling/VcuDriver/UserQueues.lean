import VcuDriver.UserDiscipline

/-!
# The queues of a user during a destroy

`al5_user_destroy_channel` unlocks four queues before its mutex loop, so that a
call which waits on one of them gives its mutex up, and locks them again when it
leaves.  The flags are shared: a destroy that leaves locks the queues under
another one that is still in its loop.  As long as this does not happen, the
queues are unlocked around every step of the loop.
-/

namespace VcuDriver

open Conc

/-- The call is in the mutex loop of `al5_user_destroy_channel`: it has taken
some of the mutexes and is about to take the next one.  A call that was interrupted and
releases what it has taken is not counted as in the loop. -/
def InMutexLoop (config : UserConfig) (i : ℕ) : Prop :=
  ∃ op taken rest rest',
    taken ++ rest = userOperations ∧ rest ≠ [] ∧
      config.calls[i]? = some ⟨op, (lockAll rest taken).bind rest'⟩

/-- No call locks a queue which a call, on its way through the mutex loop, has
unlocked. -/
def relockRegime : Regime UserState UserAct Choice UserOp Al5Mail where
  enter _ _ := True
  step state _ _ action _ :=
    ∀ which, action = .queueLock which → ∀ entry ∈ state.cleared, entry.2 ≠ which
  env _ _ := True

/-- The queues which a call unlocked for its mutex loop are still unlocked. -/
def ClearedUnlocked (state : UserState) : Prop :=
  ∀ entry ∈ state.cleared, (state.queues entry.2).locked = false

section

variable {state state' : UserState} {i : ℕ}

theorem clearedUnlocked_of_same
    (hcleared : ∀ entry ∈ state'.cleared, entry ∈ state.cleared)
    (hlocked : ∀ which, (state'.queues which).locked = (state.queues which).locked)
    (hunlocked : ClearedUnlocked state) : ClearedUnlocked state' := by
  intro entry hentry
  rw [hlocked]
  exact hunlocked entry (hcleared entry hentry)

/-- Setting the mails of a queue keeps its flag. -/
theorem locked_setQueue
    {which : UserMail} {queue : Al5Queue}
    (hsame : queue.locked = (state.queues which).locked) (other : UserMail) :
    ((state.setQueue which queue).queues other).locked =
      (state.queues other).locked := by
  unfold UserState.setQueue
  by_cases hother : other = which
  · subst hother
    simp [hsame]
  · simp [Function.update_of_ne hother]

def UserAct.keepsFlags : UserAct → Bool
  | .queueUnlock _ | .queueLock _ => false
  | _ => true

theorem act_keepsFlags
    {action : UserAct} {choice : Choice} {result : action.Res}
    (hkeeps : action.keepsFlags = true)
    (hact : state.act i action choice = some (result, state')) :
    (∀ entry ∈ state'.cleared, entry ∈ state.cleared) ∧
      ∀ which, (state'.queues which).locked = (state.queues which).locked := by
  have hthrough : ∀ entry ∈ (state.setThrough i).cleared, entry ∈ state.cleared :=
    fun entry hentry => (List.mem_filter.mp hentry).1
  cases action with
  | queueUnlock which => exact absurd hkeeps (by simp [UserAct.keepsFlags])
  | queueLock which => exact absurd hkeeps (by simp [UserAct.keepsFlags])
  | mutexLockKillable operation =>
      cases choice with
      | succeed =>
          simp only [UserState.act] at hact
          split_ifs at hact
          · obtain ⟨-, rfl⟩ := Prod.mk.inj (Option.some.inj hact)
            exact ⟨hthrough, fun _ => rfl⟩
          · obtain ⟨-, rfl⟩ := Prod.mk.inj (Option.some.inj hact)
            exact ⟨fun _ h => h, fun _ => rfl⟩
      | signal =>
          simp only [UserState.act] at hact
          split_ifs at hact
          obtain ⟨-, rfl⟩ := Prod.mk.inj (Option.some.inj hact)
          exact ⟨hthrough, fun _ => rfl⟩
      | _ => exact absurd hact (by simp [UserState.act])
  | listPop which =>
      cases choice with
      | succeed =>
          obtain ⟨-, rfl⟩ := Prod.mk.inj (Option.some.inj hact)
          exact ⟨fun _ h => h, locked_setQueue rfl⟩
      | _ => exact absurd hact (by simp [UserState.act])
  | _ =>
      cases choice <;> simp only [UserState.act] at hact <;>
        first
          | (obtain ⟨-, rfl⟩ := Prod.mk.inj (Option.some.inj hact)
             exact ⟨fun _ h => h, fun _ => rfl⟩)
          | (split_ifs at hact
             all_goals
               obtain ⟨-, rfl⟩ := Prod.mk.inj (Option.some.inj hact)
               exact ⟨fun _ h => h, fun _ => rfl⟩)
          | exact absurd hact (by simp)

theorem clearedUnlocked_act
    {op : UserOp} {action : UserAct} {choice : Choice} {result : action.Res}
    (hunlocked : ClearedUnlocked state)
    (hallowed : relockRegime.step state i op action choice)
    (hact : state.act i action choice = some (result, state')) :
    ClearedUnlocked state' := by
  cases action with
  | queueUnlock which =>
      cases choice with
      | succeed =>
          obtain ⟨-, rfl⟩ := Prod.mk.inj (Option.some.inj hact)
          intro entry hentry
          unfold UserState.setQueue
          by_cases hwhich : entry.2 = which
          · simp [hwhich]
          · simp only [Function.update_of_ne hwhich]
            rcases List.mem_cons.mp hentry with rfl | hentry
            · exact absurd rfl hwhich
            · exact hunlocked entry hentry
      | _ => exact absurd hact (by simp [UserState.act])
  | queueLock which =>
      cases choice with
      | succeed =>
          obtain ⟨-, rfl⟩ := Prod.mk.inj (Option.some.inj hact)
          intro entry hentry
          have hwhich : entry.2 ≠ which := hallowed which rfl entry hentry
          unfold UserState.setQueue
          simp only [Function.update_of_ne hwhich]
          exact hunlocked entry hentry
      | _ => exact absurd hact (by simp [UserState.act])
  | _ =>
      obtain ⟨hcleared, hlocked⟩ := act_keepsFlags rfl hact
      exact clearedUnlocked_of_same hcleared hlocked hunlocked

end

theorem clearedUnlocked_of_reach
    {kind : UserKind} {uid : Word} {config : UserConfig}
    (hreach : (userMachine kind uid).Reach relockRegime userStart config) :
    ClearedUnlocked config.state := by
  refine hreach.invariant (fun config => ClearedUnlocked config.state) ?_ ?_
  · intro entry hentry
    exact absurd hentry List.not_mem_nil
  · intro config config' move hunlocked hallowed hnext
    cases move with
    | enter op =>
        obtain ⟨state, henter, rfl⟩ := Machine.next_enter_eq_some hnext
        simp only [userMachine, userEnter] at henter
        split_ifs at henter
        · rw [← Option.some.inj henter]
          exact hunlocked
        · rw [← Option.some.inj henter]
          exact hunlocked
    | step i choice =>
        obtain ⟨op, action, rest, result, state, hcall, hexec, rfl⟩ :=
          Machine.next_step_eq_some hnext
        simp only [userMachine] at hexec
        split at hexec
        · exact clearedUnlocked_act hunlocked (hallowed op action rest hcall) hexec
        · exact absurd hexec (by simp)
    | env mail =>
        obtain ⟨state, henv, rfl⟩ := Machine.next_env_eq_some hnext
        simp only [userMachine] at henv
        split_ifs at henv
        rw [← Option.some.inj henv]
        have hlocked : ∀ which, ((al5UserDeliver mail config.state).queues
            which).locked = (config.state.queues which).locked := by
          unfold al5UserDeliver
          exact locked_setQueue rfl
        have hcleared : ∀ entry ∈ (al5UserDeliver mail config.state).cleared,
            entry ∈ config.state.cleared := fun _ h => h
        exact clearedUnlocked_of_same hcleared hlocked hunlocked

/-- In the mutex loop a call has unlocked the four queues. -/
theorem cleared_of_follows_lockAll
    {α : Type} {record : CallRecord} {taken rest : List UserOperation}
    {rest' : Bool → UserProg α} {post : α → CallRecord → Prop}
    (hlast : rest.getLast? = some .reconstructed)
    (hfollows : userDiscipline.Follows record ((lockAll rest taken).bind rest') post) :
    ∀ which ∈ userQueues, which ∈ record.cleared := by
  induction rest generalizing record taken with
  | nil => exact absurd hlast (by simp)
  | cons operation rest ih =>
      obtain ⟨hmay, hnext⟩ := hfollows
      by_cases hoperation : operation = .reconstructed
      · exact hmay.2.2 hoperation
      · -- A mutex other than the last leaves the unlocked queues as they are.
        have hrest : rest.getLast? = some .reconstructed := by
          cases rest with
          | nil => exact absurd (by simpa using hlast) hoperation
          | cons next rest => rwa [List.getLast?_cons_cons] at hlast
        have htaken := ih hrest (hnext 0 (.inl rfl))
        change ∀ which ∈ userQueues, which ∈
          (if operation = .reconstructed then [] else record.cleared) at htaken
        rwa [if_neg hoperation] at htaken

/-- In every run in which no call locks a queue under another one's mutex loop:
while a call is in its mutex loop, the four queues are unlocked and no call is
blocked in a wait on one of them. -/
theorem queues_unlocked_in_mutexLoop
    (kind : UserKind) (uid : Word) (config : UserConfig) (i : ℕ)
    (hreach : (userMachine kind uid).Reach relockRegime userStart config)
    (hloop : InMutexLoop config i) :
    ∀ which ∈ userQueues,
      (config.state.queues which).locked = false ∧
        (config.state.queues which).mailIsAvailable = true := by
  intro which hwhich
  obtain ⟨op, taken, rest, rest', happend, hrest, hcall⟩ := hloop
  obtain ⟨record, hkeeps, hfollows⟩ := (userDiscipline_kept hreach).calls i _ hcall
  have hlast : rest.getLast? = some .reconstructed := by
    have hwhole : (taken ++ rest).getLast? = some .reconstructed := by
      rw [happend]
      rfl
    rwa [List.getLast?_append_of_ne_nil _ hrest] at hwhole
  have hcleared := cleared_of_follows_lockAll hlast hfollows which hwhich
  rw [← hkeeps.cleared] at hcleared
  obtain ⟨entry, hentry, rfl⟩ := List.mem_map.mp hcleared
  have hlocked := clearedUnlocked_of_reach hreach entry (List.mem_filter.mp hentry).1
  exact ⟨hlocked, by simp [Al5Queue.mailIsAvailable, hlocked]⟩

/-- A decoder gets channel 5; then two calls destroy it, and the second one is
interrupted at the first mutex while the first one is in its loop. -/
def relockMoves : List UserMove :=
  [.enter (.decoderCreate ⟨0, List.replicate 512 0, length_zeroBytes⟩ ⟨0, 0⟩),
    .step 0 .succeed, .step 0 .succeed, .step 0 .succeed, .step 0 .succeed,
    .env ⟨5, 8, 8, wordBytes 5 ++ wordBytes 0⟩,
    .step 0 .succeed, .step 0 .succeed, .step 0 .succeed, .step 0 .succeed,
    .step 0 .succeed, .step 0 .succeed,
    .enter (.destroy false), .enter (.destroy false),
    .step 1 .succeed, .step 1 .succeed, .step 1 .succeed, .step 1 .succeed,
    .step 1 .succeed, .step 1 .succeed,
    .step 2 .succeed, .step 2 .succeed, .step 2 .succeed, .step 2 .succeed,
    .step 2 .succeed, .step 2 .signal, .step 2 .succeed]

set_option maxRecDepth 20000 in
theorem run_relockMoves :
    ∃ (config : UserConfig) (rest : Bool → UserProg ℤ) (rest' : ℤ → UserProg UserOut),
      (userMachine .decoder 0).run relockMoves userStart = some config ∧
        (config.state.queues .status).locked = true ∧
        config.calls[1]? = some ⟨.destroy false,
          ((lockAll [.create, .destroy, .xcode, .status, .sc, .debug, .reconstructed]
            [.init]).bind rest).bind rest'⟩ :=
  ⟨_, _, _, rfl, rfl, rfl⟩

/-- A destroy whose first mutex wait is interrupted locks the queues under
another destroy. -/
theorem not_queues_unlocked_in_mutexLoop :
    ¬ ∀ (kind : UserKind) (uid : Word) (config : UserConfig) (i : ℕ),
      (userMachine kind uid).Reach .free userStart config →
      InMutexLoop config i →
        ∀ which ∈ userQueues, (config.state.queues which).locked = false := by
  intro hall
  obtain ⟨config, rest, rest', hrun, hlocked, hcall⟩ := run_relockMoves
  rw [Prog.bind_assoc] at hcall
  have hloop : InMutexLoop config 1 :=
    ⟨.destroy false, [.init], _, _, rfl, List.cons_ne_nil _ _, hcall⟩
  have hunlocked := hall .decoder 0 config 1 (Machine.reach_of_run hrun) hloop
    .status (by decide)
  rw [hlocked] at hunlocked
  exact absurd hunlocked (by decide)

def passesRelock (config : UserConfig) : UserMove → Bool
  | .step i _ =>
      match config.calls[i]? with
      | some ⟨_, .act (.queueLock which) _⟩ =>
          config.state.cleared.all fun entry => entry.2 ≠ which
      | _ => true
  | _ => true

theorem allows_of_passesRelock
    (config : UserConfig) (move : UserMove)
    (hpass : passesRelock config move = true) :
    relockRegime.Allows config move := by
  cases move with
  | enter op => trivial
  | env mail => trivial
  | step i choice =>
      rintro op action next hcall which rfl entry hentry
      simp only [passesRelock, hcall, List.all_eq_true] at hpass
      exact of_decide_eq_true (hpass entry hentry)

/-- One destroy alone in its mutex loop. -/
def loopMoves : List UserMove :=
  relockMoves.take 13 ++ List.replicate 6 (.step 1 .succeed)

set_option maxRecDepth 20000 in
theorem run_loopMoves :
    ∃ (config : UserConfig) (rest : Bool → UserProg ℤ) (rest' : ℤ → UserProg UserOut),
      (userMachine .decoder 0).runWhere passesRelock loopMoves userStart =
          some config ∧
        config.calls[1]? = some ⟨.destroy false,
          ((lockAll [.create, .destroy, .xcode, .status, .sc, .debug, .reconstructed]
            [.init]).bind rest).bind rest'⟩ :=
  ⟨_, _, _, rfl, rfl⟩

theorem queues_unlocked_in_mutexLoop_of_one_destroy :
    ∃ config : UserConfig,
      (userMachine .decoder 0).runWhere passesRelock loopMoves userStart =
          some config ∧
        ∀ which ∈ userQueues,
          (config.state.queues which).locked = false ∧
            (config.state.queues which).mailIsAvailable = true := by
  obtain ⟨config, rest, rest', hrun, hcall⟩ := run_loopMoves
  rw [Prog.bind_assoc] at hcall
  have hloop : InMutexLoop config 1 :=
    ⟨.destroy false, [.init], _, _, rfl, List.cons_ne_nil _ _, hcall⟩
  have hreach := Machine.reach_of_runWhere allows_of_passesRelock hrun
  exact ⟨config, hrun, queues_unlocked_in_mutexLoop .decoder 0 config 1 hreach hloop⟩

end VcuDriver

import VcuDriver.UserOps
import VcuDriver.Conc.Discipline

/-!
# The discipline of a call on a user

What a call owns while it runs: the mutexes which it has taken, the queues which
it has unlocked on its way through the mutexes of a destroy, and the mail which
it has popped and not yet freed.  A call takes a mutex only after those which it
holds, in the order of the enumeration, and gives back only mutexes which it
holds; it takes the last mutex of a destroy only once the four queues are
unlocked; it pops a mail only when it has none at hand, and frees only that one.

Every operation follows this discipline and returns with no mutex and no mail.
-/

namespace VcuDriver

open Conc

def UserOperation.rank : UserOperation → ℕ
  | .init => 0
  | .create => 1
  | .destroy => 2
  | .xcode => 3
  | .status => 4
  | .sc => 5
  | .debug => 6
  | .reconstructed => 7

def userQueues : List UserMail :=
  [.status, .sc, .create, .reconstructed]

/-- What a call owns. -/
structure CallRecord where
  mutexes : List UserOperation
  cleared : List UserMail
  mails : List Al5Mail

namespace CallRecord

def empty : CallRecord :=
  ⟨[], [], []⟩

def May (record : CallRecord) : UserAct → Prop
  | .mutexLockKillable operation =>
      operation ∉ record.mutexes ∧
        (∀ other ∈ record.mutexes, other.rank < operation.rank) ∧
        (operation = .reconstructed → ∀ which ∈ userQueues, which ∈ record.cleared)
  | .mutexTrylock operation => operation ∉ record.mutexes
  | .mutexUnlock operation => operation ∈ record.mutexes
  | .listPop _ => record.mails = []
  | .freeMail mail => mail ∈ record.mails
  | _ => True

def next (record : CallRecord) : (action : UserAct) → action.Res → CallRecord
  | .mutexLockKillable operation, err =>
      if err = 0 then
        { record with
          mutexes := record.mutexes ++ [operation]
          cleared := if operation = .reconstructed then [] else record.cleared }
      else
        { record with cleared := [] }
  | .mutexTrylock operation, locked =>
      if locked then
        { record with mutexes := record.mutexes ++ [operation] }
      else
        record
  | .mutexUnlock operation, _ =>
      { record with mutexes := record.mutexes.filter fun other => other ≠ operation }
  | .queueUnlock which, _ => { record with cleared := which :: record.cleared }
  | .listPop _, mail => { record with mails := mail.toList ++ record.mails }
  | .freeMail mail, _ => { record with mails := record.mails.erase mail }
  | _, _ => record

end CallRecord

/-- The results of an action: a mutex is taken or its wait is interrupted. -/
def possibleResult : (action : UserAct) → action.Res → Prop
  | .mutexLockKillable _, err => err = 0 ∨ err = -EINTR
  | _, _ => True

def userDiscipline : Discipline UserAct UserAct.Res CallRecord where
  may := CallRecord.May
  possible := possibleResult
  next := CallRecord.next

/-! ## The state keeps the records -/

def mailsHeld (i : ℕ) : List Event → List Al5Mail
  | [] => []
  | .popped call _ (some mail) :: earlier =>
      if call = i then mail :: mailsHeld i earlier else mailsHeld i earlier
  | .freed call mail :: earlier =>
      if call = i then (mailsHeld i earlier).erase mail else mailsHeld i earlier
  | _ :: earlier => mailsHeld i earlier

def clearedBy (i : ℕ) (cleared : List (ℕ × UserMail)) : List UserMail :=
  (cleared.filter fun entry => entry.1 = i).map Prod.snd

/-- The list names the mutexes which the call holds. -/
def KeepsMutexes (state : UserState) (i : ℕ) (held : List UserOperation) : Prop :=
  ∀ operation, state.locks operation = some i ↔ operation ∈ held

structure KeepsRecord (state : UserState) (i : ℕ) (record : CallRecord) : Prop where
  mutexes : KeepsMutexes state i record.mutexes
  cleared : clearedBy i state.cleared = record.cleared
  mails : mailsHeld i state.log = record.mails

section

variable {i : ℕ} {state : UserState}

theorem clearedBy_cons_self (which : UserMail) (cleared : List (ℕ × UserMail)) :
    clearedBy i ((i, which) :: cleared) = which :: clearedBy i cleared := by
  simp [clearedBy]

theorem clearedBy_cons_of_ne
    {j : ℕ} (hne : j ≠ i) (which : UserMail) (cleared : List (ℕ × UserMail)) :
    clearedBy j ((i, which) :: cleared) = clearedBy j cleared := by
  simp [clearedBy, Ne.symm hne]

theorem clearedBy_setThrough_self : clearedBy i (state.setThrough i).cleared = [] := by
  simp [clearedBy, UserState.setThrough]

theorem clearedBy_setThrough_of_ne {j : ℕ} (hne : j ≠ i) :
    clearedBy j (state.setThrough i).cleared = clearedBy j state.cleared := by
  unfold clearedBy UserState.setThrough
  rw [List.filter_filter]
  congr 2
  funext entry
  by_cases hentry : entry.1 = j
  · simp [hentry, hne]
  · simp [hentry]

/-- Taking a free mutex. -/
theorem keepsMutexes_lock
    {operation : UserOperation} {held : List UserOperation}
    (hfree : state.locks operation = none)
    (hkeeps : KeepsMutexes state i held) :
    KeepsMutexes (state.setLock operation (some i)) i (held ++ [operation]) := by
  intro other
  by_cases hother : other = operation
  · subst hother
    simp [UserState.setLock]
  · simp only [UserState.setLock, Function.update_of_ne hother, hkeeps other,
      List.mem_append, List.mem_singleton, hother, or_false]

theorem keepsMutexes_lock_of_ne
    {operation : UserOperation} {j : ℕ} {held : List UserOperation} (hne : j ≠ i)
    (hfree : state.locks operation = none)
    (hkeeps : KeepsMutexes state j held) :
    KeepsMutexes (state.setLock operation (some i)) j held := by
  intro other
  by_cases hother : other = operation
  · subst hother
    have hout : other ∉ held := by
      intro hmem
      rw [(hkeeps other).mpr hmem] at hfree
      exact absurd hfree (by simp)
    simp [UserState.setLock, hout, Ne.symm hne]
  · simp only [UserState.setLock, Function.update_of_ne hother, hkeeps other]

/-- Giving back a mutex. -/
theorem keepsMutexes_unlock
    {operation : UserOperation} {held : List UserOperation}
    (hkeeps : KeepsMutexes state i held) :
    KeepsMutexes (state.setLock operation none) i
      (held.filter fun other => other ≠ operation) := by
  intro other
  by_cases hother : other = operation
  · subst hother
    simp [UserState.setLock]
  · simp [UserState.setLock, hkeeps other, hother]

theorem keepsMutexes_unlock_of_ne
    {operation : UserOperation} {j : ℕ} {held : List UserOperation} (hne : j ≠ i)
    (howner : state.locks operation = some i)
    (hkeeps : KeepsMutexes state j held) :
    KeepsMutexes (state.setLock operation none) j held := by
  intro other
  by_cases hother : other = operation
  · subst hother
    have hout : other ∉ held := by
      intro hmem
      have hlock := (hkeeps other).mpr hmem
      rw [howner] at hlock
      exact hne (Option.some.inj hlock).symm
    simp [UserState.setLock, hout]
  · simp only [UserState.setLock, Function.update_of_ne hother, hkeeps other]

end

section

variable {i : ℕ} {state state' : UserState} {record : CallRecord}

/-- What an action of call `i` does to the records of all calls. -/
def KeepsNext (i : ℕ) (state state' : UserState) (record : CallRecord)
    (action : UserAct) (result : action.Res) : Prop :=
  possibleResult action result ∧
    KeepsRecord state' i (record.next action result) ∧
    ∀ (j : ℕ) (record' : CallRecord), j ≠ i →
      KeepsRecord state j record' → KeepsRecord state' j record'

theorem keepsRecord_of_same
    {j : ℕ} (hrecord : KeepsRecord state j record)
    (hlocks : state'.locks = state.locks) (hcleared : state'.cleared = state.cleared)
    (hmails : mailsHeld j state'.log = mailsHeld j state.log) :
    KeepsRecord state' j record := by
  refine ⟨?_, by rw [hcleared]; exact hrecord.cleared,
    by rw [hmails]; exact hrecord.mails⟩
  unfold KeepsMutexes
  rw [hlocks]
  exact hrecord.mutexes

/-- An action that concerns no record. -/
theorem keepsNext_of_same
    {action : UserAct} {result : action.Res}
    (hpossible : possibleResult action result)
    (hnext : record.next action result = record)
    (hkeeps : KeepsRecord state i record)
    (hlocks : state'.locks = state.locks) (hcleared : state'.cleared = state.cleared)
    (hmails : ∀ j, mailsHeld j state'.log = mailsHeld j state.log) :
    KeepsNext i state state' record action result := by
  refine ⟨hpossible, ?_, ?_⟩
  · rw [hnext]
    exact keepsRecord_of_same hkeeps hlocks hcleared (hmails i)
  · intro j record' _ hrecord
    exact keepsRecord_of_same hrecord hlocks hcleared (hmails j)

theorem keepsNext_lockKillable
    {operation : UserOperation} {choice : Choice} {err : ℤ}
    (hact : state.act i (.mutexLockKillable operation) choice = some (err, state'))
    (hkeeps : KeepsRecord state i record) :
    KeepsNext i state state' record (.mutexLockKillable operation) err := by
  cases choice with
  | succeed =>
      simp only [UserState.act] at hact
      split_ifs at hact with hfree hlast
      · obtain ⟨rfl, rfl⟩ := Prod.mk.inj (Option.some.inj hact)
        refine ⟨.inl rfl, ⟨keepsMutexes_lock hfree hkeeps.mutexes, ?_, hkeeps.mails⟩, ?_⟩
        · rw [CallRecord.next, if_pos rfl, if_pos hlast]
          exact clearedBy_setThrough_self
        · intro j record' hne hrecord
          refine ⟨keepsMutexes_lock_of_ne hne hfree hrecord.mutexes, ?_, hrecord.mails⟩
          rw [clearedBy_setThrough_of_ne hne]
          exact hrecord.cleared
      · obtain ⟨rfl, rfl⟩ := Prod.mk.inj (Option.some.inj hact)
        refine ⟨.inl rfl, ⟨keepsMutexes_lock hfree hkeeps.mutexes, ?_, hkeeps.mails⟩, ?_⟩
        · rw [CallRecord.next, if_pos rfl, if_neg hlast]
          exact hkeeps.cleared
        · intro j record' hne hrecord
          exact ⟨keepsMutexes_lock_of_ne hne hfree hrecord.mutexes, hrecord.cleared,
            hrecord.mails⟩
  | signal =>
      simp only [UserState.act] at hact
      split_ifs at hact
      obtain ⟨rfl, rfl⟩ := Prod.mk.inj (Option.some.inj hact)
      refine ⟨.inr rfl, ⟨hkeeps.mutexes, clearedBy_setThrough_self, hkeeps.mails⟩, ?_⟩
      intro j record' hne hrecord
      refine ⟨hrecord.mutexes, ?_, hrecord.mails⟩
      rw [clearedBy_setThrough_of_ne hne]
      exact hrecord.cleared
  | _ => exact absurd hact (by simp [UserState.act])

theorem keepsNext_trylock
    {operation : UserOperation} {choice : Choice} {locked : Bool}
    (hact : state.act i (.mutexTrylock operation) choice = some (locked, state'))
    (hkeeps : KeepsRecord state i record) :
    KeepsNext i state state' record (.mutexTrylock operation) locked := by
  cases choice with
  | succeed =>
      simp only [UserState.act] at hact
      split_ifs at hact with hfree
      · obtain ⟨rfl, rfl⟩ := Prod.mk.inj (Option.some.inj hact)
        refine ⟨trivial, ⟨keepsMutexes_lock hfree hkeeps.mutexes, hkeeps.cleared,
          hkeeps.mails⟩, ?_⟩
        intro j record' hne hrecord
        exact ⟨keepsMutexes_lock_of_ne hne hfree hrecord.mutexes, hrecord.cleared,
          hrecord.mails⟩
      · obtain ⟨rfl, rfl⟩ := Prod.mk.inj (Option.some.inj hact)
        exact ⟨trivial, hkeeps, fun _ _ _ h => h⟩
  | _ => exact absurd hact (by simp [UserState.act])

theorem keepsNext_unlock
    {operation : UserOperation} {choice : Choice} {result : Unit}
    (hact : state.act i (.mutexUnlock operation) choice = some (result, state'))
    (hkeeps : KeepsRecord state i record)
    (hmay : record.May (.mutexUnlock operation)) :
    KeepsNext i state state' record (.mutexUnlock operation) result := by
  have howner : state.locks operation = some i := (hkeeps.mutexes operation).mpr hmay
  cases choice with
  | succeed =>
      obtain ⟨rfl, rfl⟩ := Prod.mk.inj (Option.some.inj hact)
      refine ⟨trivial, ⟨keepsMutexes_unlock hkeeps.mutexes, hkeeps.cleared,
        hkeeps.mails⟩, ?_⟩
      intro j record' hne hrecord
      exact ⟨keepsMutexes_unlock_of_ne hne howner hrecord.mutexes, hrecord.cleared,
        hrecord.mails⟩
  | _ => exact absurd hact (by simp [UserState.act])

theorem keepsNext_queueUnlock
    {which : UserMail} {choice : Choice} {result : Unit}
    (hact : state.act i (.queueUnlock which) choice = some (result, state'))
    (hkeeps : KeepsRecord state i record) :
    KeepsNext i state state' record (.queueUnlock which) result := by
  cases choice with
  | succeed =>
      obtain ⟨rfl, rfl⟩ := Prod.mk.inj (Option.some.inj hact)
      refine ⟨trivial, ⟨hkeeps.mutexes, ?_, hkeeps.mails⟩, ?_⟩
      · rw [CallRecord.next, ← hkeeps.cleared]
        exact clearedBy_cons_self which state.cleared
      · intro j record' hne hrecord
        refine ⟨hrecord.mutexes, ?_, hrecord.mails⟩
        rw [← hrecord.cleared]
        exact clearedBy_cons_of_ne hne which state.cleared
  | _ => exact absurd hact (by simp [UserState.act])

theorem keepsNext_listPop
    {which : UserMail} {choice : Choice} {result : Option Al5Mail}
    (hact : state.act i (.listPop which) choice = some (result, state'))
    (hkeeps : KeepsRecord state i record) :
    KeepsNext i state state' record (.listPop which) result := by
  cases choice with
  | succeed =>
      obtain ⟨rfl, rfl⟩ := Prod.mk.inj (Option.some.inj hact)
      refine ⟨trivial, ⟨hkeeps.mutexes, hkeeps.cleared, ?_⟩, ?_⟩
      · rw [CallRecord.next, ← hkeeps.mails]
        simp only [UserState.record]
        cases (state.queues which).mails.head? with
        | none => rfl
        | some mail => simp [mailsHeld, UserState.setQueue]
      · intro j record' hne hrecord
        refine ⟨hrecord.mutexes, hrecord.cleared, ?_⟩
        rw [← hrecord.mails]
        simp only [UserState.record]
        cases (state.queues which).mails.head? with
        | none => rfl
        | some mail => simp [mailsHeld, UserState.setQueue, Ne.symm hne]
  | _ => exact absurd hact (by simp [UserState.act])

theorem keepsNext_freeMail
    {mail : Al5Mail} {choice : Choice} {result : Unit}
    (hact : state.act i (.freeMail mail) choice = some (result, state'))
    (hkeeps : KeepsRecord state i record) :
    KeepsNext i state state' record (.freeMail mail) result := by
  cases choice with
  | succeed =>
      obtain ⟨rfl, rfl⟩ := Prod.mk.inj (Option.some.inj hact)
      refine ⟨trivial, ⟨hkeeps.mutexes, hkeeps.cleared, ?_⟩, ?_⟩
      · rw [CallRecord.next, ← hkeeps.mails]
        simp [mailsHeld, UserState.record]
      · intro j record' hne hrecord
        refine ⟨hrecord.mutexes, hrecord.cleared, ?_⟩
        rw [← hrecord.mails]
        simp [mailsHeld, UserState.record, Ne.symm hne]
  | _ => exact absurd hact (by simp [UserState.act])

def UserAct.isNeutral : UserAct → Bool
  | .mutexLockKillable _ | .mutexTrylock _ | .mutexUnlock _ | .queueUnlock _
  | .listPop _ | .freeMail _ => false
  | _ => true

/-- The rest of the actions leave mutexes and queue flags for a destroy alone,
and log neither a pop nor a free. -/
theorem act_neutral
    {action : UserAct} {choice : Choice} {result : action.Res}
    (hneutral : action.isNeutral = true)
    (hact : state.act i action choice = some (result, state')) :
    state'.locks = state.locks ∧ state'.cleared = state.cleared ∧
      ∀ j, mailsHeld j state'.log = mailsHeld j state.log := by
  cases action with
  | mutexLockKillable operation => exact absurd hneutral (by simp [UserAct.isNeutral])
  | mutexTrylock operation => exact absurd hneutral (by simp [UserAct.isNeutral])
  | mutexUnlock operation => exact absurd hneutral (by simp [UserAct.isNeutral])
  | queueUnlock which => exact absurd hneutral (by simp [UserAct.isNeutral])
  | listPop which => exact absurd hneutral (by simp [UserAct.isNeutral])
  | freeMail mail => exact absurd hneutral (by simp [UserAct.isNeutral])
  | _ =>
      cases choice <;> simp only [UserState.act] at hact <;>
        first
          | (obtain ⟨-, rfl⟩ := Prod.mk.inj (Option.some.inj hact)
             exact ⟨rfl, rfl, fun _ => rfl⟩)
          | (split_ifs at hact
             all_goals
               obtain ⟨-, rfl⟩ := Prod.mk.inj (Option.some.inj hact)
               exact ⟨rfl, rfl, fun _ => rfl⟩)
          | exact absurd hact (by simp)

theorem keepsNext_act
    {action : UserAct} {choice : Choice} {result : action.Res}
    (hact : state.act i action choice = some (result, state'))
    (hkeeps : KeepsRecord state i record) (hmay : record.May action) :
    KeepsNext i state state' record action result := by
  cases action with
  | mutexLockKillable operation => exact keepsNext_lockKillable hact hkeeps
  | mutexTrylock operation => exact keepsNext_trylock hact hkeeps
  | mutexUnlock operation => exact keepsNext_unlock hact hkeeps hmay
  | queueUnlock which => exact keepsNext_queueUnlock hact hkeeps
  | listPop which => exact keepsNext_listPop hact hkeeps
  | freeMail mail => exact keepsNext_freeMail hact hkeeps
  | _ =>
      obtain ⟨hlocks, hcleared, hmails⟩ := act_neutral rfl hact
      exact keepsNext_of_same trivial rfl hkeeps hlocks hcleared hmails

end

theorem userDiscipline_fits (kind : UserKind) (uid : Word) :
    userDiscipline.Fits (userMachine kind uid) KeepsRecord where
  exec := by
    intro i op action choice state result state' record hexec hkeeps hmay
    simp only [userMachine] at hexec
    split at hexec
    · exact keepsNext_act hexec hkeeps hmay
    · exact absurd hexec (by simp)
  enter := by
    intro calls op state state' j record henter hkeeps
    simp only [userMachine, userEnter] at henter
    split_ifs at henter
    · rw [← Option.some.inj henter]
      exact ⟨hkeeps.mutexes, hkeeps.cleared, hkeeps.mails⟩
    · rw [← Option.some.inj henter]
      exact hkeeps
  env := by
    intro event state state' j record henv hkeeps
    simp only [userMachine] at henv
    split_ifs at henv
    rw [← Option.some.inj henv]
    exact ⟨hkeeps.mutexes, hkeeps.cleared, hkeeps.mails⟩

/-! ## Rules -/

section

variable {α β : Type} {record record' : CallRecord}

/-- The program follows the discipline from one record to another. -/
def Leads (record record' : CallRecord) (program : UserProg α) : Prop :=
  userDiscipline.Follows record program fun _ last => last = record'

theorem leads_pure (value : α) : Leads record record (pure value : UserProg α) :=
  rfl

theorem leads_perform
    {action : UserAct} {rest : action.Res → UserProg α}
    (hneutral : action.isNeutral = true)
    (hrest : ∀ result, Leads record record' (rest result)) :
    Leads record record' (Prog.perform action >>= rest) := by
  cases action with
  | mutexLockKillable operation => exact absurd hneutral (by simp [UserAct.isNeutral])
  | mutexTrylock operation => exact absurd hneutral (by simp [UserAct.isNeutral])
  | mutexUnlock operation => exact absurd hneutral (by simp [UserAct.isNeutral])
  | queueUnlock which => exact absurd hneutral (by simp [UserAct.isNeutral])
  | listPop which => exact absurd hneutral (by simp [UserAct.isNeutral])
  | freeMail mail => exact absurd hneutral (by simp [UserAct.isNeutral])
  | _ => exact ⟨trivial, fun result _ => hrest result⟩

theorem leads_perform_last
    {action : UserAct} (hneutral : action.isNeutral = true) :
    Leads record record (Prog.perform action : UserProg action.Res) :=
  leads_perform hneutral fun result => leads_pure result

theorem leads_bind
    {mid : CallRecord} {first : UserProg β} {rest : β → UserProg α}
    (hfirst : Leads record mid first)
    (hrest : ∀ value, Leads mid record' (rest value)) :
    Leads record record' (first >>= rest) := by
  apply Discipline.Follows.bind hfirst
  rintro value _ rfl
  exact hrest value

theorem leads_queueUnlock
    {which : UserMail} {rest : Unit → UserProg α}
    (hrest : Leads { record with cleared := which :: record.cleared } record'
      (rest ())) :
    Leads record record' (Prog.perform (.queueUnlock which) >>= rest) :=
  ⟨trivial, fun _ _ => hrest⟩

/-- The first mutex of a call. -/
theorem leads_lock_first
    {operation : UserOperation} {rest : ℤ → UserProg α}
    (hlast : operation ≠ .reconstructed)
    (hinterrupted : Leads .empty record' (rest (-EINTR)))
    (hlocked : Leads ⟨[operation], [], []⟩ record' (rest 0)) :
    Leads .empty record' (Prog.perform (.mutexLockKillable operation) >>= rest) := by
  refine ⟨⟨List.not_mem_nil, by simp [CallRecord.empty], fun h => absurd h hlast⟩, ?_⟩
  rintro err (rfl | rfl)
  · change Leads ⟨[operation], if operation = .reconstructed then [] else [], []⟩
      record' (rest 0)
    rw [if_neg hlast]
    exact hlocked
  · exact hinterrupted

theorem leads_trylock_first
    {operation : UserOperation} {rest : Bool → UserProg α}
    (hbusy : Leads .empty record' (rest false))
    (hlocked : Leads ⟨[operation], [], []⟩ record' (rest true)) :
    Leads .empty record' (Prog.perform (.mutexTrylock operation) >>= rest) := by
  refine ⟨List.not_mem_nil, ?_⟩
  intro locked _
  cases locked with
  | false => exact hbusy
  | true => exact hlocked

/-- The only mutex of a call. -/
theorem leads_unlock_last
    {operation : UserOperation} {cleared : List UserMail} {mails : List Al5Mail}
    {rest : Unit → UserProg α}
    (hrest : Leads ⟨[], cleared, mails⟩ record' (rest ())) :
    Leads ⟨[operation], cleared, mails⟩ record'
      (Prog.perform (.mutexUnlock operation) >>= rest) := by
  refine ⟨List.mem_singleton_self operation, ?_⟩
  intro _ _
  have hfilter : [operation].filter (fun other => other ≠ operation) = [] := by simp
  change Leads ⟨[operation].filter fun other => other ≠ operation, cleared, mails⟩
    record' (rest ())
  rw [hfilter]
  exact hrest

/-- The mail at hand is freed. -/
theorem leads_freeMail
    {mutexes : List UserOperation} {cleared : List UserMail} {mail : Al5Mail}
    {rest : Unit → UserProg α}
    (hrest : Leads ⟨mutexes, cleared, []⟩ record' (rest ())) :
    Leads ⟨mutexes, cleared, [mail]⟩ record'
      (Prog.perform (.freeMail mail) >>= rest) := by
  refine ⟨List.mem_singleton_self mail, ?_⟩
  intro _ _
  have herase : [mail].erase mail = [] := by simp
  change Leads ⟨mutexes, cleared, [mail].erase mail⟩ record' (rest ())
  rw [herase]
  exact hrest

/-- A pop leaves the mail, if there is one, with the call. -/
theorem leads_queuePop
    {mutexes : List UserOperation} {cleared : List UserMail} {which : UserMail}
    {rest : Option Al5Mail → UserProg α}
    (hnone : Leads ⟨mutexes, cleared, []⟩ record' (rest none))
    (hsome : ∀ mail, Leads ⟨mutexes, cleared, [mail]⟩ record' (rest (some mail))) :
    Leads ⟨mutexes, cleared, []⟩ record' (al5QueuePop which >>= rest) := by
  refine ⟨trivial, fun _ _ => ⟨rfl, ?_⟩⟩
  intro mail _
  cases mail with
  | none => exact hnone
  | some mail => exact hsome mail

theorem leads_queuePopTimeout
    {mutexes : List UserOperation} {cleared : List UserMail} {which : UserMail}
    {rest : ℤ × Option Al5Mail → UserProg α}
    (hnone : ∀ err, Leads ⟨mutexes, cleared, []⟩ record' (rest (err, none)))
    (hsome : ∀ mail,
      Leads ⟨mutexes, cleared, [mail]⟩ record' (rest (0, some mail))) :
    Leads ⟨mutexes, cleared, []⟩ record' (al5QueuePopTimeout which >>= rest) := by
  refine ⟨trivial, fun err _ => ⟨rfl, ?_⟩⟩
  intro mail _
  cases mail with
  | none => exact hnone _
  | some mail => exact hsome mail

/-! ## The operations -/

theorem leads_sendBuilt (constructor : Bool → MailResult) :
    Leads record record (sendBuilt constructor) := by
  unfold sendBuilt buildMail
  apply leads_bind
  · apply leads_perform rfl
    intro kmalloc
    cases constructor kmalloc with
    | ok mail => exact leads_pure mail
    | error fault => exact leads_perform rfl fun _ => leads_pure none
  · intro mail
    cases mail with
    | none => exact leads_pure _
    | some mail => exact leads_perform_last rfl

theorem leads_userQueuesUnlock :
    Leads .empty ⟨[], [.reconstructed, .create, .sc, .status], []⟩
      userQueuesUnlock := by
  unfold userQueuesUnlock
  exact leads_queueUnlock (leads_queueUnlock (leads_queueUnlock
    (leads_queueUnlock (leads_pure ()))))

theorem leads_userQueuesLock : Leads record record userQueuesLock := by
  unfold userQueuesLock
  exact leads_perform rfl fun _ => leads_perform rfl fun _ =>
    leads_perform rfl fun _ => leads_perform_last rfl

theorem leads_destroyChannelResources :
    Leads record record al5UserDestroyChannelResources := by
  unfold al5UserDestroyChannelResources
  exact leads_perform rfl fun _ => leads_perform_last rfl

theorem leads_forgetChannel : Leads record record forgetChannel := by
  unfold forgetChannel
  exact leads_perform rfl fun _ => leads_perform rfl fun _ =>
    leads_destroyChannelResources

theorem leads_unlockAll
    {taken : List UserOperation} (hnodup : taken.Nodup) :
    Leads ⟨taken, [], []⟩ .empty (unlockAll taken) := by
  induction taken with
  | nil => exact leads_pure ()
  | cons operation rest ih =>
      obtain ⟨hnot, hrest⟩ := List.nodup_cons.mp hnodup
      have hfilter :
          (operation :: rest).filter (fun other => other ≠ operation) = rest := by
        rw [List.filter_cons_of_neg (by simp), List.filter_eq_self]
        intro other hother
        exact decide_eq_true fun heq => hnot (heq ▸ hother)
      refine ⟨List.mem_cons_self, fun _ _ => ?_⟩
      change Leads
        ⟨(operation :: rest).filter fun other => other ≠ operation, [], []⟩ .empty
        (unlockAll rest)
      rw [hfilter]
      exact ih hrest

/-- The mutex loop holds all mutexes at its end, or none when interrupted; the
last mutex is taken with the four queues unlocked. -/
theorem follows_lockAll
    {rest taken : List UserOperation} {cleared : List UserMail}
    (hsorted : (taken ++ rest).Pairwise fun first second =>
      first.rank < second.rank)
    (hcleared : (rest = [] ∧ cleared = []) ∨
      (rest.getLast? = some .reconstructed ∧ ∀ which ∈ userQueues, which ∈ cleared)) :
    userDiscipline.Follows ⟨taken, cleared, []⟩ (lockAll rest taken)
      fun locked last => last = if locked then ⟨taken ++ rest, [], []⟩ else .empty := by
  induction rest generalizing taken cleared with
  | nil =>
      rcases hcleared with ⟨_, rfl⟩ | ⟨hlast, _⟩
      · rw [List.append_nil]
        exact rfl
      · exact absurd hlast (by simp)
  | cons operation rest ih =>
      have hqueues : (operation :: rest).getLast? = some .reconstructed ∧
          ∀ which ∈ userQueues, which ∈ cleared := by
        rcases hcleared with ⟨hnil, _⟩ | hqueues
        · exact absurd hnil (List.cons_ne_nil _ _)
        · exact hqueues
      have hbefore : ∀ other ∈ taken, other.rank < operation.rank := by
        intro other hother
        exact (List.pairwise_append.mp hsorted).2.2 other hother operation
          List.mem_cons_self
      have hnot : operation ∉ taken := by
        intro hmem
        exact absurd (hbefore operation hmem) (lt_irrefl _)
      have hnodup : taken.Nodup := by
        refine List.Pairwise.imp ?_ (List.pairwise_append.mp hsorted).1
        intro first second hlt heq
        rw [heq] at hlt
        exact absurd hlt (lt_irrefl _)
      refine ⟨⟨hnot, hbefore, fun _ => hqueues.2⟩, ?_⟩
      rintro err (rfl | rfl)
      · change userDiscipline.Follows
          ⟨taken ++ [operation], if operation = .reconstructed then [] else cleared, []⟩
          (lockAll rest (taken ++ [operation])) _
        rw [List.append_cons] at hsorted
        refine (ih hsorted ?_).mono ?_
        · cases rest with
          | nil =>
              have hlast : operation = .reconstructed := by simpa using hqueues.1
              exact .inl ⟨rfl, if_pos hlast⟩
          | cons next rest =>
              have hlast : (next :: rest).getLast? = some .reconstructed := by
                rw [← hqueues.1, List.getLast?_cons_cons]
              have hne : operation ≠ .reconstructed := by
                rintro rfl
                have hmem := List.mem_of_getLast? hlast
                have hlt := (List.pairwise_append.mp hsorted).2.2 .reconstructed
                  (by simp) .reconstructed hmem
                exact absurd hlt (lt_irrefl _)
              rw [if_neg hne]
              exact .inr ⟨hlast, hqueues.2⟩
        · intro locked last hlast
          rw [hlast, List.append_assoc]
          rfl
      · change userDiscipline.Follows ⟨taken, [], []⟩
          (unlockAll taken >>= fun _ => pure false) _
        apply Discipline.Follows.bind (leads_unlockAll hnodup)
        rintro _ _ rfl
        exact rfl

theorem leads_destroyUnderLocks
    {mutexes : List UserOperation} (quiet : Bool) :
    Leads ⟨mutexes, [], []⟩ ⟨mutexes, [], []⟩ (destroyUnderLocks quiet) := by
  unfold destroyUnderLocks
  apply leads_perform rfl
  intro chanUid
  cases quiet with
  | true =>
      apply leads_bind (leads_sendBuilt _)
      intro err
      split
      · exact leads_pure err
      · exact leads_bind leads_forgetChannel fun _ => leads_pure 0
  | false =>
      apply leads_bind (leads_sendBuilt _)
      intro err
      split
      · exact leads_pure err
      · apply leads_queuePop
        · exact leads_pure _
        · intro mail
          apply leads_freeMail
          exact leads_bind leads_forgetChannel fun _ => leads_pure 0

theorem leads_destroyChannel (quiet : Bool) :
    Leads .empty .empty (al5UserDestroyChannel quiet) := by
  unfold al5UserDestroyChannel
  apply leads_perform rfl
  intro chanUid
  split
  · exact leads_pure _
  · apply leads_bind leads_userQueuesUnlock
    intro _
    apply Discipline.Follows.bind
      (follows_lockAll (by decide) (.inr ⟨rfl, by decide⟩))
    rintro locked last rfl
    cases locked with
    | true =>
        apply leads_bind (leads_destroyUnderLocks quiet)
        intro err
        apply leads_bind (leads_unlockAll (by decide))
        intro _
        exact leads_bind leads_userQueuesLock fun _ => leads_pure err
    | false => exact leads_bind leads_userQueuesLock fun _ => leads_pure _

theorem leads_sendBuffers (mailUid : MailUid) (pool : BufferPool) :
    Leads record record (sendBuffers mailUid pool) := by
  unfold sendBuffers
  exact leads_perform rfl fun _ => leads_perform rfl fun _ => leads_sendBuilt _

theorem leads_allocateChannelBuffers (buffers : Al5ChannelBuffers) :
    Leads record record (allocateChannelBuffers buffers) := by
  unfold allocateChannelBuffers
  apply leads_perform rfl
  intro err
  split
  · exact leads_pure err
  · exact leads_perform_last rfl

theorem leads_tryToCreateChannel
    {mutexes : List UserOperation} (uid : Word) (param : Al5Params)
    (status : Al5eChannelStatus) :
    Leads ⟨mutexes, [], []⟩ ⟨mutexes, [], []⟩
      (tryToCreateChannel uid param status) := by
  unfold tryToCreateChannel
  apply leads_bind (leads_sendBuilt _)
  intro err
  split
  · exact leads_pure _
  · apply leads_queuePopTimeout
    · exact fun err => leads_pure _
    · intro mail
      apply leads_freeMail
      split
      · exact leads_pure _
      · exact leads_perform rfl fun _ => leads_pure _

theorem leads_channelIsFullyCreated :
    Leads record record channelIsFullyCreated := by
  unfold channelIsFullyCreated
  apply leads_perform rfl
  intro chanUid
  split
  · exact leads_pure _
  · exact leads_perform rfl fun _ => leads_pure _

theorem leads_createSendReference :
    Leads ⟨[.create], [], []⟩ .empty createSendReference := by
  unfold createSendReference
  apply leads_perform rfl
  intro checkpoint
  split
  · apply leads_bind (leads_sendBuffers _ _)
    intro err
    split
    · exact leads_unlock_last (leads_pure err)
    · exact leads_perform rfl fun _ => leads_unlock_last (leads_pure 0)
  · exact leads_unlock_last (leads_pure 0)

theorem leads_createSendIntermediate :
    Leads ⟨[.create], [], []⟩ .empty createSendIntermediate := by
  unfold createSendIntermediate
  apply leads_perform rfl
  intro checkpoint
  split
  · apply leads_bind (leads_sendBuffers _ _)
    intro err
    split
    · exact leads_unlock_last (leads_pure err)
    · exact leads_perform rfl fun _ => leads_createSendReference
  · exact leads_createSendReference

theorem leads_createAllocate (message : Al5eFeedbackChannel) :
    Leads ⟨[.create], [], []⟩ .empty (createAllocate message) := by
  unfold createAllocate
  apply leads_perform rfl
  intro checkpoint
  split
  · apply leads_bind (leads_allocateChannelBuffers _)
    intro err
    split
    · apply leads_perform rfl
      intro _
      apply leads_unlock_last
      exact leads_bind (leads_destroyChannel false) fun _ => leads_pure err
    · exact leads_perform rfl fun _ => leads_createSendIntermediate
  · exact leads_createSendIntermediate

theorem leads_encoderCreate (uid : Word) (param : Al5Params)
    (status : Al5eChannelStatus) :
    Leads .empty .empty (al5eUserCreateChannel uid param status) := by
  unfold al5eUserCreateChannel
  apply leads_lock_first (by decide)
  · exact leads_pure _
  · apply leads_bind leads_channelIsFullyCreated
    intro created
    cases created with
    | true => exact leads_unlock_last (leads_pure _)
    | false =>
        apply leads_perform rfl
        intro checkpoint
        split
        · apply leads_bind (leads_tryToCreateChannel _ _ _)
          rintro ⟨err, status, message⟩
          dsimp only
          split
          · exact leads_unlock_last (leads_pure _)
          · apply leads_perform rfl
            intro _
            exact leads_bind (leads_createAllocate message) fun _ => leads_pure _
        · exact leads_bind (leads_createAllocate _) fun _ => leads_pure _

theorem leads_sendFrameCommand (constructor : Word → Bool → MailResult) :
    Leads .empty .empty (sendFrameCommand constructor) := by
  unfold sendFrameCommand
  apply leads_lock_first (by decide)
  · exact leads_pure _
  · apply leads_perform rfl
    intro chanUid
    split
    · exact leads_unlock_last (leads_pure _)
    · apply leads_perform rfl
      intro chanUid
      apply leads_bind (leads_sendBuilt _)
      intro err
      exact leads_unlock_last (leads_pure err)

theorem leads_waitForStatus : Leads .empty .empty waitForStatus := by
  unfold waitForStatus
  apply leads_trylock_first
  · exact leads_pure _
  · apply leads_perform rfl
    intro chanUid
    split
    · exact leads_unlock_last (leads_pure _)
    · apply leads_queuePop
      · exact leads_unlock_last (leads_pure _)
      · intro mail
        exact leads_freeMail (leads_unlock_last (leads_pure _))

theorem leads_putStreamBuffer (buffer : Al5Buffer) :
    Leads record record (al5eUserPutStreamBuffer buffer) := by
  unfold al5eUserPutStreamBuffer
  apply leads_perform rfl
  intro chanUid
  split
  · exact leads_pure _
  · apply leads_perform rfl
    intro result
    cases result with
    | error error => exact leads_pure error
    | ok info =>
        dsimp only
        split
        · exact leads_pure _
        · exact leads_perform rfl fun _ => leads_sendBuilt _

theorem leads_getUserRecBuffer (id : Word) :
    Leads record record (getUserRecBuffer id) := by
  unfold getUserRecBuffer
  apply leads_perform rfl
  intro bufpool
  split
  · exact leads_pure _
  · exact leads_perform_last rfl

theorem leads_getRec : Leads .empty .empty al5eUserGetRec := by
  unfold al5eUserGetRec
  apply leads_trylock_first
  · exact leads_pure _
  · apply leads_perform rfl
    intro chanUid
    split
    · exact leads_unlock_last (leads_pure _)
    · apply leads_perform rfl
      intro chanUid
      apply leads_bind (leads_sendBuilt _)
      intro err
      split
      · exact leads_unlock_last (leads_pure _)
      · apply leads_queuePop
        · exact leads_unlock_last (leads_pure _)
        · intro mail
          apply leads_bind (leads_getUserRecBuffer _)
          intro fd
          apply leads_freeMail
          apply leads_unlock_last
          split
          · exact leads_pure _
          · exact leads_pure _

theorem leads_releaseRec (fd : Word) :
    Leads .empty .empty (al5eUserReleaseRec fd) := by
  unfold al5eUserReleaseRec
  apply leads_trylock_first
  · exact leads_pure _
  · apply leads_perform rfl
    intro chanUid
    split
    · exact leads_unlock_last (leads_pure _)
    · apply leads_perform rfl
      intro id
      split
      · exact leads_unlock_last (leads_pure _)
      · apply leads_perform rfl
        intro chanUid
        apply leads_bind (leads_sendBuilt _)
        intro err
        exact leads_unlock_last (leads_pure err)

theorem leads_initChan (mail : Al5Mail) : Leads record record (initChan mail) := by
  unfold initChan
  apply leads_perform rfl
  intro _
  apply leads_perform rfl
  intro chanUid
  split
  · exact leads_pure _
  · exact leads_pure _

theorem leads_decoderCreate (uid : Word) (param : Al5Params)
    (status : Al5dChannelStatus) :
    Leads .empty .empty (al5dUserCreateChannel uid param status) := by
  unfold al5dUserCreateChannel
  apply leads_lock_first (by decide)
  · exact leads_pure _
  · apply leads_perform rfl
    intro chanUid
    split
    · exact leads_unlock_last (leads_pure _)
    · apply leads_bind (leads_sendBuilt _)
      intro err
      split
      · exact leads_unlock_last (leads_pure _)
      · apply leads_queuePopTimeout
        · exact fun err => leads_unlock_last (leads_pure _)
        · intro mail
          apply leads_bind (leads_initChan mail)
          intro err
          exact leads_freeMail (leads_unlock_last (leads_pure _))

theorem leads_waitForStartCode :
    Leads .empty .empty al5dUserWaitForStartCode := by
  unfold al5dUserWaitForStartCode
  apply leads_trylock_first
  · exact leads_pure _
  · apply leads_queuePop
    · exact leads_unlock_last (leads_pure _)
    · intro mail
      exact leads_freeMail (leads_unlock_last (leads_pure _))

theorem leads_drainQueue
    {cleared : List UserMail} (which : UserMail) (rounds : ℕ) :
    Leads ⟨[], cleared, []⟩ ⟨[], cleared, []⟩ (drainQueue which rounds) := by
  induction rounds with
  | zero => exact leads_perform_last rfl
  | succ rounds ih =>
      apply leads_queuePop
      · exact leads_pure ()
      · intro mail
        exact leads_freeMail ih

theorem leads_removeResidualMessages
    {cleared : List UserMail} (rounds : ℕ) (queues : List UserMail) :
    Leads ⟨[], cleared, []⟩ ⟨[], queues.reverse ++ cleared, []⟩
      (removeResidualMessages rounds queues) := by
  induction queues generalizing cleared with
  | nil => exact leads_pure ()
  | cons which queues ih =>
      rw [List.reverse_cons, List.append_assoc]
      apply leads_queueUnlock
      exact leads_bind (leads_drainQueue which rounds) fun _ => ih

theorem leads_quietDestroyLoop (tries : ℕ) :
    Leads .empty .empty (quietDestroyLoop tries) := by
  induction tries with
  | zero => exact leads_pure ()
  | succ tries ih =>
      apply leads_bind (leads_destroyChannel true)
      intro ret
      split
      · exact leads_pure ()
      · exact ih

theorem leads_release (rounds : ℕ) :
    Leads .empty ⟨[], userMails.reverse, []⟩ (al5CodecRelease rounds) := by
  unfold al5CodecRelease
  apply leads_perform rfl
  intro chanUid
  split
  · exact leads_bind (leads_removeResidualMessages rounds userMails) fun _ =>
      leads_perform_last rfl
  · apply leads_bind (leads_quietDestroyLoop 10000)
    intro _
    apply leads_bind leads_destroyChannelResources
    intro _
    exact leads_bind (leads_removeResidualMessages rounds userMails) fun _ =>
      leads_perform_last rfl

theorem leads_initMcu (uid : Word) (msg : List Byte) :
    Leads .empty .empty (initMcu uid msg) := by
  unfold initMcu
  apply leads_lock_first (by decide)
  · exact leads_pure _
  · apply leads_queuePopTimeout
    · exact fun err => leads_unlock_last (leads_pure _)
    · intro mail
      apply leads_freeMail
      apply leads_perform rfl
      intro suballocBuf
      cases suballocBuf with
      | false => exact leads_unlock_last (leads_pure _)
      | true =>
          apply leads_bind (leads_sendBuilt _)
          intro err
          split
          · exact leads_unlock_last (leads_pure _)
          · apply leads_queuePopTimeout
            · exact fun err => leads_unlock_last (leads_pure _)
            · intro mail
              exact leads_freeMail (leads_unlock_last (leads_pure _))

theorem leads_setFirmware (uid : Word) (msg : List Byte) :
    Leads .empty .empty (al5CodecSetFirmware uid msg) := by
  unfold al5CodecSetFirmware
  apply leads_bind (leads_initMcu uid msg)
  intro err
  split
  · exact leads_pure _
  · exact leads_perform rfl fun _ => leads_pure _

/-- What a call owns when it has returned: no mutex and no mail. -/
def OwnsNothing (record : CallRecord) : Prop :=
  record.mutexes = [] ∧ record.mails = []

theorem follows_of_leads
    {program : UserProg α} {f : α → UserOut} {cleared : List UserMail}
    (hleads : Leads .empty ⟨[], cleared, []⟩ program) :
    userDiscipline.Follows .empty (program.bind fun value => .ret (f value))
      fun _ last => OwnsNothing last := by
  apply Discipline.Follows.bind hleads
  rintro value _ rfl
  exact ⟨rfl, rfl⟩

/-- Every operation gives back exactly the mutexes it took and frees exactly the
mails it popped. -/
theorem follows_userBody (uid : Word) (op : UserOp) :
    userDiscipline.Follows .empty (userBody uid op) fun _ last =>
      OwnsNothing last := by
  cases op with
  | encoderCreate param status =>
      exact follows_of_leads (leads_encoderCreate uid param status)
  | encodeOneFrame msg => exact follows_of_leads (leads_sendFrameCommand _)
  | encoderWaitForStatus => exact follows_of_leads leads_waitForStatus
  | putStreamBuffer buffer => exact follows_of_leads (leads_putStreamBuffer buffer)
  | getRec => exact follows_of_leads leads_getRec
  | releaseRec fd => exact follows_of_leads (leads_releaseRec fd)
  | decoderCreate param status =>
      exact follows_of_leads (leads_decoderCreate uid param status)
  | decodeOneFrame msg => exact follows_of_leads (leads_sendFrameCommand _)
  | decodeOneSlice msg => exact follows_of_leads (leads_sendFrameCommand _)
  | searchStartCode msg => exact follows_of_leads (leads_sendBuilt _)
  | decoderWaitForStatus => exact follows_of_leads leads_waitForStatus
  | waitForStartCode => exact follows_of_leads leads_waitForStartCode
  | destroy quiet => exact follows_of_leads (leads_destroyChannel quiet)
  | release rounds => exact follows_of_leads (leads_release rounds)
  | setFirmware msg => exact follows_of_leads (leads_setFirmware uid msg)

end

/-- Every configuration which is reached under any regime. -/
theorem userDiscipline_kept
    {kind : UserKind} {uid : Word} {config : UserConfig}
    {regime : Regime UserState UserAct Choice UserOp Al5Mail}
    (hreach : (userMachine kind uid).Reach regime userStart config) :
    userDiscipline.Kept KeepsRecord .empty (fun _ _ last => OwnsNothing last)
      config := by
  apply (userDiscipline_fits kind uid).sound (follows_userBody uid) _ hreach
  intro i
  exact ⟨by intro operation; simp [al5UserInit, CallRecord.empty], rfl, rfl⟩

end VcuDriver

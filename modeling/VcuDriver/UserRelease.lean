import VcuDriver.Dispatch
import VcuDriver.UserCreateStatus

/-!
# What a release leaves

`al5_codec_release` tries ten thousand times to send a quiet destroy for the channel of
its file, frees the buffers whether it succeeded or not, and unbinds the user.  It is the
last call on the user: the others have returned, so every mutex is free, and only mails
are still delivered.
-/

namespace VcuDriver

open Conc

/-! ## What belongs to the user -/

def mailsSent : List Event → List Al5Mail
  | [] => []
  | .sent _ mail :: earlier => mail :: mailsSent earlier
  | _ :: earlier => mailsSent earlier

/-- What a delivery leaves alone: all but the queues. -/
structure Holdings where
  chanUid : Word
  locks : UserOperation → Option ℕ
  pools : BufferPool → List DmaBuffer
  bound : Bool
  sent : List Al5Mail

def UserState.holdings (state : UserState) : Holdings where
  chanUid := state.chanUid
  locks := state.locks
  pools := state.pools
  bound := state.bound
  sent := mailsSent state.log

namespace Holdings

def locked (holdings : Holdings) (i : ℕ) (operations : List UserOperation) : Holdings :=
  { holdings with
    locks := fun operation => if operation ∈ operations then some i else none }

/-- Its quiet destroy is sent, and the channel is forgotten with its buffers. -/
def destroyed (holdings : Holdings) : Holdings where
  chanUid := badChan
  locks := holdings.locks
  pools _ := []
  bound := holdings.bound
  sent := Group.quietDestroyMail holdings.chanUid :: holdings.sent

def Free (holdings : Holdings) : Prop :=
  ∀ operation, holdings.locks operation = none

theorem Free.locked_nil {holdings : Holdings} (hfree : holdings.Free) (i : ℕ) :
    holdings.locked i [] = holdings := by
  have hlocks : (fun _ => none) = holdings.locks := (funext hfree).symm
  simp [locked, hlocks]

end Holdings

/-- The call closes the user, and these are the user's holdings. -/
structure Closing (i : ℕ) (holdings : Holdings) (state : UserState) : Prop where
  closer : state.closer = some i
  holdings : state.holdings = holdings

/-- While a call closes the user, nobody else changes the holdings. -/
def releaseWatch (kind : UserKind) (uid : Word) :
    Watch (userMachine kind uid) (userRegime ∅) where
  inv _ := True
  rely i state state' := state.closer = some i →
    state'.closer = some i ∧ state'.holdings = state.holdings
  rely_refl _ _ hcloser := ⟨hcloser, rfl⟩
  rely_trans hfirst hsecond hcloser := by
    obtain ⟨hcloser₁, hsame₁⟩ := hfirst hcloser
    obtain ⟨hcloser₂, hsame₂⟩ := hsecond hcloser₁
    exact ⟨hcloser₂, hsame₂.trans hsame₁⟩

abbrev releaseEnds (kind : UserKind) (uid : Word) (i : ℕ) (op : UserOp) {α : Type}
    (program : UserProg α) (post : α → UserState → Prop) (state : UserState) : Prop :=
  (releaseWatch kind uid).Ends i op program post state

section

variable {kind : UserKind} {uid : Word} {i : ℕ} {op : UserOp} {α : Type}
variable {post : α → UserState → Prop} {state state' : UserState} {holdings : Holdings}

/-- While a call closes the user, only this call makes steps. -/
theorem eq_of_exec_closer
    {closer j : ℕ} {action : UserAct} {choice : Choice} {outcome : action.Res × UserState}
    (hcloser : state.closer = some closer)
    (hexec : (userMachine kind uid).exec j op action choice state = some outcome) :
    j = closer := by
  simp only [userMachine, hcloser] at hexec
  split at hexec
  · rename_i hsame
    exact (beq_iff_eq.mp hsame).symm
  · exact absurd hexec (by simp)

theorem eq_deliver_of_env
    {mail : Al5Mail} (henv : (userMachine kind uid).env mail state = some state') :
    state' = al5UserDeliver mail state := by
  simp only [userMachine] at henv
  split at henv
  · exact (Option.some.inj henv).symm
  · exact absurd henv (by simp)

theorem releaseWatch_sees (kind : UserKind) (uid : Word) (start : UserConfig) :
    (releaseWatch kind uid).Sees start where
  inv _ := trivial
  step := by
    intro config config' j choice _ _ hnext i hi hcloser
    obtain ⟨op, action, rest, result, state, -, hexec, rfl⟩ :=
      Machine.next_step_eq_some hnext
    exact absurd (eq_of_exec_closer hcloser hexec) (Ne.symm hi)
  env := by
    intro config config' mail _ _ hnext i hcloser
    obtain ⟨state, henv, rfl⟩ := Machine.next_env_eq_some hnext
    obtain rfl := eq_deliver_of_env henv
    exact ⟨hcloser, rfl⟩

/-! ## Rules -/

theorem Closing.rely (hclosing : Closing i holdings state)
    (hrely : (releaseWatch kind uid).rely i state state') : Closing i holdings state' := by
  obtain ⟨hcloser, hsame⟩ := hrely hclosing.closer
  exact ⟨hcloser, hsame.trans hclosing.holdings⟩

theorem Closing.ends_act
    {action : UserAct} {next : action.Res → UserProg α}
    (hclosing : Closing i holdings state)
    (hstep : ∀ state₁ choice result state₂, Closing i holdings state₁ →
      state₁.act i action choice = some (result, state₂) →
        releaseEnds kind uid i op (next result) post state₂) :
    releaseEnds kind uid i op (.act action next) post state := by
  refine Watch.ends_act hclosing (fun _ _ hassert hrely => hassert.rely hrely) ?_
  intro state₁ choice result state₂ _ hclosing₁ hexec _ _
  exact hstep state₁ choice result state₂ hclosing₁ (act_of_exec hexec)

def UserAct.isSilent : UserAct → Bool
  | .getChanUid | .getCheckpoint | .setCheckpoint _ | .kmalloc | .queueUnlock _
  | .queueLock _ | .waitEvent _ | .waitEventTimeout _ | .listPop _ | .freeMail _
  | .getBufpool _ | .oops => true
  | _ => false

theorem Closing.silent
    {action : UserAct} {choice : Choice} {result : action.Res}
    (hsilent : action.isSilent = true) (hclosing : Closing i holdings state)
    (hact : state.act i action choice = some (result, state')) :
    Closing i holdings state' := by
  obtain ⟨hcloser, hholdings⟩ := hclosing
  cases action <;> simp only [UserAct.isSilent, Bool.false_eq_true] at hsilent <;>
    cases choice <;> simp only [UserState.act] at hact <;>
    first
      | (obtain ⟨-, rfl⟩ := Prod.mk.inj (Option.some.inj hact)
         exact ⟨hcloser, hholdings⟩)
      | (split_ifs at hact
         all_goals
           obtain ⟨-, rfl⟩ := Prod.mk.inj (Option.some.inj hact)
           exact ⟨hcloser, hholdings⟩)
      | exact absurd hact (by simp)

theorem Closing.ends_silent
    {action : UserAct} {next : action.Res → UserProg α}
    (hclosing : Closing i holdings state) (hsilent : action.isSilent = true)
    (hnext : ∀ result state', Closing i holdings state' →
      releaseEnds kind uid i op (next result) post state') :
    releaseEnds kind uid i op (.act action next) post state :=
  hclosing.ends_act fun _ _ result state₂ hclosing₁ hact =>
    hnext result state₂ (hclosing₁.silent hsilent hact)

theorem Closing.ends_getChanUid
    {next : Word → UserProg α} (hclosing : Closing i holdings state)
    (hnext : ∀ state', Closing i holdings state' →
      releaseEnds kind uid i op (next holdings.chanUid) post state') :
    releaseEnds kind uid i op (.act .getChanUid next) post state := by
  refine hclosing.ends_act fun state₁ choice result state₂ hclosing₁ hact => ?_
  cases choice <;> simp only [UserState.act, reduceCtorEq] at hact
  obtain ⟨rfl, rfl⟩ := Prod.mk.inj (Option.some.inj hact)
  have hchan : state₁.chanUid = holdings.chanUid := congrArg Holdings.chanUid hclosing₁.holdings
  rw [hchan]
  exact hnext state₁ hclosing₁

/-- A free mutex is taken at once. -/
theorem Closing.ends_lock
    {operation : UserOperation} {next : ℤ → UserProg α} (hclosing : Closing i holdings state)
    (hfree : holdings.locks operation = none)
    (hnext : ∀ state', Closing i { holdings with
        locks := Function.update holdings.locks operation (some i) } state' →
      releaseEnds kind uid i op (next 0) post state') :
    releaseEnds kind uid i op (.act (.mutexLockKillable operation) next) post state := by
  refine hclosing.ends_act fun state₁ choice result state₂ hclosing₁ hact => ?_
  have hlock : state₁.locks operation = none :=
    (congrArg (fun own => own.locks operation) hclosing₁.holdings).trans hfree
  have hlocks : state₁.locks = holdings.locks := congrArg Holdings.locks hclosing₁.holdings
  cases choice <;> simp only [UserState.act, hlock, if_true, reduceCtorEq] at hact
  obtain ⟨rfl, rfl⟩ := Prod.mk.inj (Option.some.inj hact)
  refine hnext _ ?_
  rw [← hclosing₁.holdings]
  split_ifs
  · exact ⟨hclosing₁.closer, rfl⟩
  · exact ⟨hclosing₁.closer, rfl⟩

theorem Closing.ends_unlock
    {operation : UserOperation} {next : Unit → UserProg α} (hclosing : Closing i holdings state)
    (hnext : ∀ state', Closing i { holdings with
        locks := Function.update holdings.locks operation none } state' →
      releaseEnds kind uid i op (next ()) post state') :
    releaseEnds kind uid i op (.act (.mutexUnlock operation) next) post state := by
  refine hclosing.ends_act fun state₁ choice result state₂ hclosing₁ hact => ?_
  cases choice <;> simp only [UserState.act, reduceCtorEq] at hact
  obtain ⟨rfl, rfl⟩ := Prod.mk.inj (Option.some.inj hact)
  refine hnext _ ⟨hclosing₁.closer, ?_⟩
  rw [← hclosing₁.holdings]
  rfl

/-- A mail is accepted by the command ring, or refused. -/
theorem Closing.ends_send
    {mail : Al5Mail} {next : ℤ → UserProg α} (hclosing : Closing i holdings state)
    (haccepted : ∀ state', Closing i { holdings with sent := mail :: holdings.sent } state' →
      releaseEnds kind uid i op (next 0) post state')
    (hrefused : ∀ state', Closing i holdings state' →
      releaseEnds kind uid i op (next (-EAGAIN)) post state') :
    releaseEnds kind uid i op (.act (.send mail) next) post state := by
  refine hclosing.ends_act fun state₁ choice result state₂ hclosing₁ hact => ?_
  cases choice <;> simp only [UserState.act, reduceCtorEq] at hact
  · obtain ⟨rfl, rfl⟩ := Prod.mk.inj (Option.some.inj hact)
    refine haccepted _ ⟨hclosing₁.closer, ?_⟩
    rw [← hclosing₁.holdings]
    rfl
  · obtain ⟨rfl, rfl⟩ := Prod.mk.inj (Option.some.inj hact)
    exact hrefused _ hclosing₁

theorem Closing.ends_setChanUid
    {value : Word} {next : Unit → UserProg α} (hclosing : Closing i holdings state)
    (hnext : ∀ state', Closing i { holdings with chanUid := value } state' →
      releaseEnds kind uid i op (next ()) post state') :
    releaseEnds kind uid i op (.act (.setChanUid value) next) post state := by
  refine hclosing.ends_act fun state₁ choice result state₂ hclosing₁ hact => ?_
  cases choice <;> simp only [UserState.act, reduceCtorEq] at hact
  obtain ⟨rfl, rfl⟩ := Prod.mk.inj (Option.some.inj hact)
  refine hnext _ ⟨hclosing₁.closer, ?_⟩
  rw [← hclosing₁.holdings]
  rfl

theorem Closing.ends_bufpoolFree
    {pool : BufferPool} {next : Unit → UserProg α} (hclosing : Closing i holdings state)
    (hnext : ∀ state', Closing i { holdings with
        pools := Function.update holdings.pools pool [] } state' →
      releaseEnds kind uid i op (next ()) post state') :
    releaseEnds kind uid i op (.act (.bufpoolFree pool) next) post state := by
  refine hclosing.ends_act fun state₁ choice result state₂ hclosing₁ hact => ?_
  cases choice <;> simp only [UserState.act, reduceCtorEq] at hact
  obtain ⟨rfl, rfl⟩ := Prod.mk.inj (Option.some.inj hact)
  refine hnext _ ⟨hclosing₁.closer, ?_⟩
  rw [← hclosing₁.holdings]
  rfl

theorem Closing.ends_unbind
    {next : Unit → UserProg α} (hclosing : Closing i holdings state)
    (hnext : ∀ state', Closing i { holdings with bound := false } state' →
      releaseEnds kind uid i op (next ()) post state') :
    releaseEnds kind uid i op (.act .unbind next) post state := by
  refine hclosing.ends_act fun state₁ choice result state₂ hclosing₁ hact => ?_
  cases choice <;> simp only [UserState.act, reduceCtorEq] at hact
  obtain ⟨rfl, rfl⟩ := Prod.mk.inj (Option.some.inj hact)
  refine hnext _ ⟨hclosing₁.closer, ?_⟩
  rw [← hclosing₁.holdings]
  rfl

/-! ## One quiet destroy -/

theorem Closing.ends_queuesUnlock (hclosing : Closing i holdings state) :
    releaseEnds kind uid i op userQueuesUnlock (fun _ => Closing i holdings) state := by
  refine hclosing.ends_silent rfl fun _ state₁ hclosing₁ => ?_
  refine hclosing₁.ends_silent rfl fun _ state₂ hclosing₂ => ?_
  refine hclosing₂.ends_silent rfl fun _ state₃ hclosing₃ => ?_
  exact hclosing₃.ends_silent rfl fun _ state₄ hclosing₄ => Watch.ends_ret hclosing₄

theorem Closing.ends_queuesLock (hclosing : Closing i holdings state) :
    releaseEnds kind uid i op userQueuesLock (fun _ => Closing i holdings) state := by
  refine hclosing.ends_silent rfl fun _ state₁ hclosing₁ => ?_
  refine hclosing₁.ends_silent rfl fun _ state₂ hclosing₂ => ?_
  refine hclosing₂.ends_silent rfl fun _ state₃ hclosing₃ => ?_
  exact hclosing₃.ends_silent rfl fun _ state₄ hclosing₄ => Watch.ends_ret hclosing₄

theorem Closing.ends_unlockAll
    {taken : List UserOperation} (operations : List UserOperation)
    (hclosing : Closing i (holdings.locked i taken) state)
    (hsubset : ∀ operation ∈ taken, operation ∈ operations) :
    releaseEnds kind uid i op (unlockAll operations)
      (fun _ => Closing i (holdings.locked i [])) state := by
  induction operations generalizing taken state with
  | nil =>
      have hnil : taken = [] :=
        List.eq_nil_iff_forall_not_mem.mpr fun operation hmem =>
          absurd (hsubset operation hmem) (by simp)
      rw [hnil] at hclosing
      exact Watch.ends_ret hclosing
  | cons operation rest ih =>
      refine hclosing.ends_unlock fun state' hclosing' => ?_
      have hrest :
          ∀ other ∈ taken.filter (fun other => other ≠ operation), other ∈ rest := by
        intro other hmem
        obtain ⟨hmem, hne⟩ := List.mem_filter.mp hmem
        exact (List.mem_cons.mp (hsubset other hmem)).resolve_left (of_decide_eq_true hne)
      refine ih ?_ hrest
      refine cast ?_ hclosing'
      congr 1
      unfold Holdings.locked
      congr 1
      funext other
      by_cases hother : other = operation <;> simp [hother]

/-- Nobody holds a mutex, so all of them are taken. -/
theorem Closing.ends_lockAll
    {taken : List UserOperation} (operations : List UserOperation)
    (hclosing : Closing i (holdings.locked i taken) state)
    (hnodup : (taken ++ operations).Nodup) :
    releaseEnds kind uid i op (lockAll operations taken)
      (fun locked state => locked = true ∧
        Closing i (holdings.locked i (taken ++ operations)) state) state := by
  induction operations generalizing taken state with
  | nil =>
      rw [List.append_nil]
      exact Watch.ends_ret ⟨rfl, hclosing⟩
  | cons operation rest ih =>
      have hfree : (holdings.locked i taken).locks operation = none :=
        if_neg fun hmem => List.disjoint_of_nodup_append hnodup hmem (List.mem_cons_self ..)
      have hnodup' : (taken ++ [operation] ++ rest).Nodup := by
        rwa [← List.append_cons]
      have hne : (0 : ℤ) ≠ -EINTR := by decide
      have hlist : taken ++ operation :: rest = taken ++ [operation] ++ rest :=
        List.append_cons ..
      refine hclosing.ends_lock hfree fun state' hclosing' => ?_
      rw [hlist, Prog.ret_bind, if_neg hne]
      refine ih ?_ hnodup'
      refine cast ?_ hclosing'
      congr 1
      unfold Holdings.locked
      congr 1
      funext other
      by_cases hother : other = operation <;> simp [hother]

/-- The mail is accepted, or refused; an allocation that fails stops the call. -/
theorem Closing.ends_sendQuietDestroy
    (hclosing : Closing i holdings state) (chanUid : Word) :
    releaseEnds kind uid i op
      (sendBuilt fun kmalloc => createQuietDestroyChannelMsg kmalloc chanUid)
      (fun err state =>
        err = 0 ∧ Closing i
          { holdings with sent := Group.quietDestroyMail chanUid :: holdings.sent } state ∨
        err ≠ 0 ∧ Closing i holdings state) state := by
  unfold sendBuilt buildMail
  refine hclosing.ends_silent rfl fun kmalloc state₁ hclosing₁ => ?_
  cases kmalloc with
  | false =>
      -- The constructor writes through `NULL`.
      refine hclosing₁.ends_act fun _ choice _ _ _ hact => ?_
      cases choice <;> exact absurd hact (by simp [UserState.act])
  | true =>
      refine hclosing₁.ends_send ?_ ?_
      · intro state₂ hclosing₂
        exact Watch.ends_ret (.inl ⟨rfl, hclosing₂⟩)
      · intro state₂ hclosing₂
        exact Watch.ends_ret (.inr ⟨by decide, hclosing₂⟩)

theorem Closing.ends_freeResources
    (hclosing : Closing i holdings state) :
    releaseEnds kind uid i op al5UserDestroyChannelResources
      (fun _ => Closing i { holdings with pools := fun _ => [] }) state := by
  refine hclosing.ends_bufpoolFree fun state₁ hclosing₁ => ?_
  refine hclosing₁.ends_bufpoolFree fun state₂ hclosing₂ => Watch.ends_ret ?_
  refine cast ?_ hclosing₂
  congr 1
  congr 1
  funext pool
  cases pool <;> rfl

theorem Closing.ends_destroyUnderLocks
    (hclosing : Closing i holdings state) :
    releaseEnds kind uid i op (destroyUnderLocks true)
      (fun err state =>
        err = 0 ∧ Closing i holdings.destroyed state ∨
        err ≠ 0 ∧ Closing i holdings state) state := by
  refine hclosing.ends_getChanUid fun state₁ hclosing₁ => ?_
  rw [Prog.ret_bind, if_pos rfl]
  refine Watch.ends_bind (hclosing₁.ends_sendQuietDestroy holdings.chanUid) ?_
  rintro err state₂ (⟨rfl, hsent⟩ | ⟨hne, hsame⟩)
  · refine hsent.ends_setChanUid fun state₃ hclosing₃ => ?_
    refine hclosing₃.ends_silent rfl fun _ state₄ hclosing₄ => ?_
    refine Watch.ends_bind hclosing₄.ends_freeResources fun _ state₅ hclosing₅ => ?_
    exact Watch.ends_ret (.inl ⟨rfl, hclosing₅⟩)
  · rw [if_pos hne]
    exact Watch.ends_ret (.inr ⟨hne, hsame⟩)

/-- All or nothing: the channel is forgotten exactly if the command ring took the mail. -/
theorem Closing.ends_quietDestroy
    (hclosing : Closing i holdings state) (hfree : holdings.Free) :
    releaseEnds kind uid i op (al5UserDestroyChannel true)
      (fun err state =>
        err = 0 ∧ Closing i holdings.destroyed state ∨
        err ≠ 0 ∧ Closing i holdings state) state := by
  refine hclosing.ends_getChanUid fun state₁ hclosing₁ => ?_
  rw [Prog.ret_bind]
  split_ifs with hchan
  · exact Watch.ends_ret (.inr ⟨by decide, hclosing₁⟩)
  · refine Watch.ends_bind hclosing₁.ends_queuesUnlock fun _ state₂ hclosing₂ => ?_
    rw [← hfree.locked_nil i] at hclosing₂
    refine Watch.ends_bind (hclosing₂.ends_lockAll userOperations (by decide)) ?_
    rintro locked state₃ ⟨rfl, hclosing₃⟩
    rw [if_pos rfl]
    refine Watch.ends_bind hclosing₃.ends_destroyUnderLocks ?_
    rintro err state₄ (⟨rfl, hdestroyed⟩ | ⟨hne, hsame⟩)
    · have hlocked : Closing i (holdings.destroyed.locked i ([] ++ userOperations)) state₄ :=
        hdestroyed
      refine Watch.ends_bind (hlocked.ends_unlockAll userOperations (by simp)) ?_
      intro _ state₅ hclosing₅
      have hfree' : holdings.destroyed.Free := hfree
      rw [hfree'.locked_nil] at hclosing₅
      refine Watch.ends_bind hclosing₅.ends_queuesLock fun _ state₆ hclosing₆ => ?_
      exact Watch.ends_ret (.inl ⟨rfl, hclosing₆⟩)
    · refine Watch.ends_bind (hsame.ends_unlockAll userOperations (by simp)) ?_
      intro _ state₅ hclosing₅
      rw [hfree.locked_nil] at hclosing₅
      refine Watch.ends_bind hclosing₅.ends_queuesLock fun _ state₆ hclosing₆ => ?_
      exact Watch.ends_ret (.inr ⟨hne, hclosing₆⟩)

/-- The tries stop at the first mail which the command ring takes. -/
theorem Closing.ends_quietDestroyLoop
    (tries : ℕ) (hclosing : Closing i holdings state) (hfree : holdings.Free) :
    releaseEnds kind uid i op (quietDestroyLoop tries)
      (fun _ state => Closing i holdings.destroyed state ∨ Closing i holdings state)
      state := by
  induction tries generalizing state with
  | zero => exact Watch.ends_ret (.inr hclosing)
  | succ tries ih =>
      refine Watch.ends_bind (hclosing.ends_quietDestroy hfree) ?_
      rintro err state₁ (⟨rfl, hdestroyed⟩ | ⟨hne, hsame⟩)
      · rw [if_pos rfl]
        exact Watch.ends_ret (.inl hdestroyed)
      · rw [if_neg hne]
        exact ih hsame

/-! ## The residual mails -/

theorem Closing.ends_drainQueue
    (which : UserMail) (rounds : ℕ) (hclosing : Closing i holdings state) :
    releaseEnds kind uid i op (drainQueue which rounds) (fun _ => Closing i holdings)
      state := by
  induction rounds generalizing state with
  | zero =>
      exact hclosing.ends_silent rfl fun _ _ hclosing₁ => Watch.ends_ret hclosing₁
  | succ rounds ih =>
      refine hclosing.ends_silent rfl fun _ state₁ hclosing₁ => ?_
      refine hclosing₁.ends_silent rfl fun mail state₂ hclosing₂ => ?_
      cases mail with
      | none => exact Watch.ends_ret hclosing₂
      | some mail => exact hclosing₂.ends_silent rfl fun _ state₃ hclosing₃ => ih hclosing₃

theorem Closing.ends_removeResidualMessages
    (rounds : ℕ) (queues : List UserMail) (hclosing : Closing i holdings state) :
    releaseEnds kind uid i op (removeResidualMessages rounds queues)
      (fun _ => Closing i holdings) state := by
  induction queues generalizing state with
  | nil => exact Watch.ends_ret hclosing
  | cons which rest ih =>
      refine hclosing.ends_silent rfl fun _ state₁ hclosing₁ => ?_
      rw [Prog.ret_bind]
      refine Watch.ends_bind (hclosing₁.ends_drainQueue which rounds) ?_
      exact fun _ _ hclosing₂ => ih hclosing₂

/-! ## The release -/

inductive Holdings.Released (before : Holdings) : Holdings → Prop where
  | idle (chanUid : before.chanUid = badChan) :
      before.Released { before with bound := false }
  | destroyed (chanUid : before.chanUid ≠ badChan) :
      before.Released { before.destroyed with bound := false }
  | refused (chanUid : before.chanUid ≠ badChan) :
      before.Released { before with pools := fun _ => [], bound := false }

theorem Closing.ends_codecRelease
    (rounds : ℕ) (hclosing : Closing i holdings state) (hfree : holdings.Free) :
    releaseEnds kind uid i op (al5CodecRelease rounds)
      (fun _ state => state.closer = some i ∧ holdings.Released state.holdings) state := by
  refine hclosing.ends_getChanUid fun state₁ hclosing₁ => ?_
  rw [Prog.ret_bind]
  split_ifs with hchan
  · refine Watch.ends_bind (hclosing₁.ends_removeResidualMessages rounds userMails) ?_
    intro _ state₂ hclosing₂
    refine hclosing₂.ends_unbind fun state₃ hclosing₃ => Watch.ends_ret ?_
    rw [hclosing₃.holdings]
    exact ⟨hclosing₃.closer, .idle hchan⟩
  · refine Watch.ends_bind (hclosing₁.ends_quietDestroyLoop 10000 hfree) ?_
    rintro _ state₂ (hdestroyed | hsame)
    · refine Watch.ends_bind hdestroyed.ends_freeResources fun _ state₃ hclosing₃ => ?_
      refine Watch.ends_bind (hclosing₃.ends_removeResidualMessages rounds userMails) ?_
      intro _ state₄ hclosing₄
      refine hclosing₄.ends_unbind fun state₅ hclosing₅ => Watch.ends_ret ?_
      rw [hclosing₅.holdings]
      exact ⟨hclosing₅.closer, .destroyed hchan⟩
    · refine Watch.ends_bind hsame.ends_freeResources fun _ state₃ hclosing₃ => ?_
      refine Watch.ends_bind (hclosing₃.ends_removeResidualMessages rounds userMails) ?_
      intro _ state₄ hclosing₄
      refine hclosing₄.ends_unbind fun state₅ hclosing₅ => Watch.ends_ret ?_
      rw [hclosing₅.holdings]
      exact ⟨hclosing₅.closer, .refused hchan⟩

end

/-! ## Every run -/

theorem userRegime_empty_allows (config : UserConfig) (move : UserMove) :
    (userRegime ∅).Allows config move := by
  cases move with
  | enter op => trivial
  | step i choice => exact fun _ _ _ _ condition hmem => absurd hmem (by simp)
  | env mail => exact fun condition hmem => absurd hmem (by simp)

/-- Once every call has returned, every mutex is free. -/
theorem locks_free_of_finished
    {kind : UserKind} {uid : Word} {config : UserConfig}
    (hreach : (userMachine kind uid).Reach (userRegime ∅) userStart config)
    (hfinished : ∀ call ∈ config.calls, call.prog.finished = true)
    (operation : UserOperation) : config.state.locks operation = none := by
  by_contra hlocked
  obtain ⟨i, hi⟩ := Option.ne_none_iff_exists'.mp hlocked
  have hholds := user_holds hreach
  rcases Nat.lt_or_ge i config.calls.length with hlt | hge
  · have hcall := List.getElem?_eq_getElem hlt
    have hcovered := hholds.covered i _ hcall
    have hdone := hfinished _ (List.getElem_mem hlt)
    generalize config.calls[i] = call at hcovered hdone
    obtain ⟨op, prog⟩ := call
    cases prog with
    | ret out =>
        have hpost : config.state.HoldsNone i ∧ _ := hcovered
        exact hpost.1 operation hi
    | act action next => cases hdone
  · exact hholds.fresh i hge operation hi

/-- A release enters once every call has returned. -/
theorem enter_release
    {kind : UserKind} {uid : Word} {config config' : UserConfig} {rounds : ℕ}
    (hreach : (userMachine kind uid).Reach (userRegime ∅) userStart config)
    (hnext : (userMachine kind uid).next config (.enter (.release rounds)) = some config') :
    config.state.closer = none ∧ config.state.holdings.Free ∧
      (∀ call ∈ config.calls, call.prog.finished = true) ∧
      config' = ⟨{ config.state with closer := some config.calls.length },
        config.calls ++ [⟨.release rounds, userBody uid (.release rounds)⟩]⟩ := by
  obtain ⟨state, henter, rfl⟩ := Machine.next_enter_eq_some hnext
  simp only [userMachine, userEnter] at henter
  split_ifs at henter with hopen hcloses hfinished
  · obtain rfl := Option.some.inj henter
    have hdone := List.all_eq_true.mp hfinished
    exact ⟨hopen.1, locks_free_of_finished hreach hdone, hdone, rfl⟩
  · exact absurd rfl hcloses

theorem act_closer
    {i : ℕ} {state state' : UserState} {action : UserAct} {choice : Choice}
    {result : action.Res} (hact : state.act i action choice = some (result, state')) :
    state'.closer = state.closer := by
  cases action <;> cases choice <;> simp only [UserState.act] at hact <;>
    first
      | (obtain ⟨-, rfl⟩ := Prod.mk.inj (Option.some.inj hact)
         rfl)
      | (split_ifs at hact
         all_goals
           obtain ⟨-, rfl⟩ := Prod.mk.inj (Option.some.inj hact)
           rfl)
      | exact absurd hact (by simp)

/-- A user which is being closed accepts no call. -/
theorem closer_next
    {kind : UserKind} {uid : Word} {config config' : UserConfig} {move : UserMove} {i : ℕ}
    (hcloser : config.state.closer = some i)
    (hnext : (userMachine kind uid).next config move = some config') :
    config'.state.closer = some i ∧ ∀ op, move ≠ .enter op := by
  cases move with
  | enter op =>
      obtain ⟨state, hentered, -⟩ := Machine.next_enter_eq_some hnext
      simp [userMachine, userEnter, hcloser] at hentered
  | step j choice =>
      obtain ⟨op, action, rest, result, state, -, hexec, rfl⟩ :=
        Machine.next_step_eq_some hnext
      exact ⟨(act_closer (act_of_exec hexec)).trans hcloser, by simp⟩
  | env mail =>
      obtain ⟨state, henv, rfl⟩ := Machine.next_env_eq_some hnext
      obtain rfl := eq_deliver_of_env henv
      exact ⟨hcloser, by simp⟩

/-- The release ends as said; nothing is said of the other calls. -/
def ReleasePost (i : ℕ) (before : Holdings) (j : ℕ) (_ : UserOp) (_ : UserOut)
    (state : UserState) : Prop :=
  j = i → state.closer = some i ∧ before.Released state.holdings

theorem release_follows
    {kind : UserKind} {uid : Word} {config config₁ config₂ : UserConfig} {rounds : ℕ}
    (hreach : (userMachine kind uid).Reach (userRegime ∅) userStart config)
    (henter : (userMachine kind uid).next config (.enter (.release rounds)) = some config₁)
    (hlater : (userMachine kind uid).Reach (userRegime ∅) config₁ config₂) :
    (releaseWatch kind uid).Follows
      (ReleasePost config.calls.length config.state.holdings) config₂ := by
  obtain ⟨-, hfree, -, rfl⟩ := enter_release hreach henter
  refine (releaseWatch_sees kind uid _).follows ?_ ?_ ?_ hlater
  · intro i op out state state' hrely hpost hi
    subst hi
    obtain ⟨hcloser, hreleased⟩ := hpost rfl
    obtain ⟨hcloser', hsame⟩ := hrely hcloser
    exact ⟨hcloser', hsame ▸ hreleased⟩
  · intro i call hcall
    rcases getElem?_concat_cases hcall with hold | ⟨rfl, rfl⟩
    · have hlt : i < config.calls.length := (List.getElem?_eq_some_iff.mp hold).1
      exact Watch.ends_of_forall fun _ _ hi => absurd hi hlt.ne
    · have hclosing : Closing config.calls.length config.state.holdings
          { config.state with closer := some config.calls.length } := ⟨rfl, rfl⟩
      refine Watch.ends_bind (hclosing.ends_codecRelease rounds hfree) ?_
      exact fun _ state hreleased => Watch.ends_ret fun _ => hreleased
  · intro mid mid' op hmid _ hnext hfollows
    have hclosed : mid.state.closer = some config.calls.length :=
      Machine.Reach.invariant (fun config' => config'.state.closer = some config.calls.length)
        rfl (fun hcloser _ hstep => (closer_next hcloser hstep).1) hmid
    exact absurd rfl ((closer_next hclosed hnext).2 op)

/-- What a user holds after its release, and the mails sent since. -/
structure UserState.ReleasedFrom (kind : UserKind) (before after : UserState) : Prop where
  unbound : after.bound = false
  unlocked : ∀ operation, after.locks operation = none
  empty : before.chanUid ≠ badChan ∨ kind = .encoder → ∀ pool, after.pools pool = []
  sent :
    before.chanUid = badChan ∧ after.chanUid = badChan ∧
        mailsSent after.log = mailsSent before.log ∨
      before.chanUid ≠ badChan ∧ after.chanUid = badChan ∧
        mailsSent after.log =
          Group.quietDestroyMail before.chanUid :: mailsSent before.log ∨
      before.chanUid ≠ badChan ∧ after.chanUid = before.chanUid ∧
        mailsSent after.log = mailsSent before.log

/-- In every run of any calls on a user: once the release of its file has returned, the
user is unbound, holds no mutex and no buffer, and the release has sent at most one mail.
It has sent the quiet destroy of its channel exactly if it has forgotten the channel. -/
theorem released_of_reach
    (kind : UserKind) (uid : Word) (config config₁ config₂ : UserConfig) (rounds : ℕ)
    (hreach : (userMachine kind uid).Reach .free userStart config)
    (henter : (userMachine kind uid).next config (.enter (.release rounds)) = some config₁)
    (hlater : (userMachine kind uid).Reach .free config₁ config₂)
    (hreturned : config₂.calls[config.calls.length]? =
      some ⟨.release rounds, .ret .closed⟩) :
    config.state.ReleasedFrom kind config₂.state := by
  have hreach' := reach_userRegime_empty hreach
  obtain ⟨hopen, hfree, -, -⟩ := enter_release hreach' henter
  have hpost : ReleasePost config.calls.length config.state.holdings config.calls.length
      (.release rounds) .closed config₂.state :=
    release_follows hreach' henter
      (hlater.mono fun config move _ => userRegime_empty_allows config move) _ _ hreturned
  obtain ⟨-, hreleased⟩ := hpost rfl
  have hempty : kind = .encoder → config.state.chanUid = badChan →
      ∀ pool, config.state.pools pool = [] :=
    fun hkind hbad => ((user_inv hreach').settled hkind hopen (hfree .create)).empty hbad
  generalize hafter : config₂.state.holdings = after at hreleased
  have hlocks : config₂.state.locks = after.locks := congrArg Holdings.locks hafter
  have hpools : config₂.state.pools = after.pools := congrArg Holdings.pools hafter
  have hchan : config₂.state.chanUid = after.chanUid := congrArg Holdings.chanUid hafter
  have hbound : config₂.state.bound = after.bound := congrArg Holdings.bound hafter
  have hsent : mailsSent config₂.state.log = after.sent := congrArg Holdings.sent hafter
  refine ⟨?_, ?_, ?_, ?_⟩
  · rw [hbound]
    cases hreleased <;> rfl
  · rw [hlocks]
    cases hreleased <;> exact hfree
  · rw [hpools]
    intro hor
    cases hreleased with
    | idle hbad => exact hempty (hor.resolve_left (absurd hbad)) hbad
    | destroyed _ => exact fun _ => rfl
    | refused _ => exact fun _ => rfl
  · rw [hchan, hsent]
    cases hreleased with
    | idle hbad => exact .inl ⟨hbad, hbad, rfl⟩
    | destroyed hheld => exact .inr (.inl ⟨hheld, rfl, rfl⟩)
    | refused hheld => exact .inr (.inr ⟨hheld, rfl, rfl⟩)

set_option maxRecDepth 20000 in
theorem run_release :
    ∃ config config₁ config₂ : UserConfig,
      (userMachine .encoder 0).run straightMoves userStart = some config ∧
        (userMachine .encoder 0).next config (.enter (.release 1)) = some config₁ ∧
        (userMachine .encoder 0).run (List.replicate 57 (.step 1 .succeed)) config₁ =
          some config₂ ∧
        config₂.calls[config.calls.length]? = some ⟨.release 1, .ret .closed⟩ :=
  ⟨_, _, _, rfl, rfl, rfl, rfl⟩

theorem released_of_reach_straight :
    ∃ config config₁ config₂ : UserConfig,
      (userMachine .encoder 0).run straightMoves userStart = some config ∧
        (userMachine .encoder 0).next config (.enter (.release 1)) = some config₁ ∧
        (userMachine .encoder 0).run (List.replicate 57 (.step 1 .succeed)) config₁ =
          some config₂ ∧
        config.state.ReleasedFrom .encoder config₂.state := by
  obtain ⟨config, config₁, config₂, hrun, henter, hlater, hreturned⟩ := run_release
  exact ⟨config, config₁, config₂, hrun, henter, hlater,
    released_of_reach .encoder 0 config config₁ config₂ 1 (Machine.reach_of_run hrun) henter
      (Machine.reach_of_run hlater) hreturned⟩

end VcuDriver

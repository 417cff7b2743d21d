import VcuDriver.BufferPool
import VcuDriver.Conc.Ensures
import VcuDriver.UserOps

/-!
# A destroy leaves all or nothing

`al5_user_destroy_channel` wakes the waiters of four queues, takes eight mutexes, sends
a mail and waits for a reply; each of these can fail.  Meanwhile mails are delivered
and other calls go on.  Beside the state stands what these others did.

At its end the state is the one in which only the others have moved, or the one in
which the channel was destroyed in a single step between two of their moves.
-/

namespace VcuDriver

open Conc

/-! ## The host -/

/-- A user, and the dma-bufs in its pools. -/
structure Host where
  user : UserState
  handles : BufferPool → List ℕ

/-- What the calls of a user write under the mutex of a creation. -/
structure Own where
  chanUid : Word
  checkpoint : ℤ
  pools : BufferPool → List DmaBuffer
  handles : BufferPool → List ℕ

namespace Host

def own (host : Host) : Own :=
  ⟨host.user.chanUid, host.user.checkpoint, host.user.pools, host.handles⟩

def setOwn (host : Host) (own : Own) : Host where
  user := { host.user with
    chanUid := own.chanUid
    checkpoint := own.checkpoint
    pools := own.pools }
  handles := own.handles

def popped (host : Host) (which : UserMail) : Host where
  user := host.user.setQueue which
    ⟨(host.user.queues which).mails.tail, (host.user.queues which).locked⟩
  handles := host.handles

end Host

def Own.none : Own :=
  ⟨badChan, noCheckpoint, fun _ => [], fun _ => []⟩

/-- What is left of a user whose channel is destroyed at once; the destroy that is not
quiet takes its reply out of the queue. -/
def Host.destroyed (host : Host) (quiet : Bool) : Host :=
  (if quiet then host else host.popped .destroy).setOwn .none

/-! ## The others -/

/-- The delivery of a mail, or a move of another call which is no destroy. -/
inductive OtherMove where
  | deliver (mail : Al5Mail)
  | lock (call : ℕ) (operation : UserOperation)
  | unlock (call : ℕ) (operation : UserOperation)
  | pop (which : UserMail)
  | write (call : ℕ) (own : Own)

namespace OtherMove

/-- A call releases its own mutexes, writes under the mutex of a creation, and leaves
the replies to destroys alone. -/
def Enabled (i : ℕ) (host : Host) : OtherMove → Prop
  | .deliver _ => True
  | .lock call operation => call ≠ i ∧ host.user.locks operation = none
  | .unlock call operation => call ≠ i ∧ host.user.locks operation = some call
  | .pop which => which ≠ .destroy
  | .write call own =>
      call ≠ i ∧ host.user.locks .create = some call ∧ own.chanUid ≠ badChan

end OtherMove

namespace Host

def move (host : Host) : OtherMove → Host
  | .deliver mail => { host with user := al5UserDeliver mail host.user }
  | .lock call operation =>
      { host with user := host.user.setLock operation (some call) }
  | .unlock _ operation => { host with user := host.user.setLock operation none }
  | .pop which => host.popped which
  | .write _ own => host.setOwn own

def moved (host : Host) (others : List OtherMove) : Host :=
  others.foldl move host

/-- Each of the moves is enabled where it is made. -/
def Admits (i : ℕ) (host : Host) : List OtherMove → Prop
  | [] => True
  | other :: others => other.Enabled i host ∧ Admits i (host.move other) others

end Host

/-! ## The destroy -/

/-- A pool, and the dma-bufs put so far. -/
structure PutTrace where
  handles : List ℕ
  puts : List ℕ

namespace PutTrace

/-- Only the actions of `al5_bufpool_free` count here. -/
def respond (action : PoolAct) (trace : PutTrace) : action.Res × PutTrace :=
  match action with
  | .getHandles => (trace.handles, trace)
  | .dmaBufPut handle => ((), { trace with puts := trace.puts ++ [handle] })
  | .clear => ((), { trace with handles := [] })
  | .mutexLock | .mutexUnlock | .setHandle _ => ((), trace)
  | .kcalloc | .al5AllocDma => (false, trace)
  | .al5DmabufWrap | .dmaBufGet _ => (none, trace)
  | .getHandle _ => (0, trace)
  | .dmaBufFd _ => (-1, trace)

end PutTrace

def freed (handles : List ℕ) : PutTrace :=
  (al5BufpoolFree.run PutTrace.respond ⟨handles, []⟩).2

/-- The host, the dma-bufs which the destroy has put, and the moves of the others. -/
structure Destroying where
  host : Host
  puts : List (BufferPool × ℕ)
  moves : List OtherMove

namespace Destroying

/-- The dma-bufs follow the pools. -/
def after (state : Destroying) (action : UserAct) (user : UserState) : Destroying :=
  match action with
  | .bufpoolFree pool =>
      { state with
        host := ⟨user, Function.update state.host.handles pool
          (freed (state.host.handles pool)).handles⟩
        puts := state.puts ++
          (freed (state.host.handles pool)).puts.map fun handle => (pool, handle) }
  | _ => { state with host := ⟨user, state.host.handles⟩ }

def others (state : Destroying) (moves : List OtherMove) : Destroying :=
  { state with
    host := state.host.moved moves
    moves := state.moves ++ moves }

def exec (i : ℕ) (action : UserAct) (state : Destroying) (result : action.Res)
    (state' : Destroying) : Prop :=
  ∃ (moves : List OtherMove) (choice : Choice) (user : UserState),
    state.host.Admits i moves ∧
      (state.others moves).host.user.act i action choice = some (result, user) ∧
      state' = (state.others moves).after action user

end Destroying

def destroyQueues : List UserMail :=
  [.status, .sc, .create, .reconstructed]

/-- The host is as the others alone would have left it, and the queues are locked. -/
structure LeftAs (idle host : Host) : Prop where
  own : host.own = idle.own
  locks : host.user.locks = idle.user.locks
  mails : ∀ which, (host.user.queues which).mails = (idle.user.queues which).mails
  locked : ∀ which, (host.user.queues which).locked =
    if which ∈ destroyQueues then true else (idle.user.queues which).locked

def Host.allHandles (host : Host) : List (BufferPool × ℕ) :=
  (host.handles .intBuffers).map (fun handle => (.intBuffers, handle)) ++
    (host.handles .recBuffers).map (fun handle => (.recBuffers, handle))

/-- How a destroy ends: with an error, having done nothing, or with the channel destroyed
between two moves of the others and each dma-buf put once. -/
def AtomicEnd (quiet : Bool) (before : Host) (err : ℤ) (state : Destroying) : Prop :=
  if err = 0 then
    ∃ earlier later, state.moves = earlier ++ later ∧
      LeftAs (((before.moved earlier).destroyed quiet).moved later) state.host ∧
      state.puts = (before.moved earlier).allHandles ∧
      (quiet = false → ((before.moved earlier).user.queues .destroy).mails ≠ [])
  else
    LeftAs (before.moved state.moves) state.host ∧ state.puts = []

/-! ## Beside the idle host -/

/-- The destroy holds these mutexes and has set these queue flags; otherwise the host is
as without it. -/
structure Beside (i : ℕ) (held : List UserOperation) (flags : UserMail → Option Bool)
    (idle host : Host) : Prop where
  mails : ∀ which, (host.user.queues which).mails = (idle.user.queues which).mails
  locked : ∀ which, (host.user.queues which).locked =
    (flags which).getD (idle.user.queues which).locked
  mine : ∀ operation ∈ held,
    host.user.locks operation = some i ∧ idle.user.locks operation = none
  others : ∀ operation, operation ∉ held →
    host.user.locks operation = idle.user.locks operation ∧
      idle.user.locks operation ≠ some i

section

variable {i : ℕ} {held : List UserOperation} {flags : UserMail → Option Bool}
  {idle host : Host}

theorem Beside.refl (hfree : ∀ operation, host.user.locks operation ≠ some i) :
    Beside i [] (fun _ => none) host host where
  mails _ := rfl
  locked _ := rfl
  mine _ hmem := absurd hmem List.not_mem_nil
  others operation _ := ⟨rfl, hfree operation⟩

theorem Beside.setQueue (hbeside : Beside i held flags idle host) {which : UserMail}
    {queue queue' : Al5Queue} (hmails : queue'.mails = queue.mails)
    (hlocked : queue'.locked = (flags which).getD queue.locked) :
    Beside i held flags { idle with user := idle.user.setQueue which queue }
      { host with user := host.user.setQueue which queue' } where
  mails other := by
    by_cases heq : other = which
    · subst heq
      simpa [UserState.setQueue] using hmails
    · simpa [UserState.setQueue, heq] using hbeside.mails other
  locked other := by
    by_cases heq : other = which
    · subst heq
      simpa [UserState.setQueue] using hlocked
    · simpa [UserState.setQueue, heq] using hbeside.locked other
  mine := hbeside.mine
  others := hbeside.others

theorem Beside.popped (hbeside : Beside i held flags idle host) (which : UserMail) :
    Beside i held flags (idle.popped which) (host.popped which) :=
  hbeside.setQueue (congrArg List.tail (hbeside.mails which)) (hbeside.locked which)

theorem Beside.deliver (hbeside : Beside i held flags idle host) (mail : Al5Mail) :
    Beside i held flags (idle.move (.deliver mail)) (host.move (.deliver mail)) :=
  hbeside.setQueue (congrArg (· ++ [mail]) (hbeside.mails _)) (hbeside.locked _)

theorem Beside.setLock (hbeside : Beside i held flags idle host)
    {operation : UserOperation} {owner : Option ℕ} (hfree : operation ∉ held)
    (howner : owner ≠ some i) :
    Beside i held flags { idle with user := idle.user.setLock operation owner }
      { host with user := host.user.setLock operation owner } where
  mails := hbeside.mails
  locked := hbeside.locked
  mine other hmem := by
    have hne : other ≠ operation := fun heq => hfree (heq ▸ hmem)
    simpa [UserState.setLock, hne] using hbeside.mine other hmem
  others other hnot := by
    by_cases heq : other = operation
    · subst heq
      simpa [UserState.setLock] using howner
    · simpa [UserState.setLock, heq] using hbeside.others other hnot

theorem Beside.setOwn (hbeside : Beside i held flags idle host) (own own' : Own) :
    Beside i held flags (idle.setOwn own) (host.setOwn own') :=
  ⟨hbeside.mails, hbeside.locked, hbeside.mine, hbeside.others⟩

/-- The relation does not look at what the calls own. -/
theorem Beside.forget (hbeside : Beside i held flags idle host) (own : Own) :
    Beside i held flags (idle.setOwn own) host :=
  ⟨hbeside.mails, hbeside.locked, hbeside.mine, hbeside.others⟩

/-- A move of the others keeps the destroy beside them. -/
theorem Beside.move (hbeside : Beside i held flags idle host) {other : OtherMove}
    (henabled : other.Enabled i host) :
    Beside i held flags (idle.move other) (host.move other) := by
  cases other with
  | deliver mail => exact hbeside.deliver mail
  | lock call operation =>
      obtain ⟨hne, hfree⟩ := henabled
      refine hbeside.setLock (fun hmem => ?_) (fun heq => hne (Option.some.inj heq))
      rw [(hbeside.mine operation hmem).1] at hfree
      exact absurd hfree (by simp)
  | unlock call operation =>
      obtain ⟨hne, howner⟩ := henabled
      refine hbeside.setLock (fun hmem => ?_) (by simp)
      rw [(hbeside.mine operation hmem).1] at howner
      exact hne (Option.some.inj howner).symm
  | pop which => exact hbeside.popped which
  | write call own => exact hbeside.setOwn own own

theorem Beside.moved (hbeside : Beside i held flags idle host) {moves : List OtherMove}
    (hadmits : host.Admits i moves) :
    Beside i held flags (idle.moved moves) (host.moved moves) := by
  induction moves generalizing idle host with
  | nil => exact hbeside
  | cons other moves ih => exact ih (hbeside.move hadmits.1) hadmits.2

/-- The others write the same to both. -/
theorem own_moved (hown : host.own = idle.own) (moves : List OtherMove) :
    (host.moved moves).own = (idle.moved moves).own := by
  induction moves generalizing idle host with
  | nil => exact hown
  | cons other moves ih =>
      refine ih ?_
      cases other with
      | write call own => rfl
      | _ => exact hown

/-- While the destroy holds the mutex of a creation, nobody else writes. -/
theorem Beside.own_of_held (hbeside : Beside i held flags idle host)
    (hcreate : .create ∈ held) {moves : List OtherMove} (hadmits : host.Admits i moves) :
    (host.moved moves).own = host.own ∧ (idle.moved moves).own = idle.own := by
  induction moves generalizing idle host with
  | nil => exact ⟨rfl, rfl⟩
  | cons other moves ih =>
      obtain ⟨hhost, hidle⟩ := ih (hbeside.move hadmits.1) hadmits.2
      cases other with
      | write call own =>
          obtain ⟨hne, howner, -⟩ := hadmits.1
          rw [(hbeside.mine .create hcreate).1] at howner
          exact absurd (Option.some.inj howner).symm hne
      | _ => exact ⟨hhost, hidle⟩

theorem moved_append (host : Host) (earlier later : List OtherMove) :
    host.moved (earlier ++ later) = (host.moved earlier).moved later :=
  List.foldl_append

theorem chanUid_moved (hcreated : host.user.chanUid ≠ badChan) {moves : List OtherMove}
    (hadmits : host.Admits i moves) : (host.moved moves).user.chanUid ≠ badChan := by
  induction moves generalizing host with
  | nil => exact hcreated
  | cons other moves ih =>
      refine ih ?_ hadmits.2
      cases other with
      | write call own => exact hadmits.1.2.2
      | _ => exact hcreated

end

/-! ## The steps of the destroy -/

section

variable {i : ℕ} {held : List UserOperation} {flags : UserMail → Option Bool}
  {idle host : Host}

theorem Beside.congr (hbeside : Beside i held flags idle host) {host' : Host}
    (hqueues : host'.user.queues = host.user.queues)
    (hlocks : host'.user.locks = host.user.locks) : Beside i held flags idle host' where
  mails which := by rw [hqueues]; exact hbeside.mails which
  locked which := by rw [hqueues]; exact hbeside.locked which
  mine operation hmem := by rw [hlocks]; exact hbeside.mine operation hmem
  others operation hnot := by rw [hlocks]; exact hbeside.others operation hnot

theorem Beside.setFlag (hbeside : Beside i held flags idle host) (which : UserMail)
    (flag : Bool) :
    Beside i held (Function.update flags which (some flag)) idle
      ⟨host.user.setQueue which ⟨(host.user.queues which).mails, flag⟩, host.handles⟩ where
  mails other := by
    by_cases heq : other = which
    · subst heq
      simpa [UserState.setQueue] using hbeside.mails other
    · simpa [UserState.setQueue, heq] using hbeside.mails other
  locked other := by
    by_cases heq : other = which
    · subst heq
      simp [UserState.setQueue]
    · simpa [UserState.setQueue, heq] using hbeside.locked other
  mine := hbeside.mine
  others := hbeside.others

theorem Beside.take (hbeside : Beside i held flags idle host) {operation : UserOperation}
    (hnot : operation ∉ held) (hfree : host.user.locks operation = none) :
    Beside i (held ++ [operation]) flags idle
      { host with user := host.user.setLock operation (some i) } where
  mails := hbeside.mails
  locked := hbeside.locked
  mine other hmem := by
    by_cases heq : other = operation
    · subst heq
      rw [← (hbeside.others other hnot).1, hfree]
      simp [UserState.setLock]
    · rcases List.mem_append.mp hmem with hheld | hnew
      · simpa [UserState.setLock, heq] using hbeside.mine other hheld
      · exact absurd (List.mem_singleton.mp hnew) heq
  others other hother := by
    have hne : other ≠ operation := by
      rintro rfl
      exact hother (List.mem_append_right held (List.mem_singleton_self other))
    have hold : other ∉ held := fun hmem => hother (List.mem_append_left _ hmem)
    simpa [UserState.setLock, hne] using hbeside.others other hold

theorem Beside.release {operation : UserOperation}
    (hbeside : Beside i (operation :: held) flags idle host) (hnot : operation ∉ held) :
    Beside i held flags idle
      { host with user := host.user.setLock operation none } where
  mails := hbeside.mails
  locked := hbeside.locked
  mine other hmem := by
    have hne : other ≠ operation := fun heq => hnot (heq ▸ hmem)
    simpa [UserState.setLock, hne] using
      hbeside.mine other (List.mem_cons_of_mem operation hmem)
  others other hother := by
    by_cases heq : other = operation
    · subst heq
      rw [(hbeside.mine other List.mem_cons_self).2]
      simp [UserState.setLock]
    · have hold : other ∉ operation :: held := by
        simpa [heq] using hother
      simpa [UserState.setLock, heq] using hbeside.others other hold

end

/-- A host, and what the others did before it. -/
structure Base where
  earlier : List OtherMove
  host : Host

/-- The destroy runs beside the host which only the others have moved since `base`. -/
structure Run (i : ℕ) (base : Base) (puts : List (BufferPool × ℕ))
    (held : List UserOperation) (flags : UserMail → Option Bool) (state : Destroying) :
    Prop where
  puts : state.puts = puts
  beside : ∃ since, state.moves = base.earlier ++ since ∧
    Beside i held flags (base.host.moved since) state.host ∧
      state.host.own = (base.host.moved since).own

/-- The outcomes of the destroy which `post` is to hold of. -/
abbrev Covers {α : Type} (i : ℕ) (post : α → Destroying → Prop) (program : UserProg α)
    (state : Destroying) : Prop :=
  program.Ensures (Destroying.exec i) (fun _ _ => True) post state

section

variable {α : Type} {i : ℕ} {base : Base} {puts : List (BufferPool × ℕ)}
  {held held' : List UserOperation} {flags flags' : UserMail → Option Bool}
  {state : Destroying} {post : α → Destroying → Prop}

theorem Run.others (hrun : Run i base puts held flags state) {moves : List OtherMove}
    (hadmits : state.host.Admits i moves) :
    Run i base puts held flags (state.others moves) where
  puts := hrun.puts
  beside := by
    obtain ⟨since, hmoves, hbeside, hown⟩ := hrun.beside
    refine ⟨since ++ moves, ?_, ?_, ?_⟩
    · change state.moves ++ moves = _
      rw [hmoves, List.append_assoc]
    · rw [moved_append]
      exact hbeside.moved hadmits
    · rw [moved_append]
      exact own_moved hown moves

/-- The destroy changes what it holds and the flags it has set, nothing of its own. -/
theorem Run.update (hrun : Run i base puts held flags state) {user : UserState}
    (hown : (⟨user, state.host.handles⟩ : Host).own = state.host.own)
    (hbeside : ∀ idle, Beside i held flags idle state.host →
      Beside i held' flags' idle ⟨user, state.host.handles⟩) :
    Run i base puts held' flags' { state with host := ⟨user, state.host.handles⟩ } where
  puts := hrun.puts
  beside := by
    obtain ⟨since, hmoves, hold, hsame⟩ := hrun.beside
    exact ⟨since, hmoves, hbeside _ hold, hown.trans hsame⟩

/-- The rule of an action, other than a free. -/
theorem covers_act {action : UserAct} {next : action.Res → UserProg α}
    (hplain : ∀ pool, action ≠ .bufpoolFree pool)
    (hrun : Run i base puts held flags state)
    (hnext : ∀ mid choice result user, Run i base puts held flags mid →
      mid.host.user.act i action choice = some (result, user) →
        Covers i post (next result) { mid with host := ⟨user, mid.host.handles⟩ }) :
    Covers i post (.act action next) state := by
  refine .act trivial ?_
  rintro result state' ⟨moves, choice, user, hadmits, hact, rfl⟩
  have hafter : (state.others moves).after action user =
      { state.others moves with host := ⟨user, (state.others moves).host.handles⟩ } := by
    cases action with
    | bufpoolFree pool => exact absurd rfl (hplain pool)
    | _ => rfl
  rw [hafter]
  exact hnext _ choice result user (hrun.others hadmits) hact

/-- The actions that change nothing which others can see. -/
def UserAct.isUnseen : UserAct → Bool
  | .getChanUid | .getCheckpoint | .kmalloc | .send _ | .waitEvent _ | .waitEventTimeout _
  | .freeMail _ | .getBufpool _ | .bufpoolReserveFd _ | .bufpoolGetId _ | .getDmabufInfo _
  | .oops => true
  | _ => false

theorem act_unseen {user user' : UserState} {action : UserAct} {choice : Choice}
    {result : action.Res} (hunseen : action.isUnseen = true)
    (hact : user.act i action choice = some (result, user')) :
    user'.queues = user.queues ∧ user'.locks = user.locks ∧
      ∀ handles, (⟨user', handles⟩ : Host).own = (⟨user, handles⟩ : Host).own := by
  cases action <;> cases choice <;> simp only [UserState.act] at hact <;>
    first
      | exact absurd hunseen Bool.false_ne_true
      | (obtain ⟨-, rfl⟩ := Prod.mk.inj (Option.some.inj hact)
         exact ⟨rfl, rfl, fun _ => rfl⟩)
      | (split_ifs at hact
         obtain ⟨-, rfl⟩ := Prod.mk.inj (Option.some.inj hact)
         exact ⟨rfl, rfl, fun _ => rfl⟩)
      | exact absurd hact (by simp)

/-- The rule of an action which changes nothing that others can see. -/
theorem covers_unseen {action : UserAct} {next : action.Res → UserProg α}
    (hunseen : action.isUnseen = true) (hrun : Run i base puts held flags state)
    (hnext : ∀ mid result, Run i base puts held flags mid →
      Covers i post (next result) mid) :
    Covers i post (.act action next) state := by
  refine covers_act ?_ hrun fun mid choice result user hmid hact => ?_
  · rintro pool rfl
    exact absurd hunseen Bool.false_ne_true
  · obtain ⟨hqueues, hlocks, hown⟩ := act_unseen hunseen hact
    exact hnext _ result (hmid.update (hown _) fun idle hbeside =>
      hbeside.congr hqueues hlocks)

theorem covers_queueUnlock {which : UserMail} {next : Unit → UserProg α}
    (hrun : Run i base puts held flags state)
    (hnext : ∀ mid, Run i base puts held (Function.update flags which (some false)) mid →
      Covers i post (next ()) mid) :
    Covers i post (.act (.queueUnlock which) next) state := by
  refine covers_act (by simp) hrun fun mid choice result user hmid hact => ?_
  cases choice with
  | succeed =>
      obtain ⟨-, rfl⟩ := Prod.mk.inj (Option.some.inj hact)
      exact hnext _ (hmid.update rfl fun idle hbeside =>
        (hbeside.setFlag which false).congr rfl rfl)
  | _ => exact absurd hact (by simp [UserState.act])

theorem covers_queueLock {which : UserMail} {next : Unit → UserProg α}
    (hrun : Run i base puts held flags state)
    (hnext : ∀ mid, Run i base puts held (Function.update flags which (some true)) mid →
      Covers i post (next ()) mid) :
    Covers i post (.act (.queueLock which) next) state := by
  refine covers_act (by simp) hrun fun mid choice result user hmid hact => ?_
  cases choice with
  | succeed =>
      obtain ⟨-, rfl⟩ := Prod.mk.inj (Option.some.inj hact)
      exact hnext _ (hmid.update rfl fun idle hbeside => hbeside.setFlag which true)
  | _ => exact absurd hact (by simp [UserState.act])

/-- Releasing the mutexes that are held. -/
theorem covers_unlockAll {next : Unit → UserProg α} (hnodup : held.Nodup)
    (hrun : Run i base puts held flags state)
    (hnext : ∀ mid, Run i base puts [] flags mid → Covers i post (next ()) mid) :
    Covers i post ((unlockAll held).bind next) state := by
  induction held generalizing state with
  | nil => exact hnext state hrun
  | cons operation rest ih =>
      obtain ⟨hnot, hrest⟩ := List.nodup_cons.mp hnodup
      unfold unlockAll
      simp only [Prog.bind_eq, Prog.perform_bind, Prog.act_bind]
      refine covers_act (by simp) hrun fun mid choice result user hmid hact => ?_
      cases choice with
      | succeed =>
          obtain ⟨-, rfl⟩ := Prod.mk.inj (Option.some.inj hact)
          exact ih hrest (hmid.update rfl fun idle hbeside => hbeside.release hnot)
      | _ => exact absurd hact (by simp [UserState.act])

/-- The mutex loop takes every mutex, or gives back those that it took. -/
theorem covers_lockAll {rest taken : List UserOperation} {next : Bool → UserProg α}
    (hnodup : (taken ++ rest).Nodup) (hrun : Run i base puts taken flags state)
    (htaken : ∀ mid, Run i base puts (taken ++ rest) flags mid →
      Covers i post (next true) mid)
    (hbroken : ∀ mid, Run i base puts [] flags mid → Covers i post (next false) mid) :
    Covers i post ((lockAll rest taken).bind next) state := by
  induction rest generalizing taken state with
  | nil =>
      rw [List.append_nil] at htaken
      exact htaken state hrun
  | cons operation rest ih =>
      rw [List.append_cons] at hnodup htaken
      have hnodup' := (List.nodup_append.mp hnodup).1
      have hnot : operation ∉ taken := by
        intro hmem
        exact (List.nodup_append.mp hnodup').2.2 _ hmem _ (List.mem_singleton_self _) rfl
      unfold lockAll
      simp only [Prog.bind_eq, Prog.perform_bind, Prog.act_bind]
      refine covers_act (by simp) hrun fun mid choice result user hmid hact => ?_
      cases choice with
      | succeed =>
          simp only [UserState.act] at hact
          split_ifs at hact with hfree hlast
          · obtain ⟨rfl, rfl⟩ := Prod.mk.inj (Option.some.inj hact)
            rw [if_neg (show (0 : ℤ) ≠ -EINTR from by decide)]
            exact ih hnodup (hmid.update rfl fun idle hbeside =>
              (hbeside.take hnot hfree).congr rfl rfl) htaken
          · obtain ⟨rfl, rfl⟩ := Prod.mk.inj (Option.some.inj hact)
            rw [if_neg (show (0 : ℤ) ≠ -EINTR from by decide)]
            exact ih hnodup (hmid.update rfl fun idle hbeside =>
              (hbeside.take hnot hfree).congr rfl rfl) htaken
      | signal =>
          simp only [UserState.act] at hact
          split_ifs at hact with hfree
          obtain ⟨rfl, rfl⟩ := Prod.mk.inj (Option.some.inj hact)
          rw [if_pos rfl, Prog.bind_assoc]
          refine covers_unlockAll (List.nodup_append.mp hnodup').1
            (hmid.update rfl fun idle hbeside => hbeside.congr rfl rfl) ?_
          exact fun mid' hmid' => hbroken mid' hmid'
      | _ => exact absurd hact (by simp [UserState.act])

/-- A mail is built and sent; the user is as before but for its log. -/
theorem covers_sendBuilt {constructor : Bool → MailResult} {next : ℤ → UserProg α}
    (hrun : Run i base puts held flags state)
    (hnext : ∀ mid err, Run i base puts held flags mid → Covers i post (next err) mid) :
    Covers i post ((sendBuilt constructor).bind next) state := by
  unfold sendBuilt buildMail
  simp only [Prog.bind_eq, Prog.perform_bind, Prog.act_bind, Prog.pure_eq, Prog.bind_assoc]
  refine covers_unseen rfl hrun fun mid kmalloc hmid => ?_
  cases constructor kmalloc with
  | error fault => exact covers_unseen rfl hmid fun mid' _ hmid' => hnext mid' _ hmid'
  | ok mail =>
      cases mail with
      | none => exact hnext mid _ hmid
      | some mail => exact covers_unseen rfl hmid fun mid' err hmid' => hnext mid' err hmid'

end

/-! ## Forgetting the channel -/

theorem run_putAll (handles rest puts : List ℕ) :
    (putAll handles).run PutTrace.respond ⟨rest, puts⟩ = ((), ⟨rest, puts ++ handles⟩) := by
  induction handles generalizing puts with
  | nil => rw [List.append_nil]; rfl
  | cons handle handles ih =>
      unfold putAll
      simp only [Prog.bind_eq, Prog.perform_bind, Prog.run_act]
      exact (ih (puts ++ [handle])).trans (by rw [List.append_assoc]; rfl)

/-- A free puts every handle once, and leaves none. -/
theorem freed_eq (handles : List ℕ) : freed handles = ⟨[], handles⟩ := by
  unfold freed al5BufpoolFree
  simp only [Prog.bind_eq, Prog.perform_bind, Prog.run_act, Prog.run_bind]
  change (Prog.run PutTrace.respond (Prog.perform PoolAct.clear)
    ((putAll handles).run PutTrace.respond ⟨handles, []⟩).2).2 = _
  rw [run_putAll]
  rfl

/-- The destroy holds every mutex and has written `own` so far; the idle host is the one
in which the channel is destroyed already. -/
structure Writing (i : ℕ) (base : Base) (puts : List (BufferPool × ℕ))
    (flags : UserMail → Option Bool) (own : Own) (state : Destroying) : Prop where
  puts : state.puts = puts
  own : state.host.own = own
  beside : ∃ since, state.moves = base.earlier ++ since ∧
    Beside i userOperations flags (base.host.moved since) state.host ∧
      (base.host.moved since).own = base.host.own

section

variable {α : Type} {i : ℕ} {base : Base} {puts puts' : List (BufferPool × ℕ)}
  {flags : UserMail → Option Bool} {own own' : Own} {state : Destroying}
  {post : α → Destroying → Prop}

theorem Writing.others (hwriting : Writing i base puts flags own state)
    {moves : List OtherMove} (hadmits : state.host.Admits i moves) :
    Writing i base puts flags own (state.others moves) := by
  obtain ⟨since, hmoves, hbeside, hidle⟩ := hwriting.beside
  obtain ⟨hhost, hbase⟩ := hbeside.own_of_held (mem_userOperations .create) hadmits
  refine ⟨hwriting.puts, hhost.trans hwriting.own, since ++ moves, ?_, ?_, ?_⟩
  · change state.moves ++ moves = _
    rw [hmoves, List.append_assoc]
  · rw [moved_append]
    exact hbeside.moved hadmits
  · rw [moved_append]
    exact hbase.trans hidle

theorem Writing.update (hwriting : Writing i base puts flags own state)
    {state' : Destroying} (hputs : state'.puts = puts') (hmoves : state'.moves = state.moves)
    (hown : state'.host.own = own')
    (hqueues : state'.host.user.queues = state.host.user.queues)
    (hlocks : state'.host.user.locks = state.host.user.locks) :
    Writing i base puts' flags own' state' := by
  obtain ⟨since, hsince, hbeside, hidle⟩ := hwriting.beside
  exact ⟨hputs, hown, since, hmoves.trans hsince, hbeside.congr hqueues hlocks, hidle⟩

/-- When all is written, the destroy is beside the idle host again. -/
theorem Writing.run (hwriting : Writing i base puts flags own state)
    (hown : base.host.own = own) : Run i base puts userOperations flags state := by
  obtain ⟨since, hmoves, hbeside, hidle⟩ := hwriting.beside
  refine ⟨hwriting.puts, since, hmoves, hbeside, ?_⟩
  rw [hwriting.own, hidle, hown]

/-- The rule of an action under all mutexes. -/
theorem covers_writing {action : UserAct} {next : action.Res → UserProg α}
    (hwriting : Writing i base puts flags own state)
    (hnext : ∀ mid choice result user, Writing i base puts flags own mid →
      mid.host.user.act i action choice = some (result, user) →
        Covers i post (next result) (mid.after action user)) :
    Covers i post (.act action next) state := by
  refine .act trivial ?_
  rintro result state' ⟨moves, choice, user, hadmits, hact, rfl⟩
  exact hnext _ choice result user (hwriting.others hadmits) hact

theorem covers_freeMail {mail : Al5Mail} {next : Unit → UserProg α}
    (hwriting : Writing i base puts flags own state)
    (hnext : ∀ mid, Writing i base puts flags own mid → Covers i post (next ()) mid) :
    Covers i post (.act (.freeMail mail) next) state := by
  refine covers_writing hwriting fun mid choice result user hmid hact => ?_
  cases choice with
  | succeed =>
      obtain ⟨-, rfl⟩ := Prod.mk.inj (Option.some.inj hact)
      exact hnext _ (hmid.update hmid.puts rfl hmid.own rfl rfl)
  | _ => exact absurd hact (by simp [UserState.act])

theorem covers_setChanUid {value : Word} {next : Unit → UserProg α}
    (hwriting : Writing i base puts flags own state)
    (hnext : ∀ mid, Writing i base puts flags { own with chanUid := value } mid →
      Covers i post (next ()) mid) :
    Covers i post (.act (.setChanUid value) next) state := by
  refine covers_writing hwriting fun mid choice result user hmid hact => ?_
  cases choice with
  | succeed =>
      obtain ⟨-, rfl⟩ := Prod.mk.inj (Option.some.inj hact)
      have hown := hmid.own
      exact hnext _ (hmid.update hmid.puts rfl (by rw [← hown]; rfl) rfl rfl)
  | _ => exact absurd hact (by simp [UserState.act])

theorem covers_setCheckpoint {value : ℤ} {next : Unit → UserProg α}
    (hwriting : Writing i base puts flags own state)
    (hnext : ∀ mid, Writing i base puts flags { own with checkpoint := value } mid →
      Covers i post (next ()) mid) :
    Covers i post (.act (.setCheckpoint value) next) state := by
  refine covers_writing hwriting fun mid choice result user hmid hact => ?_
  cases choice with
  | succeed =>
      obtain ⟨-, rfl⟩ := Prod.mk.inj (Option.some.inj hact)
      have hown := hmid.own
      exact hnext _ (hmid.update hmid.puts rfl (by rw [← hown]; rfl) rfl rfl)
  | _ => exact absurd hact (by simp [UserState.act])

/-- The pool is emptied, and its handles are put. -/
theorem covers_bufpoolFree {pool : BufferPool} {next : Unit → UserProg α}
    (hwriting : Writing i base puts flags own state)
    (hnext : ∀ mid, Writing i base
        (puts ++ (own.handles pool).map fun handle => (pool, handle)) flags
        { own with
          pools := Function.update own.pools pool []
          handles := Function.update own.handles pool [] } mid →
      Covers i post (next ()) mid) :
    Covers i post (.act (.bufpoolFree pool) next) state := by
  refine covers_writing hwriting fun mid choice result user hmid hact => ?_
  cases choice with
  | succeed =>
      obtain ⟨-, rfl⟩ := Prod.mk.inj (Option.some.inj hact)
      have hown := hmid.own
      have hputs := hmid.puts
      refine hnext _ (hmid.update ?_ rfl ?_ rfl rfl)
      · change mid.puts ++ (freed (mid.host.handles pool)).puts.map _ = _
        rw [freed_eq, hputs, ← hown]
        rfl
      · rw [← hown]
        change (⟨_, _, _, Function.update mid.host.handles pool
          (freed (mid.host.handles pool)).handles⟩ : Own) = _
        rw [freed_eq]
        rfl
  | _ => exact absurd hact (by simp [UserState.act])

theorem covers_forgetChannel {next : Unit → UserProg α}
    (hwriting : Writing i base [] flags own state) (hbase : base.host.own = .none)
    (hnext : ∀ mid, Run i base
        ((own.handles .intBuffers).map (fun handle => (.intBuffers, handle)) ++
          (own.handles .recBuffers).map (fun handle => (.recBuffers, handle)))
        userOperations flags mid → Covers i post (next ()) mid) :
    Covers i post (forgetChannel.bind next) state := by
  unfold forgetChannel al5UserDestroyChannelResources
  simp only [Prog.bind_eq, Prog.act_bind, Prog.perform]
  refine covers_setChanUid hwriting fun mid₁ h₁ => ?_
  refine covers_setCheckpoint h₁ fun mid₂ h₂ => ?_
  refine covers_bufpoolFree h₂ fun mid₃ h₃ => ?_
  refine covers_bufpoolFree h₃ fun mid₄ h₄ => hnext mid₄ ?_
  have hnone : ∀ {β : Type} (f : BufferPool → List β),
      Function.update (Function.update f .intBuffers []) .recBuffers [] = fun _ => [] := by
    intro β f
    funext pool
    cases pool with
    | intBuffers => simp
    | recBuffers => simp
  refine h₄.run ?_
  rw [hbase, hnone, hnone]
  rfl

end

/-! ## The moves are what other calls do -/

/-- An action of the call `j` that is no destroy: it releases its own mutexes, writes
under the mutex of a creation, and leaves the queue flags and the replies to destroys
alone. -/
def UserAct.Minds (j : ℕ) (user : UserState) : UserAct → Prop
  | .mutexUnlock operation => user.locks operation = some j
  | .listPop which => which ≠ .destroy
  | .setChanUid value => user.locks .create = some j ∧ value ≠ badChan
  | .setCheckpoint _ | .bufpoolAllocate .. | .bufpoolFree _ =>
      user.locks .create = some j ∧ user.chanUid ≠ badChan
  | .queueUnlock _ | .queueLock _ | .unbind => False
  | _ => True

def UserAct.fillsPools : UserAct → Bool
  | .bufpoolAllocate .. | .bufpoolFree _ => true
  | _ => false

structure SameHost (host host' : Host) : Prop where
  own : host.own = host'.own
  locks : host.user.locks = host'.user.locks
  queues : host.user.queues = host'.user.queues

/-- An action of another call on the user is a move, or changes nothing that others can
see: so the moves between two actions of a destroy are all that the calls of
`userMachine` can do there. -/
theorem moves_of_act {i j : ℕ} {user user' : UserState}
    {handles handles' : BufferPool → List ℕ} {action : UserAct} {choice : Choice}
    {result : action.Res} (hne : j ≠ i)
    (hact : user.act j action choice = some (result, user')) (hminds : action.Minds j user)
    (hhandles : action.fillsPools = false → handles' = handles) :
    ∃ moves, Host.Admits i ⟨user, handles⟩ moves ∧
      SameHost (Host.moved ⟨user, handles⟩ moves) ⟨user', handles'⟩ := by
  by_cases hunseen : action.isUnseen = true
  · obtain ⟨hqueues, hlocks, hown⟩ := act_unseen hunseen hact
    have hsame : handles' = handles := hhandles (by cases action <;> first | rfl | cases hunseen)
    subst hsame
    exact ⟨[], trivial, (hown _).symm, hlocks.symm, hqueues.symm⟩
  · cases action with
    | mutexLockKillable operation =>
        obtain rfl := hhandles rfl
        cases choice with
        | succeed =>
            simp only [UserState.act] at hact
            split_ifs at hact with hfree hlast
            · obtain ⟨-, rfl⟩ := Prod.mk.inj (Option.some.inj hact)
              exact ⟨[.lock j operation], ⟨⟨hne, hfree⟩, trivial⟩, rfl, rfl, rfl⟩
            · obtain ⟨-, rfl⟩ := Prod.mk.inj (Option.some.inj hact)
              exact ⟨[.lock j operation], ⟨⟨hne, hfree⟩, trivial⟩, rfl, rfl, rfl⟩
        | signal =>
            simp only [UserState.act] at hact
            split_ifs at hact with hfree
            obtain ⟨-, rfl⟩ := Prod.mk.inj (Option.some.inj hact)
            exact ⟨[], trivial, rfl, rfl, rfl⟩
        | _ => exact absurd hact (by simp [UserState.act])
    | mutexTrylock operation =>
        obtain rfl := hhandles rfl
        cases choice with
        | succeed =>
            simp only [UserState.act] at hact
            split_ifs at hact with hfree
            · obtain ⟨-, rfl⟩ := Prod.mk.inj (Option.some.inj hact)
              exact ⟨[.lock j operation], ⟨⟨hne, hfree⟩, trivial⟩, rfl, rfl, rfl⟩
            · obtain ⟨-, rfl⟩ := Prod.mk.inj (Option.some.inj hact)
              exact ⟨[], trivial, rfl, rfl, rfl⟩
        | _ => exact absurd hact (by simp [UserState.act])
    | mutexUnlock operation =>
        obtain rfl := hhandles rfl
        cases choice with
        | succeed =>
            obtain ⟨-, rfl⟩ := Prod.mk.inj (Option.some.inj hact)
            exact ⟨[.unlock j operation], ⟨⟨hne, hminds⟩, trivial⟩, rfl, rfl, rfl⟩
        | _ => exact absurd hact (by simp [UserState.act])
    | listPop which =>
        obtain rfl := hhandles rfl
        cases choice with
        | succeed =>
            obtain ⟨-, rfl⟩ := Prod.mk.inj (Option.some.inj hact)
            exact ⟨[.pop which], ⟨hminds, trivial⟩, rfl, rfl, rfl⟩
        | _ => exact absurd hact (by simp [UserState.act])
    | setChanUid value =>
        cases choice with
        | succeed =>
            obtain ⟨-, rfl⟩ := Prod.mk.inj (Option.some.inj hact)
            exact ⟨[.write j ⟨value, user.checkpoint, user.pools, handles'⟩],
              ⟨⟨hne, hminds.1, hminds.2⟩, trivial⟩, rfl, rfl, rfl⟩
        | _ => exact absurd hact (by simp [UserState.act])
    | setCheckpoint value =>
        cases choice with
        | succeed =>
            obtain ⟨-, rfl⟩ := Prod.mk.inj (Option.some.inj hact)
            exact ⟨[.write j ⟨user.chanUid, value, user.pools, handles'⟩],
              ⟨⟨hne, hminds.1, hminds.2⟩, trivial⟩, rfl, rfl, rfl⟩
        | _ => exact absurd hact (by simp [UserState.act])
    | bufpoolAllocate pool count size =>
        cases choice with
        | buffers found =>
            simp only [UserState.act] at hact
            split_ifs at hact with hcount
            obtain ⟨-, rfl⟩ := Prod.mk.inj (Option.some.inj hact)
            exact ⟨[.write j ⟨user.chanUid, user.checkpoint, _, handles'⟩],
              ⟨⟨hne, hminds.1, hminds.2⟩, trivial⟩, rfl, rfl, rfl⟩
        | fail =>
            obtain ⟨-, rfl⟩ := Prod.mk.inj (Option.some.inj hact)
            exact ⟨[.write j ⟨user.chanUid, user.checkpoint, _, handles'⟩],
              ⟨⟨hne, hminds.1, hminds.2⟩, trivial⟩, rfl, rfl, rfl⟩
        | _ => exact absurd hact (by simp [UserState.act])
    | bufpoolFree pool =>
        cases choice with
        | succeed =>
            obtain ⟨-, rfl⟩ := Prod.mk.inj (Option.some.inj hact)
            exact ⟨[.write j ⟨user.chanUid, user.checkpoint, _, handles'⟩],
              ⟨⟨hne, hminds.1, hminds.2⟩, trivial⟩, rfl, rfl, rfl⟩
        | _ => exact absurd hact (by simp [UserState.act])
    | queueUnlock which => exact hminds.elim
    | queueLock which => exact hminds.elim
    | unbind => exact hminds.elim
    | _ => exact absurd rfl hunseen

/-! ## The whole destroy -/

/-- The flags of the four queues are set to one value. -/
def flagsAfter (flag : Bool) (flags : UserMail → Option Bool) : UserMail → Option Bool :=
  Function.update (Function.update (Function.update (Function.update flags
    .status (some flag)) .sc (some flag)) .create (some flag)) .reconstructed (some flag)

section

variable {α : Type} {i : ℕ} {base : Base} {before : Host} {quiet : Bool}
  {puts : List (BufferPool × ℕ)} {held : List UserOperation}
  {flags : UserMail → Option Bool} {state : Destroying} {post : α → Destroying → Prop}

theorem covers_userQueuesUnlock {next : Unit → UserProg α}
    (hrun : Run i base puts held flags state)
    (hnext : ∀ mid, Run i base puts held (flagsAfter false flags) mid →
      Covers i post (next ()) mid) :
    Covers i post (userQueuesUnlock.bind next) state := by
  unfold userQueuesUnlock
  simp only [Prog.bind_eq, Prog.act_bind, Prog.perform]
  refine covers_queueUnlock hrun fun mid₁ h₁ => ?_
  refine covers_queueUnlock h₁ fun mid₂ h₂ => ?_
  refine covers_queueUnlock h₂ fun mid₃ h₃ => ?_
  exact covers_queueUnlock h₃ fun mid₄ h₄ => hnext mid₄ h₄

theorem covers_userQueuesLock {next : Unit → UserProg α}
    (hrun : Run i base puts held flags state)
    (hnext : ∀ mid, Run i base puts held (flagsAfter true flags) mid →
      Covers i post (next ()) mid) :
    Covers i post (userQueuesLock.bind next) state := by
  unfold userQueuesLock
  simp only [Prog.bind_eq, Prog.act_bind, Prog.perform]
  refine covers_queueLock hrun fun mid₁ h₁ => ?_
  refine covers_queueLock h₁ fun mid₂ h₂ => ?_
  refine covers_queueLock h₂ fun mid₃ h₃ => ?_
  exact covers_queueLock h₃ fun mid₄ h₄ => hnext mid₄ h₄

/-- A destroy that is decided: from here on the idle host is the one in which the
channel is destroyed. -/
theorem Run.decide (quiet : Bool) {user : UserState}
    (hrun : Run i ⟨[], before⟩ [] userOperations flags state)
    (hown : (⟨user, state.host.handles⟩ : Host).own = state.host.own)
    (hbeside : Beside i userOperations flags (before.moved state.moves) state.host →
      Beside i userOperations flags ((before.moved state.moves).destroyed quiet)
        ⟨user, state.host.handles⟩) :
    Writing i ⟨state.moves, (before.moved state.moves).destroyed quiet⟩ [] flags
      (before.moved state.moves).own { state with host := ⟨user, state.host.handles⟩ } := by
  obtain ⟨since, hmoves, hold, hsame⟩ := hrun.beside
  rw [List.nil_append] at hmoves
  rw [← hmoves] at hold hsame
  exact ⟨hrun.puts, hown.trans hsame, [], (List.append_nil _).symm, hbeside hold, rfl⟩

/-- Under the mutexes, the destroy gives up or destroys the channel. -/
theorem covers_destroyUnderLocks {next : ℤ → UserProg α}
    (hrun : Run i ⟨[], before⟩ [] userOperations flags state)
    (hfail : ∀ mid err, err ≠ 0 → Run i ⟨[], before⟩ [] userOperations flags mid →
      Covers i post (next err) mid)
    (hdone : ∀ mid moves,
      Run i ⟨moves, (before.moved moves).destroyed quiet⟩ (before.moved moves).allHandles
        userOperations flags mid →
      (quiet = false → ((before.moved moves).user.queues .destroy).mails ≠ []) →
        Covers i post (next 0) mid) :
    Covers i post ((destroyUnderLocks quiet).bind next) state := by
  unfold destroyUnderLocks
  simp only [Prog.bind_eq, Prog.perform_bind, Prog.act_bind, Prog.pure_eq]
  refine covers_unseen rfl hrun fun mid₁ chanUid h₁ => ?_
  cases quiet with
  | true =>
      rw [if_pos rfl, Prog.bind_assoc]
      refine covers_sendBuilt h₁ fun mid₂ err h₂ => ?_
      by_cases herr : err = 0
      · rw [if_neg (by simpa using herr), Prog.bind_assoc]
        have hwriting : Writing i
            ⟨mid₂.moves, (before.moved mid₂.moves).destroyed true⟩ [] flags
            (before.moved mid₂.moves).own mid₂ :=
          h₂.decide true rfl fun hbeside => hbeside.forget .none
        exact covers_forgetChannel hwriting rfl
          fun mid₃ h₃ => hdone mid₃ mid₂.moves h₃ fun hfalse => absurd hfalse Bool.true_eq_false.mp
      · rw [if_pos herr]
        exact hfail mid₂ err herr h₂
  | false =>
      rw [if_neg Bool.false_ne_true, Prog.bind_assoc]
      refine covers_sendBuilt h₁ fun mid₂ err h₂ => ?_
      by_cases herr : err = 0
      · rw [if_neg (by simpa using herr), Prog.bind_assoc]
        unfold al5QueuePop
        simp only [Prog.bind_eq, Prog.perform_bind, Prog.act_bind]
        refine covers_unseen rfl h₂ fun mid₃ _ h₃ => ?_
        refine covers_act (by simp) h₃ fun mid₄ choice mail user h₄ hact => ?_
        cases choice with
        | succeed =>
            obtain ⟨rfl, rfl⟩ := Prod.mk.inj (Option.some.inj hact)
            cases hmails : (mid₄.host.user.queues .destroy).mails with
            | nil =>
                refine hfail _ _ (show -EINTR ≠ 0 from by decide)
                  (h₄.update rfl fun idle hbeside => ?_)
                refine hbeside.congr ?_ rfl
                simp only [UserState.record, UserState.setQueue, List.tail_nil]
                rw [← hmails]
                exact Function.update_eq_self _ _
            | cons mail rest =>
                have hnonempty :
                    ((before.moved mid₄.moves).user.queues .destroy).mails ≠ [] := by
                  obtain ⟨since, hmoves, hbeside, -⟩ := h₄.beside
                  rw [List.nil_append] at hmoves
                  rw [hmoves, ← hbeside.mails, hmails]
                  exact List.cons_ne_nil mail rest
                refine covers_freeMail
                  (h₄.decide false rfl fun hbeside => ?_) fun mid₅ h₅ => ?_
                · refine ((hbeside.popped .destroy).forget .none).congr ?_ rfl
                  simp only [UserState.record, UserState.setQueue, Host.popped, hmails]
                · exact covers_forgetChannel h₅ rfl
                    fun mid₆ h₆ => hdone mid₆ mid₄.moves h₆ fun _ => hnonempty
        | _ => exact absurd hact (by simp [UserState.act])
      · rw [if_pos herr]
        exact hfail mid₂ err herr h₂

/-- The queues are locked again and no mutex is held. -/
theorem Beside.leftAs {idle host : Host}
    (hbeside : Beside i [] (flagsAfter true (flagsAfter false fun _ => none)) idle host)
    (hown : host.own = idle.own) : LeftAs idle host where
  own := hown
  locks := funext fun operation => (hbeside.others operation List.not_mem_nil).1
  mails := hbeside.mails
  locked which := by
    rw [hbeside.locked]
    cases which <;> rfl

theorem Run.atomicEnd_of_error {err : ℤ} (herr : err ≠ 0)
    (hrun : Run i ⟨[], before⟩ [] [] (flagsAfter true (flagsAfter false fun _ => none))
      state) : AtomicEnd quiet before err state := by
  obtain ⟨since, hmoves, hbeside, hown⟩ := hrun.beside
  rw [List.nil_append] at hmoves
  unfold AtomicEnd
  rw [if_neg herr, hmoves]
  exact ⟨hbeside.leftAs hown, hrun.puts⟩

theorem Run.atomicEnd_of_done {moves : List OtherMove}
    (hmails : quiet = false → ((before.moved moves).user.queues .destroy).mails ≠ [])
    (hrun : Run i ⟨moves, (before.moved moves).destroyed quiet⟩
      (before.moved moves).allHandles [] (flagsAfter true (flagsAfter false fun _ => none))
      state) : AtomicEnd quiet before 0 state := by
  obtain ⟨since, hmoves, hbeside, hown⟩ := hrun.beside
  unfold AtomicEnd
  rw [if_pos rfl]
  exact ⟨moves, since, hmoves, hbeside.leftAs hown, hrun.puts, hmails⟩

/-- From any host with a channel, whatever the others do in between and wherever it
fails, a destroy ends with everything or nothing done. -/
theorem destroy_is_atomic (i : ℕ) (quiet : Bool) (before : Host)
    (hcreated : before.user.chanUid ≠ badChan)
    (hfree : ∀ operation, before.user.locks operation ≠ some i) :
    (al5UserDestroyChannel quiet).Ensures (Destroying.exec i) (fun _ _ => True)
      (AtomicEnd quiet before) ⟨before, [], []⟩ := by
  have hnodup : userOperations.Nodup := by decide
  have hstart : Run i ⟨[], before⟩ [] [] (fun _ => none) ⟨before, [], []⟩ :=
    ⟨rfl, [], rfl, Beside.refl hfree, rfl⟩
  unfold al5UserDestroyChannel
  simp only [Prog.bind_eq, Prog.perform_bind, Prog.pure_eq]
  refine .act trivial ?_
  rintro chanUid state ⟨moves, choice, user, hadmits, hact, rfl⟩
  cases choice with
  | succeed =>
      obtain ⟨rfl, rfl⟩ := Prod.mk.inj (Option.some.inj hact)
      have hrun := hstart.others hadmits
      have hchan : ((⟨before, [], []⟩ : Destroying).others moves).host.user.chanUid ≠ badChan :=
        chanUid_moved hcreated hadmits
      rw [if_neg hchan]
      refine covers_userQueuesUnlock hrun fun mid₁ h₁ => ?_
      refine covers_lockAll hnodup h₁ (fun mid₂ h₂ => ?_) (fun mid₂ h₂ => ?_)
      · rw [if_pos rfl]
        refine covers_destroyUnderLocks h₂ (fun mid₃ err herr h₃ => ?_)
          (fun mid₃ moves h₃ hmails => ?_)
        · refine covers_unlockAll hnodup h₃ fun mid₄ h₄ => ?_
          exact covers_userQueuesLock h₄ fun mid₅ h₅ => h₅.atomicEnd_of_error herr
        · refine covers_unlockAll hnodup h₃ fun mid₄ h₄ => ?_
          exact covers_userQueuesLock h₄ fun mid₅ h₅ => h₅.atomicEnd_of_done hmails
      · rw [if_neg Bool.false_ne_true]
        exact covers_userQueuesLock h₂ fun mid₃ h₃ =>
          h₃.atomicEnd_of_error (show -EINTR ≠ 0 from by decide)
  | _ => exact absurd hact (by simp [UserState.act])

def pooledHost : Host where
  user := { al5UserInit with
    chanUid := 3
    pools := fun _ => [⟨4096, 16⟩] }
  handles
    | .intBuffers => [7]
    | .recBuffers => [8]

theorem pooled_destroy_is_atomic :
    (al5UserDestroyChannel false).Ensures (Destroying.exec 0) (fun _ _ => True)
      (AtomicEnd false pooledHost) ⟨pooledHost, [], []⟩ :=
  destroy_is_atomic 0 false pooledHost (by decide) fun _ => by
    simp [pooledHost, al5UserInit]

end

end VcuDriver

import VcuDriver.UserConditions
import VcuDriver.UserDiscipline
import VcuDriver.Conc.Outline

/-!
# What holds of a user at any time

The mutexes of a user protect three things.  The create mutex protects the
channel uid while there is no channel, the checkpoint, the buffer pools and the
feedback of a create request.  A channel, once there, stays as long as any mutex
is held by a call other than the one that destroys it, since that call holds all
of them.  And the mutex of an exchange protects its requests and replies.

`UserInv` and `UserRely` say so, and every atomic step of a user is checked
against them once.
-/

namespace VcuDriver

open Conc

/-! ## The invariant -/

structure ChannelData where
  hist : Hist
  chanUid : Word
  checkpoint : ℤ
  pools : BufferPool → List DmaBuffer

def UserState.channel (state : UserState) : ChannelData :=
  ⟨state.hist, state.chanUid, state.checkpoint, state.pools⟩

/-- What the checkpoint of an encoder says about the buffers which were sent. -/
structure ChannelData.Stocked (channel : ChannelData) : Prop where
  full : channel.checkpoint = noCheckpoint → channel.hist.halfCreated = false →
    channel.hist.Buffered
  sendReference : channel.checkpoint = checkpointSendReferenceBuffers →
    channel.hist.pushedIntermediate = true

/-- The channel of an encoder between its creations and destructions. -/
structure ChannelData.Settled (channel : ChannelData) : Prop where
  finished : channel.hist.halfCreated = false
  stage : channel.checkpoint = noCheckpoint ∨
    channel.checkpoint = checkpointSendIntermediateBuffers ∨
    channel.checkpoint = checkpointSendReferenceBuffers
  resumable : channel.checkpoint ≠ noCheckpoint → channel.chanUid ≠ badChan ∧
    ∀ pool, (channel.pools pool).length = channel.hist.asked pool
  empty : channel.chanUid = badChan → ∀ pool, channel.pools pool = []

def UserState.Sorted (state : UserState) : Prop :=
  ∀ which, ∀ mail ∈ (state.queues which).mails, mailToQueue mail.uid? = which

structure UserInv (kind : UserKind) (uid : Word) (conditions : Set Condition)
    (state : UserState) : Prop where
  chanUid : state.hist.chanUid = state.chanUid
  idle : state.locks .create = none → state.hist.Idle
  settled : kind = .encoder → state.closer = none → state.locks .create = none →
    state.channel.Settled
  stocked : kind = .encoder → state.closer = none → .allocates ∈ conditions →
    state.chanUid ≠ badChan → state.channel.Stocked
  closing : ∀ (closer : ℕ) (operation : UserOperation) (i : ℕ),
    state.closer = some closer → state.locks operation = some i → i = closer
  quiet : state.closer ≠ none → state.hist.awaiting = false
  bound : state.closer = none → state.bound = true
  destroyLocked : state.closer = none → (state.queues .destroy).locked = true
  alive : .destroyWaits ∈ conditions → state.chanUid ≠ badChan →
    state.chanUid ∈ state.hist.dead → ∃ i, state.HoldsAll i
  paired : ∀ exchange : Exchange, .finds exchange.queue ∈ conditions →
    state.closer = none → exchange.Paired state.locks state.log
  sorted : state.Sorted
  events : EachEvent (OkEvent uid conditions) state.log

/-! ## What a call relies on -/

structure UserRely (i : ℕ) (state state' : UserState) : Prop where
  locks : ∀ operation : UserOperation,
    state'.locks operation = some i ↔ state.locks operation = some i
  closer : state'.closer = state.closer
  unbound : state.bound = false → state'.bound = false
  creating : state.locks .create = some i → state'.channel = state.channel
  holding : ∀ operation : UserOperation, state.locks operation = some i →
    state.chanUid ≠ badChan →
      state'.chanUid = state.chanUid ∧ state'.hist.dead = state.hist.dead
  destroying : state.HoldsAll i →
    (state.queues .destroy).mails ≠ [] → (state'.queues .destroy).mails ≠ []
  pairs : ∀ exchange : Exchange, state.locks exchange.mutex = some i →
    exchange.requests state'.log = exchange.requests state.log ∧
      exchange.replies state'.log = exchange.replies state.log

theorem UserRely.refl (i : ℕ) (state : UserState) : UserRely i state state where
  locks _ := Iff.rfl
  closer := rfl
  unbound h := h
  creating _ := rfl
  holding _ _ _ := ⟨rfl, rfl⟩
  destroying _ h := h
  pairs _ _ := ⟨rfl, rfl⟩

theorem UserRely.trans
    {i : ℕ} {state₁ state₂ state₃ : UserState}
    (hfirst : UserRely i state₁ state₂) (hsecond : UserRely i state₂ state₃) :
    UserRely i state₁ state₃ where
  locks operation := (hsecond.locks operation).trans (hfirst.locks operation)
  closer := hsecond.closer.trans hfirst.closer
  unbound h := hsecond.unbound (hfirst.unbound h)
  creating hlock :=
    (hsecond.creating ((hfirst.locks .create).mpr hlock)).trans
      (hfirst.creating hlock)
  holding operation hlock hbad := by
    obtain ⟨hchan, hdead⟩ := hfirst.holding operation hlock hbad
    obtain ⟨hchan', hdead'⟩ :=
      hsecond.holding operation ((hfirst.locks operation).mpr hlock)
        (by rwa [hchan])
    exact ⟨hchan'.trans hchan, hdead'.trans hdead⟩
  destroying hall hmails :=
    hsecond.destroying (fun operation => (hfirst.locks operation).mpr (hall operation))
      (hfirst.destroying hall hmails)
  pairs exchange hlock := by
    obtain ⟨hrequests, hreplies⟩ := hfirst.pairs exchange hlock
    obtain ⟨hrequests', hreplies'⟩ :=
      hsecond.pairs exchange ((hfirst.locks exchange.mutex).mpr hlock)
    exact ⟨hrequests'.trans hrequests, hreplies'.trans hreplies⟩

def UserState.HoldsNone (state : UserState) (i : ℕ) : Prop :=
  ∀ operation, state.locks operation ≠ some i

theorem UserRely.holdsNone
    {i : ℕ} {state state' : UserState} (hrely : UserRely i state state')
    (hnone : state.HoldsNone i) : state'.HoldsNone i :=
  fun operation hlock => hnone operation ((hrely.locks operation).mp hlock)

/-- The outline of a user: a call that returns leaves no mutex locked, and the
call that releases the file leaves the user unbound. -/
def userOutline (kind : UserKind) (uid : Word) (conditions : Set Condition) :
    Outline (userMachine kind uid) (userRegime conditions) where
  inv := UserInv kind uid conditions
  rely := UserRely
  fresh i state := state.HoldsNone i
  post i op _ state :=
    state.HoldsNone i ∧ (op.isRelease = true → state.bound = false)
  rely_refl := UserRely.refl
  rely_trans := UserRely.trans
  fresh_rely hrely hfresh := hrely.holdsNone hfresh
  post_rely hrely hpost :=
    ⟨hrely.holdsNone hpost.1, fun hrelease => hrely.unbound (hpost.2 hrelease)⟩

/-! ## Steps -/

section

variable {kind : UserKind} {uid : Word} {conditions : Set Condition}
variable {i : ℕ} {state state' : UserState}

namespace UserState

@[simp] theorem hist_setLock (operation : UserOperation) (owner : Option ℕ) :
    (state.setLock operation owner).hist = state.hist := rfl

@[simp] theorem channel_setLock (operation : UserOperation) (owner : Option ℕ) :
    (state.setLock operation owner).channel = state.channel := rfl

@[simp] theorem hist_record (event : Event) :
    (state.record event).hist = state.hist.next event := rfl

theorem hist_of_log {event : Event} (hlog : state'.log = event :: state.log) :
    state'.hist = state.hist.next event := by
  unfold hist
  rw [hlog]
  rfl

theorem setLock_self (operation : UserOperation) (owner : Option ℕ) :
    (state.setLock operation owner).locks operation = owner :=
  Function.update_self ..

theorem setLock_of_ne
    {operation other : UserOperation} (owner : Option ℕ)
    (hne : other ≠ operation) :
    (state.setLock operation owner).locks other = state.locks other :=
  Function.update_of_ne hne ..

theorem setQueue_self (which : UserMail) (queue : Al5Queue) :
    (state.setQueue which queue).queues which = queue :=
  Function.update_self ..

theorem setQueue_of_ne
    {which other : UserMail} (queue : Al5Queue) (hne : other ≠ which) :
    (state.setQueue which queue).queues other = state.queues other :=
  Function.update_of_ne hne ..

/-- While a mutex is free no call holds all of them. -/
theorem not_holdsAll_of_free
    {operation : UserOperation} (hfree : state.locks operation = none) (j : ℕ) :
    ¬ state.HoldsAll j := by
  intro hall
  rw [hall operation] at hfree
  exact absurd hfree (by simp)

/-- A request or a reply is logged by the owner of the mutex of its exchange, or
while the file is closed. -/
def MayLog (conditions : Set Condition) (i : ℕ) (state : UserState)
    (event : Event) : Prop :=
  ∀ exchange : Exchange, exchange.Ignores event ∨
    (state.locks exchange.mutex = some i ∨ state.closer = some i) ∧
      (.finds exchange.queue ∈ conditions → state.closer = none →
        exchange.Paired state.locks (event :: state.log))

end UserState

/-- A step of call `i` keeps the invariant and what the others rely on. -/
structure Sound (kind : UserKind) (uid : Word) (conditions : Set Condition)
    (i : ℕ) (state state' : UserState) : Prop where
  inv : UserInv kind uid conditions state'
  rely : ∀ j, j ≠ i → UserRely j state state'

variable (hinv : UserInv kind uid conditions state)
include hinv

theorem Sound.refl : Sound kind uid conditions i state state :=
  ⟨hinv, fun j _ => UserRely.refl j state⟩

/-- A channel whose destroy mail was accepted is alive to nobody but the call
that destroys it. -/
theorem UserInv.alive_of_not_holdsAll
    (hwaits : .destroyWaits ∈ conditions) (hbad : state.chanUid ≠ badChan)
    (hnot : ∀ j, ¬ state.HoldsAll j) : state.hist.Alive state.chanUid := by
  refine ⟨hbad, ?_⟩
  intro hdead
  obtain ⟨j, hall⟩ := hinv.alive hwaits hbad hdead
  exact hnot j hall

/-- The owner of a mutex is not the closing call of another. -/
theorem UserInv.eq_of_closer
    {operation : UserOperation} {j : ℕ} (hcloser : state.closer = some i)
    (hlock : state.locks operation = some j) : j = i :=
  hinv.closing i operation j hcloser hlock

/-- A step that leaves the mutexes, what they protect and the log alone. -/
theorem UserInv.still
    (hlocks : state'.locks = state.locks) (hcloser : state'.closer = state.closer)
    (hchannel : state'.channel = state.channel) (hlog : state'.log = state.log)
    (hbound : state.closer = none → state'.bound = state.bound)
    (hunbound : state.bound = false → state'.bound = false)
    (hflag : state.closer = none → (state'.queues .destroy).locked = true)
    (hmails : (state.queues .destroy).mails ≠ [] →
      (state'.queues .destroy).mails ≠ [])
    (hsorted : state'.Sorted) :
    UserInv kind uid conditions state' ∧ ∀ j, UserRely j state state' := by
  have hhist : state'.hist = state.hist := congrArg ChannelData.hist hchannel
  have hchan : state'.chanUid = state.chanUid := congrArg ChannelData.chanUid hchannel
  constructor
  · refine ⟨?_, ?_, ?_, ?_, ?_, ?_, ?_, ?_, ?_, ?_, hsorted, ?_⟩
    · rw [hhist, hchan]
      exact hinv.chanUid
    · rw [hlocks, hhist]
      exact hinv.idle
    · rw [hlocks, hcloser, hchannel]
      exact hinv.settled
    · rw [hcloser, hchannel, hchan]
      exact hinv.stocked
    · rw [hlocks, hcloser]
      exact hinv.closing
    · rw [hcloser, hhist]
      exact hinv.quiet
    · intro hnone
      rw [hcloser] at hnone
      rw [hbound hnone]
      exact hinv.bound hnone
    · rw [hcloser]
      exact hflag
    · unfold UserState.HoldsAll
      rw [hlocks, hchan, hhist]
      exact hinv.alive
    · rw [hlocks, hcloser, hlog]
      exact hinv.paired
    · rw [hlog]
      exact hinv.events
  · intro j
    refine ⟨?_, hcloser, hunbound, fun _ => hchannel, fun _ _ _ => ⟨hchan, ?_⟩,
      fun _ => hmails, ?_⟩
    · rw [hlocks]
      exact fun _ => Iff.rfl
    · rw [hhist]
    · rw [hlog]
      exact fun _ _ => ⟨rfl, rfl⟩

theorem Sound.still
    (hlocks : state'.locks = state.locks) (hcloser : state'.closer = state.closer)
    (hchannel : state'.channel = state.channel) (hlog : state'.log = state.log)
    (hbound : state.closer = none → state'.bound = state.bound)
    (hunbound : state.bound = false → state'.bound = false)
    (hflag : state.closer = none → (state'.queues .destroy).locked = true)
    (hmails : (state.queues .destroy).mails ≠ [] →
      (state'.queues .destroy).mails ≠ [])
    (hsorted : state'.Sorted) :
    Sound kind uid conditions i state state' := by
  obtain ⟨hinv', hrely⟩ :=
    hinv.still hlocks hcloser hchannel hlog hbound hunbound hflag hmails hsorted
  exact ⟨hinv', fun j _ => hrely j⟩

/-- The buffer pools concern the owner of the create mutex, or the call that
closes the file. -/
theorem Sound.pools
    (howner : state.locks .create = some i ∨ state.closer = some i)
    (pools : BufferPool → List DmaBuffer) :
    Sound kind uid conditions i state { state with pools } := by
  constructor
  · refine ⟨hinv.chanUid, hinv.idle, ?_, ?_, hinv.closing, hinv.quiet, hinv.bound,
      hinv.destroyLocked, hinv.alive, hinv.paired, hinv.sorted, hinv.events⟩
    · intro _ hcloser hfree
      have hcloser : state.closer = none := hcloser
      have hfree : state.locks .create = none := hfree
      rcases howner with hlock | hclosing
      · rw [hfree] at hlock
        exact absurd hlock (by simp)
      · rw [hcloser] at hclosing
        exact absurd hclosing (by simp)
    · intro hkind hcloser halloc hbad
      have hstocked := hinv.stocked hkind hcloser halloc hbad
      exact ⟨hstocked.full, hstocked.sendReference⟩
  · intro j hj
    refine ⟨fun _ => Iff.rfl, rfl, id, ?_, fun _ _ _ => ⟨rfl, rfl⟩, fun _ h => h,
      fun _ _ => ⟨rfl, rfl⟩⟩
    intro hlock
    rcases howner with howner | hclosing
    · rw [hlock] at howner
      exact absurd (Option.some.inj howner) hj
    · exact absurd (hinv.eq_of_closer hclosing hlock) hj

theorem Sound.lock
    {operation : UserOperation} (hfree : state.locks operation = none)
    (hsolo : state.closer.all (· == i) = true) :
    Sound kind uid conditions i state (state.setLock operation (some i)) := by
  have hlocks : ∀ (other : UserOperation) (j : ℕ), j ≠ i →
      ((state.setLock operation (some i)).locks other = some j ↔
        state.locks other = some j) := by
    intro other j hj
    by_cases hother : other = operation
    · subst hother
      rw [UserState.setLock_self, hfree]
      simp [Ne.symm hj]
    · rw [UserState.setLock_of_ne _ hother]
  have hcreate : (state.setLock operation (some i)).locks .create = none →
      state.locks .create = none := by
    intro hnone
    by_cases hother : UserOperation.create = operation
    · rw [← hother, UserState.setLock_self] at hnone
      exact absurd hnone (by simp)
    · rwa [UserState.setLock_of_ne _ hother] at hnone
  constructor
  · refine ⟨hinv.chanUid, fun h => hinv.idle (hcreate h),
      fun hkind hcloser h => hinv.settled hkind hcloser (hcreate h), hinv.stocked,
      ?_, hinv.quiet, hinv.bound, hinv.destroyLocked, ?_, ?_, hinv.sorted,
      hinv.events⟩
    · intro closer other j hcloser hlock
      by_cases hj : j = i
      · subst hj
        have hcloser : state.closer = some closer := hcloser
        rw [hcloser] at hsolo
        have hsame : closer = j := by simpa using hsolo
        exact hsame.symm
      · exact hinv.closing closer other j hcloser ((hlocks other j hj).mp hlock)
    · intro hwaits hbad hdead
      obtain ⟨j, hall⟩ := hinv.alive hwaits hbad hdead
      exact absurd hall (UserState.not_holdsAll_of_free hfree j)
    · intro exchange hfinds hcloser
      rcases hinv.paired exchange hfinds hcloser with heven | ⟨call, hodd, hlock⟩
      · exact .inl heven
      · right
        refine ⟨call, hodd, ?_⟩
        have hne : exchange.mutex ≠ operation := by
          intro heq
          rw [heq, hfree] at hlock
          exact absurd hlock (by simp)
        rw [UserState.setLock_of_ne _ hne]
        exact hlock
  · intro j hj
    exact ⟨fun other => hlocks other j hj, rfl, id, fun _ => rfl,
      fun _ _ _ => ⟨rfl, rfl⟩, fun _ h => h, fun _ _ => ⟨rfl, rfl⟩⟩

/-- Unlocking: the create mutex is given back with no creation under way, the
mutex of an exchange with every request answered, and no mutex is given back
while the channel held has been destroyed. -/
theorem Sound.unlock
    {operation : UserOperation} (howner : state.locks operation = some i)
    (hidle : operation = .create → state.hist.Idle)
    (hsettled : operation = .create → kind = .encoder → state.closer = none →
      state.channel.Settled)
    (halive : .destroyWaits ∈ conditions → state.chanUid ≠ badChan →
      state.hist.Alive state.chanUid)
    (hanswered : ∀ exchange : Exchange, exchange.mutex = operation →
      .finds exchange.queue ∈ conditions → state.closer = none →
        exchange.requests state.log = exchange.replies state.log) :
    Sound kind uid conditions i state (state.setLock operation none) := by
  have hlocks : ∀ (other : UserOperation) (j : ℕ), j ≠ i →
      ((state.setLock operation none).locks other = some j ↔
        state.locks other = some j) := by
    intro other j hj
    by_cases hother : other = operation
    · subst hother
      rw [UserState.setLock_self, howner]
      simp [Ne.symm hj]
    · rw [UserState.setLock_of_ne _ hother]
  have hcreate : (state.setLock operation none).locks .create = none →
      operation = .create ∨ state.locks .create = none := by
    intro hnone
    by_cases hother : UserOperation.create = operation
    · exact .inl hother.symm
    · rw [UserState.setLock_of_ne _ hother] at hnone
      exact .inr hnone
  constructor
  · refine ⟨hinv.chanUid, ?_, ?_, hinv.stocked, ?_, hinv.quiet, hinv.bound,
      hinv.destroyLocked, ?_, ?_, hinv.sorted, hinv.events⟩
    · intro hnone
      rcases hcreate hnone with hop | hnone
      · exact hidle hop
      · exact hinv.idle hnone
    · intro hkind hcloser hnone
      rcases hcreate hnone with hop | hnone
      · exact hsettled hop hkind hcloser
      · exact hinv.settled hkind hcloser hnone
    · intro closer other j hcloser hlock
      by_cases hother : other = operation
      · subst hother
        rw [UserState.setLock_self] at hlock
        exact absurd hlock (by simp)
      · rw [UserState.setLock_of_ne _ hother] at hlock
        exact hinv.closing closer other j hcloser hlock
    · intro hwaits hbad hdead
      exact absurd hdead (halive hwaits hbad).2
    · intro exchange hfinds hcloser
      by_cases hmutex : exchange.mutex = operation
      · exact .inl (hanswered exchange hmutex hfinds hcloser)
      · rcases hinv.paired exchange hfinds hcloser with heven | ⟨call, hodd, hlock⟩
        · exact .inl heven
        · right
          refine ⟨call, hodd, ?_⟩
          rw [UserState.setLock_of_ne _ hmutex]
          exact hlock
  · intro j hj
    exact ⟨fun other => hlocks other j hj, rfl, id, fun _ => rfl,
      fun _ _ _ => ⟨rfl, rfl⟩, fun _ h => h, fun _ _ => ⟨rfl, rfl⟩⟩

/-- What an event does to the exchanges. -/
theorem UserInv.paired_of_mayLog
    {event : Event} (hmay : state.MayLog conditions i event)
    (exchange : Exchange) (hfinds : .finds exchange.queue ∈ conditions)
    (hcloser : state.closer = none) :
    exchange.Paired state.locks (event :: state.log) := by
  rcases hmay exchange with hignores | ⟨_, hpaired⟩
  · exact (hinv.paired exchange hfinds hcloser).of_ignores hignores
  · exact hpaired hfinds hcloser

theorem UserInv.pairs_of_mayLog
    {event : Event} (hmay : state.MayLog conditions i event) {j : ℕ} (hj : j ≠ i)
    (exchange : Exchange) (hlock : state.locks exchange.mutex = some j) :
    exchange.requests (event :: state.log) = exchange.requests state.log ∧
      exchange.replies (event :: state.log) = exchange.replies state.log := by
  rcases hmay exchange with ⟨hasks, htakes⟩ | ⟨howner | hcloser, _⟩
  · simp [hasks, htakes]
  · rw [hlock] at howner
    exact absurd (Option.some.inj howner) hj
  · exact absurd (hinv.eq_of_closer hcloser hlock) hj

/-- An event that tells the channel nothing new. -/
theorem Sound.note
    {event : Event} (hlog : state'.log = event :: state.log)
    (hlocks : state'.locks = state.locks) (hcloser : state'.closer = state.closer)
    (hbound : state'.bound = state.bound)
    (hchannel : state'.channel = state.channel)
    (hflag : (state'.queues .destroy).locked = (state.queues .destroy).locked)
    (hmails : (state.HoldsAll i ∨ state.closer = some i) ∨
      (state'.queues .destroy).mails = (state.queues .destroy).mails)
    (hsorted : state'.Sorted)
    (hok : OkEvent uid conditions state.hist event)
    (hmay : state.MayLog conditions i event) :
    Sound kind uid conditions i state state' := by
  have hhist : state'.hist = state.hist := congrArg ChannelData.hist hchannel
  have hchan : state'.chanUid = state.chanUid := congrArg ChannelData.chanUid hchannel
  constructor
  · refine ⟨?_, ?_, ?_, ?_, ?_, ?_, ?_, ?_, ?_, ?_, hsorted, ?_⟩
    · rw [hhist, hchan]
      exact hinv.chanUid
    · rw [hlocks, hhist]
      exact hinv.idle
    · rw [hlocks, hcloser, hchannel]
      exact hinv.settled
    · rw [hcloser, hchannel, hchan]
      exact hinv.stocked
    · rw [hlocks, hcloser]
      exact hinv.closing
    · rw [hcloser, hhist]
      exact hinv.quiet
    · rw [hcloser, hbound]
      exact hinv.bound
    · rw [hcloser, hflag]
      exact hinv.destroyLocked
    · unfold UserState.HoldsAll
      rw [hlocks, hchan, hhist]
      exact hinv.alive
    · rw [hlocks, hcloser, hlog]
      exact hinv.paired_of_mayLog hmay
    · rw [hlog]
      exact eachEvent_cons.mpr ⟨hok, hinv.events⟩
  · intro j hj
    refine ⟨?_, hcloser, by rw [hbound]; exact id, fun _ => hchannel,
      fun _ _ _ => ⟨hchan, by rw [hhist]⟩, ?_, ?_⟩
    · rw [hlocks]
      exact fun _ => Iff.rfl
    · intro hall
      rcases hmails with (hall' | hclosing) | hmails
      · have hlock := hall' .create
        rw [hall .create] at hlock
        exact absurd (Option.some.inj hlock) hj
      · exact absurd (hinv.eq_of_closer hclosing (hall .create)) hj
      · rw [hmails]
        exact id
    · rw [hlog]
      exact hinv.pairs_of_mayLog hmay hj

/-- A step of the owner of the create mutex on its channel. -/
theorem Sound.advance
    {event : Event} (howner : state.locks .create = some i)
    (hlog : state'.log = event :: state.log)
    (hlocks : state'.locks = state.locks) (hcloser : state'.closer = state.closer)
    (hbound : state'.bound = state.bound)
    (hflag : (state'.queues .destroy).locked = (state.queues .destroy).locked)
    (hmails : (state'.queues .destroy).mails = (state.queues .destroy).mails)
    (hsorted : state'.Sorted)
    (hok : OkEvent uid conditions state.hist event)
    (hmay : state.MayLog conditions i event)
    (hchan : (state.hist.next event).chanUid = state'.chanUid)
    (hquiet : state.closer ≠ none → (state.hist.next event).awaiting = false)
    (hstocked : kind = .encoder → state.closer = none → .allocates ∈ conditions →
      state'.chanUid ≠ badChan → state'.channel.Stocked)
    (halive : .destroyWaits ∈ conditions → state'.chanUid ≠ badChan →
      state'.chanUid ∈ (state.hist.next event).dead →
        ∃ j, state.HoldsAll j)
    (hholding : (state'.chanUid = state.chanUid ∧
        (state.hist.next event).dead = state.hist.dead) ∨
      state.chanUid = badChan ∨ state.HoldsAll i) :
    Sound kind uid conditions i state state' := by
  have hhist := UserState.hist_of_log hlog
  have hfree : state'.locks .create ≠ none := by
    rw [hlocks, howner]
    exact Option.some_ne_none i
  constructor
  · refine ⟨?_, fun h => absurd h hfree, fun _ _ h => absurd h hfree, ?_, ?_, ?_, ?_,
      ?_, ?_, ?_, hsorted, ?_⟩
    · rw [hhist]
      exact hchan
    · rw [hcloser]
      exact hstocked
    · rw [hlocks, hcloser]
      exact hinv.closing
    · rw [hcloser, hhist]
      exact hquiet
    · rw [hcloser, hbound]
      exact hinv.bound
    · rw [hcloser, hflag]
      exact hinv.destroyLocked
    · unfold UserState.HoldsAll
      rw [hlocks, hhist]
      exact halive
    · rw [hlocks, hcloser, hlog]
      exact hinv.paired_of_mayLog hmay
    · rw [hlog]
      exact eachEvent_cons.mpr ⟨hok, hinv.events⟩
  · intro j hj
    refine ⟨?_, hcloser, by rw [hbound]; exact id, ?_, ?_, by rw [hmails]; exact fun _ => id,
      ?_⟩
    · rw [hlocks]
      exact fun _ => Iff.rfl
    · intro hlock
      rw [howner] at hlock
      exact absurd (Option.some.inj hlock).symm hj
    · intro operation hlock hbad
      rw [hhist]
      rcases hholding with hsame | hnone | hall
      · exact hsame
      · exact absurd hnone hbad
      · rw [hall operation] at hlock
        exact absurd (Option.some.inj hlock).symm hj
    · rw [hlog]
      exact hinv.pairs_of_mayLog hmay hj

end

end VcuDriver

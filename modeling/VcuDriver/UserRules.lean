import VcuDriver.UserOutline

/-!
# Rules for the actions of a user

What a call owns is an assertion which lasts: the other calls cannot invalidate
it, and neither can an action of the call itself that touches nothing which a
mutex protects.  One rule serves all of these actions; the others have a rule
each, for a call that holds no channel or for the owner of the create mutex.
-/

namespace VcuDriver

open Conc

/-- The weakest precondition of a program in the outline of a user. -/
abbrev userWp (kind : UserKind) (uid : Word) (conditions : Set Condition) (i : ℕ)
    (op : UserOp) {α : Type} (program : UserProg α) (post : α → UserState → Prop)
    (state : UserState) : Prop :=
  (userOutline kind uid conditions).wp i op program post state

variable {kind : UserKind} {uid : Word} {conditions : Set Condition}
variable {i : ℕ} {op : UserOp} {α β : Type}
variable {post : α → UserState → Prop} {state state' : UserState}
variable {held : List UserOperation} {pending pending' : Option Exchange}

/-! ## What a call owns -/

def openRequest (pending : Option Exchange) (exchange : Exchange) (i : ℕ) :
    List ℕ :=
  if pending = some exchange then [i] else []

/-- The mutexes of a call, and how far its exchanges are. -/
structure At (conditions : Set Condition) (i : ℕ) (op : UserOp)
    (held : List UserOperation) (pending : Option Exchange) (state : UserState) :
    Prop where
  locks : KeepsMutexes state i held
  closer : state.closer = if op.closes then some i else none
  pairs : ∀ exchange : Exchange, exchange.mutex ∈ held →
    .finds exchange.queue ∈ conditions → op.closes = false →
      exchange.requests state.log =
        exchange.replies state.log ++ openRequest pending exchange i

structure Ready (kind : UserKind) (conditions : Set Condition) (i : ℕ)
    (op : UserOp) (held : List UserOperation) (pending : Option Exchange)
    (state : UserState) : Prop extends At conditions i op held pending state where
  idle : .create ∈ held → state.hist.Idle
  settled : kind = .encoder → op.closes = false → .create ∈ held →
    state.channel.Settled

structure Owns (conditions : Set Condition) (i : ℕ) (op : UserOp)
    (held : List UserOperation) (pending : Option Exchange) (channel : ChannelData)
    (state : UserState) : Prop extends At conditions i op held pending state where
  create : .create ∈ held
  channel : state.channel = channel

structure Calm (state state' : UserState) : Prop where
  locks : state'.locks = state.locks
  closer : state'.closer = state.closer
  channel : state'.channel = state.channel
  pairs : ∀ exchange : Exchange,
    exchange.requests state'.log = exchange.requests state.log ∧
      exchange.replies state'.log = exchange.replies state.log

/-- An assertion which the other calls and calm steps leave alone. -/
structure Lasting (i : ℕ) (assertion : UserState → Prop) : Prop where
  rely : ∀ state state', assertion state → UserRely i state state' →
    assertion state'
  calm : ∀ state state', assertion state → Calm state state' → assertion state'

theorem Calm.refl (state : UserState) : Calm state state where
  locks := rfl
  closer := rfl
  channel := rfl
  pairs _ := ⟨rfl, rfl⟩

/-- An event which no exchange knows. -/
theorem Calm.of_ignores
    {event : Event} (hlog : state'.log = event :: state.log)
    (hlocks : state'.locks = state.locks) (hcloser : state'.closer = state.closer)
    (hchannel : state'.channel = state.channel)
    (hignores : ∀ exchange : Exchange, exchange.Ignores event) :
    Calm state state' where
  locks := hlocks
  closer := hcloser
  channel := hchannel
  pairs exchange := by
    obtain ⟨hasks, htakes⟩ := hignores exchange
    rw [hlog]
    simp [hasks, htakes]

theorem lasting_at : Lasting i (At conditions i op held pending) where
  rely state state' hat hrely := by
    refine ⟨fun operation => (hrely.locks operation).trans (hat.locks operation),
      hrely.closer.trans hat.closer, ?_⟩
    intro exchange hmutex hfinds hcloses
    obtain ⟨hrequests, hreplies⟩ :=
      hrely.pairs exchange ((hat.locks exchange.mutex).mpr hmutex)
    rw [hrequests, hreplies]
    exact hat.pairs exchange hmutex hfinds hcloses
  calm state state' hat hcalm := by
    refine ⟨?_, hcalm.closer.trans hat.closer, ?_⟩
    · unfold KeepsMutexes
      rw [hcalm.locks]
      exact hat.locks
    · intro exchange hmutex hfinds hcloses
      obtain ⟨hrequests, hreplies⟩ := hcalm.pairs exchange
      rw [hrequests, hreplies]
      exact hat.pairs exchange hmutex hfinds hcloses

theorem lasting_ready : Lasting i (Ready kind conditions i op held pending) where
  rely state state' hready hrely := by
    have hchannel : .create ∈ held → state'.channel = state.channel :=
      fun hmem => hrely.creating ((hready.locks .create).mpr hmem)
    refine ⟨lasting_at.rely state state' hready.toAt hrely, ?_, ?_⟩
    · intro hmem
      have hhist : state'.hist = state.hist :=
        congrArg ChannelData.hist (hchannel hmem)
      rw [hhist]
      exact hready.idle hmem
    · intro hkind hcloses hmem
      rw [hchannel hmem]
      exact hready.settled hkind hcloses hmem
  calm state state' hready hcalm := by
    have hhist : state'.hist = state.hist := congrArg ChannelData.hist hcalm.channel
    refine ⟨lasting_at.calm state state' hready.toAt hcalm, ?_, ?_⟩
    · rw [hhist]
      exact hready.idle
    · rw [hcalm.channel]
      exact hready.settled

theorem lasting_owns {channel : ChannelData} :
    Lasting i (Owns conditions i op held pending channel) where
  rely state state' howns hrely := by
    refine ⟨lasting_at.rely state state' howns.toAt hrely, howns.create, ?_⟩
    rw [hrely.creating ((howns.locks .create).mpr howns.create)]
    exact howns.channel
  calm state state' howns hcalm :=
    ⟨lasting_at.calm state state' howns.toAt hcalm, howns.create,
      hcalm.channel.trans howns.channel⟩

/-- A channel stays while its mutexes are held. -/
structure Guards (kind : UserKind) (conditions : Set Condition) (i : ℕ)
    (op : UserOp) (held : List UserOperation) (chanUid : Word)
    (state : UserState) : Prop
    extends Ready kind conditions i op held none state where
  some_held : held ≠ []
  created : chanUid ≠ badChan
  chanUid : state.chanUid = chanUid

theorem lasting_guards {chanUid : Word} :
    Lasting i (Guards kind conditions i op held chanUid) where
  rely state state' hguards hrely := by
    refine ⟨lasting_ready.rely state state' hguards.toReady hrely,
      hguards.some_held, hguards.created, ?_⟩
    obtain ⟨operation, hmem⟩ := List.exists_mem_of_ne_nil held hguards.some_held
    have hbad : state.chanUid ≠ badChan := by
      rw [hguards.chanUid]
      exact hguards.created
    rw [(hrely.holding operation ((hguards.locks operation).mpr hmem) hbad).1]
    exact hguards.chanUid
  calm state state' hguards hcalm := by
    refine ⟨lasting_ready.calm state state' hguards.toReady hcalm,
      hguards.some_held, hguards.created, ?_⟩
    rw [← hguards.chanUid]
    exact congrArg ChannelData.chanUid hcalm.channel

/-! ## Requests and replies -/

inductive Moves (conditions : Set Condition) (i : ℕ) (op : UserOp)
    (held : List UserOperation) :
    Option Exchange → Event → Option Exchange → Prop where
  | ignored {pending : Option Exchange} {event : Event}
      (hignores : ∀ exchange : Exchange, exchange.Ignores event) :
      Moves conditions i op held pending event pending
  | asked {exchange : Exchange} {mail : Al5Mail} (hmutex : exchange.mutex ∈ held)
      (huid : mail.uid? = some exchange.request) :
      Moves conditions i op held none (.sent i mail) (some exchange)
  | taken {exchange : Exchange} {mail : Option Al5Mail}
      (hmutex : exchange.mutex ∈ held)
      (hmail : .finds exchange.queue ∈ conditions → op.closes = false →
        mail ≠ none) :
      Moves conditions i op held (some exchange) (.popped i exchange.queue mail)
        none
  | closing {pending : Option Exchange} {event : Event}
      (hcloses : op.closes = true) :
      Moves conditions i op held pending event pending

theorem asks_of_uid
    {exchange other : Exchange} {call : ℕ} {mail : Al5Mail}
    (huid : mail.uid? = some exchange.request) :
    other.asks (.sent call mail) = if exchange = other then [call] else [] := by
  simp only [Exchange.asks, huid]
  cases exchange <;> cases other <;> rfl

theorem takes_of_queue
    {exchange other : Exchange} {call : ℕ} {mail : Al5Mail} :
    other.takes (.popped call exchange.queue (some mail)) =
      if exchange = other then [call] else [] := by
  cases exchange <;> cases other <;> rfl

/-- The exchanges of the call after an event. -/
theorem At.pairs_moved
    {event : Event} (hat : At conditions i op held pending state)
    (hmoves : Moves conditions i op held pending event pending')
    (exchange : Exchange) (hmutex : exchange.mutex ∈ held)
    (hfinds : .finds exchange.queue ∈ conditions) (hcloses : op.closes = false) :
    exchange.requests (event :: state.log) =
      exchange.replies (event :: state.log) ++ openRequest pending' exchange i := by
  have hpairs := hat.pairs exchange hmutex hfinds hcloses
  rw [Exchange.requests_cons, Exchange.replies_cons]
  cases hmoves with
  | ignored hignores =>
      obtain ⟨hasks, htakes⟩ := hignores exchange
      rw [hasks, htakes, List.append_nil, List.append_nil]
      exact hpairs
  | @asked other mail _ huid =>
      have htakes : exchange.takes (.sent i mail) = [] := rfl
      rw [asks_of_uid huid, htakes, List.append_nil, hpairs]
      simp [openRequest]
  | @taken other mail _ hmail =>
      have hasks : exchange.asks (.popped i other.queue mail) = [] := rfl
      rw [hasks, List.append_nil, hpairs]
      by_cases hother : other = exchange
      · subst hother
        obtain ⟨found, rfl⟩ := Option.ne_none_iff_exists'.mp (hmail hfinds hcloses)
        rw [takes_of_queue]
        simp [openRequest]
      · have htakes : exchange.takes (.popped i other.queue mail) = [] := by
          cases mail with
          | none => rfl
          | some mail => rw [takes_of_queue, if_neg hother]
        rw [htakes]
        simp [openRequest, hother]
  | closing hclosing =>
      rw [hcloses] at hclosing
      exact absurd hclosing (by simp)

theorem At.moved
    {event : Event} (hat : At conditions i op held pending state)
    (hmoves : Moves conditions i op held pending event pending')
    (hlog : state'.log = event :: state.log)
    (hlocks : state'.locks = state.locks)
    (hcloser : state'.closer = state.closer) :
    At conditions i op held pending' state' := by
  refine ⟨?_, hcloser.trans hat.closer, ?_⟩
  · unfold KeepsMutexes
    rw [hlocks]
    exact hat.locks
  · rw [hlog]
    exact hat.pairs_moved hmoves

theorem Moves.mayLog
    {event : Event} (hat : At conditions i op held pending state)
    (hmoves : Moves conditions i op held pending event pending') :
    state.MayLog conditions i event := by
  intro exchange
  by_cases hmutex : exchange.mutex ∈ held
  · right
    refine ⟨.inl ((hat.locks exchange.mutex).mpr hmutex), ?_⟩
    intro hfinds hcloser
    have hcloses : op.closes = false := by
      have hclosed := hat.closer
      rw [hcloser] at hclosed
      cases hop : op.closes with
      | false => rfl
      | true => simp [hop] at hclosed
    have hpairs := hat.pairs_moved hmoves exchange hmutex hfinds hcloses
    unfold openRequest at hpairs
    split at hpairs
    · exact .inr ⟨i, hpairs, (hat.locks exchange.mutex).mpr hmutex⟩
    · rw [List.append_nil] at hpairs
      exact .inl hpairs
  · cases hmoves with
    | ignored hignores => exact .inl (hignores exchange)
    | @asked other mail hmem huid =>
        have hne : other ≠ exchange := by
          rintro rfl
          exact hmutex hmem
        exact .inl ⟨by rw [asks_of_uid huid, if_neg hne], rfl⟩
    | @taken other mail hmem _ =>
        have hne : other ≠ exchange := by
          rintro rfl
          exact hmutex hmem
        left
        refine ⟨rfl, ?_⟩
        cases mail with
        | none => rfl
        | some mail => rw [takes_of_queue, if_neg hne]
    | closing hclosing =>
        right
        refine ⟨.inr ?_, ?_⟩
        · rw [hat.closer, if_pos hclosing]
        · intro _ hcloser
          rw [hat.closer, if_pos hclosing] at hcloser
          exact absurd hcloser (by simp)

/-! ## The base of all rules -/

theorem act_of_exec
    {action : UserAct} {choice : Choice} {result : action.Res}
    (hexec : (userMachine kind uid).exec i op action choice state =
      some (result, state')) :
    state.act i action choice = some (result, state') := by
  simp only [userMachine] at hexec
  split at hexec
  · exact hexec
  · exact absurd hexec (by simp)

theorem wp_perform
    {action : UserAct} {next : action.Res → UserProg α}
    {assertion : UserState → Prop} (hlasting : Lasting i assertion)
    (hassert : assertion state)
    (hstep : ∀ state₁ choice result state₂,
      UserInv kind uid conditions state₁ → assertion state₁ →
      state₁.act i action choice = some (result, state₂) →
      (∀ condition ∈ conditions, condition.Admits state₁ op action choice) →
        Sound kind uid conditions i state₁ state₂ ∧
          userWp kind uid conditions i op (next result) post state₂) :
    userWp kind uid conditions i op (Prog.perform action >>= next) post state := by
  intro state₁ hrely hinv choice result state₂ hexec hallowed
  obtain ⟨hsound, hwp⟩ := hstep state₁ choice result state₂ hinv
    (hlasting.rely state state₁ hassert hrely) (act_of_exec hexec) hallowed
  exact ⟨hsound.inv, hsound.rely, hwp⟩

theorem wp_seq
    {first : UserProg β} {rest : β → UserProg α} {mid : β → UserState → Prop}
    (hfirst : userWp kind uid conditions i op first mid state)
    (hrest : ∀ value state, mid value state →
      userWp kind uid conditions i op (rest value) post state) :
    userWp kind uid conditions i op (first >>= rest) post state :=
  Outline.wp_seq hfirst hrest

theorem wp_bind
    {first : UserProg β} {rest : β → UserProg α}
    (hwp : userWp kind uid conditions i op first
      (fun value => userWp kind uid conditions i op (rest value) post) state) :
    userWp kind uid conditions i op (first >>= rest) post state :=
  Outline.wp_bind hwp

theorem wp_last
    {action : UserAct} {post : action.Res → UserState → Prop}
    (hwp : userWp kind uid conditions i op
      (Prog.perform action >>= fun result => pure result) post state) :
    userWp kind uid conditions i op (Prog.perform action) post state :=
  hwp

section

variable {assertion : UserState → Prop}

/-! ## Calm actions -/

def UserAct.isQuery : UserAct → Bool
  | .kmalloc | .waitEvent _ | .waitEventTimeout _ | .getChanUid | .getCheckpoint
  | .getBufpool _ | .bufpoolReserveFd _ | .bufpoolGetId _ | .getDmabufInfo _
  | .oops => true
  | _ => false

def UserAct.isCalm : UserAct → Bool
  | .freeMail _ => true
  | .queueUnlock which | .queueLock which => decide (which ≠ .destroy)
  | .listPop .init | .listPop .status | .listPop .sc | .listPop .debug => true
  | action => action.isQuery

def UserState.pop (state : UserState) (i : ℕ) (which : UserMail) : UserState :=
  (state.setQueue which
    { state.queues which with mails := (state.queues which).mails.tail }).record
      (.popped i which (state.queues which).mails.head?)

theorem UserState.log_pop (which : UserMail) :
    (state.pop i which).log =
      .popped i which (state.queues which).mails.head? :: state.log := rfl

theorem UserState.channel_of_hist
    (hhist : state'.hist = state.hist) (hchan : state'.chanUid = state.chanUid)
    (hcheckpoint : state'.checkpoint = state.checkpoint)
    (hpools : state'.pools = state.pools) : state'.channel = state.channel := by
  unfold UserState.channel
  rw [hhist, hchan, hcheckpoint, hpools]

theorem UserState.queues_pop_of_ne {which other : UserMail} (hne : other ≠ which) :
    (state.pop i which).queues other = state.queues other :=
  UserState.setQueue_of_ne _ hne

theorem UserState.Sorted.setQueue
    {which : UserMail} {queue : Al5Queue} (hsorted : state.Sorted)
    (hqueue : ∀ mail ∈ queue.mails, mailToQueue mail.uid? = which) :
    (state.setQueue which queue).Sorted := by
  intro other mail hmail
  by_cases hother : other = which
  · subst hother
    rw [UserState.setQueue_self] at hmail
    exact hqueue mail hmail
  · rw [UserState.setQueue_of_ne _ hother] at hmail
    exact hsorted other mail hmail

theorem UserState.Sorted.pop (which : UserMail) (hsorted : state.Sorted) :
    (state.pop i which).Sorted :=
  hsorted.setQueue fun mail hmail =>
    hsorted which mail (List.mem_of_mem_tail hmail)

theorem UserState.Sorted.setFlag
    (which : UserMail) (locked : Bool) (hsorted : state.Sorted) :
    (state.setQueue which { state.queues which with locked }).Sorted :=
  hsorted.setQueue (hsorted which)

/-- A mail which tells the channel nothing is taken out of a queue. -/
theorem sound_pop_plain
    {which : UserMail} (hcreate : which ≠ .create) (hdestroy : which ≠ .destroy)
    (hreconstructed : which ≠ .reconstructed)
    (hinv : UserInv kind uid conditions state) :
    Sound kind uid conditions i state (state.pop i which) ∧
      Calm state (state.pop i which) := by
  have hhist : (state.pop i which).hist = state.hist := by
    rw [UserState.hist_of_log (UserState.log_pop which)]
    cases which with
    | create => exact absurd rfl hcreate
    | _ => rfl
  have hok : OkEvent uid conditions state.hist
      (.popped i which (state.queues which).mails.head?) := by
    cases which with
    | create => exact absurd rfl hcreate
    | _ => trivial
  have hchannel : (state.pop i which).channel = state.channel :=
    UserState.channel_of_hist hhist rfl rfl rfl
  have hignores : ∀ exchange : Exchange,
      exchange.Ignores (.popped i which (state.queues which).mails.head?) := by
    intro exchange
    apply Exchange.ignores_popped
    cases exchange with
    | create => exact hcreate
    | destroy => exact hdestroy
    | reconstructed => exact hreconstructed
  have hqueue : (state.pop i which).queues .destroy = state.queues .destroy :=
    UserState.queues_pop_of_ne (Ne.symm hdestroy)
  constructor
  · exact Sound.note hinv (UserState.log_pop which) rfl rfl rfl hchannel
      (congrArg Al5Queue.locked hqueue) (.inr (congrArg Al5Queue.mails hqueue))
      (hinv.sorted.pop which) hok (fun exchange => .inl (hignores exchange))
  · exact Calm.of_ignores (UserState.log_pop which) rfl rfl hchannel hignores

/-- A queue other than the one of the destroy feedback is locked or unlocked. -/
theorem sound_queueFlag
    {which : UserMail} {locked : Bool} (hdestroy : which ≠ .destroy)
    (hinv : UserInv kind uid conditions state) (cleared : List (ℕ × UserMail)) :
    Sound kind uid conditions i state
        { state.setQueue which { state.queues which with locked } with cleared } ∧
      Calm state
        { state.setQueue which { state.queues which with locked } with cleared } := by
  have hqueue : (state.setQueue which
      { state.queues which with locked }).queues .destroy = state.queues .destroy :=
    UserState.setQueue_of_ne _ (Ne.symm hdestroy)
  have hflag : state.closer = none → ((state.setQueue which
      { state.queues which with locked }).queues .destroy).locked = true := by
    rw [hqueue]
    exact hinv.destroyLocked
  have hmails : (state.queues .destroy).mails ≠ [] → ((state.setQueue which
      { state.queues which with locked }).queues .destroy).mails ≠ [] := by
    rw [hqueue]
    exact id
  constructor
  · exact Sound.still hinv rfl rfl rfl rfl (fun _ => rfl) id hflag hmails
      (hinv.sorted.setFlag which locked)
  · exact ⟨rfl, rfl, rfl, fun _ => ⟨rfl, rfl⟩⟩

theorem sound_freeMail (mail : Al5Mail) (hinv : UserInv kind uid conditions state) :
    Sound kind uid conditions i state (state.record (.freed i mail)) ∧
      Calm state (state.record (.freed i mail)) := by
  have hignores : ∀ exchange : Exchange, exchange.Ignores (.freed i mail) :=
    fun _ => ⟨rfl, rfl⟩
  constructor
  · exact Sound.note hinv rfl rfl rfl rfl rfl rfl (.inr rfl) hinv.sorted trivial
      (fun exchange => .inl (hignores exchange))
  · exact Calm.of_ignores rfl rfl rfl rfl hignores

theorem act_query
    {action : UserAct} {choice : Choice} {result : action.Res}
    (hquery : action.isQuery = true)
    (hact : state.act i action choice = some (result, state')) : state' = state := by
  cases action with
  | waitEvent which =>
      cases choice <;>
        first
          | (simp only [UserState.act] at hact
             split_ifs at hact
             exact (Prod.mk.inj (Option.some.inj hact)).2.symm)
          | exact absurd hact (Option.some_ne_none _).symm
  | waitEventTimeout which =>
      cases choice <;>
        first
          | (simp only [UserState.act] at hact
             split_ifs at hact
             exact (Prod.mk.inj (Option.some.inj hact)).2.symm)
          | exact absurd hact (Option.some_ne_none _).symm
  | kmalloc | getChanUid | getCheckpoint | getBufpool _ | bufpoolReserveFd _
  | bufpoolGetId _ | getDmabufInfo _ | oops =>
      cases choice <;>
        first
          | exact (Prod.mk.inj (Option.some.inj hact)).2.symm
          | exact absurd hact (Option.some_ne_none _).symm
  | _ => exact absurd hquery Bool.false_ne_true

/-- A calm action is sound and calm. -/
theorem sound_of_isCalm
    {action : UserAct} {choice : Choice} {result : action.Res}
    (hcalm : action.isCalm = true) (hinv : UserInv kind uid conditions state)
    (hact : state.act i action choice = some (result, state')) :
    Sound kind uid conditions i state state' ∧ Calm state state' := by
  by_cases hquery : action.isQuery = true
  · rw [act_query hquery hact]
    exact ⟨Sound.refl hinv, Calm.refl state⟩
  cases action with
  | freeMail mail =>
      cases choice with
      | succeed =>
          obtain ⟨-, rfl⟩ := Prod.mk.inj (Option.some.inj hact)
          exact sound_freeMail mail hinv
      | _ => exact absurd hact (Option.some_ne_none _).symm
  | queueUnlock which =>
      cases choice with
      | succeed =>
          obtain ⟨-, rfl⟩ := Prod.mk.inj (Option.some.inj hact)
          exact sound_queueFlag (of_decide_eq_true hcalm) hinv _
      | _ => exact absurd hact (Option.some_ne_none _).symm
  | queueLock which =>
      cases choice with
      | succeed =>
          obtain ⟨-, rfl⟩ := Prod.mk.inj (Option.some.inj hact)
          exact sound_queueFlag (of_decide_eq_true hcalm) hinv _
      | _ => exact absurd hact (Option.some_ne_none _).symm
  | listPop which =>
      cases choice with
      | succeed =>
          obtain ⟨-, rfl⟩ := Prod.mk.inj (Option.some.inj hact)
          cases which with
          | create | destroy | reconstructed =>
              exact absurd hcalm Bool.false_ne_true
          | _ => exact sound_pop_plain (by simp) (by simp) (by simp) hinv
      | _ => exact absurd hact (Option.some_ne_none _).symm
  | _ => exact absurd hcalm hquery

theorem wp_calm
    {action : UserAct} {next : action.Res → UserProg α}
    (hcalm : action.isCalm = true) (hlasting : Lasting i assertion)
    (hassert : assertion state)
    (hnext : ∀ state₁ result, assertion state₁ →
      userWp kind uid conditions i op (next result) post state₁) :
    userWp kind uid conditions i op (Prog.perform action >>= next) post state := by
  apply wp_perform hlasting hassert
  intro state₁ choice result state₂ hinv hassert₁ hact _
  obtain ⟨hsound, hcalmly⟩ := sound_of_isCalm hcalm hinv hact
  exact ⟨hsound, hnext state₂ result (hlasting.calm state₁ state₂ hassert₁ hcalmly)⟩

theorem wp_getChanUid
    {next : Word → UserProg α} (hlasting : Lasting i assertion)
    (hassert : assertion state)
    (hnext : ∀ state₁, UserInv kind uid conditions state₁ → assertion state₁ →
      userWp kind uid conditions i op (next state₁.chanUid) post state₁) :
    userWp kind uid conditions i op (Prog.perform .getChanUid >>= next) post
      state := by
  apply wp_perform hlasting hassert
  intro state₁ choice result state₂ hinv hassert₁ hact _
  cases choice with
  | succeed =>
      obtain ⟨rfl, rfl⟩ := Prod.mk.inj (Option.some.inj hact)
      exact ⟨Sound.refl hinv, hnext _ hinv hassert₁⟩
  | _ => exact absurd hact (Option.some_ne_none _).symm

/-! ## Mutexes -/

def UserState.take (state : UserState) (i : ℕ) (operation : UserOperation) :
    UserState :=
  if operation = .reconstructed then
    (state.setLock operation (some i)).setThrough i
  else
    state.setLock operation (some i)

theorem calm_take (operation : UserOperation) :
    Calm (state.setLock operation (some i)) (state.take i operation) := by
  unfold UserState.take
  split
  · exact ⟨rfl, rfl, rfl, fun _ => ⟨rfl, rfl⟩⟩
  · exact Calm.refl _

theorem sound_setThrough (hinv : UserInv kind uid conditions state) :
    Sound kind uid conditions i state (state.setThrough i) :=
  Sound.still hinv rfl rfl rfl rfl (fun _ => rfl) id hinv.destroyLocked id
    hinv.sorted

theorem Sound.trans
    {middle : UserState} (hfirst : Sound kind uid conditions i state middle)
    (hsecond : Sound kind uid conditions i middle state') :
    Sound kind uid conditions i state state' :=
  ⟨hsecond.inv, fun j hj => (hfirst.rely j hj).trans (hsecond.rely j hj)⟩

theorem sound_take
    {operation : UserOperation} (hinv : UserInv kind uid conditions state)
    (hfree : state.locks operation = none)
    (hsolo : state.closer.all (· == i) = true) :
    Sound kind uid conditions i state (state.take i operation) := by
  have hlock := Sound.lock hinv hfree hsolo
  unfold UserState.take
  split
  · exact hlock.trans (sound_setThrough hlock.inv)
  · exact hlock

theorem At.solo (hat : At conditions i op held pending state) :
    state.closer.all (· == i) = true := by
  rw [hat.closer]
  split <;> simp

theorem At.closer_eq_none
    (hat : At conditions i op held pending state) (hcloses : op.closes = false) :
    state.closer = none := by
  rw [hat.closer, hcloses]
  rfl

theorem Ready.setLock
    {operation : UserOperation} (hready : Ready kind conditions i op held none state)
    (hinv : UserInv kind uid conditions state)
    (hfree : state.locks operation = none) :
    Ready kind conditions i op (held ++ [operation]) none
      (state.setLock operation (some i)) := by
  have hmem : ∀ {other : UserOperation}, other ∈ held ++ [operation] →
      other ∈ held ∨ state.locks other = none := by
    intro other hother
    rcases List.mem_append.mp hother with hother | hother
    · exact .inl hother
    · rw [List.mem_singleton.mp hother]
      exact .inr hfree
  refine ⟨⟨keepsMutexes_lock hfree hready.locks, hready.closer, ?_⟩, ?_, ?_⟩
  · intro exchange hmutex hfinds hcloses
    rcases hmem hmutex with hheld | hfree'
    · exact hready.pairs exchange hheld hfinds hcloses
    · rcases hinv.paired exchange hfinds (hready.closer_eq_none hcloses) with
        heven | ⟨call, _, hlock⟩
      · exact heven.trans (List.append_nil _).symm
      · rw [hfree'] at hlock
        exact absurd hlock (by simp)
  · intro hcreate
    rcases hmem hcreate with hheld | hfree'
    · exact hready.idle hheld
    · exact hinv.idle hfree'
  · intro hkind hcloses hcreate
    rcases hmem hcreate with hheld | hfree'
    · exact hready.settled hkind hcloses hheld
    · exact hinv.settled hkind (hready.closer_eq_none hcloses) hfree'

theorem Ready.take
    {operation : UserOperation} (hready : Ready kind conditions i op held none state)
    (hinv : UserInv kind uid conditions state)
    (hfree : state.locks operation = none) :
    Ready kind conditions i op (held ++ [operation]) none (state.take i operation) :=
  lasting_ready.calm _ _ (hready.setLock hinv hfree) (calm_take operation)

theorem wp_lockKillable
    {operation : UserOperation} {next : ℤ → UserProg α}
    (hready : Ready kind conditions i op held none state)
    (hinterrupted : ∀ state₁, Ready kind conditions i op held none state₁ →
      userWp kind uid conditions i op (next (-EINTR)) post state₁)
    (hlocked : ∀ state₁, UserInv kind uid conditions state₁ →
      Ready kind conditions i op held none state₁ →
      state₁.locks operation = none →
      (∀ condition ∈ conditions,
        condition.Admits state₁ op (.mutexLockKillable operation) .succeed) →
      Ready kind conditions i op (held ++ [operation]) none
        (state₁.take i operation) →
        userWp kind uid conditions i op (next 0) post (state₁.take i operation)) :
    userWp kind uid conditions i op
      (Prog.perform (.mutexLockKillable operation) >>= next) post state := by
  apply wp_perform lasting_ready hready
  intro state₁ choice result state₂ hinv hready₁ hact hallowed
  cases choice with
  | succeed =>
      simp only [UserState.act] at hact
      split at hact
      · rename_i hfree
        obtain ⟨rfl, rfl⟩ := Prod.mk.inj (Option.some.inj hact)
        exact ⟨sound_take hinv hfree hready₁.solo,
          hlocked state₁ hinv hready₁ hfree hallowed (hready₁.take hinv hfree)⟩
      · exact absurd hact (by simp)
  | signal =>
      simp only [UserState.act] at hact
      split at hact
      · exact absurd hact (by simp)
      · obtain ⟨rfl, rfl⟩ := Prod.mk.inj (Option.some.inj hact)
        have hcalm : Calm state₁ (state₁.setThrough i) :=
          ⟨rfl, rfl, rfl, fun _ => ⟨rfl, rfl⟩⟩
        exact ⟨sound_setThrough hinv,
          hinterrupted _ (lasting_ready.calm _ _ hready₁ hcalm)⟩
  | _ => exact absurd hact (Option.some_ne_none _).symm

theorem wp_trylock
    {operation : UserOperation} {next : Bool → UserProg α}
    (hready : Ready kind conditions i op held none state)
    (hbusy : ∀ state₁, Ready kind conditions i op held none state₁ →
      userWp kind uid conditions i op (next false) post state₁)
    (hlocked : ∀ state₁,
      Ready kind conditions i op (held ++ [operation]) none state₁ →
        userWp kind uid conditions i op (next true) post state₁) :
    userWp kind uid conditions i op
      (Prog.perform (.mutexTrylock operation) >>= next) post state := by
  apply wp_perform lasting_ready hready
  intro state₁ choice result state₂ hinv hready₁ hact _
  cases choice with
  | succeed =>
      simp only [UserState.act] at hact
      split at hact
      · rename_i hfree
        obtain ⟨rfl, rfl⟩ := Prod.mk.inj (Option.some.inj hact)
        exact ⟨Sound.lock hinv hfree hready₁.solo,
          hlocked _ (hready₁.setLock hinv hfree)⟩
      · obtain ⟨rfl, rfl⟩ := Prod.mk.inj (Option.some.inj hact)
        exact ⟨Sound.refl hinv, hbusy _ hready₁⟩
  | _ => exact absurd hact (Option.some_ne_none _).symm

/-- Before a call gives back a mutex, the channel it holds is alive. -/
structure Intact (kind : UserKind) (conditions : Set Condition) (i : ℕ)
    (op : UserOp) (held : List UserOperation) (state : UserState) : Prop
    extends Ready kind conditions i op held none state where
  all : .create ∈ held
  alive : .destroyWaits ∈ conditions → state.chanUid ≠ badChan →
    state.chanUid ∉ state.hist.dead

theorem lasting_intact : Lasting i (Intact kind conditions i op held) where
  rely state state' hintact hrely := by
    have hchannel := hrely.creating ((hintact.locks .create).mpr hintact.all)
    have hhist : state'.hist = state.hist := congrArg ChannelData.hist hchannel
    have hchan : state'.chanUid = state.chanUid :=
      congrArg ChannelData.chanUid hchannel
    refine ⟨lasting_ready.rely state state' hintact.toReady hrely, hintact.all, ?_⟩
    rw [hhist, hchan]
    exact hintact.alive
  calm state state' hintact hcalm := by
    have hhist : state'.hist = state.hist := congrArg ChannelData.hist hcalm.channel
    have hchan : state'.chanUid = state.chanUid :=
      congrArg ChannelData.chanUid hcalm.channel
    refine ⟨lasting_ready.calm state state' hintact.toReady hcalm, hintact.all, ?_⟩
    rw [hhist, hchan]
    exact hintact.alive

/-- A call that holds some mutexes and not others is not inside a destroy, and
neither is any other call. -/
theorem At.not_holdsAll
    {operation other : UserOperation} (hat : At conditions i op held pending state)
    (hmem : operation ∈ held) (hmissing : other ∉ held) (j : ℕ) :
    ¬ state.HoldsAll j := by
  intro hall
  have howner := (hat.locks operation).mpr hmem
  rw [hall operation] at howner
  obtain rfl := Option.some.inj howner
  exact hmissing ((hat.locks other).mp (hall other))

theorem Ready.setUnlock
    {operation : UserOperation}
    (hready : Ready kind conditions i op held none state) :
    Ready kind conditions i op (held.filter fun other => other ≠ operation) none
      (state.setLock operation none) := by
  refine ⟨⟨keepsMutexes_unlock hready.locks, hready.closer, ?_⟩, ?_, ?_⟩
  · intro exchange hmutex
    exact hready.pairs exchange (List.mem_of_mem_filter hmutex)
  · intro hcreate
    exact hready.idle (List.mem_of_mem_filter hcreate)
  · intro hkind hcloses hcreate
    exact hready.settled hkind hcloses (List.mem_of_mem_filter hcreate)

theorem sound_unlock
    {operation : UserOperation} (hready : Ready kind conditions i op held none state)
    (hinv : UserInv kind uid conditions state) (hmem : operation ∈ held)
    (halive : .destroyWaits ∈ conditions → state.chanUid ≠ badChan →
      state.hist.Alive state.chanUid) :
    Sound kind uid conditions i state (state.setLock operation none) := by
  have hcloses : state.closer = none → op.closes = false := by
    intro hcloser
    have hclosed := hready.closer
    rw [hcloser] at hclosed
    cases hop : op.closes with
    | false => rfl
    | true => simp [hop] at hclosed
  apply Sound.unlock hinv ((hready.locks operation).mpr hmem) _ _ halive
  · rintro exchange rfl hfinds hcloser
    exact (hready.pairs exchange hmem hfinds (hcloses hcloser)).trans
      (List.append_nil _)
  · rintro rfl
    exact hready.idle hmem
  · rintro rfl hkind hcloser
    exact hready.settled hkind (hcloses hcloser) hmem

/-- Giving back a mutex while another one is not held. -/
theorem wp_unlockOwned
    {operation other : UserOperation} {next : Unit → UserProg α}
    (hready : Ready kind conditions i op held none state)
    (hmem : operation ∈ held) (hmissing : other ∉ held)
    (hnext : ∀ state₁,
      Ready kind conditions i op (held.filter fun other => other ≠ operation) none
        state₁ →
        userWp kind uid conditions i op (next ()) post state₁) :
    userWp kind uid conditions i op
      (Prog.perform (.mutexUnlock operation) >>= next) post state := by
  apply wp_perform lasting_ready hready
  intro state₁ choice result state₂ hinv hready₁ hact _
  cases choice with
  | succeed =>
      obtain ⟨-, rfl⟩ := Prod.mk.inj (Option.some.inj hact)
      refine ⟨sound_unlock hready₁ hinv hmem ?_, hnext _ hready₁.setUnlock⟩
      exact fun hwaits hbad =>
        hinv.alive_of_not_holdsAll hwaits hbad (hready₁.not_holdsAll hmem hmissing)
  | _ => exact absurd hact (Option.some_ne_none _).symm

/-- Giving back the only mutex of a call. -/
theorem wp_unlock_last
    {operation : UserOperation} {next : Unit → UserProg α}
    (hready : Ready kind conditions i op [operation] none state)
    (hnext : ∀ state₁, Ready kind conditions i op [] none state₁ →
      userWp kind uid conditions i op (next ()) post state₁) :
    userWp kind uid conditions i op
      (Prog.perform (.mutexUnlock operation) >>= next) post state := by
  have hother : ∃ other : UserOperation, other ∉ [operation] := by
    cases operation with
    | init => exact ⟨.create, by decide⟩
    | _ => exact ⟨.init, by decide⟩
  obtain ⟨other, hmissing⟩ := hother
  apply wp_unlockOwned hready (List.mem_singleton_self operation) hmissing
  intro state₁ hready₁
  have hfilter : [operation].filter (fun other => other ≠ operation) = [] := by simp
  rw [hfilter] at hready₁
  exact hnext state₁ hready₁

theorem filter_ne_head
    {operation : UserOperation} {rest : List UserOperation}
    (hnodup : (operation :: rest).Nodup) :
    (operation :: rest).filter (fun other => other ≠ operation) = rest := by
  obtain ⟨hnot, _⟩ := List.nodup_cons.mp hnodup
  rw [List.filter_cons_of_neg (by simp), List.filter_eq_self]
  intro other hother
  exact decide_eq_true fun heq => hnot (heq ▸ hother)

theorem wp_unlockAll
    {taken : List UserOperation} {other : UserOperation} (hnodup : taken.Nodup)
    (hready : Ready kind conditions i op taken none state)
    (hmissing : other ∉ taken) :
    userWp kind uid conditions i op (unlockAll taken)
      (fun _ last => Ready kind conditions i op [] none last) state := by
  induction taken generalizing state with
  | nil => exact hready
  | cons operation rest ih =>
      apply wp_unlockOwned hready List.mem_cons_self hmissing
      intro state₁ hready₁
      rw [filter_ne_head hnodup] at hready₁
      exact ih (List.nodup_cons.mp hnodup).2 hready₁
        (fun hmem => hmissing (List.mem_cons_of_mem _ hmem))

/-- Giving back all mutexes. -/
theorem wp_unlockAll_of_intact
    {operation : UserOperation} {rest : List UserOperation}
    (hnodup : (operation :: rest).Nodup)
    (hintact : Intact kind conditions i op (operation :: rest) state) :
    userWp kind uid conditions i op (unlockAll (operation :: rest))
      (fun _ last => Ready kind conditions i op [] none last) state := by
  apply wp_perform lasting_intact hintact
  intro state₁ choice result state₂ hinv hintact₁ hact _
  cases choice with
  | succeed =>
      obtain ⟨-, rfl⟩ := Prod.mk.inj (Option.some.inj hact)
      have hready : Ready kind conditions i op rest none
          (state₁.setLock operation none) := by
        have hunlocked := @Ready.setUnlock kind conditions i op state₁ (operation :: rest) operation
          hintact₁.toReady
        rwa [filter_ne_head hnodup] at hunlocked
      obtain ⟨hnot, hrest⟩ := List.nodup_cons.mp hnodup
      refine ⟨sound_unlock hintact₁.toReady hinv List.mem_cons_self ?_,
        wp_unlockAll hrest hready hnot⟩
      exact fun hwaits hbad => ⟨hbad, hintact₁.alive hwaits hbad⟩
  | _ => exact absurd hact (Option.some_ne_none _).symm

/-! ## Sending -/

theorem wp_sendBuilt
    {constructor : Bool → MailResult} {mailUid : MailUid} {addressee : Word}
    {post : ℤ → UserState → Prop}
    (hbuilds : Builds constructor mailUid addressee)
    (hlasting : Lasting i assertion) (hassert : assertion state)
    (hrefused : ∀ state₁ err, assertion state₁ → err ≠ 0 → post err state₁)
    (hsent : ∀ state₁ mail, UserInv kind uid conditions state₁ →
      assertion state₁ → mail.Names mailUid addressee →
      (∀ condition ∈ conditions,
        condition.Admits state₁ op (.send mail) .succeed) →
        Sound kind uid conditions i state₁ (state₁.record (.sent i mail)) ∧
          post 0 (state₁.record (.sent i mail))) :
    userWp kind uid conditions i op (sendBuilt constructor) post state := by
  unfold sendBuilt buildMail
  rw [Prog.bind_eq, Prog.bind_eq, Prog.bind_assoc]
  apply wp_calm rfl hlasting hassert
  intro state₁ kmalloc hassert₁
  cases hbuild : constructor kmalloc with
  | error fault =>
      apply wp_perform hlasting hassert₁
      intro state₂ choice result state₃ _ _ hact
      cases choice <;> exact absurd hact (Option.some_ne_none _).symm
  | ok built =>
      cases built with
      | none => exact hrefused state₁ (-ENOMEM) hassert₁ (by decide)
      | some mail =>
          apply wp_last
          apply wp_perform hlasting hassert₁
          intro state₂ choice result state₃ hinv hassert₂ hact hallowed
          cases choice with
          | succeed =>
              obtain ⟨rfl, rfl⟩ := Prod.mk.inj (Option.some.inj hact)
              exact hsent state₂ mail hinv hassert₂ (hbuilds kmalloc mail hbuild)
                hallowed
          | fail =>
              obtain ⟨rfl, rfl⟩ := Prod.mk.inj (Option.some.inj hact)
              exact ⟨Sound.refl hinv, hrefused _ (-EAGAIN) hassert₂ (by decide)⟩
          | _ => exact absurd hact (Option.some_ne_none _).symm

/-- The mails that tell the channel nothing and ask for no reply. -/
def MailUid.isPlain : MailUid → Bool
  | .encodeOneFrm | .decodeOneFrm | .decodeOneSlice | .putStreamBuffer
  | .releaseReconstructedPicture | .searchStartCode | .init => true
  | _ => false

theorem hist_send_of_isPlain
    {mail : Al5Mail} {mailUid : MailUid} (hist : Hist)
    (huid : mail.uid? = some mailUid) (hplain : mailUid.isPlain = true) :
    hist.send mail = hist := by
  unfold Hist.send
  rw [huid]
  cases mailUid <;> first | rfl | exact absurd hplain Bool.false_ne_true

theorem ignores_sent_of_isPlain
    {mail : Al5Mail} {mailUid : MailUid} {call : ℕ}
    (huid : mail.uid? = some mailUid) (hplain : mailUid.isPlain = true)
    (exchange : Exchange) : exchange.Ignores (.sent call mail) := by
  apply Exchange.ignores_sent
  rw [huid]
  intro heq
  rw [Option.some.inj heq] at hplain
  cases exchange <;> exact absurd hplain Bool.false_ne_true

theorem wp_sendPlain
    {constructor : Bool → MailResult} {mailUid : MailUid} {addressee : Word}
    {post : ℤ → UserState → Prop}
    (hbuilds : Builds constructor mailUid addressee)
    (hplain : mailUid.isPlain = true)
    (hlasting : Lasting i assertion) (hassert : assertion state)
    (hok : ∀ state₁ mail, UserInv kind uid conditions state₁ →
      assertion state₁ → mail.Names mailUid addressee →
      (∀ condition ∈ conditions,
        condition.Admits state₁ op (.send mail) .succeed) →
        OkSent uid conditions state₁.hist mail)
    (hpost : ∀ state₁ err, assertion state₁ → post err state₁) :
    userWp kind uid conditions i op (sendBuilt constructor) post state := by
  apply wp_sendBuilt hbuilds hlasting hassert
  · exact fun state₁ err hassert₁ _ => hpost state₁ err hassert₁
  · intro state₁ mail hinv hassert₁ hnames hallowed
    have hhist : (state₁.record (.sent i mail)).hist = state₁.hist :=
      hist_send_of_isPlain state₁.hist hnames.uid?_eq hplain
    have hchannel : (state₁.record (.sent i mail)).channel = state₁.channel :=
      UserState.channel_of_hist hhist rfl rfl rfl
    have hignores : ∀ exchange : Exchange, exchange.Ignores (.sent i mail) :=
      ignores_sent_of_isPlain hnames.uid?_eq hplain
    refine ⟨Sound.note hinv rfl rfl rfl rfl hchannel rfl (.inr rfl) hinv.sorted
      (hok state₁ mail hinv hassert₁ hnames hallowed)
      (fun exchange => .inl (hignores exchange)), ?_⟩
    exact hpost _ 0 (hlasting.calm _ _ hassert₁
      (Calm.of_ignores rfl rfl rfl hchannel hignores))

end

/-! ## The owner of the create mutex -/

section

variable {channel channel' : ChannelData}

structure MayAdvance (kind : UserKind) (conditions : Set Condition) (op : UserOp)
    (held : List UserOperation) (channel channel' : ChannelData) : Prop where
  chanUid : channel'.hist.chanUid = channel'.chanUid
  quiet : op.closes = true → channel'.hist.awaiting = false
  stocked : kind = .encoder → op.closes = false → .allocates ∈ conditions →
    channel'.chanUid ≠ badChan → channel'.Stocked
  moves : (channel'.chanUid = channel.chanUid ∧
      channel'.hist.dead = channel.hist.dead) ∨
    (channel.chanUid = badChan ∧ channel'.chanUid ∉ channel'.hist.dead) ∨
    ∀ operation, operation ∈ held

theorem Owns.advance
    {event : Event} (howns : Owns conditions i op held pending channel state)
    (hinv : UserInv kind uid conditions state)
    (hchannel : state'.channel = channel')
    (hmoves : Moves conditions i op held pending event pending')
    (hlog : state'.log = event :: state.log)
    (hlocks : state'.locks = state.locks) (hcloser : state'.closer = state.closer)
    (hbound : state'.bound = state.bound)
    (hflag : (state'.queues .destroy).locked = (state.queues .destroy).locked)
    (hmails : (state'.queues .destroy).mails = (state.queues .destroy).mails)
    (hsorted : state'.Sorted)
    (hok : OkEvent uid conditions channel.hist event)
    (hmay : MayAdvance kind conditions op held channel channel') :
    Sound kind uid conditions i state state' ∧
      Owns conditions i op held pending' channel' state' := by
  have howner := (howns.locks .create).mpr howns.create
  have hcloses : state.closer = none → op.closes = false := by
    intro hnone
    have hclosed := howns.closer
    rw [hnone] at hclosed
    cases hop : op.closes with
    | false => rfl
    | true => simp [hop] at hclosed
  have hnext : channel'.hist = state.hist.next event := by
    rw [← hchannel]
    exact UserState.hist_of_log hlog
  have hchan' : state'.chanUid = channel'.chanUid := by rw [← hchannel]; rfl
  have hchan : state.chanUid = channel.chanUid := by rw [← howns.channel]; rfl
  have hhist : state.hist = channel.hist := by rw [← howns.channel]; rfl
  refine ⟨?_, howns.toAt.moved hmoves hlog hlocks hcloser, howns.create, hchannel⟩
  apply Sound.advance hinv howner hlog hlocks hcloser hbound hflag hmails hsorted
    (by rwa [hhist]) (hmoves.mayLog howns.toAt)
  · rw [← hnext, hchan']
    exact hmay.chanUid
  · intro hclosed
    rw [← hnext]
    apply hmay.quiet
    cases hop : op.closes with
    | true => rfl
    | false => exact absurd (howns.toAt.closer_eq_none hop) hclosed
  · rw [hchan', hchannel]
    exact fun hkind hnone => hmay.stocked hkind (hcloses hnone)
  · rw [← hnext, hchan']
    intro hwaits hbad hdead
    rcases hmay.moves with ⟨hsame, hsameDead⟩ | ⟨_, hfresh⟩ | hall
    · rw [hsame, ← hchan] at hbad
      rw [hsame, hsameDead, ← hchan, ← hhist] at hdead
      exact hinv.alive hwaits hbad hdead
    · exact absurd hdead hfresh
    · exact ⟨i, fun operation => (howns.locks operation).mpr (hall operation)⟩
  · rw [← hnext, hchan', hchan, hhist]
    rcases hmay.moves with hsame | ⟨hnone, _⟩ | hall
    · exact .inl hsame
    · exact .inr (.inl hnone)
    · exact .inr (.inr fun operation =>
        (howns.locks operation).mpr (hall operation))

theorem Owns.chanUid_eq (howns : Owns conditions i op held pending channel state) :
    state.chanUid = channel.chanUid := by
  rw [← howns.channel]
  rfl

theorem Owns.hist_eq (howns : Owns conditions i op held pending channel state) :
    state.hist = channel.hist := by
  rw [← howns.channel]
  rfl

structure Sane (kind : UserKind) (conditions : Set Condition) (op : UserOp)
    (channel : ChannelData) : Prop where
  chanUid : channel.hist.chanUid = channel.chanUid
  stocked : kind = .encoder → op.closes = false → .allocates ∈ conditions →
    channel.chanUid ≠ badChan → channel.Stocked

theorem Owns.sane
    (howns : Owns conditions i op held pending channel state)
    (hinv : UserInv kind uid conditions state) : Sane kind conditions op channel where
  chanUid := by
    rw [← howns.hist_eq, ← howns.chanUid_eq]
    exact hinv.chanUid
  stocked hkind hcloses halloc hbad := by
    rw [← howns.chanUid_eq] at hbad
    rw [← howns.channel]
    exact hinv.stocked hkind (howns.toAt.closer_eq_none hcloses) halloc hbad

theorem own_getChanUid
    {next : Word → UserProg α}
    (howns : Owns conditions i op held pending channel state)
    (hnext : ∀ state₁, Sane kind conditions op channel →
      Owns conditions i op held pending channel state₁ →
      userWp kind uid conditions i op (next channel.chanUid) post state₁) :
    userWp kind uid conditions i op (Prog.perform .getChanUid >>= next) post
      state := by
  apply wp_getChanUid lasting_owns howns
  intro state₁ hinv howns₁
  rw [howns₁.chanUid_eq]
  exact hnext state₁ (howns₁.sane hinv) howns₁

theorem own_getCheckpoint
    {next : ℤ → UserProg α}
    (howns : Owns conditions i op held pending channel state)
    (hnext : ∀ state₁, Sane kind conditions op channel →
      Owns conditions i op held pending channel state₁ →
      userWp kind uid conditions i op (next channel.checkpoint) post state₁) :
    userWp kind uid conditions i op (Prog.perform .getCheckpoint >>= next) post
      state := by
  apply wp_perform lasting_owns howns
  intro state₁ choice result state₂ hinv howns₁ hact _
  cases choice with
  | succeed =>
      obtain ⟨rfl, rfl⟩ := Prod.mk.inj (Option.some.inj hact)
      refine ⟨Sound.refl hinv, ?_⟩
      have hcheckpoint : state₁.checkpoint = channel.checkpoint := by
        rw [← howns₁.channel]
        rfl
      rw [hcheckpoint]
      exact hnext _ (howns₁.sane hinv) howns₁
  | _ => exact absurd hact (Option.some_ne_none _).symm

theorem own_setChanUid
    {value : Word} {next : Unit → UserProg α}
    (howns : Owns conditions i op held pending channel state)
    (hok : OkEvent uid conditions channel.hist (.chanUid value))
    (hmay : MayAdvance kind conditions op held channel
      { channel with hist := channel.hist.next (.chanUid value), chanUid := value })
    (hnext : ∀ state₁, Owns conditions i op held pending
      { channel with hist := channel.hist.next (.chanUid value), chanUid := value }
        state₁ →
      userWp kind uid conditions i op (next ()) post state₁) :
    userWp kind uid conditions i op (Prog.perform (.setChanUid value) >>= next)
      post state := by
  apply wp_perform lasting_owns howns
  intro state₁ choice result state₂ hinv howns₁ hact _
  cases choice with
  | succeed =>
      obtain ⟨rfl, rfl⟩ := Prod.mk.inj (Option.some.inj hact)
      have hchannel : UserState.channel
          { state₁.record (.chanUid value) with chanUid := value } =
          { channel with
            hist := channel.hist.next (.chanUid value), chanUid := value } := by
        rw [← howns₁.channel]
        rfl
      obtain ⟨hsound, howns₂⟩ := howns₁.advance hinv hchannel
        (.ignored fun _ => ⟨rfl, rfl⟩) rfl rfl rfl rfl rfl rfl hinv.sorted hok hmay
      exact ⟨hsound, hnext _ howns₂⟩
  | _ => exact absurd hact (Option.some_ne_none _).symm

theorem own_setCheckpoint
    {value : ℤ} {next : Unit → UserProg α}
    (howns : Owns conditions i op held pending channel state)
    (hmay : MayAdvance kind conditions op held channel
      { channel with
        hist := channel.hist.next (.checkpoint value), checkpoint := value })
    (hnext : ∀ state₁, Owns conditions i op held pending
      { channel with
        hist := channel.hist.next (.checkpoint value), checkpoint := value }
        state₁ →
      userWp kind uid conditions i op (next ()) post state₁) :
    userWp kind uid conditions i op (Prog.perform (.setCheckpoint value) >>= next)
      post state := by
  apply wp_perform lasting_owns howns
  intro state₁ choice result state₂ hinv howns₁ hact _
  cases choice with
  | succeed =>
      obtain ⟨rfl, rfl⟩ := Prod.mk.inj (Option.some.inj hact)
      have hchannel : UserState.channel
          { state₁.record (.checkpoint value) with checkpoint := value } =
          { channel with
            hist := channel.hist.next (.checkpoint value), checkpoint := value } := by
        rw [← howns₁.channel]
        rfl
      obtain ⟨hsound, howns₂⟩ := howns₁.advance hinv hchannel
        (@Moves.ignored _ _ _ _ _ (.checkpoint value) fun _ => ⟨rfl, rfl⟩)
        rfl rfl rfl rfl rfl rfl hinv.sorted trivial hmay
      exact ⟨hsound, hnext _ howns₂⟩
  | _ => exact absurd hact (Option.some_ne_none _).symm

/-- A command which the owner sends. -/
theorem own_sendBuilt
    {constructor : Bool → MailResult} {mailUid : MailUid} {addressee : Word}
    {post : ℤ → UserState → Prop}
    (hbuilds : Builds constructor mailUid addressee)
    (howns : Owns conditions i op held pending channel state)
    (hmoves : ∀ mail : Al5Mail, mail.Names mailUid addressee →
      Moves conditions i op held pending (.sent i mail) pending')
    (hok : ∀ mail : Al5Mail, mail.Names mailUid addressee →
      OkSent uid conditions channel.hist mail)
    (hmay : ∀ mail : Al5Mail, mail.Names mailUid addressee →
      MayAdvance kind conditions op held channel
        { channel with hist := channel.hist.send mail })
    (hrefused : ∀ state₁ err, Owns conditions i op held pending channel state₁ →
      err ≠ 0 → post err state₁)
    (hsent : ∀ state₁ mail, mail.Names mailUid addressee →
      Owns conditions i op held pending'
        { channel with hist := channel.hist.send mail } state₁ → post 0 state₁) :
    userWp kind uid conditions i op (sendBuilt constructor) post state := by
  apply wp_sendBuilt hbuilds lasting_owns howns hrefused
  intro state₁ mail hinv howns₁ hnames _
  have hchannel : (state₁.record (.sent i mail)).channel =
      { channel with hist := channel.hist.send mail } := by
    rw [← howns₁.channel]
    rfl
  obtain ⟨hsound, howns₂⟩ := howns₁.advance hinv hchannel (hmoves mail hnames) rfl
    rfl rfl rfl rfl rfl hinv.sorted (hok mail hnames) (hmay mail hnames)
  exact ⟨hsound, hsent _ mail hnames howns₂⟩

theorem own_bufpoolFree
    {pool : BufferPool} {next : Unit → UserProg α}
    (howns : Owns conditions i op held pending channel state)
    (hnext : ∀ state₁, Owns conditions i op held pending
      { channel with pools := Function.update channel.pools pool [] } state₁ →
      userWp kind uid conditions i op (next ()) post state₁) :
    userWp kind uid conditions i op (Prog.perform (.bufpoolFree pool) >>= next)
      post state := by
  apply wp_perform lasting_owns howns
  intro state₁ choice result state₂ hinv howns₁ hact _
  cases choice with
  | succeed =>
      obtain ⟨-, rfl⟩ := Prod.mk.inj (Option.some.inj hact)
      have howner := (howns₁.locks .create).mpr howns₁.create
      refine ⟨Sound.pools hinv (.inl howner) _, hnext _ ?_⟩
      refine ⟨⟨howns₁.locks, howns₁.closer, howns₁.pairs⟩, howns₁.create, ?_⟩
      rw [← howns₁.channel]
      rfl
  | _ => exact absurd hact (Option.some_ne_none _).symm

/-- An allocation in an empty pool. -/
theorem own_bufpoolAllocate
    {pool : BufferPool} {count size : Word} {next : ℤ → UserProg α}
    (howns : Owns conditions i op held pending channel state)
    (hempty : channel.pools pool = [])
    (hmay : ∀ pools : BufferPool → List DmaBuffer,
      MayAdvance kind conditions op held channel { channel with pools })
    (hfailed : ∀ state₁, .allocates ∉ conditions →
      Owns conditions i op held pending
        { channel with pools := Function.update channel.pools pool [] } state₁ →
      userWp kind uid conditions i op (next (-ENOMEM)) post state₁)
    (hallocated : ∀ state₁ (buffers : List DmaBuffer),
      buffers.length = count.toNat →
      Owns conditions i op held pending
        { channel with pools := Function.update channel.pools pool buffers }
          state₁ →
      userWp kind uid conditions i op (next 0) post state₁) :
    userWp kind uid conditions i op
      (Prog.perform (.bufpoolAllocate pool count size) >>= next) post state := by
  apply wp_perform lasting_owns howns
  intro state₁ choice result state₂ hinv howns₁ hact hallowed
  have hpools : state₁.pools = channel.pools := by
    rw [← howns₁.channel]
    rfl
  have hok : OkEvent uid conditions channel.hist
      (.allocated (state₁.pools pool).length) := by
    change (state₁.pools pool).length = 0
    rw [hpools, hempty]
    rfl
  have hchannel : ∀ buffers : List DmaBuffer, UserState.channel
      { state₁.record (.allocated (state₁.pools pool).length) with
        pools := Function.update state₁.pools pool buffers } =
      { channel with pools := Function.update channel.pools pool buffers } := by
    intro buffers
    rw [← howns₁.channel]
    rfl
  have hadvance := fun buffers : List DmaBuffer =>
    howns₁.advance hinv (hchannel buffers)
      (@Moves.ignored _ _ _ _ _ (.allocated (state₁.pools pool).length)
        fun _ => ⟨rfl, rfl⟩)
      rfl rfl rfl rfl rfl rfl hinv.sorted hok (hmay _)
  cases choice with
  | buffers handles =>
      simp only [UserState.act] at hact
      split at hact
      · rename_i hcount
        obtain ⟨rfl, rfl⟩ := Prod.mk.inj (Option.some.inj hact)
        obtain ⟨hsound, howns₂⟩ := hadvance (handles.map fun handle => ⟨handle, size⟩)
        exact ⟨hsound, hallocated _ _ (by rw [List.length_map, hcount.1]) howns₂⟩
      · exact absurd hact (by simp)
  | fail =>
      obtain ⟨rfl, rfl⟩ := Prod.mk.inj (Option.some.inj hact)
      obtain ⟨hsound, howns₂⟩ := hadvance []
      refine ⟨hsound, hfailed _ ?_ howns₂⟩
      exact fun hcondition => hallowed .allocates hcondition pool count size rfl rfl
  | _ => exact absurd hact (Option.some_ne_none _).symm

end

/-! ## Taking a reply -/

theorem act_listPop
    {which : UserMail} {choice : Choice} {result : Option Al5Mail}
    (hact : state.act i (.listPop which) choice = some (result, state')) :
    result = (state.queues which).mails.head? ∧ state' = state.pop i which := by
  cases choice with
  | succeed =>
      obtain ⟨rfl, rfl⟩ := Prod.mk.inj (Option.some.inj hact)
      exact ⟨rfl, rfl⟩
  | _ => exact absurd hact (Option.some_ne_none _).symm

theorem UserState.locked_pop (which other : UserMail) :
    ((state.pop i which).queues other).locked = (state.queues other).locked := by
  by_cases hother : other = which
  · subst hother
    change ((state.setQueue other _).queues other).locked = _
    rw [UserState.setQueue_self]
  · rw [UserState.queues_pop_of_ne hother]

theorem At.holdsAll
    (hat : At conditions i op userOperations pending state) : state.HoldsAll i :=
  fun operation => (hat.locks operation).mpr (mem_userOperations operation)

theorem uid_of_mailToQueue_create
    {mailUid : Option MailUid} (hqueue : mailToQueue mailUid = .create) :
    mailUid = some .createChannel := by
  cases mailUid with
  | none => exact absurd hqueue (by simp [mailToQueue])
  | some mailUid =>
      cases mailUid <;> first | rfl | exact absurd hqueue (by simp [mailToQueue])

/-- The owner takes the feedback of its create request. -/
theorem own_popCreate
    {channel : ChannelData} {next : Option Al5Mail → UserProg α}
    (howns : Owns conditions i op held (some .create) channel state)
    (hinHand : channel.hist.inHand = none)
    (hmay : ∀ mail : Option Al5Mail, MayAdvance kind conditions op held channel
      { channel with hist := channel.hist.next (.popped i .create mail) })
    (hcloses : op.closes = false)
    (hnext : ∀ (mail : Option Al5Mail) state₁,
      (∀ found, mail = some found → found.uid? = some .createChannel) →
      Owns conditions i op held none
        { channel with hist := channel.hist.next (.popped i .create mail) } state₁ →
      userWp kind uid conditions i op (next mail) post state₁) :
    userWp kind uid conditions i op (Prog.perform (.listPop .create) >>= next) post
      state := by
  apply wp_perform lasting_owns howns
  intro state₁ choice result state₂ hinv howns₁ hact hallowed
  obtain ⟨rfl, rfl⟩ := act_listPop hact
  have hfound : .finds .create ∈ conditions →
      (state₁.queues .create).mails.head? ≠ none := by
    intro hfinds hnone
    exact hallowed _ hfinds hcloses rfl (List.head?_eq_none_iff.mp hnone)
  have hchannel : (state₁.pop i .create).channel =
      { channel with
        hist := channel.hist.next
          (.popped i .create (state₁.queues .create).mails.head?) } := by
    rw [← howns₁.channel]
    rfl
  have hmoves : Moves conditions i op held (some .create)
      (.popped i .create (state₁.queues .create).mails.head?) none :=
    @Moves.taken conditions i op held .create _ howns₁.create
      fun hfinds _ => hfound hfinds
  have hqueue : (state₁.pop i .create).queues .destroy = state₁.queues .destroy :=
    UserState.queues_pop_of_ne (by decide)
  obtain ⟨hsound, howns₂⟩ := howns₁.advance hinv hchannel hmoves rfl rfl rfl rfl
    (congrArg Al5Queue.locked hqueue) (congrArg Al5Queue.mails hqueue)
    (hinv.sorted.pop .create) (fun _ => ⟨hinHand, hfound⟩) (hmay _)
  refine ⟨hsound, hnext _ _ ?_ howns₂⟩
  intro mail hmail
  have hmem : mail ∈ (state₁.queues .create).mails := List.mem_of_mem_head? hmail
  exact uid_of_mailToQueue_create (hinv.sorted .create mail hmem)

/-- A call that holds all mutexes waits for the feedback of its destroy
request. -/
theorem own_queuePopDestroy
    {channel : ChannelData} {next : Option Al5Mail → UserProg α}
    (howns : Owns conditions i op userOperations (some .destroy) channel state)
    (hcloses : op.closes = false)
    (hnext : ∀ mail state₁, (.destroyWaits ∈ conditions → mail ≠ none) →
      Owns conditions i op userOperations none channel state₁ →
      userWp kind uid conditions i op (next mail) post state₁) :
    userWp kind uid conditions i op (al5QueuePop .destroy >>= next) post state := by
  apply wp_perform lasting_owns howns
  intro state₁ choice result state₂ hinv howns₁ hwait hallowed
  have hsame : state₂ = state₁ := act_query rfl hwait
  have hthere : .destroyWaits ∈ conditions →
      (state₂.queues .destroy).mails ≠ [] := by
    intro hwaits
    rw [hsame]
    cases choice with
    | succeed =>
        simp only [UserState.act] at hwait
        split at hwait
        · rename_i havailable
          have hlocked := hinv.destroyLocked (howns₁.closer_eq_none hcloses)
          intro hnil
          simp [Al5Queue.mailIsAvailable, hlocked, hnil] at havailable
        · exact absurd hwait (by simp)
    | signal => exact absurd rfl (hallowed _ hwaits rfl)
    | _ => exact absurd hwait (Option.some_ne_none _).symm
  subst hsame
  refine ⟨Sound.refl hinv, ?_⟩
  intro state₃ hrely hinv₃ choice₃ mail state₄ hexec hallowed₃
  have howns₃ := lasting_owns.rely state₂ state₃ howns₁ hrely
  have hact := act_of_exec hexec
  obtain ⟨rfl, rfl⟩ := act_listPop hact
  have hfound : .destroyWaits ∈ conditions →
      (state₃.queues .destroy).mails.head? ≠ none := by
    intro hwaits hnone
    exact hrely.destroying howns₁.holdsAll (hthere hwaits)
      (List.head?_eq_none_iff.mp hnone)
  have hmoves : Moves conditions i op userOperations (some .destroy)
      (.popped i .destroy (state₃.queues .destroy).mails.head?) none := by
    apply @Moves.taken conditions i op userOperations .destroy
    · exact mem_userOperations _
    · intro hfinds _ hnone
      exact hallowed₃ _ hfinds hcloses rfl (List.head?_eq_none_iff.mp hnone)
  have hsound : Sound kind uid conditions i state₃ (state₃.pop i .destroy) :=
    Sound.note hinv₃ (UserState.log_pop .destroy) rfl rfl rfl rfl
      (UserState.locked_pop .destroy .destroy) (.inl (.inl howns₃.holdsAll))
      (hinv₃.sorted.pop .destroy) trivial
      (hmoves.mayLog howns₃.toAt)
  refine ⟨hsound.inv, hsound.rely, hnext _ _ hfound ?_⟩
  exact ⟨howns₃.toAt.moved hmoves rfl rfl rfl, howns₃.create, howns₃.channel⟩

/-- The owner of the mutex takes a reconstructed picture. -/
theorem wp_popReconstructed
    {next : Option Al5Mail → UserProg α}
    (hready : Ready kind conditions i op [.reconstructed] (some .reconstructed) state)
    (hnext : ∀ mail state₁, Ready kind conditions i op [.reconstructed] none state₁ →
      userWp kind uid conditions i op (next mail) post state₁) :
    userWp kind uid conditions i op (Prog.perform (.listPop .reconstructed) >>= next)
      post state := by
  apply wp_perform lasting_ready hready
  intro state₁ choice result state₂ hinv hready₁ hact hallowed
  obtain ⟨rfl, rfl⟩ := act_listPop hact
  have hmoves : Moves conditions i op [.reconstructed] (some .reconstructed)
      (.popped i .reconstructed (state₁.queues .reconstructed).mails.head?) none := by
    apply @Moves.taken conditions i op [.reconstructed] .reconstructed
    · exact List.mem_singleton_self _
    · intro hfinds hcloses hnone
      exact hallowed _ hfinds hcloses rfl (List.head?_eq_none_iff.mp hnone)
  have hqueue : (state₁.pop i .reconstructed).queues .destroy =
      state₁.queues .destroy :=
    UserState.queues_pop_of_ne (by decide)
  have hsound : Sound kind uid conditions i state₁ (state₁.pop i .reconstructed) :=
    Sound.note hinv (UserState.log_pop .reconstructed) rfl rfl rfl rfl
      (congrArg Al5Queue.locked hqueue) (.inr (congrArg Al5Queue.mails hqueue))
      (hinv.sorted.pop .reconstructed) trivial (hmoves.mayLog hready₁.toAt)
  refine ⟨hsound, hnext _ _ ?_⟩
  exact ⟨hready₁.toAt.moved hmoves rfl rfl rfl, hready₁.idle, hready₁.settled⟩

/-! ## Closing the file -/

section

variable (hcloses : op.closes = true)
include hcloses

theorem At.closer_eq_some (hat : At conditions i op held pending state) :
    state.closer = some i := by
  rw [hat.closer, if_pos hcloses]

/-- The call that closes the file takes whatever is left in a queue. -/
theorem wp_popResidual
    {which : UserMail} {next : Option Al5Mail → UserProg α}
    (hready : Ready kind conditions i op held none state)
    (hnext : ∀ mail state₁, Ready kind conditions i op held none state₁ →
      userWp kind uid conditions i op (next mail) post state₁) :
    userWp kind uid conditions i op (Prog.perform (.listPop which) >>= next) post
      state := by
  apply wp_perform lasting_ready hready
  intro state₁ choice result state₂ hinv hready₁ hact _
  obtain ⟨rfl, rfl⟩ := act_listPop hact
  have hcloser := hready₁.toAt.closer_eq_some hcloses
  have hawaiting : state₁.hist.awaiting = false :=
    hinv.quiet (by rw [hcloser]; exact Option.some_ne_none i)
  have hhist : (state₁.pop i which).hist = state₁.hist := by
    rw [UserState.hist_of_log (UserState.log_pop which)]
    cases which with
    | create => simp [Hist.next, hawaiting]
    | _ => rfl
  have hchannel : (state₁.pop i which).channel = state₁.channel :=
    UserState.channel_of_hist hhist rfl rfl rfl
  have hok : OkEvent uid conditions state₁.hist
      (.popped i which (state₁.queues which).mails.head?) := by
    cases which with
    | create =>
        intro hawaits
        rw [hawaiting] at hawaits
        exact absurd hawaits (by simp)
    | _ => trivial
  have hmoves : Moves conditions i op held none
      (.popped i which (state₁.queues which).mails.head?) none :=
    .closing hcloses
  refine ⟨Sound.note hinv (UserState.log_pop which) rfl rfl rfl hchannel
    (UserState.locked_pop which .destroy) (.inl (.inr hcloser))
    (hinv.sorted.pop which) hok
    (hmoves.mayLog hready₁.toAt), hnext _ _ ?_⟩
  refine ⟨hready₁.toAt.moved hmoves (UserState.log_pop which) rfl rfl, ?_, ?_⟩
  · rw [hhist]
    exact hready₁.idle
  · rw [hchannel]
    exact hready₁.settled

theorem wp_queueUnlockClosing
    {which : UserMail} {next : Unit → UserProg α}
    (hready : Ready kind conditions i op held none state)
    (hnext : ∀ state₁, Ready kind conditions i op held none state₁ →
      userWp kind uid conditions i op (next ()) post state₁) :
    userWp kind uid conditions i op (Prog.perform (.queueUnlock which) >>= next) post
      state := by
  apply wp_perform lasting_ready hready
  intro state₁ choice result state₂ hinv hready₁ hact _
  cases choice with
  | succeed =>
      obtain ⟨-, rfl⟩ := Prod.mk.inj (Option.some.inj hact)
      have hflag : state₁.closer = none → ((state₁.setQueue which
          { state₁.queues which with locked := false }).queues .destroy).locked =
            true := by
        intro hnone
        rw [hready₁.toAt.closer_eq_some hcloses] at hnone
        exact absurd hnone (by simp)
      have hmails : (state₁.queues .destroy).mails ≠ [] → ((state₁.setQueue which
          { state₁.queues which with locked := false }).queues .destroy).mails ≠
            [] := by
        by_cases hwhich : UserMail.destroy = which
        · subst hwhich
          rw [UserState.setQueue_self]
          exact id
        · rw [UserState.setQueue_of_ne _ hwhich]
          exact id
      refine ⟨Sound.still hinv rfl rfl rfl rfl (fun _ => rfl) id hflag hmails
        (hinv.sorted.setFlag which false), hnext _ ?_⟩
      exact lasting_ready.calm _ _ hready₁ ⟨rfl, rfl, rfl, fun _ => ⟨rfl, rfl⟩⟩
  | _ => exact absurd hact (Option.some_ne_none _).symm

theorem wp_bufpoolFreeClosing
    {pool : BufferPool} {next : Unit → UserProg α}
    (hready : Ready kind conditions i op [] none state)
    (hnext : ∀ state₁, Ready kind conditions i op [] none state₁ →
      userWp kind uid conditions i op (next ()) post state₁) :
    userWp kind uid conditions i op (Prog.perform (.bufpoolFree pool) >>= next) post
      state := by
  apply wp_perform lasting_ready hready
  intro state₁ choice result state₂ hinv hready₁ hact _
  cases choice with
  | succeed =>
      obtain ⟨-, rfl⟩ := Prod.mk.inj (Option.some.inj hact)
      refine ⟨Sound.pools hinv (.inr (hready₁.toAt.closer_eq_some hcloses)) _,
        hnext _ ?_⟩
      exact ⟨⟨hready₁.locks, hready₁.closer, hready₁.pairs⟩, fun h => absurd h (by simp),
        fun _ _ h => absurd h (by simp)⟩
  | _ => exact absurd hact (Option.some_ne_none _).symm

theorem wp_unbind
    {next : Unit → UserProg α}
    (hready : Ready kind conditions i op [] none state)
    (hnext : ∀ state₁, Ready kind conditions i op [] none state₁ →
      state₁.bound = false →
      userWp kind uid conditions i op (next ()) post state₁) :
    userWp kind uid conditions i op (Prog.perform .unbind >>= next) post state := by
  apply wp_perform lasting_ready hready
  intro state₁ choice result state₂ hinv hready₁ hact _
  cases choice with
  | succeed =>
      obtain ⟨-, rfl⟩ := Prod.mk.inj (Option.some.inj hact)
      have hcloser := hready₁.toAt.closer_eq_some hcloses
      have hnotNone : state₁.closer ≠ none := by
        rw [hcloser]
        exact Option.some_ne_none i
      refine ⟨Sound.still hinv rfl rfl rfl rfl (fun hnone => absurd hnone hnotNone)
        (fun _ => rfl) hinv.destroyLocked id hinv.sorted, hnext _ ?_ rfl⟩
      exact lasting_ready.calm _ _ hready₁ ⟨rfl, rfl, rfl, fun _ => ⟨rfl, rfl⟩⟩
  | _ => exact absurd hact (Option.some_ne_none _).symm

end

end VcuDriver

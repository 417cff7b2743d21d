import VcuDriver.CodecFiles

/-!
# What becomes of the mails of the MCU

Every mail which the MCU has emitted waits in the ring, is held by the handler, or is
settled, and the handler settles them in the order of their emission.  What it gives to
a file goes to the end of one of its queues, from which the calls pop: so the mails
popped from a queue and those still in it are those given to it, in their order.
-/

namespace VcuDriver

open Conc

variable {maxUsersNb f i : ℕ} {conditions : Set CodecCondition}
variable {file file' : File} {codec codec' : Codec} {move : CodecMove}
variable {which : UserMail}

/-! ## The flow through a queue -/

/-- The mails which the calls have popped from a queue, in their order. -/
def poppedFrom (which : UserMail) : List Event → List Al5Mail
  | [] => []
  | .popped _ queue (some mail) :: earlier =>
      if queue = which then poppedFrom which earlier ++ [mail] else poppedFrom which earlier
  | _ :: earlier => poppedFrom which earlier

/-- The mails which were put into a queue of a user, in their order. -/
def UserState.flow (state : UserState) (which : UserMail) : List Al5Mail :=
  poppedFrom which state.log ++ (state.queues which).mails

theorem flow_pop (state : UserState) (i : ℕ) (which other : UserMail) :
    (state.pop i other).flow which = state.flow which := by
  unfold UserState.flow
  rw [UserState.log_pop]
  by_cases hwhich : which = other
  · subst hwhich
    have hmails : ((state.pop i which).queues which).mails =
        (state.queues which).mails.tail := by
      simp [UserState.pop, UserState.record, UserState.setQueue]
    rw [hmails]
    cases (state.queues which).mails with
    | nil => simp [poppedFrom]
    | cons mail rest => simp [poppedFrom]
  · rw [UserState.queues_pop_of_ne hwhich]
    cases (state.queues other).mails with
    | nil => rfl
    | cons mail rest => simp [poppedFrom, Ne.symm hwhich]

theorem flow_setLocked (state : UserState) (locked : Bool) (which other : UserMail) :
    (state.setQueue other { state.queues other with locked := locked }).flow which =
      state.flow which := by
  unfold UserState.flow
  by_cases hwhich : which = other
  · subst hwhich
    simp [UserState.setQueue]
  · simp [UserState.setQueue, Function.update_of_ne hwhich]

/-- No action of a call puts a mail into a queue, and what it takes it has popped. -/
theorem act_flow
    {state state' : UserState} {action : UserAct} {choice : Choice} {result : action.Res}
    (hact : state.act i action choice = some (result, state')) (which : UserMail) :
    state'.flow which = state.flow which := by
  cases action with
  | listPop other =>
      obtain ⟨-, rfl⟩ := act_listPop hact
      exact flow_pop state i which other
  | queueUnlock other =>
      cases choice with
      | succeed =>
          obtain ⟨-, rfl⟩ := Prod.mk.inj (Option.some.inj hact)
          exact flow_setLocked state false which other
      | _ => exact absurd hact (by simp [UserState.act])
  | queueLock other =>
      cases choice with
      | succeed =>
          obtain ⟨-, rfl⟩ := Prod.mk.inj (Option.some.inj hact)
          exact flow_setLocked state true which other
      | _ => exact absurd hact (by simp [UserState.act])
  | _ =>
      cases choice <;> simp only [UserState.act] at hact <;>
        first
          | (obtain ⟨-, rfl⟩ := Prod.mk.inj (Option.some.inj hact)
             rfl)
          | (split_ifs at hact
             all_goals
               obtain ⟨-, rfl⟩ := Prod.mk.inj (Option.some.inj hact)
               rfl)
          | exact absurd hact (by simp)

theorem flow_al5UserDeliver (mail : Al5Mail) (state : UserState) (which : UserMail) :
    (al5UserDeliver mail state).flow which =
      state.flow which ++ if mailToQueue mail.uid? = which then [mail] else [] := by
  unfold UserState.flow
  by_cases hwhich : which = mailToQueue mail.uid?
  · subst hwhich
    simp [al5UserDeliver, UserState.setQueue]
  · simp [al5UserDeliver, UserState.setQueue, Function.update_of_ne hwhich, Ne.symm hwhich]

/-! ## What the handler has settled -/

namespace Codec

/-- The mail was given to a file, for one of its queues. -/
def isGiven (f : ℕ) (which : UserMail) (entry : McuMail × Settlement) : Bool :=
  entry.2 = .queued f ∧ mailToQueue entry.1.mail.uid? = which

/-- The mails which the handler has given to a file for one of its queues, in their
order. -/
def given (codec : Codec) (f : ℕ) (which : UserMail) : List Al5Mail :=
  (codec.settled.filter (isGiven f which)).map fun entry => entry.1.mail

/-- What a move does to the mails which the handler has settled. -/
inductive SettlesNext (codec : Codec) : List (McuMail × Settlement) → Prop where
  | same : SettlesNext codec codec.settled
  | queues (nbMsg : ℕ) (mail : McuMail) (f : ℕ)
      (delivering : codec.handler = .delivering nbMsg mail f) :
      SettlesNext codec (codec.settled ++ [(mail, .queued f)])
  | frees (nbMsg : ℕ) (mail : McuMail) (freeing : codec.handler = .freeing nbMsg mail) :
      SettlesNext codec (codec.settled ++ [(mail, .freed (codec.stillHeld mail))])

theorem settlesNext_of_next (hnext : codecNext maxUsersNb codec move = some codec') :
    SettlesNext codec codec'.settled := by
  cases move with
  | bind kind =>
      obtain ⟨-, slot, -, -, -, rfl⟩ := bindUser_cases hnext
      exact .same
  | enter f op =>
      obtain ⟨file, config, -, -, rfl⟩ := enter_cases hnext
      exact .same
  | call f i choice =>
      obtain ⟨file, file', effect, codec₁, -, -, houtside, rfl⟩ := call_cases hnext
      rw [show codec₁.settled = codec.settled from houtside.sameDriver.settled]
      exact .same
  | interrupt =>
      obtain ⟨-, rfl⟩ := interrupt_cases hnext
      exact .same
  | handle choice =>
      cases handle_cases hnext with
      | delivers nbMsg mail f file file' hdelivering hfile hdeliver =>
          exact .queues nbMsg mail f hdelivering
      | frees nbMsg mail hfreeing => exact .frees nbMsg mail hfreeing
      | _ => exact .same
  | mcu step =>
      rw [(mcu_cases hnext).sameDriver.settled]
      exact .same

/-- Every mail that was emitted is settled, held or in the ring, in the order of
emission. -/
def InOrder (codec : Codec) : Prop :=
  codec.emitted = codec.settled.map Prod.fst ++ codec.handler.held ++ codec.statuses

theorem inOrder_emit
    (mail : McuMail) (hemitted : codec'.emitted = codec.emitted)
    (hsettled : codec'.settled = codec.settled) (hhandler : codec'.handler = codec.handler)
    (hstatuses : codec'.statuses = codec.statuses) (hinOrder : codec.InOrder) :
    (emit mail codec').InOrder := by
  change codec'.emitted ++ [mail] = codec'.settled.map Prod.fst ++ codec'.handler.held ++
    (codec'.statuses ++ [mail])
  rw [hemitted, hsettled, hhandler, hstatuses, hinOrder, List.append_assoc]

theorem McuDoes.inOrder
    {step : McuStep} (hdoes : McuDoes codec step codec') (hinOrder : codec.InOrder) :
    codec'.InOrder := by
  cases hdoes with
  | keeps command rest hcommands huid => exact hinOrder
  | takes command rest hcommands => exact hinOrder
  | destroysQuietly command rest hcommands huid => exact hinOrder
  | _ =>
      refine inOrder_emit _ ?_ ?_ ?_ ?_ hinOrder
      all_goals rfl

theorem Handles.inOrder
    {choice : Choice} (hhandles : Handles maxUsersNb choice codec codec')
    (hinOrder : codec.InOrder) : codec'.InOrder := by
  unfold InOrder at hinOrder ⊢
  cases hhandles with
  | reads nbMsg mail rest hlooking hstatuses =>
      rw [hinOrder, hlooking, hstatuses]
      simp [Handler.held]
  | leaves nbMsg hlooking =>
      rw [hlooking] at hinOrder
      exact hinOrder
  | routes nbMsg mail hrouting =>
      rw [hrouting] at hinOrder
      change _ = _ ++ (codec.route maxUsersNb nbMsg mail).held ++ _
      rw [held_route]
      exact hinOrder
  | scans nbMsg mail slot hscanning =>
      rw [hscanning] at hinOrder
      change _ = _ ++ (codec.scan maxUsersNb nbMsg mail slot).held ++ _
      rw [held_scan]
      exact hinOrder
  | delivers nbMsg mail f file file' hdelivering hfile hdeliver =>
      rw [hinOrder, hdelivering]
      simp [Handler.held]
  | destroysOrphan nbMsg mail horphaning =>
      rw [horphaning] at hinOrder
      exact hinOrder
  | frees nbMsg mail hfreeing =>
      rw [hinOrder, hfreeing]
      simp [Handler.held]

theorem inOrder_of_run (hrun : CodecRun maxUsersNb conditions codec) : codec.InOrder := by
  refine hrun.invariant InOrder ?_ ?_
  · rfl
  · intro codec codec' move _ hinOrder _ hnext
    cases move with
    | bind kind =>
        obtain ⟨-, slot, -, -, -, rfl⟩ := bindUser_cases hnext
        exact hinOrder
    | enter f op =>
        obtain ⟨file, config, -, -, rfl⟩ := enter_cases hnext
        exact hinOrder
    | call f i choice =>
        obtain ⟨file, file', effect, codec₁, -, -, houtside, rfl⟩ := call_cases hnext
        cases houtside <;> exact hinOrder
    | interrupt =>
        obtain ⟨hidle, rfl⟩ := interrupt_cases hnext
        unfold InOrder at hinOrder
        rw [hidle] at hinOrder
        exact hinOrder
    | handle choice => exact (handle_cases hnext).inOrder hinOrder
    | mcu step => exact (mcu_cases hnext).inOrder hinOrder

/-! ## What was given to a file -/

/-- What was given to each file for a queue is what went into the queue. -/
structure Appended (codec : Codec) : Prop where
  flow : ∀ (f : ℕ) file, codec.files[f]? = some file → ∀ which,
    codec.given f which = file.state.flow which
  opened : ∀ mail f, (mail, Settlement.queued f) ∈ codec.settled → f < codec.files.length

theorem given_concat (codec : Codec) (f : ℕ) (entry : McuMail × Settlement) :
    ((codec.settled ++ [entry]).filter (isGiven f which)).map (fun entry => entry.1.mail) =
      codec.given f which ++ if isGiven f which entry then [entry.1.mail] else [] := by
  unfold given
  rw [List.filter_append, List.map_append, List.filter_singleton]
  cases isGiven f which entry with
  | false => rfl
  | true => rfl

theorem Appended.given_new (happended : codec.Appended) :
    codec.given codec.files.length which = [] := by
  unfold given
  rw [List.map_eq_nil_iff, List.filter_eq_nil_iff]
  rintro ⟨mail, settlement⟩ hmem hgiven
  obtain ⟨rfl, -⟩ := of_decide_eq_true hgiven
  exact absurd (happended.opened mail _ hmem) (Nat.lt_irrefl _)

/-- A move that settles nothing keeps what went into each queue. -/
theorem Appended.of_set
    (happended : codec.Appended) (hfile : codec.files[f]? = some file)
    (hfiles : codec'.files = codec.files.set f file')
    (hsettled : codec'.settled = codec.settled)
    (hflow : ∀ which, file'.state.flow which = file.state.flow which) :
    codec'.Appended := by
  constructor
  · rw [hfiles]
    intro g other hother which
    unfold given
    rw [hsettled]
    rcases getElem?_set_cases hother with ⟨rfl, rfl⟩ | ⟨-, hold⟩
    · rw [hflow]
      exact happended.flow g file hfile which
    · exact happended.flow g other hold which
  · rw [hsettled, hfiles, List.length_set]
    exact happended.opened

theorem Appended.of_same
    (happended : codec.Appended) (hfiles : codec'.files = codec.files)
    (hsettled : codec'.settled = codec.settled) : codec'.Appended := by
  constructor
  · rw [hfiles]
    unfold given
    rw [hsettled]
    exact happended.flow
  · rw [hfiles, hsettled]
    exact happended.opened

theorem Appended.handles
    {choice : Choice} (happended : codec.Appended)
    (hhandles : Handles maxUsersNb choice codec codec') : codec'.Appended := by
  cases hhandles with
  | delivers nbMsg mail f file file' hdelivering hfile hdeliver =>
      obtain ⟨-, rfl⟩ := File.deliver_cases hdeliver
      have hlt := (List.getElem?_eq_some_iff.mp hfile).1
      constructor
      · intro g other hother which
        refine (given_concat codec g (mail, .queued f)).trans ?_
        rcases getElem?_set_cases hother with ⟨rfl, rfl⟩ | ⟨hne, hold⟩
        · change _ = (al5UserDeliver mail.mail file.state).flow which
          rw [flow_al5UserDeliver, ← happended.flow g file hfile which]
          simp [isGiven]
        · have hnot : isGiven g which (mail, .queued f) = false := by
            simp [isGiven, Ne.symm hne]
          rw [hnot, happended.flow g other hold which]
          exact List.append_nil _
      · intro mail' g hmem
        rw [List.length_set]
        rcases List.mem_append.mp hmem with hold | hnew
        · exact happended.opened mail' g hold
        · obtain ⟨-, hqueued⟩ := Prod.mk.inj (List.mem_singleton.mp hnew)
          exact Settlement.queued.inj hqueued ▸ hlt
  | frees nbMsg mail hfreeing =>
      constructor
      · intro g other hother which
        refine (given_concat codec g (mail, .freed (codec.stillHeld mail))).trans ?_
        rw [happended.flow g other hother which]
        exact List.append_nil _
      · intro mail' g hmem
        rcases List.mem_append.mp hmem with hold | hnew
        · exact happended.opened mail' g hold
        · obtain ⟨-, hqueued⟩ := Prod.mk.inj (List.mem_singleton.mp hnew)
          exact Settlement.noConfusion hqueued
  | _ => exact happended.of_same rfl rfl

/-- In every run what was popped from a queue and what is left in it is what the handler
has given to the file for it, in this order. -/
theorem appended_of_run (hrun : CodecRun maxUsersNb conditions codec) :
    codec.Appended := by
  refine hrun.invariant Appended ?_ ?_
  · exact ⟨fun f file hfile => absurd hfile (by simp [codecStart]),
      fun mail f hmem => absurd hmem List.not_mem_nil⟩
  · intro codec codec' move _ happended _ hnext
    cases move with
    | bind kind =>
        obtain ⟨-, slot, -, -, -, rfl⟩ := bindUser_cases hnext
        constructor
        · intro f file hfile which
          rcases getElem?_concat_cases hfile with hold | ⟨rfl, rfl⟩
          · exact happended.flow f file hold which
          · exact happended.given_new
        · intro mail f hmem
          rw [List.length_append]
          exact Nat.lt_of_lt_of_le (happended.opened mail f hmem) (Nat.le_add_right _ _)
    | enter f op =>
        obtain ⟨file, config, hfile, henter, rfl⟩ := enter_cases hnext
        obtain ⟨-, hlog, hqueues, -⟩ := File.enter_state henter
        refine happended.of_set hfile rfl rfl fun which => ?_
        change poppedFrom which config.state.log ++ (config.state.queues which).mails = _
        rw [hlog, hqueues]
        rfl
    | call f i choice =>
        obtain ⟨file, file', effect, codec₁, hfile, hstep, houtside, rfl⟩ :=
          call_cases hnext
        obtain ⟨op, action, config, hperforms, hconfig, rfl, -⟩ := File.step_cases hstep
        obtain ⟨result, hact⟩ := File.step_state hperforms hconfig
        exact happended.of_set hfile rfl houtside.sameDriver.settled
          fun which => act_flow hact which
    | interrupt =>
        obtain ⟨-, rfl⟩ := interrupt_cases hnext
        exact happended.of_same rfl rfl
    | handle choice => exact happended.handles (handle_cases hnext)
    | mcu step =>
        have hsame := (mcu_cases hnext).sameDriver
        exact happended.of_same hsame.files hsame.settled

end Codec

end VcuDriver

import VcuDriver.Conc.Machine

/-!
# Disciplines of calls

A discipline is an automaton over the actions of one call: what the call may do
next, and how its own record changes with the result of an action.  A program
follows a discipline whatever results its actions return, so following it is a
property of the program alone.

A discipline fits a machine when the shared state keeps the record of every
call.  Then each call in progress follows the discipline from the record which
the state keeps for it, in every reachable configuration.
-/

namespace VcuDriver.Conc

variable {State Act : Type} {Res : Act → Type} {Choice Op Out Env : Type}
variable {α β Record : Type}

structure Discipline (Act : Type) (Res : Act → Type) (Record : Type) where
  /-- What the call may do next. -/
  may : Record → Act → Prop
  /-- The results which an action can have. -/
  possible : (action : Act) → Res action → Prop
  /-- The record after an action. -/
  next : Record → (action : Act) → Res action → Record

namespace Discipline

variable {discipline : Discipline Act Res Record}

/-- A program follows the discipline from a record, and ends as required. -/
def Follows (discipline : Discipline Act Res Record) (record : Record) :
    Prog Act Res α → (α → Record → Prop) → Prop
  | .ret value, post => post value record
  | .act action rest, post =>
      discipline.may record action ∧
        ∀ result, discipline.possible action result →
          Follows discipline (discipline.next record action result) (rest result)
            post

theorem follows_ret {value : α} {record : Record} {post : α → Record → Prop}
    (hpost : post value record) :
    discipline.Follows record (.ret value : Prog Act Res α) post :=
  hpost

theorem follows_act
    {action : Act} {rest : Res action → Prog Act Res α} {record : Record}
    {post : α → Record → Prop}
    (hmay : discipline.may record action)
    (hrest : ∀ result, discipline.possible action result →
      discipline.Follows (discipline.next record action result) (rest result)
        post) :
    discipline.Follows record (.act action rest) post :=
  ⟨hmay, hrest⟩

theorem Follows.mono
    {program : Prog Act Res α} {record : Record} {post post' : α → Record → Prop}
    (hpost : ∀ value record, post value record → post' value record)
    (hfollows : discipline.Follows record program post) :
    discipline.Follows record program post' := by
  induction program generalizing record with
  | ret value => exact hpost value record hfollows
  | act action rest ih =>
      exact ⟨hfollows.1, fun result hresult => ih result (hfollows.2 result hresult)⟩

/-- Sequential composition through an intermediate assertion. -/
theorem Follows.bind
    {program : Prog Act Res α} {f : α → Prog Act Res β} {record : Record}
    {mid : α → Record → Prop} {post : β → Record → Prop}
    (hfirst : discipline.Follows record program mid)
    (hrest : ∀ value record, mid value record →
      discipline.Follows record (f value) post) :
    discipline.Follows record (program.bind f) post := by
  induction program generalizing record with
  | ret value => exact hrest value record hfirst
  | act action rest ih =>
      exact ⟨hfirst.1, fun result hresult => ih result (hfirst.2 result hresult)⟩

/-- The state of the machine keeps the record of every call. -/
structure Fits (discipline : Discipline Act Res Record)
    (machine : Machine State Act Res Choice Op Out Env)
    (keeps : State → ℕ → Record → Prop) : Prop where
  exec : ∀ {i op action choice state result state' record},
    machine.exec i op action choice state = some (result, state') →
    keeps state i record → discipline.may record action →
      discipline.possible action result ∧
        keeps state' i (discipline.next record action result) ∧
        ∀ j record', j ≠ i → keeps state j record' → keeps state' j record'
  enter : ∀ {calls op state state' j record},
    machine.enter calls op state = some state' →
    keeps state j record → keeps state' j record
  env : ∀ {event state state' j record},
    machine.env event state = some state' →
    keeps state j record → keeps state' j record

/-- What fitting establishes of a configuration. -/
structure Kept (discipline : Discipline Act Res Record)
    (keeps : State → ℕ → Record → Prop) (start : Record)
    (post : Op → Out → Record → Prop)
    (config : Config State Act Res Op Out) : Prop where
  calls : ∀ (i : ℕ) call, config.calls[i]? = some call →
    ∃ record, keeps config.state i record ∧
      discipline.Follows record call.prog (post call.op)
  fresh : ∀ i, config.calls.length ≤ i → keeps config.state i start

variable {machine : Machine State Act Res Choice Op Out Env}
variable {keeps : State → ℕ → Record → Prop} {start : Record}
variable {post : Op → Out → Record → Prop}

theorem Kept.next
    (hfits : discipline.Fits machine keeps)
    (hbody : ∀ op, discipline.Follows start (machine.body op) (post op))
    {config config' : Config State Act Res Op Out}
    {move : Move Choice Op Env}
    (hkept : discipline.Kept keeps start post config)
    (hnext : machine.next config move = some config') :
    discipline.Kept keeps start post config' := by
  cases move with
  | enter op =>
      obtain ⟨state, henter, rfl⟩ := Machine.next_enter_eq_some hnext
      constructor
      · intro i call hcall
        rcases getElem?_concat_cases hcall with hold | ⟨rfl, rfl⟩
        · obtain ⟨record, hkeeps, hfollows⟩ := hkept.calls i call hold
          exact ⟨record, hfits.enter henter hkeeps, hfollows⟩
        · exact ⟨start, hfits.enter henter (hkept.fresh _ (Nat.le_refl _)), hbody op⟩
      · intro i hi
        rw [List.length_append, List.length_singleton] at hi
        exact hfits.enter henter (hkept.fresh i (by omega))
  | step i choice =>
      obtain ⟨op, action, rest, result, state, hcall, hexec, rfl⟩ :=
        Machine.next_step_eq_some hnext
      obtain ⟨record, hkeeps, hmay, hrest⟩ := hkept.calls i _ hcall
      obtain ⟨hpossible, hnew, hothers⟩ := hfits.exec hexec hkeeps hmay
      have hlt : i < config.calls.length :=
        (List.getElem?_eq_some_iff.mp hcall).1
      constructor
      · intro j call hj
        rcases getElem?_set_cases hj with ⟨rfl, rfl⟩ | ⟨hji, hold⟩
        · exact ⟨_, hnew, hrest result hpossible⟩
        · obtain ⟨record', hkeeps', hfollows⟩ := hkept.calls j call hold
          exact ⟨record', hothers j record' hji hkeeps', hfollows⟩
      · intro j hj
        rw [List.length_set] at hj
        exact hothers j start (by omega) (hkept.fresh j hj)
  | env event =>
      obtain ⟨state, henv, rfl⟩ := Machine.next_env_eq_some hnext
      constructor
      · intro i call hcall
        obtain ⟨record, hkeeps, hfollows⟩ := hkept.calls i call hcall
        exact ⟨record, hfits.env henv hkeeps, hfollows⟩
      · exact fun i hi => hfits.env henv (hkept.fresh i hi)

/-- Soundness: in every reachable configuration each call follows the
discipline from the record which the state keeps for it. -/
theorem Fits.sound
    (hfits : discipline.Fits machine keeps)
    (hbody : ∀ op, discipline.Follows start (machine.body op) (post op))
    {regime : Regime State Act Choice Op Env} {state₀ : State}
    (hstart : ∀ i, keeps state₀ i start)
    {config : Config State Act Res Op Out}
    (hreach : machine.Reach regime ⟨state₀, []⟩ config) :
    discipline.Kept keeps start post config := by
  refine hreach.invariant (discipline.Kept keeps start post) ?_
    (fun hkept _ hnext => hkept.next hfits hbody hnext)
  exact ⟨by simp, fun i _ => hstart i⟩

end Discipline

end VcuDriver.Conc

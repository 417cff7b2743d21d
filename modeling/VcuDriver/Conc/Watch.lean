import VcuDriver.Conc.Outline

/-!
# Watching the calls of a run

Once every state of a run meets an invariant, and every move stays inside what the
calls that do not make it rely on, one more property of the calls can be followed
through their programs.  Nothing has to be shown of the steps themselves any more.

A watch starts at any configuration, so it also says what the calls of the rest of a
run do.  A valid outline gives one.
-/

namespace VcuDriver.Conc

variable {State Act : Type} {Res : Act → Type} {Choice Op Out Env : Type}
variable {α β : Type}

/-- What is known of every state, and of what the others do between two actions of a
call. -/
structure Watch (machine : Machine State Act Res Choice Op Out Env)
    (regime : Regime State Act Choice Op Env) where
  inv : State → Prop
  rely : ℕ → State → State → Prop
  rely_refl : ∀ i state, rely i state state
  rely_trans : ∀ {i state₁ state₂ state₃},
    rely i state₁ state₂ → rely i state₂ state₃ → rely i state₁ state₃

namespace Watch

variable {machine : Machine State Act Res Choice Op Out Env}
variable {regime : Regime State Act Choice Op Env}
variable (watch : Watch machine regime)

/-- Whenever the program of call `i` returns, its value and the state are as said. -/
def Ends (i : ℕ) (op : Op) :
    Prog Act Res α → (α → State → Prop) → State → Prop
  | .ret value, post, state => post value state
  | .act action next, post, state =>
      ∀ state₁, watch.rely i state state₁ → watch.inv state₁ →
        ∀ choice result state₂,
          machine.exec i op action choice state₁ = some (result, state₂) →
          regime.step state₁ i op action choice → watch.inv state₂ →
            Ends i op (next result) post state₂

variable {watch} {i : ℕ} {op : Op} {state : State}

theorem ends_ret {value : α} {post : α → State → Prop} (hpost : post value state) :
    watch.Ends i op (.ret value) post state :=
  hpost

/-- The rule of an atomic action, with an assertion which the others leave alone. -/
theorem ends_act
    {action : Act} {next : Res action → Prog Act Res α} {post : α → State → Prop}
    {assertion : State → Prop} (hassert : assertion state)
    (hstable : ∀ state state', assertion state → watch.rely i state state' →
      assertion state')
    (hstep : ∀ state₁ choice result state₂, watch.inv state₁ → assertion state₁ →
      machine.exec i op action choice state₁ = some (result, state₂) →
      regime.step state₁ i op action choice → watch.inv state₂ →
        watch.Ends i op (next result) post state₂) :
    watch.Ends i op (.act action next) post state := by
  intro state₁ hrely hinv choice result state₂ hexec hallowed hinv₂
  exact hstep state₁ choice result state₂ hinv (hstable state state₁ hassert hrely)
    hexec hallowed hinv₂

theorem ends_bind
    {program : Prog Act Res α} {f : α → Prog Act Res β} {mid : α → State → Prop}
    {post : β → State → Prop} (hfirst : watch.Ends i op program mid state)
    (hrest : ∀ value state, mid value state → watch.Ends i op (f value) post state) :
    watch.Ends i op (program.bind f) post state := by
  induction program generalizing state with
  | ret value => exact hrest value state hfirst
  | act action next ih =>
      intro state₁ hrely hinv choice result state₂ hexec hallowed hinv₂
      exact ih result (hfirst state₁ hrely hinv choice result state₂ hexec hallowed hinv₂)

/-- A program of which nothing is asked. -/
theorem ends_of_forall
    {program : Prog Act Res α} {post : α → State → Prop}
    (hpost : ∀ value state, post value state) :
    watch.Ends i op program post state := by
  induction program generalizing state with
  | ret value => exact hpost value state
  | act action next ih =>
      intro _ _ _ _ result _ _ _ _
      exact ih result

theorem Ends.of_rely
    {program : Prog Act Res α} {post : α → State → Prop} {state' : State}
    (hpost : ∀ value state state', watch.rely i state state' → post value state →
      post value state')
    (hends : watch.Ends i op program post state) (hrely : watch.rely i state state') :
    watch.Ends i op program post state' := by
  cases program with
  | ret value => exact hpost value state state' hrely hends
  | act action next =>
      intro state₁ hrely₁ hinv choice result state₂ hexec hallowed hinv₂
      exact hends state₁ (watch.rely_trans hrely hrely₁) hinv choice result state₂
        hexec hallowed hinv₂

/-- What a watch sees of the runs from a configuration. -/
structure Sees (watch : Watch machine regime) (start : Config State Act Res Op Out) :
    Prop where
  inv : ∀ {config}, machine.Reach regime start config → watch.inv config.state
  step : ∀ {config config' i choice}, machine.Reach regime start config →
    regime.Allows config (.step i choice) →
    machine.next config (.step i choice) = some config' →
      ∀ j, j ≠ i → watch.rely j config.state config'.state
  env : ∀ {config config' event}, machine.Reach regime start config →
    regime.Allows config (.env event) →
    machine.next config (.env event) = some config' →
      ∀ j, watch.rely j config.state config'.state

variable {start : Config State Act Res Op Out} {post : ℕ → Op → Out → State → Prop}

/-- The property holds of every call in every configuration of the runs. -/
def Follows (watch : Watch machine regime) (post : ℕ → Op → Out → State → Prop)
    (config : Config State Act Res Op Out) : Prop :=
  ∀ i call, config.calls[i]? = some call →
    watch.Ends i call.op call.prog (post i call.op) config.state

theorem Sees.follows
    (hsees : watch.Sees start)
    (hpost : ∀ {i op out state state'}, watch.rely i state state' →
      post i op out state → post i op out state')
    (hstart : watch.Follows post start)
    (henter : ∀ {config config' op}, machine.Reach regime start config →
      regime.Allows config (.enter op) →
      machine.next config (.enter op) = some config' → watch.Follows post config →
        watch.Follows post config')
    {config : Config State Act Res Op Out}
    (hreach : machine.Reach regime start config) : watch.Follows post config := by
  induction hreach with
  | start => exact hstart
  | @next config config' move hreach hallowed hnext ih =>
      cases move with
      | enter op => exact henter hreach hallowed hnext ih
      | step i choice =>
          have hothers := hsees.step hreach hallowed hnext
          have hinv := hsees.inv (.next hreach hallowed hnext)
          obtain ⟨op, action, rest, result, state, hcall, hexec, rfl⟩ :=
            Machine.next_step_eq_some hnext
          intro j call hj
          rcases getElem?_set_cases hj with ⟨rfl, rfl⟩ | ⟨hji, hold⟩
          · exact ih j _ hcall config.state (watch.rely_refl j config.state)
              (hsees.inv hreach) choice result state hexec
              (hallowed op action rest hcall) hinv
          · exact (ih j call hold).of_rely (fun _ _ _ => hpost) (hothers j hji)
      | env event =>
          have hothers := hsees.env hreach hallowed hnext
          obtain ⟨state, -, rfl⟩ := Machine.next_env_eq_some hnext
          intro j call hj
          exact (ih j call hj).of_rely (fun _ _ _ => hpost) (hothers j)

end Watch

/-! ## The watch of an outline -/

namespace Outline

variable {machine : Machine State Act Res Choice Op Out Env}
variable {regime : Regime State Act Choice Op Env}
variable {outline : Outline machine regime}

theorem Holds.of_reach
    {state₀ : State} (hvalid : outline.Valid state₀)
    {start config : Config State Act Res Op Out} (hholds : outline.Holds start)
    (hreach : machine.Reach regime start config) : outline.Holds config := by
  induction hreach with
  | start => exact hholds
  | next _ hallowed hnext ih => exact ih.next hvalid hallowed hnext

/-- A step of a call stays inside what the others rely on. -/
theorem Holds.guarantee
    {config config' : Config State Act Res Op Out} {i : ℕ} {choice : Choice}
    (hholds : outline.Holds config) (hallowed : regime.Allows config (.step i choice))
    (hnext : machine.next config (.step i choice) = some config') :
    outline.Guarantee i config.state config'.state := by
  obtain ⟨op, action, rest, result, state, hcall, hexec, rfl⟩ :=
    Machine.next_step_eq_some hnext
  exact (hholds.covered i _ hcall config.state (outline.rely_refl i config.state)
    hholds.inv choice result state hexec (hallowed op action rest hcall)).2.1

/-- The watch which relies on what an outline relies on. -/
def watch (outline : Outline machine regime) : Watch machine regime where
  inv := outline.inv
  rely := outline.rely
  rely_refl := outline.rely_refl
  rely_trans := outline.rely_trans

theorem Valid.sees
    {state₀ : State} (hvalid : outline.Valid state₀)
    {start : Config State Act Res Op Out} (hholds : outline.Holds start) :
    outline.watch.Sees start where
  inv hreach := (hholds.of_reach hvalid hreach).inv
  step hreach hallowed hnext :=
    (hholds.of_reach hvalid hreach).guarantee hallowed hnext
  env hreach hallowed hnext := by
    obtain ⟨state, henv, rfl⟩ := Machine.next_env_eq_some hnext
    exact (hvalid.env (hholds.of_reach hvalid hreach).inv henv hallowed).2

end Outline

end VcuDriver.Conc

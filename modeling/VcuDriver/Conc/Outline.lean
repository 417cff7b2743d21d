import VcuDriver.Conc.Machine
import Mathlib.Order.Basic

/-!
# Rely-guarantee outlines

An outline of a machine names an invariant of the shared state and, for each
call, a relation on which the call relies: whatever the others do between two
of its actions stays inside that relation.  `Outline.wp` is the weakest
precondition of a program in such an environment.  Every action must keep the
invariant and must stay inside the relation on which each other call relies.

`Outline.Valid.sound` is the only induction on runs: once the bodies of the
calls satisfy their weakest preconditions, the invariant holds in every
reachable state and every call in progress is still covered.
-/

namespace VcuDriver.Conc

variable {State Act : Type} {Res : Act → Type} {Choice Op Out Env : Type}
variable {α β : Type}

/-- The proof data of a machine under a regime. -/
structure Outline (machine : Machine State Act Res Choice Op Out Env)
    (regime : Regime State Act Choice Op Env) where
  /-- What holds between any two moves. -/
  inv : State → Prop
  /-- What the others may do while the call waits for its turn. -/
  rely : ℕ → State → State → Prop
  /-- What holds of a call index which has not been used yet. -/
  fresh : ℕ → State → Prop
  /-- What holds after a call has returned. -/
  post : ℕ → Op → Out → State → Prop
  rely_refl : ∀ i state, rely i state state
  rely_trans : ∀ {i state₁ state₂ state₃},
    rely i state₁ state₂ → rely i state₂ state₃ → rely i state₁ state₃
  fresh_rely : ∀ {i state state'},
    rely i state state' → fresh i state → fresh i state'
  post_rely : ∀ {i op out state state'},
    rely i state state' → post i op out state → post i op out state'

namespace Outline

variable {machine : Machine State Act Res Choice Op Out Env}
variable {regime : Regime State Act Choice Op Env}
variable (outline : Outline machine regime)

/-- A step of call `i` stays inside what every other call relies on. -/
def Guarantee (i : ℕ) (state state' : State) : Prop :=
  ∀ j, j ≠ i → outline.rely j state state'

def wp (i : ℕ) (op : Op) :
    Prog Act Res α → (α → State → Prop) → State → Prop
  | .ret value, post, state => post value state
  | .act action next, post, state =>
      ∀ state₁, outline.rely i state state₁ → outline.inv state₁ →
        ∀ choice result state₂,
          machine.exec i op action choice state₁ = some (result, state₂) →
          regime.step state₁ i op action choice →
            outline.inv state₂ ∧ outline.Guarantee i state₁ state₂ ∧
              wp i op (next result) post state₂

/-- An assertion which the others cannot invalidate. -/
def Stable (i : ℕ) (assertion : State → Prop) : Prop :=
  ∀ state state', assertion state → outline.rely i state state' →
    outline.inv state' → assertion state'

variable {outline}
variable {i : ℕ} {op : Op} {state : State}

@[simp] theorem wp_ret (value : α) (post : α → State → Prop) :
    outline.wp i op (.ret value) post state = post value state := by rfl

/-- The rule of an atomic action: a stable assertion holds when the call is
scheduled, and the action leads from it to the rest of the program. -/
theorem wp_act
    {action : Act} {next : Res action → Prog Act Res α}
    {post : α → State → Prop} {assertion : State → Prop}
    (hassert : assertion state) (hstable : outline.Stable i assertion)
    (hstep : ∀ state₁ choice result state₂,
      outline.inv state₁ → assertion state₁ →
      machine.exec i op action choice state₁ = some (result, state₂) →
      regime.step state₁ i op action choice →
        outline.inv state₂ ∧ outline.Guarantee i state₁ state₂ ∧
          outline.wp i op (next result) post state₂) :
    outline.wp i op (.act action next) post state := by
  intro state₁ hrely hinv choice result state₂ hexec hallowed
  exact hstep state₁ choice result state₂ hinv
    (hstable state state₁ hassert hrely hinv) hexec hallowed

/-- The rule of consequence. -/
theorem wp_mono
    {program : Prog Act Res α} {post post' : α → State → Prop}
    (hpost : ∀ value state, post value state → post' value state)
    (hwp : outline.wp i op program post state) :
    outline.wp i op program post' state := by
  induction program generalizing state with
  | ret value => exact hpost value state hwp
  | act action next ih =>
      intro state₁ hrely hinv choice result state₂ hexec hallowed
      obtain ⟨hinv₂, hguar, hrest⟩ :=
        hwp state₁ hrely hinv choice result state₂ hexec hallowed
      exact ⟨hinv₂, hguar, ih result hrest⟩

/-- The rule of sequential composition. -/
theorem wp_bind
    {program : Prog Act Res α} {f : α → Prog Act Res β}
    {post : β → State → Prop}
    (hwp : outline.wp i op program
      (fun value => outline.wp i op (f value) post) state) :
    outline.wp i op (program.bind f) post state := by
  induction program generalizing state with
  | ret value => exact hwp
  | act action next ih =>
      intro state₁ hrely hinv choice result state₂ hexec hallowed
      obtain ⟨hinv₂, hguar, hrest⟩ :=
        hwp state₁ hrely hinv choice result state₂ hexec hallowed
      exact ⟨hinv₂, hguar, ih result hrest⟩

/-- Sequential composition through an intermediate assertion. -/
theorem wp_seq
    {program : Prog Act Res α} {f : α → Prog Act Res β}
    {mid : α → State → Prop} {post : β → State → Prop}
    (hfirst : outline.wp i op program mid state)
    (hrest : ∀ value state, mid value state →
      outline.wp i op (f value) post state) :
    outline.wp i op (program.bind f) post state :=
  wp_bind (wp_mono hrest hfirst)

theorem Stable.const (P : Prop) : outline.Stable i fun _ => P :=
  fun _ _ h _ _ => h

theorem Guarantee.refl (i : ℕ) (state : State) :
    outline.Guarantee i state state :=
  fun j _ => outline.rely_refl j state

/-- What the outline knows of a call in progress or returned. -/
def Covered (outline : Outline machine regime) (i : ℕ)
    (call : Call Act Res Op Out) (state : State) : Prop :=
  outline.wp i call.op call.prog (outline.post i call.op) state

theorem Covered.of_rely
    {call : Call Act Res Op Out} {state' : State}
    (hcovered : outline.Covered i call state)
    (hrely : outline.rely i state state') :
    outline.Covered i call state' := by
  obtain ⟨op, prog⟩ := call
  cases prog with
  | ret value => exact outline.post_rely hrely hcovered
  | act action next =>
      intro state₁ hrely₁ hinv choice result state₂ hexec hallowed
      exact hcovered state₁ (outline.rely_trans hrely hrely₁) hinv
        choice result state₂ hexec hallowed

structure Valid (outline : Outline machine regime) (state₀ : State) :
    Prop where
  init : outline.inv state₀
  init_fresh : ∀ i, outline.fresh i state₀
  env : ∀ {event state state'}, outline.inv state →
    machine.env event state = some state' → regime.env state event →
      outline.inv state' ∧ ∀ i, outline.rely i state state'
  enter : ∀ {calls op state state'}, outline.inv state →
    machine.enter calls op state = some state' → regime.enter state op →
    (∀ (i : ℕ) call, calls[i]? = some call → outline.Covered i call state) →
    (∀ i, calls.length ≤ i → outline.fresh i state) →
      outline.inv state' ∧
        (∀ (i : ℕ) call, calls[i]? = some call →
          outline.Covered i call state') ∧
        (∀ i, calls.length < i → outline.fresh i state') ∧
        outline.wp calls.length op (machine.body op)
          (outline.post calls.length op) state'

/-- What soundness establishes of a configuration. -/
structure Holds (outline : Outline machine regime)
    (config : Config State Act Res Op Out) : Prop where
  inv : outline.inv config.state
  covered : ∀ (i : ℕ) call, config.calls[i]? = some call →
    outline.Covered i call config.state
  fresh : ∀ i, config.calls.length ≤ i → outline.fresh i config.state

theorem Holds.next
    {state₀ : State} (hvalid : outline.Valid state₀)
    {config config' : Config State Act Res Op Out}
    {move : Move Choice Op Env}
    (hholds : outline.Holds config) (hallowed : regime.Allows config move)
    (hnext : machine.next config move = some config') :
    outline.Holds config' := by
  cases move with
  | enter op =>
      obtain ⟨state, henter, rfl⟩ := Machine.next_enter_eq_some hnext
      obtain ⟨hinv, hcovered, hfresh, hbody⟩ :=
        hvalid.enter hholds.inv henter hallowed hholds.covered hholds.fresh
      refine ⟨hinv, ?_, ?_⟩
      · intro i call hcall
        rcases getElem?_concat_cases hcall with hold | ⟨rfl, rfl⟩
        · exact hcovered i call hold
        · exact hbody
      · intro i hi
        exact hfresh i (by simpa [Nat.succ_le_iff] using hi)
  | step i choice =>
      obtain ⟨op, action, rest, result, state, hcall, hexec, rfl⟩ :=
        Machine.next_step_eq_some hnext
      obtain ⟨hinv, hguar, hwp⟩ :=
        hholds.covered i _ hcall config.state
          (outline.rely_refl i config.state) hholds.inv choice result state
          hexec (hallowed op action rest hcall)
      have hlt : i < config.calls.length :=
        (List.getElem?_eq_some_iff.mp hcall).1
      refine ⟨hinv, ?_, ?_⟩
      · intro j call hj
        rcases getElem?_set_cases hj with ⟨rfl, rfl⟩ | ⟨hji, hold⟩
        · exact hwp
        · exact (hholds.covered j call hold).of_rely (hguar j hji)
      · intro j hj
        have hle : config.calls.length ≤ j := by simpa using hj
        exact outline.fresh_rely (hguar j (by omega)) (hholds.fresh j hle)
  | env event =>
      obtain ⟨state, henv, rfl⟩ := Machine.next_env_eq_some hnext
      obtain ⟨hinv, hrely⟩ := hvalid.env hholds.inv henv hallowed
      exact ⟨hinv,
        fun i call hcall => (hholds.covered i call hcall).of_rely (hrely i),
        fun i hi => outline.fresh_rely (hrely i) (hholds.fresh i hi)⟩

/-- Soundness: a valid outline describes every reachable configuration. -/
theorem Valid.sound
    {state₀ : State} (hvalid : outline.Valid state₀)
    {config : Config State Act Res Op Out}
    (hreach : machine.Reach regime ⟨state₀, []⟩ config) :
    outline.Holds config := by
  refine hreach.invariant outline.Holds ?_
    (fun hholds hallowed hnext => hholds.next hvalid hallowed hnext)
  exact ⟨hvalid.init, by simp, fun i _ => hvalid.init_fresh i⟩

end Outline

end VcuDriver.Conc

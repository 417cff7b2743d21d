import VcuDriver.Conc.Program
import Mathlib.Data.Nat.Notation

/-!
# Machines that interleave calls

A machine runs any number of calls over one shared state.  Every call is a
program over atomic actions; a scheduler picks, one at a time, the call that
performs its next action, a new call that enters, or a step of the environment.
An action may have several outcomes, and a `Choice` selects one of them, so
the machine is executable: a run is a list of moves.

A regime restricts runs by a condition on the state before a move.  Reachability
under the unrestricted regime is reachability in the ordinary sense.
-/

namespace VcuDriver.Conc

/-- A call and the part of its program which is still to run. -/
structure Call (Act : Type) (Res : Act → Type) (Op Out : Type) where
  op : Op
  prog : Prog Act Res Out

/-- The meaning of calls and actions over a shared state. -/
structure Machine (State Act : Type) (Res : Act → Type)
    (Choice Op Out Env : Type) where
  /-- The program of a call. -/
  body : Op → Prog Act Res Out
  /-- Whether a call may enter, given the calls made so far. -/
  enter : List (Call Act Res Op Out) → Op → State → Option State
  /-- One atomic action of the call with the given index. -/
  exec : ℕ → Op → (action : Act) → Choice → State →
    Option (Res action × State)
  /-- One step of a party outside the calls. -/
  env : Env → State → Option State

/-- A shared state together with every call made so far, in order of entry. -/
structure Config (State Act : Type) (Res : Act → Type) (Op Out : Type) where
  state : State
  calls : List (Call Act Res Op Out)

/-- What the scheduler does next. -/
inductive Move (Choice Op Env : Type) where
  | enter (op : Op)
  | step (call : ℕ) (choice : Choice)
  | env (event : Env)

/-- A restriction of runs by conditions on the state before each move. -/
structure Regime (State Act Choice Op Env : Type) where
  enter : State → Op → Prop
  step : State → ℕ → Op → Act → Choice → Prop
  env : State → Env → Prop

/-! ## Lists of calls -/

section

variable {α : Type} {items : List α} {item other : α} {n m : ℕ}

/-- What is in a list after one more was appended. -/
theorem getElem?_concat_cases (hother : (items ++ [item])[n]? = some other) :
    items[n]? = some other ∨ n = items.length ∧ other = item := by
  rcases Nat.lt_trichotomy n items.length with hlt | heq | hgt
  · rw [List.getElem?_append_left hlt] at hother
    exact .inl hother
  · subst heq
    rw [List.getElem?_concat_length, Option.some.injEq] at hother
    exact .inr ⟨rfl, hother.symm⟩
  · rw [List.getElem?_eq_none (by simpa [Nat.succ_le_iff] using hgt)] at hother
    exact absurd hother (by simp)

/-- What is in a list after one was replaced. -/
theorem getElem?_set_cases (hother : (items.set m item)[n]? = some other) :
    n = m ∧ other = item ∨ n ≠ m ∧ items[n]? = some other := by
  by_cases hn : n = m
  · subst hn
    have hlt : n < items.length := by
      have := (List.getElem?_eq_some_iff.mp hother).1
      rwa [List.length_set] at this
    rw [List.getElem?_set_self hlt, Option.some.injEq] at hother
    exact .inl ⟨rfl, hother.symm⟩
  · rw [List.getElem?_set_ne (Ne.symm hn)] at hother
    exact .inr ⟨hn, hother⟩

end

variable {State Act : Type} {Res : Act → Type} {Choice Op Out Env : Type}

namespace Regime

/-- The regime under which every run is admitted. -/
def free : Regime State Act Choice Op Env where
  enter _ _ := True
  step _ _ _ _ _ := True
  env _ _ := True

def Allows (regime : Regime State Act Choice Op Env)
    (config : Config State Act Res Op Out) : Move Choice Op Env → Prop
  | .enter op => regime.enter config.state op
  | .step i choice =>
      ∀ op action next, config.calls[i]? = some ⟨op, .act action next⟩ →
        regime.step config.state i op action choice
  | .env event => regime.env config.state event

theorem free_allows (config : Config State Act Res Op Out)
    (move : Move Choice Op Env) :
    (free : Regime State Act Choice Op Env).Allows config move := by
  cases move <;> simp [Allows, free]

end Regime

namespace Machine

variable (machine : Machine State Act Res Choice Op Out Env)

def next (config : Config State Act Res Op Out) :
    Move Choice Op Env → Option (Config State Act Res Op Out)
  | .enter op =>
      (machine.enter config.calls op config.state).map fun state =>
        ⟨state, config.calls ++ [⟨op, machine.body op⟩]⟩
  | .step i choice =>
      match config.calls[i]? with
      | some ⟨op, .act action rest⟩ =>
          (machine.exec i op action choice config.state).map fun outcome =>
            ⟨outcome.2, config.calls.set i ⟨op, rest outcome.1⟩⟩
      | _ => none
  | .env event =>
      (machine.env event config.state).map fun state => ⟨state, config.calls⟩

def run : List (Move Choice Op Env) → Config State Act Res Op Out →
    Option (Config State Act Res Op Out)
  | [], config => some config
  | move :: moves, config => (machine.next config move).bind (run moves)

/-- The configuration after a list of moves which all pass a check. -/
def runWhere (check : Config State Act Res Op Out → Move Choice Op Env → Bool) :
    List (Move Choice Op Env) → Config State Act Res Op Out →
      Option (Config State Act Res Op Out)
  | [], config => some config
  | move :: moves, config =>
      if check config move then
        (machine.next config move).bind (runWhere check moves)
      else
        none

/-- The configurations reached from `config₀` by moves the regime admits. -/
inductive Reach (regime : Regime State Act Choice Op Env)
    (config₀ : Config State Act Res Op Out) :
    Config State Act Res Op Out → Prop where
  | start : Reach regime config₀ config₀
  | next {config config' : Config State Act Res Op Out}
      {move : Move Choice Op Env}
      (reach : Reach regime config₀ config)
      (allowed : regime.Allows config move)
      (step : machine.next config move = some config') :
      Reach regime config₀ config'

variable {machine}

theorem next_enter_eq_some
    {config config' : Config State Act Res Op Out} {op : Op}
    (hnext : machine.next config (.enter op) = some config') :
    ∃ state, machine.enter config.calls op config.state = some state ∧
      config' = ⟨state, config.calls ++ [⟨op, machine.body op⟩]⟩ := by
  simp only [next, Option.map_eq_some_iff] at hnext
  obtain ⟨state, henter, rfl⟩ := hnext
  exact ⟨state, henter, rfl⟩

theorem next_step_eq_some
    {config config' : Config State Act Res Op Out} {i : ℕ} {choice : Choice}
    (hnext : machine.next config (.step i choice) = some config') :
    ∃ op action rest result state,
      config.calls[i]? = some ⟨op, .act action rest⟩ ∧
        machine.exec i op action choice config.state = some (result, state) ∧
        config' = ⟨state, config.calls.set i ⟨op, rest result⟩⟩ := by
  simp only [next] at hnext
  split at hnext
  · rename_i op action rest hcall
    simp only [Option.map_eq_some_iff] at hnext
    obtain ⟨⟨result, state⟩, hexec, rfl⟩ := hnext
    exact ⟨op, action, rest, result, state, hcall, hexec, rfl⟩
  · exact absurd hnext (by simp)

theorem next_env_eq_some
    {config config' : Config State Act Res Op Out} {event : Env}
    (hnext : machine.next config (.env event) = some config') :
    ∃ state, machine.env event config.state = some state ∧
      config' = ⟨state, config.calls⟩ := by
  simp only [next, Option.map_eq_some_iff] at hnext
  obtain ⟨state, henv, rfl⟩ := hnext
  exact ⟨state, henv, rfl⟩

/-- Runs compose. -/
theorem Reach.trans
    {regime : Regime State Act Choice Op Env}
    {config₀ config₁ config₂ : Config State Act Res Op Out}
    (hfirst : machine.Reach regime config₀ config₁)
    (hsecond : machine.Reach regime config₁ config₂) :
    machine.Reach regime config₀ config₂ := by
  induction hsecond with
  | start => exact hfirst
  | next _ hallowed hstep ih => exact .next ih hallowed hstep

/-- A run of a regime is a run of every regime that admits more. -/
theorem Reach.mono
    {regime regime' : Regime State Act Choice Op Env}
    {config₀ config : Config State Act Res Op Out}
    (hreach : machine.Reach regime config₀ config)
    (hmono : ∀ (config : Config State Act Res Op Out) move,
      regime.Allows config move → regime'.Allows config move) :
    machine.Reach regime' config₀ config := by
  induction hreach with
  | start => exact .start
  | next _ hallowed hstep ih => exact .next ih (hmono _ _ hallowed) hstep

/-- Every executable list of moves is a run of the unrestricted machine. -/
theorem reach_of_run
    {moves : List (Move Choice Op Env)}
    {config₀ config : Config State Act Res Op Out}
    (hrun : machine.run moves config₀ = some config) :
    machine.Reach .free config₀ config := by
  induction moves generalizing config₀ with
  | nil =>
      simp only [run, Option.some.injEq] at hrun
      subst hrun
      exact .start
  | cons move moves ih =>
      simp only [run, Option.bind_eq_some_iff] at hrun
      obtain ⟨config₁, hnext, hrest⟩ := hrun
      have hfirst : machine.Reach .free config₀ config₁ :=
        .next .start (Regime.free_allows config₀ move) hnext
      exact hfirst.trans (ih hrest)

/-- Every executable list of moves whose check implies the regime is a run of
the regime. -/
theorem reach_of_runWhere
    {regime : Regime State Act Choice Op Env}
    {check : Config State Act Res Op Out → Move Choice Op Env → Bool}
    (hcheck : ∀ config move, check config move = true → regime.Allows config move)
    {moves : List (Move Choice Op Env)}
    {config₀ config : Config State Act Res Op Out}
    (hrun : machine.runWhere check moves config₀ = some config) :
    machine.Reach regime config₀ config := by
  induction moves generalizing config₀ with
  | nil =>
      simp only [runWhere, Option.some.injEq] at hrun
      subst hrun
      exact .start
  | cons move moves ih =>
      simp only [runWhere] at hrun
      split at hrun
      · rename_i hpass
        obtain ⟨config₁, hnext, hrest⟩ := Option.bind_eq_some_iff.mp hrun
        have hfirst : machine.Reach regime config₀ config₁ :=
          .next .start (hcheck config₀ move hpass) hnext
        exact hfirst.trans (ih hrest)
      · exact absurd hrun (by simp)

/-- A property of the end of an executable run, checked by evaluation, holds of
a reachable configuration. -/
theorem exists_reach_of_run
    {moves : List (Move Choice Op Env)}
    {config₀ : Config State Act Res Op Out}
    {check : Config State Act Res Op Out → Bool}
    (hrun : (machine.run moves config₀).any check = true) :
    ∃ config, machine.Reach .free config₀ config ∧ check config = true := by
  rw [Option.any_eq_true] at hrun
  obtain ⟨config, hconfig, hcheck⟩ := hrun
  exact ⟨config, reach_of_run hconfig, hcheck⟩

/-- An invariant of configurations: it holds at the start and each admitted
move keeps it. -/
theorem Reach.invariant
    {regime : Regime State Act Choice Op Env}
    {config₀ config : Config State Act Res Op Out}
    (Inv : Config State Act Res Op Out → Prop)
    (hstart : Inv config₀)
    (hnext : ∀ {config config' move}, Inv config →
      regime.Allows config move →
        machine.next config move = some config' → Inv config')
    (hreach : machine.Reach regime config₀ config) : Inv config := by
  induction hreach with
  | start => exact hstart
  | next _ hallowed hstep ih => exact hnext ih hallowed hstep

end Machine

end VcuDriver.Conc

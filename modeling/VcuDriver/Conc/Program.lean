import Mathlib.Logic.Function.Basic

/-!
# Programs over atomic actions

A sequential program is a finite tree of atomic actions: it either returns a
value or performs one action and continues with the action's result.  Nothing
here says what an action does; a machine gives the actions their meaning and
interleaves the programs of several calls.
-/

namespace VcuDriver.Conc

variable {Act : Type} {Res : Act → Type} {α β γ : Type}

/-- A program that performs actions of `Act` and returns an `α`. -/
inductive Prog (Act : Type) (Res : Act → Type) (α : Type) : Type where
  | ret (value : α)
  | act (action : Act) (next : Res action → Prog Act Res α)

namespace Prog

/-- Sequential composition: graft `f` on the leaves of a program. -/
def bind : Prog Act Res α → (α → Prog Act Res β) → Prog Act Res β
  | .ret value, f => f value
  | .act action next, f => .act action fun result => (next result).bind f

/-- The program that performs one action and returns its result. -/
def perform (action : Act) : Prog Act Res (Res action) :=
  .act action .ret

instance : Monad (Prog Act Res) where
  pure := .ret
  bind := .bind

@[simp] theorem pure_eq (value : α) :
    (pure value : Prog Act Res α) = .ret value := by rfl

@[simp] theorem bind_eq (program : Prog Act Res α) (f : α → Prog Act Res β) :
    program >>= f = program.bind f := by rfl

@[simp] theorem ret_bind (value : α) (f : α → Prog Act Res β) :
    (ret value : Prog Act Res α).bind f = f value := by rfl

@[simp] theorem act_bind
    (action : Act) (next : Res action → Prog Act Res α)
    (f : α → Prog Act Res β) :
    (act action next).bind f =
      act action fun result => (next result).bind f := by rfl

@[simp] theorem perform_bind (action : Act) (f : Res action → Prog Act Res β) :
    (perform action : Prog Act Res (Res action)).bind f = act action f := by rfl

theorem bind_ret (program : Prog Act Res α) : program.bind .ret = program := by
  induction program with
  | ret value => rfl
  | act action next ih =>
      rw [act_bind]
      congr 1
      funext result
      exact ih result

theorem bind_assoc
    (program : Prog Act Res α) (f : α → Prog Act Res β)
    (g : β → Prog Act Res γ) :
    (program.bind f).bind g = program.bind fun value => (f value).bind g := by
  induction program with
  | ret value => rfl
  | act action next ih =>
      simp only [act_bind]
      congr 1
      funext result
      exact ih result

def finished : Prog Act Res α → Bool
  | .ret _ => true
  | .act _ _ => false

@[simp] theorem finished_ret (value : α) :
    (ret value : Prog Act Res α).finished = true := rfl

@[simp] theorem finished_act
    (action : Act) (next : Res action → Prog Act Res α) :
    (act action next).finished = false := rfl

/-- Run a program alone, with a deterministic meaning of its actions. -/
def run {State : Type} (exec : (action : Act) → State → Res action × State) :
    Prog Act Res α → State → α × State
  | .ret value, state => (value, state)
  | .act action next, state =>
      (next (exec action state).1).run exec (exec action state).2

@[simp] theorem run_ret
    {State : Type} (exec : (action : Act) → State → Res action × State)
    (value : α) (state : State) :
    (ret value : Prog Act Res α).run exec state = (value, state) := by rfl

@[simp] theorem run_act
    {State : Type} (exec : (action : Act) → State → Res action × State)
    (action : Act) (next : Res action → Prog Act Res α) (state : State) :
    (act action next).run exec state =
      (next (exec action state).1).run exec (exec action state).2 := by rfl

theorem run_bind
    {State : Type} (exec : (action : Act) → State → Res action × State)
    (program : Prog Act Res α) (f : α → Prog Act Res β) (state : State) :
    (program.bind f).run exec state =
      (f (program.run exec state).1).run exec (program.run exec state).2 := by
  induction program generalizing state with
  | ret value => rfl
  | act action next ih => exact ih _ _

/-- Some execution of the program, with results which the world can give,
performs an action. -/
def MayPerform (possible : (action : Act) → Res action → Prop) (target : Act) :
    Prog Act Res α → Prop
  | .ret _ => False
  | .act action next =>
      action = target ∨
        ∃ result, possible action result ∧ MayPerform possible target (next result)

section

variable {possible : (action : Act) → Res action → Prop} {target : Act}

@[simp] theorem mayPerform_ret (value : α) :
    ¬ MayPerform possible target (ret value : Prog Act Res α) :=
  id

theorem mayPerform_act
    (action : Act) (next : Res action → Prog Act Res α) :
    MayPerform possible target (act action next) ↔
      action = target ∨
        ∃ result, possible action result ∧
          MayPerform possible target (next result) :=
  Iff.rfl

end

end Prog

end VcuDriver.Conc

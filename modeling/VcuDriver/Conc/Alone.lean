import VcuDriver.Conc.Program

/-!
# What a program alone passes through

A program that runs alone goes through one state after the other.  `Always` says
that all of them meet a condition, those between two actions included, and not
only the state at the end.
-/

namespace VcuDriver.Conc

variable {Act State : Type} {Res : Act → Type} {α β : Type}

namespace Prog

variable (exec : (action : Act) → State → Res action × State)

/-- Every state of the run meets the condition, from the first to the last. -/
def Always (condition : State → Prop) : Prog Act Res α → State → Prop
  | .ret _, state => condition state
  | .act action next, state =>
      condition state ∧
        (next (exec action state).1).Always condition (exec action state).2

variable {exec} {condition : State → Prop}

@[simp] theorem always_ret (value : α) (state : State) :
    (ret value : Prog Act Res α).Always exec condition state ↔ condition state :=
  Iff.rfl

@[simp] theorem always_act
    (action : Act) (next : Res action → Prog Act Res α) (state : State) :
    (act action next).Always exec condition state ↔
      condition state ∧
        (next (exec action state).1).Always exec condition (exec action state).2 :=
  Iff.rfl

/-- The rule of sequential composition. -/
theorem Always.bind
    {program : Prog Act Res α} {f : α → Prog Act Res β} {state : State}
    (hfirst : program.Always exec condition state)
    (hrest : (f (program.run exec state).1).Always exec condition
      (program.run exec state).2) :
    (program.bind f).Always exec condition state := by
  induction program generalizing state with
  | ret value => exact hrest
  | act action next ih => exact ⟨hfirst.1, ih _ hfirst.2 hrest⟩

/-! ## The states on the way and the state at the end -/

/-- Every state of the run meets the condition, and the result and the last state meet
`post`. -/
structure Passes (exec : (action : Act) → State → Res action × State)
    (condition : State → Prop) (program : Prog Act Res α) (post : α → State → Prop)
    (state : State) : Prop where
  always : program.Always exec condition state
  stop : post (program.run exec state).1 (program.run exec state).2

variable {post post' : α → State → Prop} {state : State}

theorem Passes.ret {value : α} (hstate : condition state) (hpost : post value state) :
    Passes exec condition (.ret value) post state :=
  ⟨hstate, hpost⟩

/-- The rule of an action. -/
theorem Passes.act {action : Act} {next : Res action → Prog Act Res α}
    (hstate : condition state)
    (hrest : Passes exec condition (next (exec action state).1) post
      (exec action state).2) :
    Passes exec condition (.act action next) post state :=
  ⟨⟨hstate, hrest.always⟩, hrest.stop⟩

/-- The rule of an action whose effect is known. -/
theorem Passes.act_eq {action : Act} {next : Res action → Prog Act Res α}
    {result : Res action} {state' : State}
    (hexec : exec action state = (result, state')) (hstate : condition state)
    (hrest : Passes exec condition (next result) post state') :
    Passes exec condition (.act action next) post state := by
  refine .act hstate ?_
  rw [hexec]
  exact hrest

theorem Passes.mono {program : Prog Act Res α}
    (hpost : ∀ value state, post value state → post' value state)
    (hpasses : Passes exec condition program post state) :
    Passes exec condition program post' state :=
  ⟨hpasses.always, hpost _ _ hpasses.stop⟩

/-- The rule of sequential composition. -/
theorem Passes.bind {program : Prog Act Res α} {f : α → Prog Act Res β}
    {post : β → State → Prop}
    (hpasses : Passes exec condition program
      (fun value state => Passes exec condition (f value) post state) state) :
    Passes exec condition (program.bind f) post state := by
  refine ⟨hpasses.always.bind hpasses.stop.always, ?_⟩
  rw [run_bind]
  exact hpasses.stop.stop

end Prog

end VcuDriver.Conc

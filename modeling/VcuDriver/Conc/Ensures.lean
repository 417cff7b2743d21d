import VcuDriver.Conc.Program

/-!
# Runs with several outcomes

The meaning of an action may be a relation: the world chooses its result, and others
may act before the next one.  `Ensures` follows a program through every outcome.  It
says that each action met is admitted, and that `post` holds wherever the program
returns.  `Ends` names one outcome.
-/

namespace VcuDriver.Conc

variable {Act State : Type} {Res : Act → Type} {α β : Type}

namespace Prog

def Ensures (exec : (action : Act) → State → Res action → State → Prop)
    (admitted : Act → State → Prop) (post : α → State → Prop) :
    Prog Act Res α → State → Prop
  | .ret value, state => post value state
  | .act action next, state =>
      admitted action state ∧
        ∀ result state', exec action state result state' →
          Ensures exec admitted post (next result) state'

variable {exec : (action : Act) → State → Res action → State → Prop}
  {admitted : Act → State → Prop} {post post' : α → State → Prop} {state : State}

/-- The rule of an action. -/
theorem Ensures.act {action : Act} {next : Res action → Prog Act Res α}
    (hadmitted : admitted action state)
    (hnext : ∀ result state', exec action state result state' →
      (next result).Ensures exec admitted post state') :
    (Prog.act action next).Ensures exec admitted post state :=
  ⟨hadmitted, hnext⟩

/-- The rule of consequence. -/
theorem Ensures.mono {program : Prog Act Res α}
    (hpost : ∀ value state, post value state → post' value state)
    (hensures : program.Ensures exec admitted post state) :
    program.Ensures exec admitted post' state := by
  induction program generalizing state with
  | ret value => exact hpost value state hensures
  | act action next ih =>
      exact ⟨hensures.1, fun result state' hexec => ih result (hensures.2 result state' hexec)⟩

/-- The rule of sequential composition. -/
theorem Ensures.bind {program : Prog Act Res α} {f : α → Prog Act Res β}
    {post : β → State → Prop}
    (hensures : program.Ensures exec admitted
      (fun value state => (f value).Ensures exec admitted post state) state) :
    (program.bind f).Ensures exec admitted post state := by
  induction program generalizing state with
  | ret value => exact hensures
  | act action next ih =>
      exact ⟨hensures.1, fun result state' hexec => ih result (hensures.2 result state' hexec)⟩

/-- The program may return `value'` in `state'`. -/
def Ends (exec : (action : Act) → State → Res action → State → Prop) :
    Prog Act Res α → State → α → State → Prop
  | .ret value, state, value', state' => value' = value ∧ state' = state
  | .act action next, state, value', state' =>
      ∃ result mid, exec action state result mid ∧
        Ends exec (next result) mid value' state'

@[simp] theorem ends_ret {value value' : α} {state' : State} :
    (ret value : Prog Act Res α).Ends exec state value' state' ↔
      value' = value ∧ state' = state :=
  Iff.rfl

theorem ends_act {action : Act} {next : Res action → Prog Act Res α} {value' : α}
    {state' : State} :
    (act action next).Ends exec state value' state' ↔
      ∃ result mid, exec action state result mid ∧
        (next result).Ends exec mid value' state' :=
  Iff.rfl

/-- A composition ends through an end of its first part. -/
theorem ends_bind {program : Prog Act Res α} {f : α → Prog Act Res β} {value' : β}
    {state' : State} :
    (program.bind f).Ends exec state value' state' ↔
      ∃ value mid, program.Ends exec state value mid ∧
        (f value).Ends exec mid value' state' := by
  induction program generalizing state with
  | ret value =>
      constructor
      · exact fun hends => ⟨value, state, ⟨rfl, rfl⟩, hends⟩
      · rintro ⟨_, _, ⟨rfl, rfl⟩, hends⟩
        exact hends
  | act action next ih =>
      constructor
      · rintro ⟨result, middle, hexec, hrest⟩
        obtain ⟨value, mid, hfirst, hends⟩ := (ih result).mp hrest
        exact ⟨value, mid, ⟨result, middle, hexec, hfirst⟩, hends⟩
      · rintro ⟨value, mid, ⟨result, middle, hexec, hfirst⟩, hends⟩
        exact ⟨result, middle, hexec, (ih result).mpr ⟨value, mid, hfirst, hends⟩⟩

/-- What is ensured holds at every end. -/
theorem Ensures.of_ends {program : Prog Act Res α} {value' : α} {state' : State}
    (hensures : program.Ensures exec admitted post state)
    (hends : program.Ends exec state value' state') : post value' state' := by
  induction program generalizing state with
  | ret value =>
      obtain ⟨rfl, rfl⟩ := hends
      exact hensures
  | act action next ih =>
      obtain ⟨result, mid, hexec, hrest⟩ := hends
      exact ih result (hensures.2 result mid hexec) hrest

/-- A deterministic world which the relation admits leads to an end. -/
theorem ends_of_run {step : (action : Act) → State → Res action × State}
    (hstep : ∀ action state, exec action state (step action state).1 (step action state).2)
    (program : Prog Act Res α) (state : State) :
    program.Ends exec state (program.run step state).1 (program.run step state).2 := by
  induction program generalizing state with
  | ret value => exact ⟨rfl, rfl⟩
  | act action next ih => exact ⟨_, _, hstep action state, ih _ _⟩

end Prog

end VcuDriver.Conc

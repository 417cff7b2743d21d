import Mathlib.Data.Nat.Notation
import Mathlib.Data.Option.Basic

/-!
# Runs of a step function

A system is a state and a function that says what each move does, if the move is
possible.  A run is a list of moves; a condition on the state before a move
restricts the runs.
-/

namespace VcuDriver.Conc

variable {State Move : Type}

/-- The states reached from `start` by moves that meet the condition. -/
inductive Steps (next : State → Move → Option State) (admits : State → Move → Prop)
    (start : State) : State → Prop where
  | start : Steps next admits start start
  | next {state state' : State} {move : Move} (steps : Steps next admits start state)
      (admitted : admits state move) (step : next state move = some state') :
      Steps next admits start state'

def runSteps (next : State → Move → Option State) (check : State → Move → Bool) :
    List Move → State → Option State
  | [], state => some state
  | move :: moves, state =>
      if check state move then (next state move).bind (runSteps next check moves)
      else none

namespace Steps

variable {next : State → Move → Option State} {admits : State → Move → Prop}
variable {start state : State}

/-- An invariant: it holds at the start and each admitted move keeps it. -/
theorem invariant
    (Inv : State → Prop) (hstart : Inv start)
    (hnext : ∀ {state state' move}, Steps next admits start state → Inv state →
      admits state move → next state move = some state' → Inv state')
    (hsteps : Steps next admits start state) : Inv state := by
  induction hsteps with
  | start => exact hstart
  | next hsteps hadmits hstep ih => exact hnext hsteps ih hadmits hstep

theorem trans
    {mid : State} (hfirst : Steps next admits start mid)
    (hsecond : Steps next admits mid state) : Steps next admits start state := by
  induction hsecond with
  | start => exact hfirst
  | next _ hadmits hstep ih => exact .next ih hadmits hstep

/-- A list of moves whose check implies the condition is a run. -/
theorem of_runSteps
    {check : State → Move → Bool}
    (hcheck : ∀ state move, check state move = true → admits state move)
    {moves : List Move} (hrun : runSteps next check moves start = some state) :
    Steps next admits start state := by
  induction moves generalizing start with
  | nil =>
      obtain rfl := Option.some.inj hrun
      exact .start
  | cons move moves ih =>
      rw [runSteps] at hrun
      split at hrun
      · rename_i hpass
        obtain ⟨mid, hstep, hrest⟩ := Option.bind_eq_some_iff.mp hrun
        have hfirst : Steps next admits start mid :=
          .next .start (hcheck start move hpass) hstep
        exact hfirst.trans (ih hrest)
      · exact absurd hrun (by simp)

end Steps

end VcuDriver.Conc

import Mathlib.Data.Option.Basic
import Mathlib.Data.Nat.Notation

/-!
# Refinement of a system with outputs

A system answers each move with an output and a new state, if the move is possible;
its specification answers every move.  A relation between their states which holds
at the start and which every move keeps, with equal outputs, makes every run of the
system a run of its specification.
-/

namespace VcuDriver.Conc

variable {State Abstract Move Out : Type}

/-- The outputs and the state after a list of moves. -/
def runOut (next : State → Move → Option (Out × State)) :
    List Move → State → Option (List Out × State)
  | [], state => some ([], state)
  | move :: moves, state =>
      (next state move).bind fun first =>
        (runOut next moves first.2).map fun rest => (first.1 :: rest.1, rest.2)

/-- What the specification says about a list of moves. -/
def specOut (spec : Abstract → Move → Out × Abstract) :
    List Move → Abstract → List Out × Abstract
  | [], abstract => ([], abstract)
  | move :: moves, abstract =>
      let rest := specOut spec moves (spec abstract move).2
      ((spec abstract move).1 :: rest.1, rest.2)

/-- One move of the system is one move of the specification. -/
def Refines (next : State → Move → Option (Out × State))
    (spec : Abstract → Move → Out × Abstract) (rel : State → Abstract → Prop) : Prop :=
  ∀ {state abstract move out state'}, rel state abstract →
    next state move = some (out, state') →
      out = (spec abstract move).1 ∧ rel state' (spec abstract move).2

/-- Every run of the system is a run of the specification. -/
theorem Refines.run {next : State → Move → Option (Out × State)}
    {spec : Abstract → Move → Out × Abstract} {rel : State → Abstract → Prop}
    (hrefines : Refines next spec rel) {moves : List Move} {state state' : State}
    {abstract : Abstract} {outs : List Out} (hrel : rel state abstract)
    (hrun : runOut next moves state = some (outs, state')) :
    outs = (specOut spec moves abstract).1 ∧
      rel state' (specOut spec moves abstract).2 := by
  induction moves generalizing state abstract outs with
  | nil =>
      obtain ⟨rfl, rfl⟩ := Prod.mk.inj (Option.some.inj hrun)
      exact ⟨rfl, hrel⟩
  | cons move moves ih =>
      rw [runOut, Option.bind_eq_some_iff] at hrun
      obtain ⟨⟨out, mid⟩, hfirst, hrest⟩ := hrun
      rw [Option.map_eq_some_iff] at hrest
      obtain ⟨⟨outs', last⟩, hlater, hpair⟩ := hrest
      obtain ⟨rfl, rfl⟩ := Prod.mk.inj hpair
      obtain ⟨hout, hmid⟩ := hrefines hrel hfirst
      obtain ⟨houts, hlast⟩ := ih hmid hlater
      refine ⟨?_, hlast⟩
      dsimp only at hout houts ⊢
      rw [specOut, ← hout, ← houts]

end VcuDriver.Conc

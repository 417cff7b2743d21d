import VcuDriver.Conc.Program

/-!
# What a program is bound to do

Some things a program does whatever its actions return: it performs a certain action
before it returns, or it returns a certain value.  Both are properties of what is still
to run, so they can be asked of a call in progress.
-/

namespace VcuDriver.Conc.Prog

variable {Act : Type} {Res : Act → Type} {α : Type}

def MustPerform (target : Act) : Prog Act Res α → Prop
  | .ret _ => False
  | .act action next => action = target ∨ ∀ result, (next result).MustPerform target

def MustReturn (value : α) : Prog Act Res α → Prop
  | .ret returned => returned = value
  | .act _ next => ∀ result, (next result).MustReturn value

variable {target : Act} {program : Prog Act Res α} {value : α}

@[simp] theorem mustPerform_act_self (next : Res target → Prog Act Res α) :
    (act target next).MustPerform target :=
  .inl rfl

/-- An action does not change what a program is bound to return. -/
theorem MustReturn.next
    {action : Act} {next : Res action → Prog Act Res α}
    (hreturn : (act action next).MustReturn value) (result : Res action) :
    (next result).MustReturn value :=
  hreturn result

end VcuDriver.Conc.Prog

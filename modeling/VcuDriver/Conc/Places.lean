import Mathlib.Data.Nat.Notation
import Mathlib.Data.List.Basic
import Mathlib.Data.List.Perm.Basic
import Mathlib.Data.List.Nodup

/-!
# Things in places

A list of places holds a list of things at each place.  When the things at one
place change, all the things together change by these.
-/

namespace VcuDriver.Conc

variable {Place Thing : Type}

theorem perm_exchange (first rest last : List Thing) :
    (first ++ (rest ++ last)).Perm (last ++ (rest ++ first)) := by
  calc (first ++ (rest ++ last)).Perm ((rest ++ last) ++ first) :=
        List.perm_append_comm
    _ = rest ++ (last ++ first) := List.append_assoc rest last first
    List.Perm _ (last ++ (rest ++ first)) :=
        List.perm_append_comm_assoc rest last first

/-- A place `new` takes the position of `old`. -/
theorem perm_flatMap_set
    {places : List Place} {n : ℕ} {old new : Place} {things : Place → List Thing}
    (hold : places[n]? = some old) :
    ((places.set n new).flatMap things ++ things old).Perm
      (places.flatMap things ++ things new) := by
  induction places generalizing n with
  | nil => exact absurd hold (by simp)
  | cons place places ih =>
      cases n with
      | zero =>
          obtain rfl := Option.some.inj hold
          simpa only [List.set_cons_zero, List.flatMap_cons, List.append_assoc] using
            perm_exchange (things new) (places.flatMap things) (things place)
      | succ n =>
          rw [List.getElem?_cons_succ] at hold
          simpa only [List.set_cons_succ, List.flatMap_cons, List.append_assoc] using
            (ih hold).append_left (things place)

/-- Only the things at one of the places change. -/
theorem perm_flatMap_of_one
    {places : List Place} {target : Place} {things things' : Place → List Thing}
    (hnodup : places.Nodup) (htarget : target ∈ places)
    (hothers : ∀ place, place ≠ target → things' place = things place) :
    (places.flatMap things' ++ things target).Perm
      (places.flatMap things ++ things' target) := by
  induction places with
  | nil => exact absurd htarget List.not_mem_nil
  | cons place places ih =>
      obtain ⟨hnot, hnodup⟩ := List.nodup_cons.mp hnodup
      rcases List.mem_cons.mp htarget with rfl | htarget
      · have hrest : places.flatMap things' = places.flatMap things :=
          List.flatMap_congr fun other hmem =>
            hothers other fun heq => hnot (heq ▸ hmem)
        rw [List.flatMap_cons, List.flatMap_cons, hrest]
        simpa only [List.append_assoc] using
          perm_exchange (things' target) (places.flatMap things) (things target)
      · have hplace : things' place = things place :=
          hothers place fun heq => hnot (heq ▸ htarget)
        rw [List.flatMap_cons, List.flatMap_cons, hplace]
        simpa only [List.append_assoc] using (ih hnodup htarget).append_left (things place)

end VcuDriver.Conc

import Mathlib.Tactic

/-!
# A ledger of objects

Objects are numbered in the order in which they are obtained.  A ledger counts how
many there are and lists every release, so that an object which is released twice
is listed twice.

`Holds start held now` says that, of what was obtained since `start`, the objects in
`held` are still there and every other one was released exactly once.
-/

namespace VcuDriver.Conc

structure Ledger where
  next : ℕ
  freed : List ℕ
  deriving DecidableEq

namespace Ledger

variable {start now : Ledger} {held held' : List ℕ}

/-- Obtain one object; its number is the `next` of before. -/
def obtain (ledger : Ledger) : Ledger :=
  { ledger with next := ledger.next + 1 }

def obtainMany (ledger : Ledger) (count : ℕ) : Ledger :=
  { ledger with next := ledger.next + count }

def free (ledger : Ledger) (object : ℕ) : Ledger :=
  { ledger with freed := object :: ledger.freed }

def freeAll (ledger : Ledger) (objects : List ℕ) : Ledger :=
  objects.foldl free ledger

/-- Nothing is released that was not obtained, nor released twice. -/
structure Sound (ledger : Ledger) : Prop where
  once : ∀ object, ledger.freed.count object ≤ 1
  obtained : ∀ object ∈ ledger.freed, object < ledger.next

structure Holds (start : Ledger) (held : List ℕ) (now : Ledger) : Prop where
  le : start.next ≤ now.next
  count : ∀ object,
    held.count object + now.freed.count object =
      start.freed.count object +
        if start.next ≤ object ∧ object < now.next then 1 else 0

theorem Holds.refl (start : Ledger) : Holds start [] start where
  le := le_rfl
  count object := by
    rw [if_neg (by omega), List.count_nil, Nat.zero_add, Nat.add_zero]

theorem Holds.obtain (hholds : Holds start held now) :
    Holds start (now.next :: held) now.obtain where
  le := Nat.le_succ_of_le hholds.le
  count object := by
    have hle := hholds.le
    have hcount := hholds.count object
    have hnext : now.obtain.next = now.next + 1 := rfl
    have hfreed : now.obtain.freed = now.freed := rfl
    rw [hnext, hfreed, List.count_cons]
    by_cases hnew : now.next = object
    · subst hnew
      rw [if_neg (by omega)] at hcount
      rw [if_pos (by simp), if_pos (by omega)]
      omega
    · rw [if_neg (by simpa using hnew)]
      have hsame : (start.next ≤ object ∧ object < now.next + 1) ↔
          (start.next ≤ object ∧ object < now.next) := by omega
      simp only [hsame]
      omega

theorem Holds.free {object : ℕ} (hholds : Holds start (object :: held) now) :
    Holds start held (now.free object) where
  le := hholds.le
  count other := by
    have hcount := hholds.count other
    have hnext : (now.free object).next = now.next := rfl
    have hfreed : (now.free object).freed = object :: now.freed := rfl
    rw [List.count_cons] at hcount
    rw [hnext, hfreed, List.count_cons]
    omega

theorem Holds.perm (hholds : Holds start held now) (hperm : held.Perm held') :
    Holds start held' now where
  le := hholds.le
  count object := by rw [← hperm.count_eq]; exact hholds.count object

theorem Holds.obtainMany (hholds : Holds start held now) (count : ℕ) :
    Holds start (List.range' now.next count ++ held) (now.obtainMany count) := by
  induction count generalizing now held with
  | zero => exact hholds
  | succ count ih =>
      have hrest := ih hholds.obtain
      have hsame : now.obtain.obtainMany count = now.obtainMany (count + 1) := by
        unfold Ledger.obtain Ledger.obtainMany
        rw [Nat.add_assoc, Nat.add_comm 1 count]
      rw [hsame] at hrest
      refine hrest.perm ?_
      rw [List.range'_succ]
      exact List.perm_middle

theorem Holds.freeAll {objects : List ℕ} (hholds : Holds start (objects ++ held) now) :
    Holds start held (now.freeAll objects) := by
  induction objects generalizing now with
  | nil => exact hholds
  | cons object objects ih => exact ih hholds.free

/-- What was obtained and is no longer held was released exactly once. -/
theorem Holds.freed_once
    (hholds : Holds start [] now) (hsound : start.Sound) {object : ℕ}
    (hlow : start.next ≤ object) (hhigh : object < now.next) :
    now.freed.count object = 1 := by
  have hcount := hholds.count object
  have hnone : start.freed.count object = 0 :=
    List.count_eq_zero.mpr fun hmem => absurd (hsound.obtained object hmem) (by omega)
  rw [if_pos ⟨hlow, hhigh⟩, List.count_nil, hnone] at hcount
  omega

theorem Holds.sound (hholds : Holds start held now) (hsound : start.Sound) :
    now.Sound := by
  have hcounts : ∀ object,
      start.freed.count object ≤ 1 ∧
        (start.next ≤ object → start.freed.count object = 0) := by
    intro object
    refine ⟨hsound.once object, fun hlow => ?_⟩
    exact List.count_eq_zero.mpr fun hmem => absurd (hsound.obtained object hmem) (by omega)
  constructor
  · intro object
    have hcount := hholds.count object
    obtain ⟨honce, hnew⟩ := hcounts object
    split at hcount
    · rename_i hrange
      have hzero := hnew hrange.1
      omega
    · omega
  · intro object hmem
    have hcount := hholds.count object
    have hpos := List.count_pos_iff.mpr hmem
    have hle := hholds.le
    by_contra hhigh
    have hzero := (hcounts object).2 (by omega)
    rw [if_neg (by omega)] at hcount
    omega

/-- What was obtained since `start` was released exactly once. -/
def FreedSince (start now : Ledger) : Prop :=
  ∀ object, start.next ≤ object → object < now.next → now.freed.count object = 1

theorem Holds.freedSince_iff (hholds : Holds start held now) (hsound : start.Sound)
    (hnew : ∀ object ∈ held, start.next ≤ object) :
    FreedSince start now ↔ held = [] := by
  constructor
  · intro hfreed
    rw [List.eq_nil_iff_forall_not_mem]
    intro object hmem
    have hcount := hholds.count object
    have hpos := List.count_pos_iff.mpr hmem
    have hlow := hnew object hmem
    have hnone : start.freed.count object = 0 :=
      List.count_eq_zero.mpr fun hmem => absurd (hsound.obtained object hmem) (by omega)
    split at hcount
    · rename_i hrange
      have honce := hfreed object hlow hrange.2
      omega
    · omega
  · rintro rfl object hlow hhigh
    exact hholds.freed_once hsound hlow hhigh

end Ledger

end VcuDriver.Conc

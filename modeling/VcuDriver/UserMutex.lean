import VcuDriver.UserDiscipline
import Mathlib.Logic.Relation

/-!
# The mutexes of a user

A call that waits for a mutex holds earlier mutexes only, so the calls that wait
for one another cannot form a cycle.
-/

namespace VcuDriver

open Conc

def Awaits (config : UserConfig) (i : ℕ) (operation : UserOperation) : Prop :=
  ∃ op next, config.calls[i]? = some ⟨op, .act (.mutexLockKillable operation) next⟩

def WaitsFor (config : UserConfig) (i j : ℕ) : Prop :=
  ∃ operation, Awaits config i operation ∧
    config.state.locks operation = some j

abbrev Disciplined (config : UserConfig) : Prop :=
  userDiscipline.Kept KeepsRecord .empty (fun _ _ last => OwnsNothing last) config

theorem Awaits.unique
    {config : UserConfig} {i : ℕ} {first second : UserOperation}
    (hfirst : Awaits config i first) (hsecond : Awaits config i second) :
    first = second := by
  obtain ⟨op, next, hcall⟩ := hfirst
  obtain ⟨op', next', hcall'⟩ := hsecond
  rw [hcall] at hcall'
  injection hcall' with hcall'
  injection hcall' with _ hprog
  injection hprog with hact
  injection hact

/-- A call that waits holds earlier mutexes only. -/
theorem rank_lt_of_awaits
    {config : UserConfig} {i : ℕ} {operation other : UserOperation}
    (hkept : Disciplined config)
    (hawaits : Awaits config i operation)
    (hlock : config.state.locks other = some i) :
    other.rank < operation.rank := by
  obtain ⟨op, next, hcall⟩ := hawaits
  obtain ⟨record, hkeeps, hmay, _⟩ := hkept.calls i _ hcall
  exact hmay.2.1 other ((hkeeps.mutexes other).mp hlock)

/-- Along a chain of waiting calls the awaited mutexes come later and later. -/
theorem rank_lt_of_waitsFor
    {config : UserConfig} {i j : ℕ} {first last : UserOperation}
    (hkept : Disciplined config)
    (hchain : Relation.TransGen (WaitsFor config) i j)
    (hfirst : Awaits config i first) (hlast : Awaits config j last) :
    first.rank < last.rank := by
  induction hchain generalizing last with
  | single hwaits =>
      obtain ⟨operation, hawaits, hlock⟩ := hwaits
      rw [hfirst.unique hawaits]
      exact rank_lt_of_awaits hkept hlast hlock
  | tail _ hwaits ih =>
      obtain ⟨operation, hawaits, hlock⟩ := hwaits
      exact (ih hawaits).trans (rank_lt_of_awaits hkept hlast hlock)

theorem not_waitsFor_cycle
    {config : UserConfig}
    (hkept : Disciplined config)
    (i : ℕ) : ¬ Relation.TransGen (WaitsFor config) i i := by
  intro hcycle
  obtain ⟨j, ⟨operation, hawaits, _⟩, _⟩ := Relation.TransGen.head'_iff.mp hcycle
  exact absurd (rank_lt_of_waitsFor hkept hcycle hawaits hawaits) (lt_irrefl _)

/-- In every run of any calls on one user, a call that has returned holds no
mutex, no call takes a mutex which it holds or gives back one which it does not
hold, and the calls do not wait for one another in a cycle. -/
theorem user_mutexes_disciplined
    (kind : UserKind) (uid : Word) (config : UserConfig)
    (hreach : (userMachine kind uid).Reach .free userStart config) :
    (∀ i op out, config.calls[i]? = some ⟨op, .ret out⟩ →
        ∀ operation, config.state.locks operation ≠ some i) ∧
      (∀ i op action next, config.calls[i]? = some ⟨op, .act action next⟩ →
        (∀ operation, action = .mutexLockKillable operation ∨
            action = .mutexTrylock operation →
          config.state.locks operation ≠ some i) ∧
        ∀ operation, action = .mutexUnlock operation →
          config.state.locks operation = some i) ∧
      ∀ i, ¬ Relation.TransGen (WaitsFor config) i i := by
  have hkept : Disciplined config := userDiscipline_kept hreach
  refine ⟨?_, ?_, not_waitsFor_cycle hkept⟩
  · intro i op out hcall operation hlock
    obtain ⟨record, hkeeps, hnone, _⟩ := hkept.calls i _ hcall
    have hmem := (hkeeps.mutexes operation).mp hlock
    rw [hnone] at hmem
    exact absurd hmem List.not_mem_nil
  · intro i op action next hcall
    obtain ⟨record, hkeeps, hmay, _⟩ := hkept.calls i _ hcall
    constructor
    · rintro operation (rfl | rfl) hlock
      · exact hmay.1 ((hkeeps.mutexes operation).mp hlock)
      · exact hmay ((hkeeps.mutexes operation).mp hlock)
    · rintro operation rfl
      exact (hkeeps.mutexes operation).mpr hmay

/-- A call that waits for a start code, while another one enters. -/
theorem user_mutexes_disciplined_while_waiting :
    ∃ config : UserConfig,
      (userMachine .decoder 0).run
          [.enter .waitForStartCode, .step 0 .succeed, .enter (.destroy false)]
          userStart = some config ∧
        config.state.locks .sc = some 0 ∧
        ∀ i, ¬ Relation.TransGen (WaitsFor config) i i := by
  have hrun : ∃ config : UserConfig,
      (userMachine .decoder 0).run
          [.enter .waitForStartCode, .step 0 .succeed, .enter (.destroy false)]
          userStart = some config ∧ config.state.locks .sc = some 0 :=
    ⟨_, rfl, rfl⟩
  obtain ⟨config, hrun, hlock⟩ := hrun
  have hdisciplined :=
    user_mutexes_disciplined .decoder 0 config (Machine.reach_of_run hrun)
  exact ⟨config, hrun, hlock, hdisciplined.2.2⟩

end VcuDriver

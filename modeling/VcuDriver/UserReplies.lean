import VcuDriver.UserCreation

/-!
# Requests and their replies

The mails of a queue carry no request: a reply answers the request of the call
that takes it only because the MCU answers in order and every call waits for its
own answer.  A wait that ends without a mail leaves an answer behind, and the
next call takes it for its own.
-/

namespace VcuDriver

open Conc

/-- The MCU answers requests in order, and a queue keeps its order: the reply
taken as number `k` answers the request accepted as number `k`, which is one of the
same call. -/
def AnswersOwn (log : List Event) : Prop :=
  ∀ (exchange : Exchange) (k call : ℕ),
    (exchange.replies log)[k]? = some call → (exchange.requests log)[k]? = some call

theorem Exchange.Paired.replies_prefix
    {exchange : Exchange} {locks : UserOperation → Option ℕ} {log : List Event}
    (hpaired : exchange.Paired locks log) :
    exchange.replies log <+: exchange.requests log := by
  rcases hpaired with heven | ⟨call, hodd, _⟩
  · rw [heven]
  · rw [hodd]
    exact List.prefix_append _ _

/-- The waits for a reply end with a mail, and the MCU answers every request
once. -/
def answered : Set Condition :=
  {.answersOnce, .finds .create, .finds .destroy, .finds .reconstructed}

/-- When no wait for a reply ends without one, every reply taken is the answer to
the request of the call that takes it. -/
theorem answers_own
    (kind : UserKind) (uid : Word) (config : UserConfig)
    (hreach : (userMachine kind uid).Reach (userRegime answered) userStart config)
    (hopen : config.state.closer = none) :
    AnswersOwn config.state.log := by
  intro exchange k call hreply
  have hfinds : Condition.finds exchange.queue ∈ answered := by
    cases exchange <;> simp [answered, Exchange.queue]
  have hpaired := (user_inv hreach).paired exchange hfinds hopen
  have hlength : k < (exchange.replies config.state.log).length := by
    obtain ⟨hlt, _⟩ := List.getElem?_eq_some_iff.mp hreply
    exact hlt
  obtain ⟨rest, hrest⟩ := hpaired.replies_prefix
  rw [← hrest, List.getElem?_append_left hlength, hreply]

/-- A call asks for a reconstructed picture, and a signal ends its wait; the next
call takes the answer. -/
def staleReplyMoves : List UserMove :=
  encoderObtainMoves ++ [.enter .getRec] ++ List.replicate 5 (.step 1 .succeed) ++
    [.step 1 .signal] ++ List.replicate 2 (.step 1 .succeed) ++
    [.env (replyMail .getReconstructedPicture 5 7), .enter .getRec] ++
    List.replicate 7 (.step 2 .succeed)

set_option maxRecDepth 20000 in
theorem run_staleReplyMoves :
    ∃ config : UserConfig,
      (userMachine .encoder 0).runWhere (passes [.answersOnce]) staleReplyMoves
          userStart = some config ∧
        config.state.closer = none ∧
        Exchange.reconstructed.requests config.state.log = [1, 2] ∧
        Exchange.reconstructed.replies config.state.log = [2] :=
  ⟨_, rfl, rfl, rfl, rfl⟩

/-- The answer to an interrupted call is taken by the next one. -/
theorem not_answers_own :
    ¬ ∀ (kind : UserKind) (uid : Word) (config : UserConfig),
      (userMachine kind uid).Reach (userRegime {.answersOnce}) userStart config →
        config.state.closer = none → AnswersOwn config.state.log := by
  intro hall
  obtain ⟨config, hrun, hopen, hrequests, hreplies⟩ := run_staleReplyMoves
  have hreach : (userMachine .encoder 0).Reach (userRegime {.answersOnce}) userStart
      config :=
    reach_of_passes (by simp) hrun
  have hown := hall .encoder 0 config hreach hopen .reconstructed 0 2
  rw [hrequests, hreplies] at hown
  exact absurd (hown rfl) (by decide)

def oneGetRecMoves : List UserMove :=
  encoderObtainMoves ++ [.enter .getRec] ++ List.replicate 5 (.step 1 .succeed) ++
    [.env (replyMail .getReconstructedPicture 5 7)] ++
    List.replicate 2 (.step 1 .succeed)

set_option maxRecDepth 20000 in
theorem run_oneGetRecMoves :
    ∃ config : UserConfig,
      (userMachine .encoder 0).runWhere
          (passes [.answersOnce, .finds .create, .finds .destroy,
            .finds .reconstructed]) oneGetRecMoves userStart = some config ∧
        config.state.closer = none ∧
        (Exchange.reconstructed.replies config.state.log)[0]? = some 1 :=
  ⟨_, rfl, rfl, rfl⟩

theorem answers_own_of_one_getRec :
    ∃ config : UserConfig,
      (userMachine .encoder 0).runWhere
          (passes [.answersOnce, .finds .create, .finds .destroy,
            .finds .reconstructed]) oneGetRecMoves userStart = some config ∧
        (Exchange.reconstructed.replies config.state.log)[0]? = some 1 ∧
        (Exchange.reconstructed.requests config.state.log)[0]? = some 1 := by
  obtain ⟨config, hrun, hopen, hreply⟩ := run_oneGetRecMoves
  have hown := answers_own .encoder 0 config
    (reach_of_passes (by simp [answered]) hrun) hopen
  exact ⟨config, hrun, hreply, hown .reconstructed 0 1 hreply⟩

end VcuDriver

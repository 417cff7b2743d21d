import VcuDriver.UserSound

/-!
# Destroy mails and commands after them

A destroy tests for a channel before it takes the mutexes, and reads the channel
uid after: a second destroy can find the channel gone, and sends a mail for no
channel.  With the test also true behind the mutexes, every destroy mail names
the channel held, once.

All other commands test for a channel and send their mail under a mutex which a
destroy takes, except that a stream buffer is sent under none; and a destroy
whose wait is interrupted leaves its channel uid behind.
-/

namespace VcuDriver

open Conc

namespace Al5Mail

def Destroys (mail : Al5Mail) : Prop :=
  mail.uid? = some .destroyChannel ∨ mail.uid? = some .quietDestroyChannel

/-- A mail for a channel which is neither its creation nor its destruction. -/
def Commands (mail : Al5Mail) : Prop :=
  mail.uid? ∈ [some .encodeOneFrm, some .decodeOneFrm, some .decodeOneSlice,
    some .pushBufferIntermediate, some .pushBufferReference, some .putStreamBuffer,
    some .getReconstructedPicture, some .releaseReconstructedPicture]

end Al5Mail

/-- A destroy mail names the channel which the user holds, and no destroy mail
was accepted for that channel since it was obtained. -/
def DestroysHeld (hist : Hist) (event : Event) : Prop :=
  ∀ call mail, event = .sent call mail → mail.Destroys →
    mailChanUid mail = hist.chanUid ∧ hist.Alive (mailChanUid mail)

/-- A command names a channel for which no destroy mail was accepted since the
user obtained it. -/
def CommandsAlive (hist : Hist) (event : Event) : Prop :=
  ∀ call mail, event = .sent call mail → mail.Commands →
    hist.Alive (mailChanUid mail)

theorem EachEvent.mono
    {condition condition' : Hist → Event → Prop} {log : List Event}
    (hmono : ∀ hist event, condition hist event → condition' hist event)
    (heach : EachEvent condition log) : EachEvent condition' log :=
  fun event earlier hsuffix => hmono _ _ (heach event earlier hsuffix)

/-! ## Destroy mails -/

theorem okSent_of_destroys
    {uid : Word} {conditions : Set Condition} {hist : Hist} {mail : Al5Mail}
    (hok : OkSent uid conditions hist mail) (hdestroys : mail.Destroys) :
    mailChanUid mail = hist.chanUid ∧
      (.destroysCreated ∈ conditions → hist.chanUid ≠ badChan) ∧
      (.destroyWaits ∈ conditions →
        hist.chanUid ≠ badChan → hist.Alive hist.chanUid) := by
  unfold OkSent at hok
  rcases hdestroys with huid | huid
  · rw [huid] at hok
    exact hok
  · rw [huid] at hok
    exact hok

/-- With destroy waits that are not interrupted, and a channel there whenever a
destroy has taken its last mutex, every destroy mail names the channel held, once
for each time it was obtained. -/
theorem destroys_held
    (kind : UserKind) (uid : Word) (config : UserConfig)
    (hreach : (userMachine kind uid).Reach
      (userRegime {.destroyWaits, .destroysCreated}) userStart config) :
    EachEvent DestroysHeld config.state.log := by
  refine (user_inv hreach).events.mono ?_
  rintro hist event hok call mail rfl hdestroys
  obtain ⟨hchan, hcreated, halive⟩ := okSent_of_destroys hok hdestroys
  have hbad : hist.chanUid ≠ badChan := hcreated (by simp)
  rw [hchan]
  exact ⟨rfl, halive (by simp) hbad⟩

def replyMail (mailUid : MailUid) (first second : Word) : Al5Mail :=
  ⟨mailUid.code.setWidth 16, 8, 8, wordBytes first ++ wordBytes second⟩

def zeroParams : Al5Params :=
  ⟨0, List.replicate 512 0, length_zeroBytes⟩

def obtainMoves : List UserMove :=
  [.enter (.decoderCreate zeroParams ⟨0, 0⟩)] ++ List.replicate 4 (.step 0 .succeed) ++
    [.env (replyMail .createChannel 5 0)] ++ List.replicate 6 (.step 0 .succeed)

/-- The first of two destroys: it sends its mail, and ends with the reply. -/
def destroyMoves (call : ℕ) : List UserMove :=
  List.replicate 15 (.step call .succeed) ++
    [.env (replyMail .destroyChannel 5 0)] ++ List.replicate 19 (.step call .succeed)

def secondDestroyMoves : List UserMove :=
  obtainMoves ++ [.enter (.destroy false), .enter (.destroy false)] ++
    [.step 1 .succeed, .step 2 .succeed] ++ destroyMoves 1 ++
    List.replicate 15 (.step 2 .succeed)

set_option maxRecDepth 20000 in
theorem run_secondDestroyMoves :
    ∃ (config : UserConfig) (mail : Al5Mail) (earlier : List Event),
      (userMachine .decoder 0).runWhere (passes [.destroyWaits]) secondDestroyMoves
          userStart = some config ∧
        config.state.log = .sent 2 mail :: earlier ∧
        mail.uid? = some .destroyChannel ∧ mailChanUid mail = badChan :=
  ⟨_, _, _, rfl, rfl, rfl, rfl⟩

/-- Two calls test for the channel before the first one destroys it. -/
theorem not_destroys_held :
    ¬ ∀ (kind : UserKind) (uid : Word) (config : UserConfig),
      (userMachine kind uid).Reach (userRegime {.destroyWaits}) userStart config →
        EachEvent DestroysHeld config.state.log := by
  intro hall
  obtain ⟨config, mail, earlier, hrun, hlog, huid, hchan⟩ := run_secondDestroyMoves
  have hreach : (userMachine .decoder 0).Reach (userRegime {.destroyWaits}) userStart
      config :=
    reach_of_passes (by simp) hrun
  have hheld := hall .decoder 0 config hreach
  rw [hlog] at hheld
  obtain ⟨_, halive⟩ := (eachEvent_cons.mp hheld).1 2 mail rfl (.inl huid)
  exact halive.1 hchan

def oneDestroyMoves : List UserMove :=
  obtainMoves ++ [.enter (.destroy false), .step 1 .succeed] ++ destroyMoves 1

set_option maxRecDepth 20000 in
theorem run_oneDestroyMoves :
    ∃ (config : UserConfig) (mail : Al5Mail),
      (userMachine .decoder 0).runWhere (passes [.destroyWaits, .destroysCreated])
          oneDestroyMoves userStart = some config ∧
        config.state.log[4]? = some (.sent 1 mail) ∧
        mail.uid? = some .destroyChannel :=
  ⟨_, _, rfl, rfl, rfl⟩

theorem destroys_held_of_one_destroy :
    ∃ (config : UserConfig) (mail : Al5Mail),
      (userMachine .decoder 0).runWhere (passes [.destroyWaits, .destroysCreated])
          oneDestroyMoves userStart = some config ∧
        config.state.log[4]? = some (.sent 1 mail) ∧
        mail.Destroys ∧ EachEvent DestroysHeld config.state.log := by
  obtain ⟨config, mail, hrun, hsent, huid⟩ := run_oneDestroyMoves
  exact ⟨config, mail, hrun, hsent, .inl huid,
    destroys_held .decoder 0 config (reach_of_passes (by simp) hrun)⟩

/-! ## Commands -/

/-- With destroy waits that are not interrupted, and stream buffers sent only for
the channel held and outside a destroy, no command follows the destroy mail of its
channel. -/
theorem commands_alive
    (kind : UserKind) (uid : Word) (config : UserConfig)
    (hreach : (userMachine kind uid).Reach
      (userRegime {.destroyWaits, .putsGuarded}) userStart config) :
    EachEvent CommandsAlive config.state.log := by
  refine (user_inv hreach).events.mono ?_
  rintro hist event hok call mail rfl hcommands
  have hsent : OkSent uid {.destroyWaits, .putsGuarded} hist mail := hok
  unfold OkSent at hsent
  unfold Al5Mail.Commands at hcommands
  simp only [List.mem_cons, List.not_mem_nil, or_false] at hcommands
  rcases hcommands with huid | huid | huid | huid | huid | huid | huid | huid
  · rw [huid] at hsent
    exact hsent.1 (by simp)
  · rw [huid] at hsent
    exact hsent (by simp)
  · rw [huid] at hsent
    exact hsent (by simp)
  · rw [huid] at hsent
    exact hsent (by simp)
  · rw [huid] at hsent
    exact hsent (by simp)
  · rw [huid] at hsent
    exact hsent (by simp) (by simp)
  · rw [huid] at hsent
    exact hsent (by simp)
  · rw [huid] at hsent
    exact hsent (by simp)

def encoderObtainMoves : List UserMove :=
  [.enter (.encoderCreate zeroParams ⟨0, 0, 0, 0⟩)] ++
    List.replicate 5 (.step 0 .succeed) ++ [.env (replyMail .createChannel 5 0)] ++
    List.replicate 6 (.step 0 .succeed) ++ List.replicate 2 (.step 0 (.buffers [])) ++
    List.replicate 14 (.step 0 .succeed)

/-- A stream buffer is put on its way before a destroy, and sent after it. -/
def latePutMoves : List UserMove :=
  encoderObtainMoves ++ [.enter (.putStreamBuffer ⟨0, 3, 0, 16⟩)] ++
    [.step 1 .succeed, .step 1 (.info (.ok ⟨0x1000, 64⟩)), .step 1 .succeed] ++
    [.enter (.destroy false)] ++ List.replicate 16 (.step 2 .succeed) ++
    List.replicate 2 (.step 1 .succeed)

set_option maxRecDepth 20000 in
theorem run_latePutMoves :
    ∃ (config : UserConfig) (mail : Al5Mail) (earlier : List Event),
      (userMachine .encoder 0).runWhere (passes []) latePutMoves userStart =
          some config ∧
        config.state.log = .sent 1 mail :: earlier ∧
        mail.uid? = some .putStreamBuffer ∧
        decide (mailChanUid mail ∈ (Hist.of earlier).dead) = true :=
  ⟨_, _, _, rfl, rfl, rfl, rfl⟩

/-- A stream buffer is sent under no mutex: it can follow the destroy mail. -/
theorem not_commands_alive :
    ¬ ∀ (kind : UserKind) (uid : Word) (config : UserConfig),
      (userMachine kind uid).Reach (userRegime ∅) userStart config →
        EachEvent CommandsAlive config.state.log := by
  intro hall
  obtain ⟨config, mail, earlier, hrun, hlog, huid, hdead⟩ := run_latePutMoves
  have hreach : (userMachine .encoder 0).Reach (userRegime ∅) userStart config :=
    reach_of_passes (by simp) hrun
  have halive := hall .encoder 0 config hreach
  rw [hlog] at halive
  have hcommands : mail.Commands := by
    unfold Al5Mail.Commands
    rw [huid]
    decide
  exact ((eachEvent_cons.mp halive).1 1 mail rfl hcommands).2 (of_decide_eq_true hdead)

def onePutMoves : List UserMove :=
  latePutMoves.take 33 ++ List.replicate 2 (.step 1 .succeed)

set_option maxRecDepth 20000 in
theorem run_onePutMoves :
    ∃ (config : UserConfig) (mail : Al5Mail) (earlier : List Event),
      (userMachine .encoder 0).runWhere (passes [.destroyWaits, .putsGuarded])
          onePutMoves userStart = some config ∧
        config.state.log = .sent 1 mail :: earlier ∧
        mail.uid? = some .putStreamBuffer :=
  ⟨_, _, _, rfl, rfl, rfl⟩

theorem commands_alive_of_one_put :
    ∃ (config : UserConfig) (mail : Al5Mail) (earlier : List Event),
      (userMachine .encoder 0).runWhere (passes [.destroyWaits, .putsGuarded])
          onePutMoves userStart = some config ∧
        config.state.log = .sent 1 mail :: earlier ∧
        mail.uid? = some .putStreamBuffer ∧
        EachEvent CommandsAlive config.state.log := by
  obtain ⟨config, mail, earlier, hrun, hlog, huid⟩ := run_onePutMoves
  exact ⟨config, mail, earlier, hrun, hlog, huid,
    commands_alive .encoder 0 config (reach_of_passes (by simp) hrun)⟩

end VcuDriver

import VcuDriver.UserDestroy

/-!
# The creation of an encoder's channel

A creation stops at every step that fails and goes on from its checkpoint when
it is called again.  Outside the critical sections of create and destroy the
channel uid, the checkpoint and the buffer pools always fit together.

A frame is only checked against the channel uid, which is there long before the
buffers were sent, and a failed allocation leaves a channel that looks complete.
Apart from these two, every frame follows the buffers of its channel.
-/

namespace VcuDriver

open Conc

/-! ## The state of an encoder user -/

/-- The channel uid, the checkpoint and the pools of an encoder fit together. -/
structure UserState.Coherent (state : UserState) : Prop where
  stage : state.checkpoint = noCheckpoint ∨
    state.checkpoint = checkpointSendIntermediateBuffers ∨
    state.checkpoint = checkpointSendReferenceBuffers
  resumable : state.checkpoint ≠ noCheckpoint → state.chanUid ≠ badChan ∧
    ∀ pool, (state.pools pool).length = state.hist.asked pool
  empty : state.chanUid = badChan → ∀ pool, state.pools pool = []

def AllocatesEmpty (_ : Hist) (event : Event) : Prop :=
  ∀ buffers, event = .allocated buffers → buffers = 0

theorem reach_userRegime_empty
    {kind : UserKind} {uid : Word} {config : UserConfig}
    (hreach : (userMachine kind uid).Reach .free userStart config) :
    (userMachine kind uid).Reach (userRegime ∅) userStart config := by
  apply hreach.mono
  intro config move _
  cases move with
  | enter op => trivial
  | step i choice => exact fun _ _ _ _ condition hmem => absurd hmem (by simp)
  | env mail => exact fun condition hmem => absurd hmem (by simp)

/-- In every run of any calls on an encoder user, up to the release of its file:
outside the critical sections of create and destroy the user is coherent, and no
allocation overwrites a buffer. -/
theorem encoder_coherent
    (uid : Word) (config : UserConfig)
    (hreach : (userMachine .encoder uid).Reach .free userStart config)
    (hopen : config.state.closer = none) :
    (config.state.locks .create = none → config.state.Coherent) ∧
      EachEvent AllocatesEmpty config.state.log := by
  have hinv := user_inv (reach_userRegime_empty hreach)
  constructor
  · intro hfree
    have hsettled := hinv.settled rfl hopen hfree
    exact ⟨hsettled.stage, hsettled.resumable, hsettled.empty⟩
  · refine hinv.events.mono ?_
    rintro hist event hok buffers rfl
    exact hok

/-- A create feedback for channel 5 that asks for one intermediate buffer and
two reference buffers. -/
def buffersReply : Al5Mail :=
  ⟨MailUid.createChannel.code.setWidth 16, 44, 44,
    ([5, 0, 0, 0, 0, 1, 64, 2, 64, 0, 0].map wordBytes).flatten⟩

def fullMailboxMoves : List UserMove :=
  [.enter (.encoderCreate zeroParams ⟨0, 0, 0, 0⟩)] ++
    List.replicate 5 (.step 0 .succeed) ++ [.env buffersReply] ++
    List.replicate 6 (.step 0 .succeed) ++
    [.step 0 (.buffers [0x1000]), .step 0 (.buffers [0x2000, 0x3000])] ++
    List.replicate 11 (.step 0 .succeed) ++ [.step 0 .fail, .step 0 .succeed]

set_option maxRecDepth 20000 in
theorem run_fullMailboxMoves :
    ∃ config : UserConfig,
      (userMachine .encoder 0).run fullMailboxMoves userStart = some config ∧
        config.state.closer = none ∧ config.state.locks .create = none ∧
        config.state.checkpoint = checkpointSendReferenceBuffers :=
  ⟨_, rfl, rfl, rfl, rfl⟩

theorem encoder_coherent_of_full_mailbox :
    ∃ config : UserConfig,
      (userMachine .encoder 0).run fullMailboxMoves userStart = some config ∧
        config.state.checkpoint = checkpointSendReferenceBuffers ∧
        config.state.Coherent := by
  obtain ⟨config, hrun, hopen, hfree, hcheckpoint⟩ := run_fullMailboxMoves
  have hcoherent := encoder_coherent 0 config (Machine.reach_of_run hrun) hopen
  exact ⟨config, hrun, hcheckpoint, hcoherent.1 hfree⟩

/-! ## Frames and buffers -/

/-- A frame is sent for the channel held, after both of its buffer mails. -/
def FramesBuffered (hist : Hist) (event : Event) : Prop :=
  ∀ call mail, event = .sent call mail → mail.uid? = some .encodeOneFrm →
    mailChanUid mail = hist.chanUid ∧ hist.Buffered

/-- Outside the critical sections, a channel with no checkpoint has its
buffers. -/
def UserState.CompleteIsBuffered (state : UserState) : Prop :=
  state.locks .create = none → state.chanUid ≠ badChan →
    state.checkpoint = noCheckpoint → state.hist.Buffered

/-- With allocations that succeed, and frames sent only to channels that are
fully created, every frame follows the buffers of its channel. -/
theorem frames_buffered
    (uid : Word) (config : UserConfig)
    (hreach : (userMachine .encoder uid).Reach
      (userRegime {.allocates, .encodesReady}) userStart config)
    (hopen : config.state.closer = none) :
    EachEvent FramesBuffered config.state.log ∧ config.state.CompleteIsBuffered := by
  have hinv := user_inv hreach
  constructor
  · refine hinv.events.mono ?_
    rintro hist event hok call mail rfl huid
    have hsent : OkSent uid {.allocates, .encodesReady} hist mail := hok
    unfold OkSent at hsent
    rw [huid] at hsent
    exact hsent.2 (by simp) (by simp)
  · intro hfree hbad hno
    have hsettled := hinv.settled rfl hopen hfree
    exact (hinv.stocked rfl hopen (by simp) hbad).full hno hsettled.finished

/-- The mailbox is full when the intermediate buffers are sent; a frame goes out
nevertheless. -/
def earlyFrameMoves : List UserMove :=
  fullMailboxMoves.take 20 ++ [.step 0 .fail, .step 0 .succeed] ++
    [.enter (.encodeOneFrame ⟨zeroParams, zeroParams⟩)] ++
    List.replicate 5 (.step 1 .succeed)

set_option maxRecDepth 20000 in
theorem run_earlyFrameMoves :
    ∃ (config : UserConfig) (mail : Al5Mail) (earlier : List Event),
      (userMachine .encoder 0).run earlyFrameMoves userStart = some config ∧
        config.state.closer = none ∧ config.state.log = .sent 1 mail :: earlier ∧
        mail.uid? = some .encodeOneFrm ∧
        decide ((Hist.of earlier).pushedIntermediate = true) = false :=
  ⟨_, _, _, rfl, rfl, rfl, rfl, rfl⟩

/-- A creation that stops at its checkpoint leaves a channel uid, and that is all
which a frame is checked against. -/
theorem not_frames_buffered :
    ¬ ∀ (uid : Word) (config : UserConfig),
      (userMachine .encoder uid).Reach .free userStart config →
        config.state.closer = none →
          EachEvent FramesBuffered config.state.log ∧
            config.state.CompleteIsBuffered := by
  intro hall
  obtain ⟨config, mail, earlier, hrun, hopen, hlog, huid, hunpushed⟩ :=
    run_earlyFrameMoves
  have heach := (hall 0 config (Machine.reach_of_run hrun) hopen).1
  rw [hlog] at heach
  have hbuffered := ((eachEvent_cons.mp heach).1 1 mail rfl huid).2
  exact absurd hbuffered.1 (of_decide_eq_false hunpushed)

def oneFrameMoves : List UserMove :=
  fullMailboxMoves.take 26 ++ List.replicate 3 (.step 0 .succeed) ++
    [.enter (.encodeOneFrame ⟨zeroParams, zeroParams⟩)] ++
    List.replicate 5 (.step 1 .succeed)

set_option maxRecDepth 20000 in
theorem run_oneFrameMoves :
    ∃ (config : UserConfig) (mail : Al5Mail) (earlier : List Event),
      (userMachine .encoder 0).runWhere (passes [.allocates, .encodesReady])
          oneFrameMoves userStart = some config ∧
        config.state.closer = none ∧ config.state.log = .sent 1 mail :: earlier ∧
        mail.uid? = some .encodeOneFrm :=
  ⟨_, _, _, rfl, rfl, rfl, rfl⟩

theorem frames_buffered_of_one_frame :
    ∃ (config : UserConfig) (mail : Al5Mail) (earlier : List Event),
      (userMachine .encoder 0).runWhere (passes [.allocates, .encodesReady])
          oneFrameMoves userStart = some config ∧
        config.state.log = .sent 1 mail :: earlier ∧
        mail.uid? = some .encodeOneFrm ∧ EachEvent FramesBuffered config.state.log := by
  obtain ⟨config, mail, earlier, hrun, hopen, hlog, huid⟩ := run_oneFrameMoves
  have hbuffered :=
    frames_buffered 0 config (reach_of_passes (by simp) hrun) hopen
  exact ⟨config, mail, earlier, hrun, hlog, huid, hbuffered.1⟩

end VcuDriver

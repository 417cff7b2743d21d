import VcuDriver.CodecFeedback

/-!
# The status of a channel

The status queue of a user outlives the channel: `al5_user_destroy_channel` resets the
channel uid, the checkpoint and the pools, but it leaves what lies in the status queue,
and so does a creation.  A status that was not consumed is therefore returned for the
next channel.
-/

namespace VcuDriver

open Conc

variable {maxUsersNb f i : ℕ} {conditions : Set CodecCondition}
variable {file file' : File} {codec codec' : Codec} {move : CodecMove}
variable {op : UserOp} {action : UserAct} {choice : Choice}

/-- Every status which a wait has returned while a channel was recorded was emitted for
this allocation of the channel. -/
def Codec.StatusOwn (codec : Codec) : Prop :=
  ∀ file ∈ codec.files, ∀ emitted grant,
    (emitted, some grant) ∈ file.returned → emitted = some grant

/-! ## The invariant of a file -/

/-- What lies in the status queue is for the channel recorded, and so was what was
returned. -/
structure File.Fresh (file : File) : Prop where
  queued : ∀ grant, file.current = some grant →
    ∀ mail ∈ file.queued .status, mail.grant = some grant
  returned : ∀ emitted grant, (emitted, some grant) ∈ file.returned →
    emitted = some grant

theorem File.fresh_opened (kind : UserKind) (uid : Word) :
    (File.opened kind uid).Fresh :=
  ⟨fun _ _ _ hmem => absurd hmem List.not_mem_nil,
    fun _ _ hmem => absurd hmem List.not_mem_nil⟩

theorem File.Fresh.notePop
    (hfresh : file.Fresh) (op : UserOp) (which : UserMail) :
    (file.notePop op which).Fresh := by
  constructor
  · intro grant hcurrent mail hmem
    have hnoted : mail ∈ (file.note op (.listPop which)).queued .status := hmem
    exact hfresh.queued grant hcurrent mail (File.mem_queued_of_note hnoted)
  · intro emitted grant hmem
    change _ ∈ ite (which = .status ∧ op.waitsForStatus = true) _ _ at hmem
    split at hmem
    · rename_i hwaits
      rcases List.mem_append.mp hmem with hnew | hold
      · -- The status returned now is the head of the queue.
        obtain ⟨mail, hhead, heq⟩ := Option.map_eq_some_iff.mp (Option.mem_toList.mp hnew)
        obtain ⟨rfl, hcurrent⟩ := Prod.mk.inj heq
        rw [hwaits.1] at hhead
        exact hfresh.queued grant hcurrent mail (List.mem_of_head? hhead)
      · exact hfresh.returned emitted grant hold
    · exact hfresh.returned emitted grant hmem

/-- An action keeps it, if a channel is recorded only when the status queue is empty. -/
theorem File.Fresh.note
    (hfresh : file.Fresh)
    (hdrained : ∀ value, action = .setChanUid value → value ≠ badChan →
      file.queued .status = []) : (file.note op action).Fresh := by
  cases action with
  | listPop which => exact hfresh.notePop op which
  | setChanUid value =>
      refine ⟨fun grant hcurrent mail hmem => ?_, hfresh.returned⟩
      by_cases hbad : value = badChan
      · have hnone : (file.note op (.setChanUid value)).current = none := if_pos hbad
        rw [hnone] at hcurrent
        exact absurd hcurrent (by simp)
      · change mail ∈ file.queued .status at hmem
        rw [hdrained value rfl hbad] at hmem
        exact absurd hmem List.not_mem_nil
  | _ => exact hfresh

theorem File.Fresh.deliver
    {mail : McuMail} (hfresh : file.Fresh) (hdeliver : file.deliver mail = some file')
    (hcurrent : mailToQueue mail.mail.uid? = .status →
      ∀ grant, file.current = some grant → mail.grant = some grant) : file'.Fresh := by
  obtain ⟨-, rfl⟩ := File.deliver_cases hdeliver
  refine ⟨fun grant hgrant other hmem => ?_, hfresh.returned⟩
  change other ∈ Function.update file.queued (mailToQueue mail.mail.uid?) _ .status at hmem
  by_cases hwhich : mailToQueue mail.mail.uid? = .status
  · rw [hwhich, Function.update_self] at hmem
    rcases List.mem_append.mp hmem with hold | hnew
    · exact hfresh.queued grant hgrant other hold
    · rw [List.mem_singleton.mp hnew]
      exact hcurrent hwhich grant hgrant
  · rw [Function.update_of_ne (Ne.symm hwhich)] at hmem
    exact hfresh.queued grant hgrant other hmem

/-! ## The invariant of the codec -/

namespace Codec

/-- The files are fresh, and so is what the handler is about to deliver. -/
structure Fresh (codec : Codec) : Prop where
  files : ∀ file ∈ codec.files, file.Fresh
  delivering : ∀ f file mail, codec.Delivers f file mail →
    mailToQueue mail.mail.uid? = .status →
      ∀ grant, file.current = some grant → mail.grant = some grant

theorem isFeedback_of_status
    {uid : Option MailUid} (hqueue : mailToQueue uid = .status) : isFeedback uid = true := by
  unfold mailToQueue at hqueue
  split at hqueue <;> first | rfl | exact absurd hqueue (by simp)

/-- A file which has the channel of a feedback has its allocation. -/
theorem Fed.current_eq
    {mail : McuMail} {grant : ℕ} (hfed : codec.Fed maxUsersNb)
    (hmem : mail ∈ codec.unsettled) (hfeedback : mail.IsFeedback)
    (hfile : codec.files[f]? = some file) (hbound : file.state.bound = true)
    (hhas : codec.hasChannelId f (mailChanUid mail.mail) = true)
    (hcurrent : file.current = some grant) : mail.grant = some grant := by
  have hchanUid : file.state.chanUid = mailChanUid mail.mail := by
    unfold hasChannelId at hhas
    rw [hfile] at hhas
    exact eq_of_beq hhas
  have hrecorded : (file.state.chanUid, file.current) ∈ file.recorded := by
    apply File.mem_recorded.mpr
    exact ⟨hbound, hchanUid ▸ hfed.good mail hmem hfeedback, rfl⟩
  have hsame := (hfed.suits mail hmem hfeedback f file hfile).grant _
    (File.mem_references.mpr (.inr hrecorded)) hchanUid
  exact hsame.symm.trans hcurrent

theorem Fresh.of_handler
    (hfresh : codec.Fresh) (hfiles : codec'.files = codec.files)
    (hdelivering : ∀ nbMsg mail f, codec'.handler ≠ .delivering nbMsg mail f) :
    codec'.Fresh := by
  constructor
  · rw [hfiles]
    exact hfresh.files
  · rintro f file mail ⟨⟨nbMsg, hhandler⟩, -⟩
    exact absurd hhandler (hdelivering nbMsg mail f)

theorem Fresh.handles
    (hfresh : codec.Fresh) (hfed : codec.Fed maxUsersNb)
    (htabled : Tabled maxUsersNb codec.files codec.users)
    (hhandles : Handles maxUsersNb choice codec codec') : codec'.Fresh := by
  cases hhandles with
  | routes nbMsg mail hrouting =>
      refine ⟨hfresh.files, ?_⟩
      rintro f file mail' ⟨⟨nbMsg', hhandler⟩, hfile⟩ hqueue
      have hroutes : Routes maxUsersNb codec nbMsg mail
          (codec.route maxUsersNb nbMsg mail) := route_cases nbMsg mail
      rw [show codec.route maxUsersNb nbMsg mail = _ from hhandler] at hroutes
      cases hroutes with
      | finds f hchan hnamed =>
          exact absurd (hchan.symm.trans (isFeedback_of_status hqueue)) Bool.false_ne_true
  | scans nbMsg mail slot hscanning =>
      refine ⟨hfresh.files, ?_⟩
      rintro f file mail' ⟨⟨nbMsg', hhandler⟩, hfile⟩ hqueue grant hcurrent
      have hscans : Scans maxUsersNb codec nbMsg mail slot
          (codec.scan maxUsersNb nbMsg mail slot) := scan_cases nbMsg mail slot
      rw [show codec.scan maxUsersNb nbMsg mail slot = _ from hhandler] at hscans
      cases hscans with
      | finds f hlt huser hhas =>
          obtain ⟨file', hfile', hbound, -⟩ := htabled.slots slot f huser
          obtain rfl := Option.some.inj (hfile.symm.trans hfile')
          have hmem : mail ∈ codec.unsettled := by
            unfold unsettled
            rw [hscanning]
            exact List.mem_cons_self
          exact hfed.current_eq hmem (isFeedback_of_status hqueue) hfile hbound hhas hcurrent
  | delivers nbMsg mail f file file' hdelivering hfile hdeliver =>
      refine ⟨fun other hmem => ?_, ?_⟩
      · rcases List.mem_or_eq_of_mem_set hmem with hold | rfl
        · exact hfresh.files other hold
        · exact (hfresh.files file (List.mem_of_getElem? hfile)).deliver hdeliver
            (hfresh.delivering f file mail ⟨⟨nbMsg, hdelivering⟩, hfile⟩)
      · rintro g other mail' ⟨⟨nbMsg', hhandler⟩, -⟩
        exact absurd hhandler (by simp)
  | _ => exact hfresh.of_handler rfl (by simp)

theorem Fresh.call
    (hdrained : .obtainsDrained ∈ conditions) (hfresh : codec.Fresh)
    (hadmits : codecAdmits maxUsersNb conditions codec (.call f i choice))
    (hcall : codec.call f i choice = some codec') : codec'.Fresh := by
  obtain ⟨file, file', effect, codec₁, hfile, hstep, houtside, rfl⟩ := call_cases hcall
  obtain ⟨op, action, config, hperforms, hconfig, rfl, -⟩ := File.step_cases hstep
  obtain ⟨hempty, hmeanwhile⟩ := hadmits _ hdrained file op action ⟨hfile, hperforms⟩
  have hnew : (file.note op action).Fresh :=
    (hfresh.files file (List.mem_of_getElem? hfile)).note hempty
  constructor
  · intro other hmem
    rcases List.mem_or_eq_of_mem_set hmem with hold | rfl
    · exact hfresh.files other hold
    · exact ⟨hnew.queued, hnew.returned⟩
  · rintro g other mail ⟨⟨nbMsg, hhandler⟩, hother⟩ hqueue grant hcurrent
    change codec₁.handler = _ at hhandler
    rw [houtside.sameDriver.handler] at hhandler
    rcases getElem?_set_cases hother with ⟨rfl, rfl⟩ | ⟨-, hold⟩
    · -- The file records no channel while the handler is about to deliver a status.
      have hbefore := hfresh.delivering g file mail ⟨⟨nbMsg, hhandler⟩, hfile⟩ hqueue
      cases action with
      | setChanUid value =>
          by_cases hbad : value = badChan
          · have hnone : (file.note op (.setChanUid value)).current = none := if_pos hbad
            rw [show (file.note op (.setChanUid value)).current = some grant from hcurrent]
              at hnone
            exact absurd hnone (by simp)
          · exact absurd hqueue (hmeanwhile value rfl hbad nbMsg mail hhandler)
      | _ => exact hbefore grant hcurrent
    · exact hfresh.delivering g other mail ⟨⟨nbMsg, hhandler⟩, hold⟩ hqueue grant hcurrent

theorem fresh_of_run
    (hmax : maxUsersNb < 2 ^ 31) (hmodelled : .modelled ∈ conditions)
    (hforgotten : .grantsForgotten ∈ conditions) (hdrained : .obtainsDrained ∈ conditions)
    (hrun : CodecRun maxUsersNb conditions codec) : codec.Fresh := by
  refine hrun.invariant Fresh ?_ ?_
  · refine ⟨fun _ hmem => absurd hmem List.not_mem_nil, ?_⟩
    rintro f file mail ⟨⟨nbMsg, hhandler⟩, -⟩
    exact absurd hhandler (by simp [codecStart])
  · intro codec codec' move hsteps hfresh hadmits hnext
    cases move with
    | bind kind =>
        obtain ⟨hidle, slot, -, -, -, rfl⟩ := bindUser_cases hnext
        constructor
        · intro file hmem
          rcases List.mem_append.mp hmem with hold | hnew
          · exact hfresh.files file hold
          · rw [List.mem_singleton.mp hnew]
            exact File.fresh_opened kind _
        · rintro f file mail ⟨⟨nbMsg, hhandler⟩, -⟩
          rw [show codec.handler = _ from hhandler] at hidle
          exact absurd hidle (by simp)
    | enter f op =>
        obtain ⟨file, config, hfile, henter, rfl⟩ := enter_cases hnext
        have hold := hfresh.files file (List.mem_of_getElem? hfile)
        constructor
        · intro other hmem
          rcases List.mem_or_eq_of_mem_set hmem with hmem | rfl
          · exact hfresh.files other hmem
          · exact ⟨hold.queued, hold.returned⟩
        · rintro g other mail ⟨hhandler, hother⟩
          rcases getElem?_set_cases hother with ⟨rfl, rfl⟩ | ⟨-, hother⟩
          · exact hfresh.delivering g file mail ⟨hhandler, hfile⟩
          · exact hfresh.delivering g other mail ⟨hhandler, hother⟩
    | call f i choice => exact hfresh.call hdrained hadmits hnext
    | interrupt =>
        obtain ⟨hidle, rfl⟩ := interrupt_cases hnext
        exact hfresh.of_handler rfl (by simp)
    | handle choice =>
        exact hfresh.handles (fed_of_run hmax hmodelled hforgotten hsteps)
          (codec_tabled hmax hsteps) (handle_cases hnext)
    | mcu step =>
        have hsame := (mcu_cases hnext).sameDriver
        constructor
        · rw [hsame.files]
          exact hfresh.files
        · rintro f file mail ⟨⟨nbMsg, hhandler⟩, hfile⟩
          rw [hsame.files] at hfile
          rw [hsame.handler] at hhandler
          exact hfresh.delivering f file mail ⟨⟨nbMsg, hhandler⟩, hfile⟩

end Codec

/-! ## Every run -/

/-- In every run in which a channel is recorded only when no status is left, and a uid is
granted only when the driver has forgotten its last channel, every status is that of the
channel. -/
theorem status_own
    (maxUsersNb : ℕ) (hmax : maxUsersNb < 2 ^ 31) (codec : Codec)
    (hrun : CodecRun maxUsersNb {.modelled, .grantsForgotten, .obtainsDrained} codec) :
    codec.StatusOwn := by
  have hfresh := Codec.fresh_of_run hmax (by simp) (by simp) (by simp) hrun
  exact fun file hmem => (hfresh.files file hmem).returned

/-- A file destroys its channel with a status left in the queue, creates the next one and
waits for a status. -/
def leftStatusMoves : List CodecMove :=
  .bind .decoder :: channelMoves 0 0 5 ++
    [.mcu (.feedback (replyMail .decodeOneFrm 5 0)), .interrupt] ++
    List.replicate 5 (.handle .succeed) ++ sendDestroyMoves 0 1 ++
    [.mcu (.destroy (replyMail .destroyChannel 5 0)), .interrupt] ++
    List.replicate 5 (.handle .succeed) ++ List.replicate 19 (.call 0 1 .succeed) ++
    channelMoves 0 2 5 ++
    .enter 0 .decoderWaitForStatus :: List.replicate 4 (.call 0 3 .succeed)

set_option maxRecDepth 20000 in
theorem run_leftStatusMoves :
    ∃ (codec : Codec) (file : File),
      runSteps (codecNext 1)
          (fun codec move => [CodecCondition.modelled].all fun condition =>
            condition.passes 1 codec move) leftStatusMoves codecStart = some codec ∧
        codec.files = [file] ∧ file.returned = [(some 0, some 1)] :=
  ⟨_, _, rfl, rfl, rfl⟩

theorem not_status_own :
    ¬ ∀ (maxUsersNb : ℕ) (codec : Codec), maxUsersNb < 2 ^ 31 →
      CodecRun maxUsersNb {.modelled} codec → codec.StatusOwn := by
  intro hall
  obtain ⟨codec, file, hrun, hfiles, hreturned⟩ := run_leftStatusMoves
  have hsteps : CodecRun 1 {.modelled} codec := codecRun_of_passes (by simp) hrun
  have hown := hall 1 codec (by decide) hsteps file (by simp [hfiles]) (some 0) 1
    (by simp [hreturned])
  exact absurd hown (by decide)

/-- A file takes the status of its channel, destroys it, and takes the status of the next
one. -/
def takenStatusMoves : List CodecMove :=
  .bind .decoder :: channelMoves 0 0 5 ++
    [.mcu (.feedback (replyMail .decodeOneFrm 5 0)), .interrupt] ++
    List.replicate 5 (.handle .succeed) ++
    .enter 0 .decoderWaitForStatus :: List.replicate 6 (.call 0 1 .succeed) ++
    sendDestroyMoves 0 2 ++
    [.mcu (.destroy (replyMail .destroyChannel 5 0)), .interrupt] ++
    List.replicate 5 (.handle .succeed) ++ List.replicate 19 (.call 0 2 .succeed) ++
    channelMoves 0 3 5 ++
    [.mcu (.feedback (replyMail .decodeOneFrm 5 0)), .interrupt] ++
    List.replicate 5 (.handle .succeed) ++
    .enter 0 .decoderWaitForStatus :: List.replicate 4 (.call 0 4 .succeed)

set_option maxRecDepth 20000 in
theorem run_takenStatusMoves :
    ∃ (codec : Codec) (file : File) (emitted : Option ℕ),
      runSteps (codecNext 1)
          (fun codec move =>
            [CodecCondition.modelled, .grantsForgotten, .obtainsDrained].all
              fun condition => condition.passes 1 codec move) takenStatusMoves
          codecStart = some codec ∧
        codec.files = [file] ∧ file.returned.head? = some (emitted, some 1) :=
  ⟨_, _, _, rfl, rfl, rfl⟩

theorem status_own_of_taken :
    ∃ (codec : Codec) (file : File),
      codec.files = [file] ∧ (some 1, some 1) ∈ file.returned := by
  obtain ⟨codec, file, emitted, hrun, hfiles, hreturned⟩ := run_takenStatusMoves
  have hsteps : CodecRun 1 {.modelled, .grantsForgotten, .obtainsDrained} codec :=
    codecRun_of_passes (by simp) hrun
  have hmem := List.mem_of_head? hreturned
  have hown := status_own 1 (by decide) codec hsteps file (by simp [hfiles]) emitted 1 hmem
  exact ⟨codec, file, hfiles, hown ▸ hmem⟩

end VcuDriver

import VcuDriver.CodecFiles
import VcuDriver.UserDestroy

/-!
# Where the mails of a codec are

Every mail which the handler has read is held by the handler, lies in a queue of a
file, is held by a call, or was freed.  No step loses or doubles one.

A file that is released takes its queues along.  `al5_codec_release` has emptied
each of them once, but not at the time when it unbinds the user: what is delivered
to a queue after that is lost.  And the root user of the boot is unbound without a
look at its queues.
-/

namespace VcuDriver

open Conc

variable {maxUsersNb f i : ℕ} {conditions : Set CodecCondition}
variable {file file' : File} {codec codec' : Codec} {move : CodecMove}

/-! ## The places -/

/-- The call that releases the file, or that boots the MCU, has returned. -/
def File.Released (file : File) : Prop :=
  ∃ (i : ℕ) (op : UserOp) (out : UserOut),
    op.closes = true ∧ file.config.calls[i]? = some ⟨op, .ret out⟩

/-- The mails which the handler holds, those in the queues of the files, held by
their calls or freed by them, and those freed by the handler. -/
def Codec.mails (codec : Codec) : List Al5Mail :=
  codec.handler.held.map McuMail.mail ++
    (codec.files.flatMap fun file => custody file.config) ++ codec.freed

/-- Every received mail is in one place or was freed once; a call that has returned
holds none, and none is left in a queue of a file that is unbound or released. -/
structure Codec.Accounted (codec : Codec) : Prop where
  received : codec.received.Perm codec.mails
  held : ∀ file ∈ codec.files, ∀ (i : ℕ) (op : UserOp) (out : UserOut),
    file.config.calls[i]? = some ⟨op, .ret out⟩ → mailsHeld i file.state.log = []
  queued : ∀ file ∈ codec.files, file.state.bound = false ∨ file.Released →
    queuedMails file.state = []

/-! ## No step loses a mail -/

/-- Only one file has other mails: those which are handed to it. -/
theorem perm_files_set
    (handed : List Al5Mail) (hfile : codec.files[f]? = some file)
    (hcustody : (custody file'.config).Perm (handed ++ custody file.config)) :
    ((codec.files.set f file').flatMap fun file => custody file.config).Perm
      (handed ++ codec.files.flatMap fun file => custody file.config) := by
  have hset : ((codec.files.set f file').flatMap (fun file => custody file.config) ++
      custody file.config).Perm
        (codec.files.flatMap (fun file => custody file.config) ++ custody file'.config) :=
    perm_flatMap_set hfile
  rw [List.perm_iff_count]
  intro mail
  have hcount₁ := hset.count_eq mail
  have hcount₂ := hcustody.count_eq mail
  simp only [List.count_append] at *
  omega

/-- What a move does to the mails, given what it does to the files and to the
handler. -/
theorem Codec.mails_perm
    (handed : List Al5Mail)
    (hfiles : (codec'.files.flatMap fun file => custody file.config).Perm
      (handed ++ codec.files.flatMap fun file => custody file.config))
    (hheld : (handed ++ codec'.handler.held.map McuMail.mail ++ codec'.freed).Perm
      (codec.handler.held.map McuMail.mail ++ codec.freed)) :
    codec'.mails.Perm codec.mails := by
  unfold mails
  rw [List.perm_iff_count]
  intro mail
  have hcount₁ := hfiles.count_eq mail
  have hcount₂ := hheld.count_eq mail
  simp only [List.count_append] at *
  omega

theorem Codec.mails_eq_of_same
    (hfiles : codec'.files = codec.files)
    (hheld : codec'.handler.held = codec.handler.held) (hfreed : codec'.freed = codec.freed) :
    codec'.mails = codec.mails := by
  unfold mails
  rw [hfiles, hheld, hfreed]

theorem File.Reached.kept
    {user : Set Condition} (hreached : file.Reached user) :
    userDiscipline.Kept KeepsRecord .empty (fun _ _ last => OwnsNothing last)
      file.config :=
  userDiscipline_kept hreached

theorem custody_userStart : custody userStart = [] := by
  decide

/-- A step of the handler passes a mail on, or reads a new one. -/
theorem Codec.received_handles
    {choice : Choice} (hhandles : Handles maxUsersNb choice codec codec')
    (hreceived : codec.received.Perm codec.mails) :
    codec'.received.Perm codec'.mails := by
  cases hhandles with
  | reads nbMsg mail rest hlooking hstatuses =>
      have hmails : Codec.mails { codec with
          handler := .routing (nbMsg + 1) mail
          statuses := rest
          received := mail.mail :: codec.received } = mail.mail :: codec.mails := by
        unfold mails
        rw [hlooking]
        rfl
      rw [hmails]
      exact hreceived.cons mail.mail
  | leaves nbMsg hlooking =>
      have hmails : Codec.mails { codec with handler := .idle } = codec.mails :=
        mails_eq_of_same rfl (by rw [hlooking]; rfl) rfl
      rwa [hmails]
  | routes nbMsg mail hrouting =>
      have hmails : Codec.mails
          { codec with handler := codec.route maxUsersNb nbMsg mail } = codec.mails :=
        mails_eq_of_same rfl (by rw [hrouting]; exact held_route nbMsg mail codec) rfl
      rwa [hmails]
  | scans nbMsg mail slot hscanning =>
      have hmails : Codec.mails
          { codec with handler := codec.scan maxUsersNb nbMsg mail slot } =
            codec.mails :=
        mails_eq_of_same rfl
          (by rw [hscanning]; exact held_scan nbMsg mail slot codec) rfl
      rwa [hmails]
  | delivers nbMsg mail f file file' hdelivering hfile hdeliver =>
      obtain ⟨-, rfl⟩ := File.deliver_cases hdeliver
      refine hreceived.trans (List.Perm.symm ?_)
      have hcustody := custody_deliver mail.mail file.config
      refine mails_perm [mail.mail] (perm_files_set [mail.mail] hfile hcustody) ?_
      rw [hdelivering]
      exact List.Perm.refl _
  | destroysOrphan nbMsg mail horphaning =>
      have hmails : Codec.mails { codec with
          commands := codec.destroyOrphanChannel mail choice
          handler := .freeing nbMsg mail } = codec.mails :=
        mails_eq_of_same rfl (by rw [horphaning]; rfl) rfl
      rwa [hmails]
  | frees nbMsg mail hfreeing =>
      refine hreceived.trans (List.Perm.symm ?_)
      refine mails_perm [] (List.Perm.refl _) ?_
      rw [hfreeing]
      exact List.Perm.refl _

/-- A move of the codec loses no mail and doubles none. -/
theorem Codec.received_next
    (hreached : ∀ file ∈ codec.files, file.Reached (userConditions conditions))
    (hreceived : codec.received.Perm codec.mails)
    (hnext : codecNext maxUsersNb codec move = some codec') :
    codec'.received.Perm codec'.mails := by
  cases move with
  | bind kind =>
      obtain ⟨-, slot, -, -, -, rfl⟩ := bindUser_cases hnext
      refine hreceived.trans (List.Perm.symm (mails_perm [] ?_ (List.Perm.refl _)))
      simp [File.opened, custody_userStart]
  | enter f op =>
      obtain ⟨file, config, hfile, henter, rfl⟩ := enter_cases hnext
      have hkept := (hreached file (List.mem_of_getElem? hfile)).kept
      have hcustody : custody config = custody file.config := custody_enter hkept henter
      refine hreceived.trans (List.Perm.symm (mails_perm [] ?_ (List.Perm.refl _)))
      exact perm_files_set [] hfile (List.Perm.of_eq hcustody)
  | call f i choice =>
      obtain ⟨file, file', effect, codec₁, hfile, hstep, houtside, rfl⟩ :=
        call_cases hnext
      obtain ⟨op, action, config, -, hconfig, rfl, -⟩ := File.step_cases hstep
      have hkept := (hreached file (List.mem_of_getElem? hfile)).kept
      have hcustody : (custody config).Perm (custody file.config) :=
        custody_step hkept hconfig
      have hsame := houtside.sameDriver
      have hperm : (Codec.mails { codec₁ with
          files := codec.files.set f { file.note op action with config := config } }).Perm
            codec.mails := by
        refine mails_perm [] (perm_files_set [] hfile hcustody) ?_
        rw [hsame.handler, hsame.freed]
        exact List.Perm.refl _
      change codec₁.received.Perm _
      rw [hsame.received]
      exact hreceived.trans hperm.symm
  | interrupt =>
      obtain ⟨hidle, rfl⟩ := interrupt_cases hnext
      have hmails : Codec.mails { codec with handler := .looking 0 } = codec.mails :=
        mails_eq_of_same rfl (by rw [hidle]; rfl) rfl
      rwa [hmails]
  | handle choice => exact received_handles (handle_cases hnext) hreceived
  | mcu step =>
      have hsame := (mcu_cases hnext).sameDriver
      have hmails : codec'.mails = codec.mails :=
        mails_eq_of_same hsame.files (by rw [hsame.handler]) hsame.freed
      rw [hmails, hsame.received]
      exact hreceived

theorem Codec.received_of_run
    (hrun : CodecRun maxUsersNb conditions codec) :
    codec.received.Perm codec.mails := by
  refine hrun.invariant (fun codec => codec.received.Perm codec.mails) ?_ ?_
  · exact List.Perm.refl _
  · exact fun hsteps hreceived _ hnext =>
      received_next (files_reached hsteps) hreceived hnext

/-! ## The boot -/

/-- The mails which a boot has freed, all of its actions having succeeded. -/
def bootDiscipline : Discipline UserAct UserAct.Res ℕ where
  may _ _ := True
  possible
    | .mutexLockKillable _, err | .send _, err => err = 0
    | .kmalloc, granted => granted = true
    | .listPop _, mail => mail ≠ none
    | .oops, _ => False
    | _, _ => True
  next
    | freed, .freeMail _, _ => freed + 1
    | freed, _, _ => freed

theorem possible_of_succeeds
    {state state' : UserState} {action : UserAct} {choice : Choice}
    {result : action.Res} (hsucceeds : action.Succeeds state choice)
    (hact : state.act i action choice = some (result, state')) :
    bootDiscipline.possible action result := by
  cases action with
  | mutexLockKillable operation =>
      cases choice with
      | succeed =>
          simp only [UserState.act] at hact
          split_ifs at hact <;>
            exact ((Prod.mk.inj (Option.some.inj hact)).1).symm
      | signal => exact absurd rfl hsucceeds
      | _ => exact absurd hact (by simp [UserState.act])
  | kmalloc =>
      cases choice with
      | succeed => exact ((Prod.mk.inj (Option.some.inj hact)).1).symm
      | fail => exact absurd rfl hsucceeds
      | _ => exact absurd hact (by simp [UserState.act])
  | send mail =>
      cases choice with
      | succeed => exact ((Prod.mk.inj (Option.some.inj hact)).1).symm
      | fail => exact absurd rfl hsucceeds
      | _ => exact absurd hact (by simp [UserState.act])
  | listPop which =>
      obtain ⟨rfl, -⟩ := act_listPop hact
      exact fun hnone => hsucceeds (List.head?_eq_none_iff.mp hnone)
  | oops => cases choice <;> exact absurd hact (by simp [UserState.act])
  | _ => trivial

theorem follows_boot_queuePopTimeout (which : UserMail) (freed : ℕ) :
    bootDiscipline.Follows freed (al5QueuePopTimeout which)
      fun reply last => (∃ mail, reply = (0, some mail)) ∧ last = freed := by
  refine ⟨trivial, fun err _ => ⟨trivial, fun reply hreply => ?_⟩⟩
  cases reply with
  | none => exact absurd rfl hreply
  | some mail => exact ⟨⟨mail, rfl⟩, rfl⟩

theorem createInitMsg_ne_none (uid : Word) (msg : List Byte) :
    createInitMsg true uid msg ≠ .ok none := by
  intro hnone
  unfold createInitMsg at hnone
  split at hnone
  · rename_i hcreate
    simp [al5MailCreate] at hcreate
  · obtain ⟨mail, -, hwrite⟩ := bind_eq_ok hnone
    obtain ⟨_, _, _, _, hresult⟩ := al5MailWrite_inv hwrite
    exact absurd hresult (by simp)

theorem follows_boot_sendInit (uid : Word) (msg : List Byte) (freed : ℕ) :
    bootDiscipline.Follows freed
      (sendBuilt fun kmalloc => createInitMsg kmalloc uid msg)
      fun err last => err = 0 ∧ last = freed := by
  refine ⟨trivial, ?_⟩
  rintro kmalloc rfl
  dsimp only [Prog.bind]
  split
  · rename_i mail hbuilt
    cases mail with
    | none => exact absurd hbuilt (createInitMsg_ne_none uid msg)
    | some mail => exact ⟨trivial, fun err herr => ⟨herr, rfl⟩⟩
  · exact ⟨trivial, fun _ hpossible => hpossible.elim⟩

theorem follows_boot_initMcu (uid : Word) (msg : List Byte) :
    bootDiscipline.Follows 0 (initMcu uid msg) fun err freed => err = 0 ∧ freed = 2 := by
  refine ⟨trivial, ?_⟩
  rintro err rfl
  apply (follows_boot_queuePopTimeout .init 0).bind
  rintro _ _ ⟨⟨mail, rfl⟩, rfl⟩
  refine ⟨trivial, fun _ _ => ⟨trivial, ?_⟩⟩
  rintro suballocBuf rfl
  apply (follows_boot_sendInit uid msg 1).bind
  rintro _ _ ⟨rfl, rfl⟩
  apply (follows_boot_queuePopTimeout .init 1).bind
  rintro _ _ ⟨⟨mail', rfl⟩, rfl⟩
  exact ⟨trivial, fun _ _ => ⟨trivial, fun _ _ => ⟨rfl, rfl⟩⟩⟩

theorem follows_boot {op : UserOp} (uid : Word) (hboot : op.isBoot = true) :
    bootDiscipline.Follows 0 (userBody uid op) fun _ freed => freed = 2 := by
  cases op with
  | setFirmware msg =>
      have hfirmware : bootDiscipline.Follows 0 (al5CodecSetFirmware uid msg)
          fun _ freed => freed = 2 := by
        apply (follows_boot_initMcu uid msg).bind
        rintro _ _ ⟨rfl, rfl⟩
        exact ⟨trivial, fun _ _ => rfl⟩
      exact hfirmware.bind fun _ _ hfreed => hfreed
  | _ => exact absurd hboot (by simp [UserOp.isBoot])

theorem freed_act
    {state state' : UserState} {action : UserAct} {choice : Choice}
    {result : action.Res} {freed : ℕ} (hfreed : freed ≤ (freedMails state.log).length)
    (hact : state.act i action choice = some (result, state')) :
    bootDiscipline.next freed action result ≤ (freedMails state'.log).length := by
  cases action with
  | freeMail mail =>
      cases choice with
      | succeed =>
          obtain ⟨-, rfl⟩ := Prod.mk.inj (Option.some.inj hact)
          exact Nat.succ_le_succ hfreed
      | _ => exact absurd hact (by simp [UserState.act])
  | listPop which =>
      obtain ⟨-, rfl⟩ := act_listPop hact
      exact hfreed
  | _ =>
      rw [(act_keepsMails rfl hact).2.1]
      exact hfreed

theorem freed_le_act
    {state state' : UserState} {action : UserAct} {choice : Choice}
    {result : action.Res} {freed : ℕ} (hfreed : freed ≤ (freedMails state.log).length)
    (hact : state.act i action choice = some (result, state')) :
    freed ≤ (freedMails state'.log).length := by
  have hnext : freed ≤ bootDiscipline.next freed action result := by
    cases action <;> first | exact Nat.le_refl freed | exact Nat.le_succ freed
  exact hnext.trans (freed_act hfreed hact)

/-- What the root user was sent, and what is freed at the end of its boot. -/
structure File.Boots (file : File) : Prop where
  sent : file.kind = .root → (custody file.config).length ≤ 2
  calls : ∀ (i : ℕ) (op : UserOp) (prog : UserProg UserOut),
    file.config.calls[i]? = some ⟨op, prog⟩ → op.isBoot = true →
      ∃ freed, freed ≤ (freedMails file.state.log).length ∧
        bootDiscipline.Follows freed prog fun _ last => last = 2

theorem File.Boots.moves
    (hboots : .boots ∈ conditions) (hreached : file.Reached (userConditions conditions))
    (hinv : file.Boots) (hmoves : FileMoves conditions file file') : file'.Boots := by
  have hkept := hreached.kept
  cases hmoves with
  | @enters op config hnext =>
      have hcustody : custody config = custody file.config := custody_enter hkept hnext
      obtain ⟨state, henter, rfl⟩ := Machine.next_enter_eq_some hnext
      have hlog : state.log = file.state.log := by
        simp only [File.machine, userMachine, userEnter] at henter
        split_ifs at henter
        · rw [← Option.some.inj henter]
          rfl
        · rw [← Option.some.inj henter]
          rfl
      refine ⟨fun hkind => ?_, ?_⟩
      · rw [hcustody]
        exact hinv.sent hkind
      · intro i op' prog hcall hboot
        change ∃ freed, freed ≤ (freedMails state.log).length ∧ _
        rw [hlog]
        rcases getElem?_concat_cases hcall with hold | ⟨rfl, hnew⟩
        · exact hinv.calls i op' prog hold hboot
        · obtain ⟨rfl, rfl⟩ := Call.mk.inj hnew
          exact ⟨0, Nat.zero_le _, follows_boot file.uid hboot⟩
  | @acts i op action choice config hperforms hnext hadmitted =>
      have hcustody : (custody config).Perm (custody file.config) :=
        custody_step hkept hnext
      obtain ⟨result, hact⟩ := File.step_state hperforms hnext
      obtain ⟨op', action', rest, result', state, hcall, hexec, rfl⟩ :=
        Machine.next_step_eq_some hnext
      refine ⟨fun hkind => ?_, ?_⟩
      · have hlength := hcustody.length_eq
        rw [File.note_kind] at hkind
        exact hlength ▸ hinv.sent hkind
      · intro j op₁ prog hj hboot
        by_cases hji : j = i
        · subst hji
          rw [List.getElem?_set_self (List.getElem?_eq_some_iff.mp hcall).1,
            Option.some.injEq] at hj
          obtain ⟨rfl, rfl⟩ := Call.mk.inj hj
          obtain ⟨rest', hcall'⟩ := hperforms
          rw [hcall] at hcall'
          obtain ⟨rfl, hprog⟩ := Call.mk.inj (Option.some.inj hcall')
          cases hprog
          obtain ⟨freed, hle, -, hfollows⟩ := hinv.calls j _ _ hcall hboot
          have hsucceeds := hadmitted .boots hboots hboot
          simp only [File.machine, userMachine] at hexec
          split at hexec
          · exact ⟨_, freed_act hle hexec,
              hfollows result' (possible_of_succeeds hsucceeds hexec)⟩
          · exact absurd hexec (by simp)
        · rw [List.getElem?_set_ne (Ne.symm hji)] at hj
          obtain ⟨freed, hle, hfollows⟩ := hinv.calls j op₁ prog hj hboot
          exact ⟨freed, freed_le_act hle hact, hfollows⟩
  | @receives mail file' hdeliver hadmitted =>
      obtain ⟨-, rfl⟩ := File.deliver_cases hdeliver
      refine ⟨fun hkind => ?_, hinv.calls⟩
      have hlength := (custody_deliver mail.mail file.config).length_eq
      have hfew := hadmitted .boots hboots hkind
      rw [List.length_cons] at hlength
      exact hlength.trans_le hfew

/-- The queues which the closing call has found empty are empty. -/
def File.StaysDrained (file : File) : Prop :=
  ∀ closer : ℕ, file.state.closer = some closer → VcuDriver.StaysDrained file.state closer

theorem File.StaysDrained.moves
    (hquiet : .closesQuiet ∈ conditions)
    (hreached : file.Reached (userConditions conditions)) (hinv : file.StaysDrained)
    (hmoves : FileMoves conditions file file') : file'.StaysDrained := by
  have hclosing := closingInv_of_reach hreached.free
  cases hmoves with
  | @enters op config hnext =>
      obtain ⟨state, henter, rfl⟩ := Machine.next_enter_eq_some hnext
      intro closer hcloser which hmem
      -- A closing call that has just entered has popped nothing yet.
      have hlog : state.log = file.state.log ∧ closer = file.config.calls.length := by
        simp only [File.machine, userMachine, userEnter] at henter
        split_ifs at henter with hopen
        · rw [← Option.some.inj henter] at hcloser ⊢
          exact ⟨rfl, (Option.some.inj hcloser).symm⟩
        · rw [← Option.some.inj henter] at hcloser
          change file.config.state.closer = some closer at hcloser
          rw [hopen.1] at hcloser
          exact absurd hcloser (by simp)
      have hpopped : .popped closer which none ∈ file.state.log := hlog.1 ▸ hmem
      have hlt := hclosing.popped closer which none hpopped
      exact absurd hlog.2 (Nat.ne_of_lt hlt)
  | @acts i op action choice config hperforms hnext hadmitted =>
      obtain ⟨op', action', rest, result, state, hcall, hexec, rfl⟩ :=
        Machine.next_step_eq_some hnext
      simp only [File.machine, userMachine] at hexec
      split at hexec
      · rename_i hsolo
        have hsame : state.closer = file.state.closer := (act_log hexec).2.2
        intro closer hcloser
        have hbefore : file.state.closer = some closer := hsame ▸ hcloser
        have hi : closer = i := by
          change file.config.state.closer = some closer at hbefore
          simpa [hbefore] using hsolo
        subst hi
        exact staysDrained_act (hinv closer hbefore) hexec
      · exact absurd hexec (by simp)
  | @receives mail file' hdeliver hadmitted =>
      obtain ⟨-, rfl⟩ := File.deliver_cases hdeliver
      intro closer hcloser which hmem
      have hother : which ≠ mailToQueue mail.mail.uid? := by
        rintro rfl
        exact hadmitted .closesQuiet hquiet closer hcloser hmem
      have hempty := hinv closer hcloser which hmem
      simpa [File.state, al5UserDeliver, UserState.setQueue,
        Function.update_of_ne hother] using hempty

/-- Nothing is left in the queues of a released file. -/
theorem File.queuedMails_of_released
    (hreached : file.Reached (userConditions conditions)) (hboots : file.Boots)
    (hdrained : file.StaysDrained) (hreleased : file.Released) :
    queuedMails file.state = [] := by
  obtain ⟨i, op, out, hcloses, hcall⟩ := hreleased
  have hclosing := closingInv_of_reach hreached.free
  have hlisted := callsListed_of_reach hreached.free
  have hcloser := hlisted.closer i _ hcall hcloses
  have hoffered := hlisted.offered i _ hcall
  cases op with
  | release rounds =>
      obtain ⟨record, hnotes, hclosed⟩ := hclosing.calls i _ hcall rfl
      obtain ⟨-, hall⟩ : record.Closed := hclosed rfl
      have hempty : ∀ which, (file.state.queues which).mails = [] :=
        fun which => hdrained i hcloser which (hnotes which (hall which))
      simp [queuedMails, hempty]
  | setFirmware msg =>
      have hkind : file.kind = .root := by
        cases hkind : file.kind with
        | root => rfl
        | _ => simp [hkind, UserOp.offeredTo] at hoffered
      obtain ⟨freed, hle, rfl⟩ := hboots.calls i _ _ hcall rfl
      have hsent := hboots.sent hkind
      have hlength : (custody file.config).length = (queuedMails file.state).length +
          (heldMails file.config).length + (freedMails file.state.log).length := by
        simp [custody, File.state, Nat.add_assoc]
      exact List.length_eq_zero_iff.mp (by omega)
  | _ => exact absurd hcloses (by simp [UserOp.closes])

/-! ## Every run -/

/-- In every run in which nothing is delivered to a queue that the closing call has
found empty, and in which the boot gets what it waits for and no more: each received
mail is in one place or was freed once, and none is left behind. -/
theorem mails_accounted
    (maxUsersNb : ℕ) (codec : Codec)
    (hrun : CodecRun maxUsersNb {.closesQuiet, .boots} codec) : codec.Accounted := by
  have hreached := files_reached hrun
  have hboots := File.Reached.invariant File.Boots
    (fun kind slot _ => ⟨fun _ => by simp [File.opened, custody_userStart],
      by simp [File.opened, userStart]⟩)
    (fun hreached hinv hmoves => hinv.moves (by simp) hreached hmoves) hrun
  have hdrained := File.Reached.invariant File.StaysDrained
    (fun kind slot _ closer hcloser => absurd hcloser
      (by simp [File.opened, File.state, userStart, al5UserInit]))
    (fun hreached hinv hmoves => hinv.moves (by simp) hreached hmoves) hrun
  constructor
  · exact Codec.received_of_run hrun
  · intro file hmem i op out hcall
    obtain ⟨record, hkeeps, hlast⟩ := (hreached file hmem).kept.calls i _ hcall
    rw [show mailsHeld i file.state.log = record.mails from hkeeps.mails]
    exact hlast.2
  · intro file hmem hgone
    have hreleased : file.Released := by
      rcases hgone with hunbound | hreleased
      · have hclosing := closingInv_of_reach (hreached file hmem).free
        obtain ⟨closer, op, out, hcloser, hcall⟩ := hclosing.unbound hunbound
        obtain ⟨call, hcall', hcloses⟩ := hclosing.closer closer hcloser
        rw [hcall] at hcall'
        obtain rfl := Option.some.inj hcall'
        exact ⟨closer, op, out, hcloses, hcall⟩
      · exact hreleased
    exact File.queuedMails_of_released (hreached file hmem) (hboots file hmem)
      (hdrained file hmem) hreleased

/-- A decoder sends a search and closes; the reply is delivered after the queues were
emptied and before the file is unbound. -/
def lateReplyMoves : List CodecMove :=
  [.bind .decoder, .enter 0 (.searchStartCode ⟨zeroParams, zeroParams⟩)] ++
    List.replicate 2 (.call 0 0 .succeed) ++ [.mcu .take, .enter 0 (.release 1)] ++
    List.replicate 22 (.call 0 1 .succeed) ++
    [.mcu (.found 0 (replyMail .searchStartCode 0 0)), .interrupt] ++
    List.replicate 4 (.handle .succeed) ++ [.call 0 1 .succeed]

set_option maxRecDepth 20000 in
theorem run_lateReplyMoves :
    ∃ (codec : Codec) (file : File),
      runSteps (codecNext 1) (fun _ _ => true) lateReplyMoves codecStart = some codec ∧
        codec.files = [file] ∧ file.state.bound = false ∧
        queuedMails file.state = [replyMail .searchStartCode 0 0] :=
  ⟨_, _, rfl, rfl, rfl, rfl⟩

theorem not_mails_accounted :
    ¬ ∀ (maxUsersNb : ℕ) (codec : Codec),
      CodecRun maxUsersNb ∅ codec → codec.Accounted := by
  intro hall
  obtain ⟨codec, file, hrun, hfiles, hunbound, hqueued⟩ := run_lateReplyMoves
  have hsteps : CodecRun 1 ∅ codec :=
    Steps.of_runSteps (fun _ _ _ condition hmem => absurd hmem (by simp)) hrun
  have hmem : file ∈ codec.files := by
    rw [hfiles]
    exact List.mem_singleton_self file
  have hempty := (hall 1 codec hsteps).queued file hmem (.inl hunbound)
  rw [hqueued] at hempty
  exact absurd hempty (List.cons_ne_nil _ _)

/-- The handler takes a mail from the ring and gives it to a user. -/
def deliverMoves : List CodecMove :=
  .interrupt :: List.replicate 4 (.handle .succeed)

/-- The MCU boots, with the ping after its start and the answer to its
configuration. -/
def bootMoves : List CodecMove :=
  [.bind .root, .enter 0 (.setFirmware (List.replicate 24 0)),
    .mcu (.emit (replyMail .init 0 0))] ++ deliverMoves ++
    List.replicate 7 (.call 0 0 .succeed) ++
    [.mcu .take, .mcu (.emit (replyMail .init 0 0))] ++ deliverMoves ++
    List.replicate 5 (.call 0 0 .succeed)

/-- A decoder sends a search, gets the reply and closes. -/
def searchMoves : List CodecMove :=
  [.bind .decoder, .enter 1 (.searchStartCode ⟨zeroParams, zeroParams⟩)] ++
    List.replicate 2 (.call 1 0 .succeed) ++
    [.mcu .take, .mcu (.found 0 (replyMail .searchStartCode 0 0))] ++ deliverMoves ++
    [.enter 1 (.release 2)] ++ List.replicate 26 (.call 1 1 .succeed)

set_option maxRecDepth 20000 in
theorem run_bootMoves_searchMoves :
    ∃ codec : Codec,
      runSteps (codecNext 1)
          (fun codec move => [CodecCondition.closesQuiet, .boots].all fun condition =>
            condition.passes 1 codec move) (bootMoves ++ searchMoves) codecStart =
        some codec ∧ codec.received.length = 3 :=
  ⟨_, rfl, rfl⟩

theorem mails_accounted_of_boot_and_search :
    ∃ codec : Codec, codec.received.length = 3 ∧ codec.Accounted := by
  obtain ⟨codec, hrun, hreceived⟩ := run_bootMoves_searchMoves
  have hsteps : CodecRun 1 {.closesQuiet, .boots} codec :=
    codecRun_of_passes (by simp) hrun
  exact ⟨codec, hreceived, mails_accounted 1 codec hsteps⟩

end VcuDriver

import VcuDriver.Codec
import VcuDriver.UserConditions

/-!
# The steps of a codec

What each move does, said once: every invariant of the codec is derived from the
lemmas of this file.  A file of a codec is a user of its own, so what holds of
every run of a user holds of every file.
-/

namespace VcuDriver

open Conc

variable {maxUsersNb f i : ℕ} {op : UserOp} {choice : Choice}
variable {file file' : File} {codec codec' : Codec}

/-! ## Steps of a file -/

def File.Performs (file : File) (i : ℕ) (op : UserOp) (action : UserAct) : Prop :=
  ∃ rest, file.config.calls[i]? = some ⟨op, .act action rest⟩

/-- A step of a file is a step of its user, noted in the file. -/
theorem File.step_cases
    {effect : FileEffect} (hstep : file.step i choice = some (file', effect)) :
    ∃ op action config, file.Performs i op action ∧
      file.machine.next file.config (.step i choice) = some config ∧
      file' = { file.note op action with config := config } ∧
      effect = action.effect choice := by
  unfold File.step at hstep
  split at hstep
  · rename_i op action rest hcall
    obtain ⟨config, hnext, heq⟩ := Option.map_eq_some_iff.mp hstep
    obtain ⟨hfile, heffect⟩ := Prod.mk.inj heq
    exact ⟨op, action, config, ⟨rest, hcall⟩, hnext, hfile.symm, heffect.symm⟩
  · exact absurd hstep (by simp)

@[simp] theorem File.note_kind (file : File) (op : UserOp) (action : UserAct) :
    (file.note op action).kind = file.kind := by
  cases action <;> rfl

@[simp] theorem File.note_uid (file : File) (op : UserOp) (action : UserAct) :
    (file.note op action).uid = file.uid := by
  cases action <;> rfl

@[simp] theorem File.note_config (file : File) (op : UserOp) (action : UserAct) :
    (file.note op action).config = file.config := by
  cases action <;> rfl

/-- What the step of a user does to its state. -/
theorem File.step_state
    {action : UserAct} {config : UserConfig}
    (hperforms : file.Performs i op action)
    (hnext : file.machine.next file.config (.step i choice) = some config) :
    ∃ result, file.state.act i action choice = some (result, config.state) := by
  obtain ⟨rest, hcall⟩ := hperforms
  obtain ⟨op', action', rest', result, state, hcall', hexec, rfl⟩ :=
    Machine.next_step_eq_some hnext
  rw [hcall] at hcall'
  obtain ⟨rfl, hprog⟩ := Call.mk.inj (Option.some.inj hcall')
  cases hprog
  simp only [File.machine, userMachine] at hexec
  split at hexec
  · exact ⟨result, hexec⟩
  · exact absurd hexec (by simp)

/-- A delivery puts the mail at the end of its queue, and is made to bound users
only. -/
theorem File.deliver_cases
    {mail : McuMail} (hdeliver : file.deliver mail = some file') :
    file.state.bound = true ∧
      file' = { file with
        config := ⟨al5UserDeliver mail.mail file.state, file.config.calls⟩
        queued := Function.update file.queued (mailToQueue mail.mail.uid?)
          (file.queued (mailToQueue mail.mail.uid?) ++ [mail]) } := by
  unfold File.deliver at hdeliver
  obtain ⟨config, hnext, rfl⟩ := Option.map_eq_some_iff.mp hdeliver
  obtain ⟨state, henv, rfl⟩ := Machine.next_env_eq_some hnext
  simp only [File.machine, userMachine] at henv
  split at henv
  · rename_i hbound
    obtain rfl := Option.some.inj henv
    exact ⟨hbound, rfl⟩
  · exact absurd henv (by simp)

/-! ## Moves -/

namespace Codec

/-- A file is bound to the lowest free slot. -/
theorem bindUser_cases
    {kind : UserKind} (hbind : codec.bindUser maxUsersNb kind = some codec') :
    codec.handler = .idle ∧ ∃ slot, codec.freeSlot maxUsersNb = some slot ∧
      slot < maxUsersNb ∧ codec.users slot = none ∧ codec' = { codec with
        files := codec.files ++ [File.opened kind (BitVec.ofNat 32 slot)]
        users := Function.update codec.users slot (some codec.files.length) } := by
  unfold bindUser at hbind
  split at hbind
  · rename_i hidle
    obtain ⟨slot, hslot, rfl⟩ := Option.map_eq_some_iff.mp hbind
    have hfree := List.find?_some hslot
    have hmem := List.mem_of_find?_eq_some hslot
    refine ⟨?_, slot, hslot, List.mem_range.mp hmem, by simpa using hfree, rfl⟩
    cases hhandler : codec.handler with
    | idle => rfl
    | _ => simp [hhandler, Handler.isIdle] at hidle
  · exact absurd hbind (by simp)

theorem enter_cases (henter : codec.enter f op = some codec') :
    ∃ file config, codec.files[f]? = some file ∧
      file.machine.next file.config (.enter op) = some config ∧
      codec' = { codec with
        files := codec.files.set f { file with config := config } } := by
  unfold enter at henter
  obtain ⟨file, hfile, hrest⟩ := Option.bind_eq_some_iff.mp henter
  obtain ⟨config, hnext, heq⟩ := Option.bind_eq_some_iff.mp hrest
  exact ⟨file, config, hfile, hnext, (Option.some.inj heq).symm⟩

/-- What an action of a file does outside the file. -/
inductive Outside (f : ℕ) (file : File) (codec : Codec) : FileEffect → Codec → Prop where
  | nothing : Outside f file codec .nothing codec
  | sends (mail : Al5Mail) :
      Outside f file codec (.sends mail)
        { codec with commands := codec.commands ++ [⟨mail, some f, file.current⟩] }
  | unbinds (idle : codec.handler = .idle) :
      Outside f file codec .unbinds
        { codec with users := Function.update codec.users file.uid.toNat none }

theorem call_cases (hcall : codec.call f i choice = some codec') :
    ∃ file file' effect codec₁, codec.files[f]? = some file ∧
      file.step i choice = some (file', effect) ∧ Outside f file codec effect codec₁ ∧
      codec' = { codec₁ with files := codec.files.set f file' } := by
  unfold call at hcall
  obtain ⟨file, hfile, hrest⟩ := Option.bind_eq_some_iff.mp hcall
  obtain ⟨⟨file', effect⟩, hstep, hrest⟩ := Option.bind_eq_some_iff.mp hrest
  refine ⟨file, file', effect, ?_⟩
  cases effect with
  | nothing =>
      exact ⟨codec, hfile, hstep, .nothing, (Option.some.inj hrest).symm⟩
  | sends mail =>
      exact ⟨_, hfile, hstep, .sends mail, (Option.some.inj hrest).symm⟩
  | unbinds =>
      dsimp only at hrest
      split at hrest
      · rename_i hidle
        have hhandler : codec.handler = .idle := by
          cases hhandler : codec.handler with
          | idle => rfl
          | _ => simp [hhandler, Handler.isIdle] at hidle
        exact ⟨_, hfile, hstep, .unbinds hhandler, (Option.some.inj hrest).symm⟩
      · exact absurd hrest (by simp)

/-! ## The handler -/

/-- What one step of the handler does. -/
inductive Handles (maxUsersNb : ℕ) (choice : Choice) (codec : Codec) :
    Codec → Prop where
  | reads (nbMsg : ℕ) (mail : McuMail) (rest : List McuMail)
      (looking : codec.handler = .looking nbMsg) (statuses : codec.statuses = mail :: rest) :
      Handles maxUsersNb choice codec { codec with
        handler := .routing (nbMsg + 1) mail
        statuses := rest
        received := mail.mail :: codec.received }
  | leaves (nbMsg : ℕ) (looking : codec.handler = .looking nbMsg) :
      Handles maxUsersNb choice codec { codec with handler := .idle }
  | routes (nbMsg : ℕ) (mail : McuMail) (routing : codec.handler = .routing nbMsg mail) :
      Handles maxUsersNb choice codec
        { codec with handler := codec.route maxUsersNb nbMsg mail }
  | scans (nbMsg : ℕ) (mail : McuMail) (slot : ℕ)
      (scanning : codec.handler = .scanning nbMsg mail slot) :
      Handles maxUsersNb choice codec
        { codec with handler := codec.scan maxUsersNb nbMsg mail slot }
  | delivers (nbMsg : ℕ) (mail : McuMail) (f : ℕ) (file file' : File)
      (delivering : codec.handler = .delivering nbMsg mail f)
      (file_eq : codec.files[f]? = some file) (deliver : file.deliver mail = some file') :
      Handles maxUsersNb choice codec { codec with
        files := codec.files.set f file'
        handler := .looking nbMsg
        settled := codec.settled ++ [(mail, .queued f)] }
  | destroysOrphan (nbMsg : ℕ) (mail : McuMail)
      (orphaning : codec.handler = .orphaning nbMsg mail) :
      Handles maxUsersNb choice codec { codec with
        commands := codec.destroyOrphanChannel mail choice
        handler := .freeing nbMsg mail }
  | frees (nbMsg : ℕ) (mail : McuMail) (freeing : codec.handler = .freeing nbMsg mail) :
      Handles maxUsersNb choice codec { codec with
        handler := .looking nbMsg
        freed := mail.mail :: codec.freed
        settled := codec.settled ++ [(mail, .freed (codec.stillHeld mail))] }

theorem handle_cases (hhandle : codec.handle maxUsersNb choice = some codec') :
    Handles maxUsersNb choice codec codec' := by
  unfold handle at hhandle
  split at hhandle
  · exact absurd hhandle (by simp)
  · rename_i nbMsg hhandler
    split at hhandle
    · rename_i mail rest hstatuses
      split at hhandle
      · exact Option.some.inj hhandle ▸ .reads nbMsg mail rest hhandler hstatuses
      · exact Option.some.inj hhandle ▸ .leaves nbMsg hhandler
    · exact Option.some.inj hhandle ▸ .leaves nbMsg hhandler
  · rename_i nbMsg mail hhandler
    exact Option.some.inj hhandle ▸ .routes nbMsg mail hhandler
  · rename_i nbMsg mail slot hhandler
    exact Option.some.inj hhandle ▸ .scans nbMsg mail slot hhandler
  · rename_i nbMsg mail f hhandler
    obtain ⟨file, hfile, hrest⟩ := Option.bind_eq_some_iff.mp hhandle
    obtain ⟨file', hdeliver, heq⟩ := Option.bind_eq_some_iff.mp hrest
    exact Option.some.inj heq ▸ .delivers nbMsg mail f file file' hhandler hfile hdeliver
  · rename_i nbMsg mail hhandler
    exact Option.some.inj hhandle ▸ .destroysOrphan nbMsg mail hhandler
  · rename_i nbMsg mail hhandler
    exact Option.some.inj hhandle ▸ .frees nbMsg mail hhandler

theorem userFromUid_users
    {userUid : Word} (huser : codec.userFromUid maxUsersNb userUid = some f) :
    codec.users userUid.toNat = some f := by
  unfold userFromUid at huser
  split at huser
  · exact absurd huser (by simp)
  · exact huser

/-- What `retrieve_user` does with a mail before its loop. -/
inductive Routes (maxUsersNb : ℕ) (codec : Codec) (nbMsg : ℕ) (mail : McuMail) :
    Handler → Prop where
  | frees (other : mail.mail.uid? ≠ some .createChannel)
      (chan : isFeedback mail.mail.uid? = false) :
      Routes maxUsersNb codec nbMsg mail (.freeing nbMsg mail)
  | orphans (create : mail.mail.uid? = some .createChannel)
      (notFound : codec.userFromUid maxUsersNb (al5MailGetWord mail.mail 1) = none) :
      Routes maxUsersNb codec nbMsg mail (.orphaning nbMsg mail)
  | finds (f : ℕ) (chan : isFeedback mail.mail.uid? = false)
      (named : codec.users
        (al5MailGetWord mail.mail (routeWord mail.mail.uid?)).toNat = some f) :
      Routes maxUsersNb codec nbMsg mail (.delivering nbMsg mail f)
  | scans (create : mail.mail.uid? ≠ some .createChannel)
      (init : mail.mail.uid? ≠ some .init)
      (search : mail.mail.uid? ≠ some .searchStartCode)
      (trace : mail.mail.uid? ≠ some .trace) :
      Routes maxUsersNb codec nbMsg mail (.scanning nbMsg mail 0)

theorem route_cases (nbMsg : ℕ) (mail : McuMail) :
    Routes maxUsersNb codec nbMsg mail (codec.route maxUsersNb nbMsg mail) := by
  unfold route
  split
  · rename_i huid
    exact .frees (by rw [huid]; simp) (by rw [huid]; rfl)
  · rename_i huid
    split
    · rename_i f hfound
      exact .finds f (by rw [huid]; rfl) (userFromUid_users hfound)
    · rename_i hnone
      have hrejected : Handler.rejected nbMsg mail = .orphaning nbMsg mail :=
        if_pos (by rw [huid]; rfl)
      rw [hrejected]
      rw [huid] at hnone
      exact .orphans huid hnone
  · rename_i huid
    split
    · rename_i f hfound
      exact .finds f (by rw [huid]; rfl) (userFromUid_users hfound)
    · have hrejected : Handler.rejected nbMsg mail = .freeing nbMsg mail :=
        if_neg (by rw [huid]; simp [shouldDestroyChannelOnBadFeedback])
      rw [hrejected]
      exact .frees (by rw [huid]; simp) (by rw [huid]; rfl)
  · rename_i huid
    split
    · rename_i f hfound
      exact .finds f (by rw [huid]; rfl) (userFromUid_users hfound)
    · have hrejected : Handler.rejected nbMsg mail = .freeing nbMsg mail :=
        if_neg (by rw [huid]; simp [shouldDestroyChannelOnBadFeedback])
      rw [hrejected]
      exact .frees (by rw [huid]; simp) (by rw [huid]; rfl)
  · rename_i htrace hcreate hinit hsearch
    exact .scans hcreate hinit hsearch htrace

/-- What one round of `al5_group_user_from_chan_uid` does. -/
inductive Scans (maxUsersNb : ℕ) (codec : Codec) (nbMsg : ℕ) (mail : McuMail)
    (slot : ℕ) : Handler → Prop where
  | finds (f : ℕ) (lt : slot < maxUsersNb) (user : codec.users slot = some f)
      (has : codec.hasChannelId f (mailChanUid mail.mail) = true) :
      Scans maxUsersNb codec nbMsg mail slot (.delivering nbMsg mail f)
  | passes (lt : slot < maxUsersNb)
      (hasNot : ∀ f, codec.users slot = some f →
        codec.hasChannelId f (mailChanUid mail.mail) = false) :
      Scans maxUsersNb codec nbMsg mail slot (.scanning nbMsg mail (slot + 1))
  | orphans (le : maxUsersNb ≤ slot)
      (should : shouldDestroyChannelOnBadFeedback mail.mail.uid? = true) :
      Scans maxUsersNb codec nbMsg mail slot (.orphaning nbMsg mail)
  | frees (le : maxUsersNb ≤ slot)
      (should : shouldDestroyChannelOnBadFeedback mail.mail.uid? = false) :
      Scans maxUsersNb codec nbMsg mail slot (.freeing nbMsg mail)

theorem scan_cases (nbMsg : ℕ) (mail : McuMail) (slot : ℕ) :
    Scans maxUsersNb codec nbMsg mail slot (codec.scan maxUsersNb nbMsg mail slot) := by
  unfold scan
  split
  · rename_i hlt
    split
    · rename_i f huser
      split
      · rename_i hhas
        exact .finds f hlt huser hhas
      · rename_i hhas
        refine .passes hlt fun g hg => ?_
        obtain rfl := Option.some.inj (huser.symm.trans hg)
        exact Bool.eq_false_iff.mpr hhas
    · rename_i hnone
      exact .passes hlt fun g hg => absurd (hnone.symm.trans hg) (by simp)
  · rename_i hge
    unfold Handler.rejected
    split
    · rename_i hshould
      exact .orphans (Nat.le_of_not_lt hge) hshould
    · rename_i hshould
      exact .frees (Nat.le_of_not_lt hge) (Bool.eq_false_iff.mpr hshould)

/-! ## The MCU -/

inductive McuDoes (codec : Codec) : McuStep → Codec → Prop where
  | keeps (command : Command) (rest : List Command)
      (commands : codec.commands = command :: rest)
      (uid : command.mail.uid? = some .createChannel ∨
        command.mail.uid? = some .searchStartCode) :
      McuDoes codec .take { codec with
        commands := rest
        taken := codec.taken ++ [command] }
  | takes (command : Command) (rest : List Command)
      (commands : codec.commands = command :: rest) :
      McuDoes codec .take { codec with commands := rest }
  | creates (index : ℕ) (chanUid : Word) (reply : Al5Mail) (command : Command)
      (taken : codec.taken[index]? = some command)
      (uid : command.mail.uid? = some .createChannel) (good : chanUid ≠ badChan)
      (dead : codec.live chanUid = none) (names : reply.Echoes .createChannel 0 chanUid)
      (echoes : reply.Echoes .createChannel 1 (mailChanUid command.mail)) :
      McuDoes codec (.create index chanUid reply)
        (emit ⟨reply, command.sender, codec.granted, none⟩ { codec with
          taken := codec.taken.eraseIdx index
          live := Function.update codec.live chanUid (some codec.granted)
          granted := codec.granted + 1
          asker := Function.update codec.asker codec.granted command.sender })
  | refuses (index : ℕ) (reply : Al5Mail) (command : Command)
      (taken : codec.taken[index]? = some command)
      (uid : command.mail.uid? = some .createChannel)
      (bad : reply.Echoes .createChannel 0 badChan)
      (echoes : reply.Echoes .createChannel 1 (mailChanUid command.mail)) :
      McuDoes codec (.refuse index reply)
        (emit ⟨reply, command.sender, none, none⟩
          { codec with taken := codec.taken.eraseIdx index })
  | finds (index : ℕ) (reply : Al5Mail) (command : Command)
      (taken : codec.taken[index]? = some command)
      (uid : command.mail.uid? = some .searchStartCode)
      (echoes : reply.Echoes .searchStartCode 0 (mailChanUid command.mail)) :
      McuDoes codec (.found index reply)
        (emit ⟨reply, command.sender, none, none⟩
          { codec with taken := codec.taken.eraseIdx index })
  | destroys (reply : Al5Mail) (command : Command) (rest : List Command)
      (commands : codec.commands = command :: rest)
      (uid : command.mail.uid? = some .destroyChannel)
      (echoes : reply.Echoes .destroyChannel 0 (mailChanUid command.mail)) :
      McuDoes codec (.destroy reply)
        (emit ⟨reply, command.sender, command.grant, none⟩ { codec with
          commands := rest
          live := Function.update codec.live (mailChanUid command.mail) none })
  | destroysQuietly (command : Command) (rest : List Command)
      (commands : codec.commands = command :: rest)
      (uid : command.mail.uid? = some .quietDestroyChannel) :
      McuDoes codec .quietDestroy { codec with
        commands := rest
        live := Function.update codec.live (mailChanUid command.mail) none }
  | feeds (mail : Al5Mail) (grant : ℕ) (live : codec.live (mailChanUid mail) = some grant)
      (feedback : isFeedback mail.uid? = true) :
      McuDoes codec (.feedback mail) (codec.emit
        ⟨mail, codec.asker grant, grant, codec.holder (mailChanUid mail) grant⟩)
  | emits (mail : Al5Mail) :
      McuDoes codec (.emit mail) (codec.emit ⟨mail, none, none, none⟩)

theorem mcu_cases {step : McuStep} (hmcu : codec.mcu step = some codec') :
    McuDoes codec step codec' := by
  cases step with
  | take =>
      simp only [mcu] at hmcu
      split at hmcu
      · rename_i command rest hcommands
        split at hmcu
        · exact absurd hmcu (by simp)
        · split at hmcu
          · rename_i huid
            exact Option.some.inj hmcu ▸ .keeps command rest hcommands huid
          · exact Option.some.inj hmcu ▸ .takes command rest hcommands
      · exact absurd hmcu (by simp)
  | create index chanUid reply =>
      simp only [mcu] at hmcu
      split at hmcu
      · rename_i command htaken
        split at hmcu
        · rename_i hgood
          obtain ⟨huid, hgood, hdead, hnames, hechoes⟩ := hgood
          exact Option.some.inj hmcu ▸ .creates index chanUid reply command htaken huid
            hgood hdead hnames hechoes
        · exact absurd hmcu (by simp)
      · exact absurd hmcu (by simp)
  | refuse index reply =>
      simp only [mcu] at hmcu
      split at hmcu
      · rename_i command htaken
        split at hmcu
        · rename_i hgood
          exact Option.some.inj hmcu ▸
            .refuses index reply command htaken hgood.1 hgood.2.1 hgood.2.2
        · exact absurd hmcu (by simp)
      · exact absurd hmcu (by simp)
  | found index reply =>
      simp only [mcu] at hmcu
      split at hmcu
      · rename_i command htaken
        split at hmcu
        · rename_i hgood
          exact Option.some.inj hmcu ▸ .finds index reply command htaken hgood.1 hgood.2
        · exact absurd hmcu (by simp)
      · exact absurd hmcu (by simp)
  | destroy reply =>
      simp only [mcu] at hmcu
      split at hmcu
      · rename_i command rest hcommands
        split at hmcu
        · rename_i hgood
          exact Option.some.inj hmcu ▸
            .destroys reply command rest hcommands hgood.1 hgood.2
        · exact absurd hmcu (by simp)
      · exact absurd hmcu (by simp)
  | quietDestroy =>
      simp only [mcu] at hmcu
      split at hmcu
      · rename_i command rest hcommands
        split at hmcu
        · rename_i huid
          exact Option.some.inj hmcu ▸ .destroysQuietly command rest hcommands huid
        · exact absurd hmcu (by simp)
      · exact absurd hmcu (by simp)
  | feedback mail =>
      simp only [mcu] at hmcu
      split at hmcu
      · rename_i grant hlive
        split at hmcu
        · rename_i hfeedback
          exact Option.some.inj hmcu ▸ .feeds mail grant hlive hfeedback
        · exact absurd hmcu (by simp)
      · exact absurd hmcu (by simp)
  | emit mail =>
      exact Option.some.inj hmcu ▸ .emits mail

end Codec

end VcuDriver

import VcuDriver.CodecConditions
import VcuDriver.UserClosing

/-!
# The files of a codec

A move of the codec opens a file or moves one file as its user moves, so a property
of every user is one of every file.  The table of the group lists the bound files
under their uids, and the bookkeeping of a file follows the queues of its user.
-/

namespace VcuDriver

open Conc

variable {maxUsersNb f i : ℕ} {conditions : Set CodecCondition}
variable {file file' : File} {codec codec' : Codec} {move : CodecMove}

/-! ## What a move does to the files -/

/-- What a move that meets the conditions does to the file which it moves. -/
inductive FileMoves (conditions : Set CodecCondition) (file : File) : File → Prop where
  | enters {op : UserOp} {config : UserConfig}
      (next : file.machine.next file.config (.enter op) = some config) :
      FileMoves conditions file { file with config := config }
  | acts {i : ℕ} {op : UserOp} {action : UserAct} {choice : Choice}
      {config : UserConfig} (performs : file.Performs i op action)
      (next : file.machine.next file.config (.step i choice) = some config)
      (admitted : ∀ condition ∈ conditions, condition.AdmitsAct file op action choice) :
      FileMoves conditions file { file.note op action with config := config }
  | receives {mail : McuMail} {file' : File} (deliver : file.deliver mail = some file')
      (admitted : ∀ condition ∈ conditions, condition.AdmitsDelivery file mail) :
      FileMoves conditions file file'

inductive FilesMove (maxUsersNb : ℕ) (conditions : Set CodecCondition)
    (codec : Codec) : List File → Prop where
  | same : FilesMove maxUsersNb conditions codec codec.files
  | opens (kind : UserKind) (slot : ℕ) (lt : slot < maxUsersNb)
      (free : codec.users slot = none) :
      FilesMove maxUsersNb conditions codec
        (codec.files ++ [File.opened kind (BitVec.ofNat 32 slot)])
  | moves {f : ℕ} {file file' : File} (file_eq : codec.files[f]? = some file)
      (move : FileMoves conditions file file') :
      FilesMove maxUsersNb conditions codec (codec.files.set f file')

/-- What neither the MCU nor a call changes by itself. -/
structure Codec.SameDriver (codec codec' : Codec) : Prop where
  files : codec'.files = codec.files
  handler : codec'.handler = codec.handler
  received : codec'.received = codec.received
  freed : codec'.freed = codec.freed
  settled : codec'.settled = codec.settled

theorem Codec.Outside.sameDriver
    {effect : FileEffect} (houtside : Codec.Outside f file codec effect codec') :
    codec.SameDriver codec' := by
  cases houtside <;> exact ⟨rfl, rfl, rfl, rfl, rfl⟩

theorem Codec.McuDoes.sameDriver
    {step : McuStep} (hdoes : Codec.McuDoes codec step codec') :
    codec.SameDriver codec' := by
  cases hdoes <;> exact ⟨rfl, rfl, rfl, rfl, rfl⟩

theorem Codec.interrupt_cases
    (hnext : codecNext maxUsersNb codec .interrupt = some codec') :
    codec.handler = .idle ∧ codec' = { codec with handler := .looking 0 } := by
  simp only [codecNext] at hnext
  split at hnext
  · rename_i hidle
    refine ⟨?_, (Option.some.inj hnext).symm⟩
    cases hhandler : codec.handler with
    | idle => rfl
    | _ => simp [hhandler, Handler.isIdle] at hidle
  · exact absurd hnext (by simp)

theorem filesMove_of_next
    (hadmits : codecAdmits maxUsersNb conditions codec move)
    (hnext : codecNext maxUsersNb codec move = some codec') :
    FilesMove maxUsersNb conditions codec codec'.files := by
  cases move with
  | bind kind =>
      obtain ⟨-, slot, -, hlt, hfree, rfl⟩ := Codec.bindUser_cases hnext
      exact .opens kind slot hlt hfree
  | enter f op =>
      obtain ⟨file, config, hfile, henter, rfl⟩ := Codec.enter_cases hnext
      exact .moves hfile (.enters henter)
  | call f i choice =>
      obtain ⟨file, file', effect, codec₁, hfile, hstep, -, rfl⟩ :=
        Codec.call_cases hnext
      obtain ⟨op, action, config, hperforms, hconfig, rfl, -⟩ := File.step_cases hstep
      refine .moves hfile (.acts hperforms hconfig fun condition hmem => ?_)
      exact (hadmits condition hmem file op action ⟨hfile, hperforms⟩).1
  | interrupt =>
      obtain ⟨-, rfl⟩ := Codec.interrupt_cases hnext
      exact .same
  | handle choice =>
      cases Codec.handle_cases hnext with
      | delivers nbMsg mail f file file' hdelivering hfile hdeliver =>
          refine .moves hfile (.receives hdeliver fun condition hmem => ?_)
          exact hadmits condition hmem f file mail ⟨⟨nbMsg, hdelivering⟩, hfile⟩
      | _ => exact .same
  | mcu step =>
      rw [(Codec.mcu_cases hnext).sameDriver.files]
      exact .same

/-- A property of files: it holds of every file when it is opened, and the moves of
the file keep it. -/
theorem File.invariant
    (Inv : File → Prop)
    (hopened : ∀ kind slot, slot < maxUsersNb →
      Inv (File.opened kind (BitVec.ofNat 32 slot)))
    (hmoves : ∀ {file file'}, Inv file → FileMoves conditions file file' → Inv file')
    (hrun : CodecRun maxUsersNb conditions codec) :
    ∀ file ∈ codec.files, Inv file := by
  refine hrun.invariant (fun codec => ∀ file ∈ codec.files, Inv file) ?_ ?_
  · intro file hmem
    exact absurd hmem List.not_mem_nil
  · intro codec codec' move _ hinv hadmits hnext file hmem
    have hfiles := filesMove_of_next hadmits hnext
    generalize codec'.files = files at hfiles hmem
    cases hfiles with
    | same => exact hinv file hmem
    | opens kind slot hlt _ =>
        rcases List.mem_append.mp hmem with hmem | hmem
        · exact hinv file hmem
        · rw [List.mem_singleton.mp hmem]
          exact hopened kind slot hlt
    | moves hfile hmove =>
        rcases List.mem_or_eq_of_mem_set hmem with hmem | rfl
        · exact hinv file hmem
        · exact hmoves (hinv _ (List.mem_of_getElem? hfile)) hmove

/-! ## Every file is a user -/

def userConditions (conditions : Set CodecCondition) : Set Condition :=
  fun condition => CodecCondition.files condition ∈ conditions

def File.Reached (file : File) (conditions : Set Condition) : Prop :=
  (userMachine file.kind file.uid).Reach (userRegime conditions) userStart file.config

theorem FileMoves.reached
    (hmoves : FileMoves conditions file file')
    (hreached : file.Reached (userConditions conditions)) :
    file'.Reached (userConditions conditions) := by
  cases hmoves with
  | @enters op config hnext =>
      have hallowed : (userRegime (userConditions conditions)).Allows file.config
          (.enter op) := trivial
      exact hreached.next hallowed hnext
  | @acts i op action choice config hperforms hnext hadmitted =>
      unfold File.Reached
      simp only [File.note_kind, File.note_uid]
      refine hreached.next ?_ hnext
      intro op' action' rest' hcall' condition hmem
      obtain ⟨rest, hcall⟩ := hperforms
      rw [hcall] at hcall'
      obtain ⟨rfl, hprog⟩ := Call.mk.inj (Option.some.inj hcall')
      cases hprog
      exact hadmitted _ hmem
  | receives hdeliver hadmitted =>
      unfold File.deliver at hdeliver
      obtain ⟨config, hnext, rfl⟩ := Option.map_eq_some_iff.mp hdeliver
      refine hreached.next ?_ hnext
      exact fun condition hmem => hadmitted _ hmem

/-- In every run of the codec each file has run as a user. -/
theorem files_reached
    (hrun : CodecRun maxUsersNb conditions codec) :
    ∀ file ∈ codec.files, file.Reached (userConditions conditions) :=
  File.invariant (fun file => file.Reached (userConditions conditions))
    (fun _ _ _ => .start) (fun hreached hmoves => hmoves.reached hreached) hrun

theorem File.Reached.mono
    {user user' : Set Condition} (hreached : file.Reached user) (hsubset : user' ⊆ user) :
    file.Reached user' := by
  apply Machine.Reach.mono hreached
  intro config move hallowed
  cases move with
  | enter op => trivial
  | step i choice =>
      exact fun op action next hcall condition hmem =>
        hallowed op action next hcall condition (hsubset hmem)
  | env mail => exact fun condition hmem => hallowed condition (hsubset hmem)

theorem File.Reached.free
    {user : Set Condition} (hreached : file.Reached user) : file.Reached ∅ :=
  hreached.mono (Set.empty_subset user)

/-- A property of files which are known to have run as users. -/
theorem File.Reached.invariant
    (Inv : File → Prop)
    (hopened : ∀ kind slot, slot < maxUsersNb →
      Inv (File.opened kind (BitVec.ofNat 32 slot)))
    (hmoves : ∀ {file file'}, file.Reached (userConditions conditions) → Inv file →
      FileMoves conditions file file' → Inv file')
    (hrun : CodecRun maxUsersNb conditions codec) :
    ∀ file ∈ codec.files, Inv file := by
  have hboth := File.invariant
    (fun file => file.Reached (userConditions conditions) ∧ Inv file)
    (fun kind slot hlt => ⟨.start, hopened kind slot hlt⟩)
    (fun hinv hmove => ⟨hmove.reached hinv.1, hmoves hinv.1 hinv.2 hmove⟩) hrun
  exact fun file hmem => (hboth file hmem).2

/-! ## Moves keep who a file is -/

@[simp] theorem FileMoves.uid_eq (hmoves : FileMoves conditions file file') :
    file'.uid = file.uid := by
  cases hmoves with
  | enters hnext => rfl
  | acts hperforms hnext hadmitted => exact File.note_uid _ _ _
  | receives hdeliver hadmitted =>
      obtain ⟨-, rfl⟩ := File.deliver_cases hdeliver
      rfl

theorem File.enter_state
    {op : UserOp} {config : UserConfig}
    (hnext : file.machine.next file.config (.enter op) = some config) :
    config.state.bound = file.state.bound ∧ config.state.log = file.state.log ∧
      config.state.queues = file.state.queues ∧
      config.state.chanUid = file.state.chanUid := by
  obtain ⟨state, henter, rfl⟩ := Machine.next_enter_eq_some hnext
  simp only [File.machine, userMachine, userEnter] at henter
  split_ifs at henter
  · obtain rfl := Option.some.inj henter
    exact ⟨rfl, rfl, rfl, rfl⟩
  · obtain rfl := Option.some.inj henter
    exact ⟨rfl, rfl, rfl, rfl⟩

/-- A file on which a call acts is bound. -/
theorem File.Reached.bound_of_acts
    {user : Set Condition} {choice : Choice} {config : UserConfig}
    (hreached : file.Reached user)
    (hnext : file.machine.next file.config (.step i choice) = some config) :
    file.state.bound = true := by
  have hclosing := closingInv_of_reach hreached.free
  obtain ⟨op, action, rest, result, state, hcall, hexec, rfl⟩ :=
    Machine.next_step_eq_some hnext
  simp only [File.machine, userMachine] at hexec
  split at hexec
  · rename_i hsolo
    by_contra hunbound
    obtain ⟨closer, op', out, hcloser, hreturned⟩ :=
      hclosing.unbound (Bool.eq_false_iff.mpr hunbound)
    have hi : closer = i := by simpa [hcloser] using hsolo
    subst hi
    rw [hcall] at hreturned
    injection hreturned with hreturned
    injection hreturned with _ hprog
    cases hprog
  · exact absurd hexec (by simp)

/-- The bound files are those of the table, each under its uid. -/
structure Tabled (maxUsersNb : ℕ) (files : List File) (users : ℕ → Option ℕ) :
    Prop where
  slots : ∀ slot f, users slot = some f →
    ∃ file, files[f]? = some file ∧ file.state.bound = true ∧ file.uid.toNat = slot
  bound : ∀ (f : ℕ) file, files[f]? = some file → file.state.bound = true →
    users file.uid.toNat = some f
  range : ∀ file ∈ files, file.uid.toNat < maxUsersNb

section

variable {files : List File} {users : ℕ → Option ℕ}

theorem getElem?_set_of_some (hfile : files[f]? = some file) :
    (files.set f file')[f]? = some file' :=
  List.getElem?_set_self (List.getElem?_eq_some_iff.mp hfile).1

theorem range_set
    (hfile : files[f]? = some file) (huid : file'.uid = file.uid)
    (hrange : ∀ file ∈ files, file.uid.toNat < maxUsersNb) :
    ∀ file ∈ files.set f file', file.uid.toNat < maxUsersNb := by
  intro other hmem
  rcases List.mem_or_eq_of_mem_set hmem with hmem | rfl
  · exact hrange other hmem
  · rw [huid]
    exact hrange file (List.mem_of_getElem? hfile)

/-- A file moves without being unbound. -/
theorem Tabled.set
    (htabled : Tabled maxUsersNb files users) (hfile : files[f]? = some file)
    (huid : file'.uid = file.uid) (hbound : file'.state.bound = file.state.bound) :
    Tabled maxUsersNb (files.set f file') users := by
  constructor
  · intro slot g hg
    obtain ⟨other, hother, hstill, hslot⟩ := htabled.slots slot g hg
    by_cases hgf : g = f
    · subst hgf
      obtain rfl := Option.some.inj (hfile.symm.trans hother)
      exact ⟨file', getElem?_set_of_some hfile, hbound.trans hstill, huid ▸ hslot⟩
    · exact ⟨other, by rw [List.getElem?_set_ne (Ne.symm hgf)]; exact hother, hstill, hslot⟩
  · intro g other hother hstill
    rcases getElem?_set_cases hother with ⟨rfl, rfl⟩ | ⟨-, hold⟩
    · rw [huid]
      exact htabled.bound g file hfile (hbound ▸ hstill)
    · exact htabled.bound g other hold hstill
  · exact range_set hfile huid htabled.range

/-- A file is unbound. -/
theorem Tabled.unbind
    (htabled : Tabled maxUsersNb files users) (hfile : files[f]? = some file)
    (hbefore : file.state.bound = true) (huid : file'.uid = file.uid)
    (hafter : file'.state.bound = false) :
    Tabled maxUsersNb (files.set f file')
      (Function.update users file.uid.toNat none) := by
  have hslot := htabled.bound f file hfile hbefore
  constructor
  · intro slot g hg
    have hne : slot ≠ file.uid.toNat := by
      rintro rfl
      rw [Function.update_self] at hg
      exact absurd hg (by simp)
    rw [Function.update_of_ne hne] at hg
    obtain ⟨other, hother, hstill, rfl⟩ := htabled.slots slot g hg
    have hgf : g ≠ f := by
      rintro rfl
      obtain rfl := Option.some.inj (hfile.symm.trans hother)
      exact hne rfl
    exact ⟨other, by rw [List.getElem?_set_ne (Ne.symm hgf)]; exact hother, hstill, rfl⟩
  · intro g other hother hstill
    rcases getElem?_set_cases hother with ⟨rfl, rfl⟩ | ⟨hgf, hold⟩
    · rw [hafter] at hstill
      exact absurd hstill (by simp)
    · have hg := htabled.bound g other hold hstill
      have hne : other.uid.toNat ≠ file.uid.toNat := by
        intro heq
        rw [heq, hslot] at hg
        exact hgf (Option.some.inj hg).symm
      rw [Function.update_of_ne hne]
      exact hg
  · exact range_set hfile huid htabled.range

/-- A file is opened in a free slot. -/
theorem Tabled.open
    {kind : UserKind} {slot : ℕ} (hmax : maxUsersNb < 2 ^ 31)
    (htabled : Tabled maxUsersNb files users) (hlt : slot < maxUsersNb)
    (hfree : users slot = none) :
    Tabled maxUsersNb (files ++ [File.opened kind (BitVec.ofNat 32 slot)])
      (Function.update users slot (some files.length)) := by
  have huid : (BitVec.ofNat 32 slot).toNat = slot := by
    rw [BitVec.toNat_ofNat]
    exact Nat.mod_eq_of_lt (by omega)
  constructor
  · intro other g hg
    by_cases hother : other = slot
    · subst hother
      rw [Function.update_self, Option.some.injEq] at hg
      subst hg
      exact ⟨_, List.getElem?_concat_length, rfl, huid⟩
    · rw [Function.update_of_ne hother] at hg
      obtain ⟨file, hfile, hstill, hslot⟩ := htabled.slots other g hg
      have hold : g < files.length := (List.getElem?_eq_some_iff.mp hfile).1
      exact ⟨file, by rw [List.getElem?_append_left hold]; exact hfile, hstill, hslot⟩
  · intro g file hfile hstill
    rcases getElem?_concat_cases hfile with hold | ⟨rfl, rfl⟩
    · have hg := htabled.bound g file hold hstill
      have hne : file.uid.toNat ≠ slot := by
        intro heq
        rw [heq, hfree] at hg
        exact absurd hg (by simp)
      rw [Function.update_of_ne hne]
      exact hg
    · rw [show (File.opened kind (BitVec.ofNat 32 slot)).uid.toNat = slot from huid,
        Function.update_self]
  · intro file hmem
    rcases List.mem_append.mp hmem with hmem | hmem
    · exact htabled.range file hmem
    · rw [List.mem_singleton.mp hmem]
      exact huid.trans_lt hlt

end

theorem UserAct.effect_unbind (choice : Choice) : UserAct.unbind.effect choice = .unbinds := by
  cases choice <;> rfl

theorem UserAct.eq_unbind_of_effect
    {action : UserAct} {choice : Choice} (heffect : action.effect choice = .unbinds) :
    action = .unbind := by
  cases action with
  | unbind => rfl
  | send mail => cases choice <;> exact nomatch heffect
  | _ => cases choice <;> exact nomatch heffect

theorem act_unbind
    {state state' : UserState} {choice : Choice} {result : Unit}
    (hact : state.act i .unbind choice = some (result, state')) : state'.bound = false := by
  cases choice with
  | succeed =>
      obtain ⟨-, rfl⟩ := Prod.mk.inj (Option.some.inj hact)
      rfl
  | _ => exact absurd hact (by simp [UserState.act])

theorem Codec.McuDoes.users_eq
    {step : McuStep} (hdoes : Codec.McuDoes codec step codec') :
    codec'.users = codec.users := by
  cases hdoes <;> rfl

theorem Tabled.call
    {user : Set Condition} {choice : Choice}
    (hreached : ∀ file ∈ codec.files, file.Reached user)
    (htabled : Tabled maxUsersNb codec.files codec.users)
    (hcall : codec.call f i choice = some codec') :
    Tabled maxUsersNb codec'.files codec'.users := by
  obtain ⟨file, file', effect, codec₁, hfile, hstep, houtside, rfl⟩ :=
    Codec.call_cases hcall
  obtain ⟨op, action, config, hperforms, hconfig, rfl, rfl⟩ := File.step_cases hstep
  obtain ⟨result, hact⟩ := File.step_state hperforms hconfig
  have huid : ({ file.note op action with config := config } : File).uid = file.uid :=
    File.note_uid file op action
  by_cases hunbind : action = .unbind
  · subst hunbind
    rw [UserAct.effect_unbind] at houtside
    cases houtside with
    | unbinds hidle =>
        have hbefore := (hreached file (List.mem_of_getElem? hfile)).bound_of_acts hconfig
        exact htabled.unbind hfile hbefore huid (act_unbind hact)
  · have hbound := (act_log hact).2.1 hunbind
    have hset := htabled.set hfile huid hbound
    generalize heffect : action.effect choice = effect at houtside
    cases houtside with
    | nothing => exact hset
    | sends mail => exact hset
    | unbinds hidle => exact absurd (UserAct.eq_unbind_of_effect heffect) hunbind

/-- A move keeps the table. -/
theorem Tabled.next
    {user : Set Condition} (hmax : maxUsersNb < 2 ^ 31)
    (hreached : ∀ file ∈ codec.files, file.Reached user)
    (htabled : Tabled maxUsersNb codec.files codec.users)
    (hnext : codecNext maxUsersNb codec move = some codec') :
    Tabled maxUsersNb codec'.files codec'.users := by
  cases move with
  | bind kind =>
      obtain ⟨-, slot, -, hlt, hfree, rfl⟩ := Codec.bindUser_cases hnext
      exact htabled.open hmax hlt hfree
  | enter f op =>
      obtain ⟨file, config, hfile, henter, rfl⟩ := Codec.enter_cases hnext
      exact htabled.set hfile rfl (File.enter_state henter).1
  | call f i choice => exact htabled.call hreached hnext
  | interrupt =>
      obtain ⟨-, rfl⟩ := Codec.interrupt_cases hnext
      exact htabled
  | handle choice =>
      cases Codec.handle_cases hnext with
      | delivers nbMsg mail f file file' hdelivering hfile hdeliver =>
          obtain ⟨-, rfl⟩ := File.deliver_cases hdeliver
          exact htabled.set hfile rfl rfl
      | _ => exact htabled
  | mcu step =>
      have hdoes := Codec.mcu_cases hnext
      rw [hdoes.sameDriver.files, hdoes.users_eq]
      exact htabled

/-- In every run the table lists the bound files. -/
theorem codec_tabled
    (hmax : maxUsersNb < 2 ^ 31) (hrun : CodecRun maxUsersNb conditions codec) :
    Tabled maxUsersNb codec.files codec.users := by
  refine hrun.invariant (fun codec => Tabled maxUsersNb codec.files codec.users) ?_ ?_
  · exact ⟨fun slot f hf => absurd hf (by simp [codecStart]),
      fun f file hfile => absurd hfile (by simp [codecStart]),
      fun file hmem => absurd hmem List.not_mem_nil⟩
  · exact fun hsteps htabled _ hnext => htabled.next hmax (files_reached hsteps) hnext

/-! ## What lies in the queues -/

/-- A pop takes mails out of a queue. -/
theorem File.mem_queued_of_note
    {op : UserOp} {action : UserAct} {which : UserMail} {mail : McuMail}
    (hmem : mail ∈ (file.note op action).queued which) : mail ∈ file.queued which := by
  cases action with
  | listPop other =>
      change mail ∈ Function.update file.queued other (file.queued other).tail which at hmem
      by_cases hwhich : which = other
      · subst hwhich
        rw [Function.update_self] at hmem
        exact List.mem_of_mem_tail hmem
      · rwa [Function.update_of_ne hwhich] at hmem
  | _ => exact hmem

/-- A delivery adds its mail to a queue. -/
theorem File.mem_queued_of_deliver
    {which : UserMail} {mail new : McuMail} (hdeliver : file.deliver new = some file')
    (hmem : mail ∈ file'.queued which) : mail ∈ file.queued which ∨ mail = new := by
  obtain ⟨-, rfl⟩ := File.deliver_cases hdeliver
  change mail ∈ Function.update file.queued (mailToQueue new.mail.uid?) _ which at hmem
  by_cases hwhich : which = mailToQueue new.mail.uid?
  · subst hwhich
    rw [Function.update_self] at hmem
    exact (List.mem_append.mp hmem).imp_right List.mem_singleton.mp
  · rw [Function.update_of_ne hwhich] at hmem
    exact .inl hmem

/-- What holds of every mail that is delivered to a file holds of those in its
queues. -/
theorem queued_of_run
    (P : ℕ → McuMail → Prop)
    (hdelivers : ∀ codec, CodecRun maxUsersNb conditions codec →
      ∀ f file mail, codec.Delivers f file mail → P f mail)
    (hrun : CodecRun maxUsersNb conditions codec) :
    ∀ (f : ℕ) file, codec.files[f]? = some file → ∀ which,
      ∀ mail ∈ file.queued which, P f mail := by
  refine hrun.invariant (fun codec => ∀ (f : ℕ) file, codec.files[f]? = some file →
    ∀ which, ∀ mail ∈ file.queued which, P f mail) ?_ ?_
  · exact fun f file hfile => absurd hfile (by simp [codecStart])
  · intro codec codec' move hsteps hqueued hadmits hnext
    cases move with
    | bind kind =>
        obtain ⟨-, slot, -, -, -, rfl⟩ := Codec.bindUser_cases hnext
        intro f file hfile which mail hmem
        rcases getElem?_concat_cases hfile with hold | ⟨-, rfl⟩
        · exact hqueued f file hold which mail hmem
        · exact absurd hmem List.not_mem_nil
    | enter f op =>
        obtain ⟨file, config, hfile, henter, rfl⟩ := Codec.enter_cases hnext
        intro g other hother which mail hmem
        rcases getElem?_set_cases hother with ⟨rfl, rfl⟩ | ⟨-, hold⟩
        · exact hqueued g file hfile which mail hmem
        · exact hqueued g other hold which mail hmem
    | call f i choice =>
        obtain ⟨file, file', effect, codec₁, hfile, hstep, houtside, rfl⟩ :=
          Codec.call_cases hnext
        obtain ⟨op, action, config, -, -, rfl, -⟩ := File.step_cases hstep
        intro g other hother which mail hmem
        rcases getElem?_set_cases hother with ⟨rfl, rfl⟩ | ⟨-, hold⟩
        · exact hqueued g file hfile which mail (File.mem_queued_of_note hmem)
        · exact hqueued g other hold which mail hmem
    | interrupt =>
        obtain ⟨-, rfl⟩ := Codec.interrupt_cases hnext
        exact hqueued
    | handle choice =>
        cases Codec.handle_cases hnext with
        | delivers nbMsg mail f file file' hdelivering hfile hdeliver =>
            intro g other hother which mail' hmem
            rcases getElem?_set_cases hother with ⟨rfl, rfl⟩ | ⟨-, hold⟩
            · rcases File.mem_queued_of_deliver hdeliver hmem with hmem | rfl
              · exact hqueued g file hfile which mail' hmem
              · exact hdelivers codec hsteps g file mail' ⟨⟨nbMsg, hdelivering⟩, hfile⟩
            · exact hqueued g other hold which mail' hmem
        | _ => exact hqueued
    | mcu step =>
        rw [(Codec.mcu_cases hnext).sameDriver.files]
        exact hqueued

/-- What a call logs is what a user may do. -/
theorem File.Reached.okEvent
    {user : Set Condition} {event : Event} (hreached : file'.Reached user)
    (hlog : file'.state.log = event :: file.state.log) :
    OkEvent file'.uid user file.state.hist event := by
  have hevents := (user_inv hreached).events
  change EachEvent _ file'.state.log at hevents
  rw [hlog] at hevents
  exact (eachEvent_cons.mp hevents).1

/-- A mail which a call sends is one that the user may send. -/
theorem File.okSent_of_acts
    {mail : Al5Mail} {choice : Choice} {config : UserConfig} {op : UserOp}
    {action : UserAct} (hperforms : file.Performs i op action)
    (hreached : ({ file.note op action with config := config } : File).Reached
      (userConditions conditions))
    (hnext : file.machine.next file.config (.step i choice) = some config)
    (hsends : action.effect choice = .sends mail) :
    OkSent file.uid (userConditions conditions) file.state.hist mail := by
  obtain ⟨result, hact⟩ := File.step_state hperforms hnext
  cases action with
  | send sent =>
      cases choice with
      | succeed =>
          injection hsends with hmail
          subst hmail
          obtain ⟨-, hstate⟩ := Prod.mk.inj (Option.some.inj hact)
          have hlog : config.state.log = .sent i sent :: file.state.log := by
            rw [← hstate]
            rfl
          have hok : OkEvent _ _ file.state.hist (.sent i sent) := hreached.okEvent hlog
          exact hok
      | _ => exact nomatch hsends
  | unbind => cases choice <;> exact nomatch hsends
  | _ => cases choice <;> exact nomatch hsends

/-- The command of `destroy_orphan_channel`. -/
structure Command.Cleans (command : Command) (mail : McuMail) : Prop where
  uid : command.mail.uid? = some .quietDestroyChannel
  chanUid : mailChanUid command.mail = al5MailGetChanUid mail.mail
  sender : command.sender = none
  grant : command.grant = mail.grant

/-- `destroy_orphan_channel` adds its command, or nothing. -/
theorem Codec.destroyOrphanChannel_cases (mail : McuMail) (choice : Choice) :
    codec.destroyOrphanChannel mail choice = codec.commands ∨
      ∃ command : Command, command.Cleans mail ∧
        codec.destroyOrphanChannel mail choice = codec.commands ++ [command] := by
  unfold destroyOrphanChannel
  split
  · rename_i command hbuilt
    have hnames := builds_emptyMail .quietDestroyChannel _ true command hbuilt
    exact .inr ⟨_, ⟨hnames.uid?_eq, hnames.mailChanUid_eq, rfl, rfl⟩, rfl⟩
  · exact .inl rfl

/-! ## The mail which the handler holds -/

theorem Handler.held_rejected (nbMsg : ℕ) (mail : McuMail) :
    (Handler.rejected nbMsg mail).held = [mail] := by
  unfold Handler.rejected
  split <;> rfl

theorem Codec.held_route (nbMsg : ℕ) (mail : McuMail) (codec : Codec) :
    (codec.route maxUsersNb nbMsg mail).held = [mail] := by
  unfold route
  split
  · rfl
  · split
    · rfl
    · exact Handler.held_rejected nbMsg mail
  · split
    · rfl
    · exact Handler.held_rejected nbMsg mail
  · split
    · rfl
    · exact Handler.held_rejected nbMsg mail
  · rfl

theorem Codec.held_scan (nbMsg : ℕ) (mail : McuMail) (slot : ℕ) (codec : Codec) :
    (codec.scan maxUsersNb nbMsg mail slot).held = [mail] := by
  unfold scan
  split
  · split
    · split <;> rfl
    · rfl
  · exact Handler.held_rejected nbMsg mail

/-! ## Mails for which a file is looked for -/

/-- The mails for which the handler has still to find a file, in their order. -/
def Codec.arriving (codec : Codec) : List McuMail :=
  codec.handler.pending ++ codec.statuses

namespace Codec

theorem arriving_emit
    {mail : McuMail} (hhandler : codec'.handler = codec.handler)
    (hstatuses : codec'.statuses = codec.statuses ++ [mail]) :
    codec'.arriving = codec.arriving ++ [mail] := by
  unfold arriving
  rw [hhandler, hstatuses, List.append_assoc]

theorem Routes.pending
    {nbMsg : ℕ} {mail : McuMail} {handler : Handler}
    (hroutes : Routes maxUsersNb codec nbMsg mail handler) :
    handler.pending.Sublist [mail] := by
  cases hroutes with
  | frees hother hchan => exact List.nil_sublist _
  | orphans hcreate hnotFound => exact List.nil_sublist _
  | finds f hchan hnamed => exact List.Sublist.refl _
  | scans hcreate hinit hsearch htrace => exact List.Sublist.refl _

theorem Scans.pending
    {nbMsg slot : ℕ} {mail : McuMail} {handler : Handler}
    (hscans : Scans maxUsersNb codec nbMsg mail slot handler) :
    handler.pending.Sublist [mail] := by
  cases hscans with
  | finds f hlt huser hhas => exact List.Sublist.refl _
  | passes hlt hhasNot => exact List.Sublist.refl _
  | orphans hle hshould => exact List.nil_sublist _
  | frees hle hshould => exact List.nil_sublist _

/-- No step of the handler but a delivery concerns the files, and none adds a mail. -/
theorem Handles.arriving
    {choice : Choice} (hhandles : Handles maxUsersNb choice codec codec') :
    codec'.arriving.Sublist codec.arriving ∧ codec'.files = codec.files ∨
      ∃ nbMsg mail f file file', codec.handler = .delivering nbMsg mail f ∧
        codec.files[f]? = some file ∧ file.deliver mail = some file' ∧
        codec.arriving = mail :: codec'.arriving ∧
        codec'.files = codec.files.set f file' := by
  unfold Codec.arriving
  cases hhandles with
  | reads nbMsg mail rest hlooking hstatuses =>
      rw [hlooking, hstatuses]
      exact .inl ⟨List.Sublist.refl _, rfl⟩
  | leaves nbMsg hlooking =>
      rw [hlooking]
      exact .inl ⟨List.Sublist.refl _, rfl⟩
  | routes nbMsg mail hrouting =>
      rw [hrouting]
      exact .inl ⟨(route_cases nbMsg mail).pending.append (List.Sublist.refl _), rfl⟩
  | scans nbMsg mail slot hscanning =>
      rw [hscanning]
      exact .inl ⟨(scan_cases nbMsg mail slot).pending.append (List.Sublist.refl _), rfl⟩
  | delivers nbMsg mail f file file' hdelivering hfile hdeliver =>
      refine .inr ⟨nbMsg, mail, f, file, file', hdelivering, hfile, hdeliver, ?_, rfl⟩
      rw [hdelivering]
      rfl
  | destroysOrphan nbMsg mail horphaning =>
      rw [horphaning]
      exact .inl ⟨List.Sublist.refl _, rfl⟩
  | frees nbMsg mail hfreeing =>
      rw [hfreeing]
      exact .inl ⟨List.Sublist.refl _, rfl⟩

end Codec

end VcuDriver

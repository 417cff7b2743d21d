import VcuDriver.CodecFiles
import VcuDriver.UserDestroy

/-!
# Replies that are routed by user

The replies to the creation of a channel and to a search name the user that asked,
by the number of its slot.  A slot is bound again as soon as it is free, so a reply
that comes late goes to whoever has the slot then.
-/

namespace VcuDriver

open Conc

variable {maxUsersNb f i : ℕ} {conditions : Set CodecCondition}
variable {file file' : File} {codec codec' : Codec} {move : CodecMove}

def McuMail.IsReply (mail : McuMail) : Prop :=
  mail.mail.uid? = some .createChannel ∨ mail.mail.uid? = some .searchStartCode

/-- Every reply that is delivered to a file, or lies in one of its queues, answers a
request of that file. -/
structure Codec.RepliesOwn (codec : Codec) : Prop where
  delivered : ∀ f file mail, codec.Delivers f file mail → mail.IsReply →
    mail.asker = some f
  queued : ∀ (f : ℕ) file, codec.files[f]? = some file → ∀ which,
    ∀ mail ∈ file.queued which, mail.IsReply → mail.asker = some f

/-! ## Requests and replies on their way -/

theorem replyUser_of_not_reply
    {mail : Al5Mail} (hcreate : mail.uid? ≠ some .createChannel)
    (hsearch : mail.uid? ≠ some .searchStartCode) : replyUser mail = none := by
  unfold replyUser
  split
  · rename_i huid
    exact absurd huid hcreate
  · rename_i huid
    exact absurd huid hsearch
  · rfl

/-- A request which a file sends names the slot of the file. -/
theorem requestUser_of_okSent
    {user : Set Condition} {hist : Hist} {mail : Al5Mail} {uid uid' : Word}
    (hok : OkSent uid user hist mail) (hrequest : requestUser mail = some uid') :
    uid' = uid := by
  unfold requestUser at hrequest
  unfold OkSent at hok
  split at hrequest
  · rename_i huid
    rw [huid] at hok
    exact (Option.some.inj hrequest).symm.trans hok.1
  · rename_i huid
    rw [huid] at hok
    exact (Option.some.inj hrequest).symm.trans hok
  · exact absurd hrequest (by simp)

namespace Codec

theorem mem_outstanding {entry : Word × Option ℕ} :
    entry ∈ codec.outstanding ↔
      (∃ command, (command ∈ codec.commands ∨ command ∈ codec.taken) ∧
        (requestUser command.mail).map (fun uid => (uid, command.sender)) = some entry) ∨
      ∃ mail ∈ codec.arriving,
        (replyUser mail.mail).map (fun uid => (uid, mail.asker)) = some entry := by
  simp only [Codec.outstanding, arriving, List.mem_append, List.mem_filterMap]

/-- No request and no reply is new. -/
def Subsides (codec codec' : Codec) : Prop :=
  ∀ entry ∈ codec'.outstanding, entry ∈ codec.outstanding

theorem subsides_of_arriving
    (hcommands : codec'.commands = codec.commands)
    (hsearches : codec'.taken = codec.taken)
    (harriving : ∀ mail ∈ codec'.arriving, mail ∈ codec.arriving) :
    Subsides codec codec' := by
  intro entry hentry
  rcases mem_outstanding.mp hentry with ⟨command, hmem, hrequest⟩ | ⟨mail, hmem, hreply⟩
  · rw [hcommands, hsearches] at hmem
    exact mem_outstanding.mpr (.inl ⟨command, hmem, hrequest⟩)
  · exact mem_outstanding.mpr (.inr ⟨mail, harriving mail hmem, hreply⟩)

/-- The MCU takes requests, and what it emits answers one of them or is no reply. -/
theorem subsides_of_mcu
    (hhandler : codec'.handler = codec.handler)
    (hcommands : ∀ command, command ∈ codec'.commands ∨ command ∈ codec'.taken →
      command ∈ codec.commands ∨ command ∈ codec.taken)
    (hstatuses : ∀ mail ∈ codec'.statuses, mail ∈ codec.statuses ∨
      ∀ uid, replyUser mail.mail = some uid →
        ∃ command, (command ∈ codec.commands ∨ command ∈ codec.taken) ∧
          requestUser command.mail = some uid ∧ command.sender = mail.asker) :
    Subsides codec codec' := by
  intro entry hentry
  rcases mem_outstanding.mp hentry with ⟨command, hmem, hrequest⟩ | ⟨mail, hmem, hreply⟩
  · exact mem_outstanding.mpr (.inl ⟨command, hcommands command hmem, hrequest⟩)
  · unfold arriving at hmem
    rw [hhandler] at hmem
    rcases List.mem_append.mp hmem with hmem | hmem
    · exact mem_outstanding.mpr (.inr ⟨mail, List.mem_append_left _ hmem, hreply⟩)
    · rcases hstatuses mail hmem with hold | hnew
      · exact mem_outstanding.mpr (.inr ⟨mail, List.mem_append_right _ hold, hreply⟩)
      · obtain ⟨uid, huid, rfl⟩ := Option.map_eq_some_iff.mp hreply
        obtain ⟨command, hmem, hrequest, hsender⟩ := hnew uid huid
        refine mem_outstanding.mpr (.inl ⟨command, hmem, ?_⟩)
        rw [hrequest, ← hsender]
        rfl

theorem Handles.subsides
    {choice : Choice} (hhandles : Handles maxUsersNb choice codec codec') :
    Subsides codec codec' := by
  have harriving : ∀ mail ∈ codec'.arriving, mail ∈ codec.arriving := by
    intro mail hmem
    rcases hhandles.arriving with ⟨hsublist, -⟩ | ⟨_, _, _, _, _, -, -, -, heq, -⟩
    · exact hsublist.subset hmem
    · rw [heq]
      exact List.mem_cons_of_mem _ hmem
  cases hhandles with
  | destroysOrphan nbMsg mail horphaning =>
      intro entry hentry
      rcases mem_outstanding.mp hentry with ⟨command, hmem, hrequest⟩ | ⟨reply, hmem, hreply⟩
      · rcases hmem with hmem | hmem
        · change command ∈ codec.destroyOrphanChannel mail choice at hmem
          rcases codec.destroyOrphanChannel_cases mail choice with hsame | ⟨new, hcleans, hnew⟩
          · rw [hsame] at hmem
            exact mem_outstanding.mpr (.inl ⟨command, .inl hmem, hrequest⟩)
          · rw [hnew] at hmem
            rcases List.mem_append.mp hmem with hmem | hmem
            · exact mem_outstanding.mpr (.inl ⟨command, .inl hmem, hrequest⟩)
            · rw [List.mem_singleton.mp hmem] at hrequest
              simp [requestUser, hcleans.uid] at hrequest
        · exact mem_outstanding.mpr (.inl ⟨command, .inr hmem, hrequest⟩)
      · exact mem_outstanding.mpr (.inr ⟨reply, harriving reply hmem, hreply⟩)
  | _ => exact subsides_of_arriving rfl rfl harriving

theorem mem_statuses_append
    {statuses : List McuMail} {new mail : McuMail} {P : McuMail → Prop}
    (hmem : mail ∈ statuses ++ [new]) (hnew : P new) : mail ∈ statuses ∨ P mail := by
  rcases List.mem_append.mp hmem with hmem | hmem
  · exact .inl hmem
  · exact .inr (List.mem_singleton.mp hmem ▸ hnew)

/-- A reply to a command echoes the user which the command names. -/
theorem requestUser_of_echoes
    {reply : Al5Mail} {command : Command} {mailUid : MailUid} {uid : Word}
    (huid : command.mail.uid? = some mailUid)
    (hechoes : reply.Echoes mailUid (routeWord (some mailUid)) (mailChanUid command.mail))
    (hreply : replyUser reply = some uid) : requestUser command.mail = some uid := by
  unfold replyUser at hreply
  unfold requestUser
  rw [hechoes.1] at hreply
  rw [huid]
  cases mailUid with
  | createChannel =>
      rw [← Option.some.inj hreply, hechoes.2]
  | searchStartCode =>
      rw [← Option.some.inj hreply, hechoes.2]
  | _ => exact absurd hreply (by simp)

/-- The MCU answers a command which it has taken. -/
theorem subsides_of_answer
    {index : ℕ} {reply : Al5Mail} {command : Command} {mailUid : MailUid}
    (grant : Option ℕ) (htaken : codec.taken[index]? = some command)
    (huid : command.mail.uid? = some mailUid)
    (hechoes : reply.Echoes mailUid (routeWord (some mailUid)) (mailChanUid command.mail))
    (hhandler : codec'.handler = codec.handler) (hcommands : codec'.commands = codec.commands)
    (htaken' : codec'.taken = codec.taken.eraseIdx index)
    (hstatuses : codec'.statuses =
      codec.statuses ++ [⟨reply, command.sender, grant, none⟩]) :
    Subsides codec codec' := by
  refine subsides_of_mcu hhandler ?_ ?_
  · rw [hcommands, htaken']
    exact fun other hmem => hmem.imp_right List.mem_of_mem_eraseIdx
  · rw [hstatuses]
    intro mail hmem
    apply mem_statuses_append hmem
    intro uid hreply
    exact ⟨command, .inr (List.mem_of_getElem? htaken),
      requestUser_of_echoes huid hechoes hreply, rfl⟩

theorem McuDoes.subsides
    {step : McuStep} (hmodelled : .modelled ∈ conditions)
    (hadmits : codecAdmits maxUsersNb conditions codec (.mcu step))
    (hdoes : McuDoes codec step codec') : Subsides codec codec' := by
  have hsilent : ∀ {mail : Al5Mail} {P : Prop} {uid : Word},
      mail.uid? ≠ some .createChannel → mail.uid? ≠ some .searchStartCode →
        replyUser mail = some uid → P := by
    intro mail P uid hcreate hsearch hreply
    rw [replyUser_of_not_reply hcreate hsearch] at hreply
    exact absurd hreply (by simp)
  cases hdoes with
  | keeps command rest hcommands huid =>
      refine subsides_of_mcu rfl ?_ fun mail hmem => .inl hmem
      rw [hcommands]
      rintro other (hmem | hmem)
      · exact .inl (List.mem_cons_of_mem command hmem)
      · rcases List.mem_append.mp hmem with hmem | hmem
        · exact .inr hmem
        · rw [List.mem_singleton.mp hmem]
          exact .inl List.mem_cons_self
  | takes command rest hcommands =>
      refine subsides_of_mcu rfl ?_ fun mail hmem => .inl hmem
      rw [hcommands]
      exact fun other hmem => hmem.imp_left (List.mem_cons_of_mem command)
  | creates index chanUid reply command htaken huid hgood hdead hnames hechoes =>
      exact subsides_of_answer _ htaken huid hechoes rfl rfl rfl rfl
  | refuses index reply command htaken huid hbad hechoes =>
      exact subsides_of_answer _ htaken huid hechoes rfl rfl rfl rfl
  | finds index reply command htaken huid hechoes =>
      exact subsides_of_answer _ htaken huid hechoes rfl rfl rfl rfl
  | destroys reply command rest hcommands huid hechoes =>
      refine subsides_of_mcu rfl ?_ ?_
      · rw [hcommands]
        exact fun other hmem => hmem.imp_left (List.mem_cons_of_mem command)
      · intro mail hmem
        apply mem_statuses_append hmem
        exact fun uid => hsilent (by rw [hechoes.1]; simp) (by rw [hechoes.1]; simp)
  | destroysQuietly command rest hcommands huid =>
      refine subsides_of_mcu rfl ?_ fun mail hmem => .inl hmem
      rw [hcommands]
      exact fun other hmem => hmem.imp_left (List.mem_cons_of_mem command)
  | feeds mail grant hlive hfeedback =>
      refine subsides_of_mcu rfl (fun _ h => h) ?_
      intro other hmem
      apply mem_statuses_append hmem
      refine fun uid => hsilent ?_ ?_ <;> rintro huid <;> rw [huid] at hfeedback <;>
        exact absurd hfeedback Bool.false_ne_true
  | emits mail =>
      refine subsides_of_mcu rfl (fun _ h => h) ?_
      intro other hmem
      apply mem_statuses_append hmem
      intro uid
      rcases hadmits _ hmodelled with huid | huid
      · exact hsilent (by rw [huid]; simp) (by rw [huid]; simp)
      · exact hsilent (by rw [huid]; simp) (by rw [huid]; simp)

/-- Only an action of a bound file adds a request, and it names the slot of the file. -/
theorem outstanding_next
    (hmodelled : .modelled ∈ conditions) (hrun : CodecRun maxUsersNb conditions codec)
    (hadmits : codecAdmits maxUsersNb conditions codec move)
    (hnext : codecNext maxUsersNb codec move = some codec') :
    ∀ entry ∈ codec'.outstanding, entry ∈ codec.outstanding ∨
      ∃ f i choice file, move = .call f i choice ∧ codec.files[f]? = some file ∧
        file.state.bound = true ∧ codec'.users = codec.users ∧
          entry = (file.uid, some f) := by
  have hreached' := files_reached (.next hrun hadmits hnext)
  intro entry hentry
  cases move with
  | bind kind =>
      obtain ⟨-, slot, -, -, -, rfl⟩ := bindUser_cases hnext
      exact .inl hentry
  | enter f op =>
      obtain ⟨file, config, -, -, rfl⟩ := enter_cases hnext
      exact .inl hentry
  | call f i choice =>
      obtain ⟨file, file', effect, codec₁, hfile, hstep, houtside, rfl⟩ :=
        call_cases hnext
      obtain ⟨op, action, config, hperforms, hconfig, rfl, heffect⟩ :=
        File.step_cases hstep
      cases houtside with
      | nothing => exact .inl hentry
      | unbinds hidle => exact .inl hentry
      | sends mail =>
          have hok : OkSent file.uid (userConditions conditions) file.state.hist mail := by
            refine File.okSent_of_acts hperforms (hreached' _ ?_) hconfig heffect.symm
            exact List.mem_of_getElem? (getElem?_set_of_some hfile)
          have hbound := (files_reached hrun file
            (List.mem_of_getElem? hfile)).bound_of_acts hconfig
          rcases mem_outstanding.mp hentry with ⟨command, hmem, hrequest⟩ | hmail
          · rcases hmem with hmem | hmem
            · rcases List.mem_append.mp hmem with hmem | hmem
              · exact .inl (mem_outstanding.mpr (.inl ⟨command, .inl hmem, hrequest⟩))
              · -- The new request names the slot of its sender.
                rw [List.mem_singleton.mp hmem] at hrequest
                obtain ⟨uid, huid, rfl⟩ := Option.map_eq_some_iff.mp hrequest
                obtain rfl := requestUser_of_okSent hok huid
                exact .inr ⟨f, i, choice, file, rfl, hfile, hbound, rfl, rfl⟩
            · exact .inl (mem_outstanding.mpr (.inl ⟨command, .inr hmem, hrequest⟩))
          · exact .inl (mem_outstanding.mpr (.inr hmail))
  | interrupt =>
      obtain ⟨hidle, rfl⟩ := interrupt_cases hnext
      have hsubsides : Subsides codec { codec with handler := .looking 0 } := by
        refine subsides_of_arriving rfl rfl fun mail hmem => ?_
        unfold arriving
        rw [hidle]
        exact hmem
      exact .inl (hsubsides entry hentry)
  | handle choice => exact .inl ((handle_cases hnext).subsides entry hentry)
  | mcu step =>
      exact .inl ((mcu_cases hnext).subsides hmodelled hadmits entry hentry)

/-! ## The invariant -/

/-- The request or reply belongs to a file, and the slot which it names is free or
still that of the file. -/
def OwnsSlot (users : ℕ → Option ℕ) (entry : Word × Option ℕ) : Prop :=
  ∃ f, entry.2 = some f ∧ ∀ g, users entry.1.toNat = some g → g = f

theorem OwnsSlot.mono
    {users users' : ℕ → Option ℕ} {entry : Word × Option ℕ}
    (howns : OwnsSlot users entry)
    (hless : ∀ slot g, users' slot = some g → users slot = some g) :
    OwnsSlot users' entry := by
  obtain ⟨f, hasker, howner⟩ := howns
  exact ⟨f, hasker, fun g hg => howner g (hless _ g hg)⟩

structure Routed (codec : Codec) : Prop where
  outstanding : ∀ entry ∈ codec.outstanding, OwnsSlot codec.users entry
  scanning : ∀ nbMsg mail slot, codec.handler = .scanning nbMsg mail slot →
    ¬ mail.IsReply
  delivering : ∀ nbMsg mail f, codec.handler = .delivering nbMsg mail f →
    mail.IsReply → codec.users
      (al5MailGetWord mail.mail (routeWord mail.mail.uid?)).toNat = some f

theorem replyUser_eq {mail : McuMail} (hreply : mail.IsReply) :
    replyUser mail.mail = some (al5MailGetWord mail.mail (routeWord mail.mail.uid?)) := by
  unfold replyUser
  rcases hreply with huid | huid <;> simp [huid]

/-- A pending reply is owned by the file of its slot. -/
theorem Routed.asker_eq
    (hrouted : codec.Routed) {nbMsg : ℕ} {mail : McuMail}
    (hdelivering : codec.handler = .delivering nbMsg mail f) (hreply : mail.IsReply) :
    mail.asker = some f := by
  have hslot := hrouted.delivering nbMsg mail f hdelivering hreply
  have hmem : mail ∈ codec.arriving := by
    unfold arriving
    rw [hdelivering]
    exact List.mem_cons_self
  obtain ⟨g, hasker, howner⟩ := hrouted.outstanding (_, mail.asker)
    (mem_outstanding.mpr (.inr ⟨mail, hmem, by rw [replyUser_eq hreply]; rfl⟩))
  rw [howner f hslot]
  exact hasker

/-- The slots which requests and replies name are still owned after a move. -/
theorem Routed.outstanding_next
    (hmax : maxUsersNb < 2 ^ 31) (hmodelled : .modelled ∈ conditions)
    (hunnamed : .bindsUnnamed ∈ conditions) (hrun : CodecRun maxUsersNb conditions codec)
    (hrouted : codec.Routed) (hadmits : codecAdmits maxUsersNb conditions codec move)
    (hnext : codecNext maxUsersNb codec move = some codec') :
    ∀ entry ∈ codec'.outstanding, OwnsSlot codec'.users entry := by
  intro entry hentry
  rcases Codec.outstanding_next hmodelled hrun hadmits hnext entry hentry with
    hold | ⟨f, i, choice, file, rfl, hfile, hbound, husers, rfl⟩
  · have howns := hrouted.outstanding entry hold
    cases move with
    | bind kind =>
        obtain ⟨-, slot, hslot, -, -, rfl⟩ := bindUser_cases hnext
        obtain ⟨f, hasker, howner⟩ := howns
        refine ⟨f, hasker, fun g hg => ?_⟩
        have hne : entry.1.toNat ≠ slot := by
          rintro rfl
          apply hadmits _ hunnamed rfl _ hslot
          rw [BitVec.ofNat_toNat]
          exact List.mem_map_of_mem hold
        change Function.update codec.users slot _ _ = some g at hg
        rw [Function.update_of_ne hne] at hg
        exact howner g hg
    | call f i choice =>
        obtain ⟨file, file', effect, codec₁, -, -, houtside, rfl⟩ := call_cases hnext
        cases houtside with
        | nothing => exact howns
        | sends mail => exact howns
        | unbinds hidle =>
            refine howns.mono fun slot g hg => ?_
            change Function.update codec.users _ none _ = some g at hg
            by_cases hne : slot = file.uid.toNat
            · subst hne
              rw [Function.update_self] at hg
              exact absurd hg (by simp)
            · rwa [Function.update_of_ne hne] at hg
    | enter f op =>
        obtain ⟨file, config, -, -, rfl⟩ := enter_cases hnext
        exact howns
    | interrupt =>
        obtain ⟨-, rfl⟩ := interrupt_cases hnext
        exact howns
    | handle choice => cases handle_cases hnext <;> exact howns
    | mcu step =>
        rw [(mcu_cases hnext).users_eq]
        exact howns
  · -- A new request names the slot of its sender, which is bound.
    rw [husers]
    have hslot := (codec_tabled hmax hrun).bound f file hfile hbound
    exact ⟨f, rfl, fun g hg => Option.some.inj (hg.symm.trans hslot)⟩

/-- What the handler has found stays so while it holds the lock of the group. -/
theorem Routed.of_handler
    (hrouted : codec.Routed)
    (hout : ∀ entry ∈ codec'.outstanding, OwnsSlot codec'.users entry)
    (hhandler : codec'.handler = codec.handler)
    (husers : codec.handler = .idle ∨ codec'.users = codec.users) : codec'.Routed := by
  refine ⟨hout, ?_, ?_⟩
  · rw [hhandler]
    exact hrouted.scanning
  · rw [hhandler]
    intro nbMsg mail f hdelivering
    rcases husers with hidle | husers
    · rw [hidle] at hdelivering
      exact absurd hdelivering (by simp)
    · rw [husers]
      exact hrouted.delivering nbMsg mail f hdelivering

theorem Routed.handles
    {choice : Choice} (hrouted : codec.Routed)
    (hout : ∀ entry ∈ codec'.outstanding, OwnsSlot codec'.users entry)
    (hhandles : Handles maxUsersNb choice codec codec') : codec'.Routed := by
  refine ⟨hout, ?_, ?_⟩
  · intro nbMsg mail slot hscanning
    cases hhandles with
    | routes nbMsg' mail' hrouting =>
        have hroutes : Routes maxUsersNb codec nbMsg' mail'
            (codec.route maxUsersNb nbMsg' mail') := route_cases nbMsg' mail'
        rw [show codec.route maxUsersNb nbMsg' mail' = _ from hscanning] at hroutes
        cases hroutes with
        | scans hcreate hinit hsearch htrace => exact fun hreply => hreply.elim hcreate hsearch
    | scans nbMsg' mail' slot' hbefore =>
        have hscans : Scans maxUsersNb codec nbMsg' mail' slot'
            (codec.scan maxUsersNb nbMsg' mail' slot') := scan_cases nbMsg' mail' slot'
        rw [show codec.scan maxUsersNb nbMsg' mail' slot' = _ from hscanning] at hscans
        cases hscans with
        | passes hlt hhasNot => exact hrouted.scanning _ _ _ hbefore
    | _ => exact nomatch hscanning
  · intro nbMsg mail f hdelivering hreply
    cases hhandles with
    | routes nbMsg' mail' hrouting =>
        have hroutes : Routes maxUsersNb codec nbMsg' mail'
            (codec.route maxUsersNb nbMsg' mail') := route_cases nbMsg' mail'
        rw [show codec.route maxUsersNb nbMsg' mail' = _ from hdelivering] at hroutes
        cases hroutes with
        | finds f hchan hnamed => exact hnamed
    | scans nbMsg' mail' slot' hbefore =>
        have hscans : Scans maxUsersNb codec nbMsg' mail' slot'
            (codec.scan maxUsersNb nbMsg' mail' slot') := scan_cases nbMsg' mail' slot'
        rw [show codec.scan maxUsersNb nbMsg' mail' slot' = _ from hdelivering] at hscans
        cases hscans with
        | finds f hlt huser hhas => exact absurd hreply (hrouted.scanning _ _ _ hbefore)
    | _ => exact nomatch hdelivering

/-! ## Every run -/

theorem routed_of_run
    (hmax : maxUsersNb < 2 ^ 31) (hmodelled : .modelled ∈ conditions)
    (hunnamed : .bindsUnnamed ∈ conditions) (hrun : CodecRun maxUsersNb conditions codec) :
    codec.Routed := by
  refine hrun.invariant Routed ?_ ?_
  · exact ⟨fun entry hentry => absurd hentry List.not_mem_nil,
      (fun _ _ _ h => nomatch h), (fun _ _ _ h => nomatch h)⟩
  · intro codec codec' move hsteps hrouted hadmits hnext
    have hout := hrouted.outstanding_next hmax hmodelled hunnamed hsteps hadmits hnext
    cases move with
    | bind kind =>
        obtain ⟨hidle, slot, -, -, -, rfl⟩ := bindUser_cases hnext
        exact hrouted.of_handler hout rfl (.inl hidle)
    | enter f op =>
        obtain ⟨file, config, -, -, rfl⟩ := enter_cases hnext
        exact hrouted.of_handler hout rfl (.inr rfl)
    | call f i choice =>
        obtain ⟨file, file', effect, codec₁, -, -, houtside, rfl⟩ := call_cases hnext
        cases houtside with
        | nothing => exact hrouted.of_handler hout rfl (.inr rfl)
        | sends mail => exact hrouted.of_handler hout rfl (.inr rfl)
        | unbinds hidle => exact hrouted.of_handler hout rfl (.inl hidle)
    | interrupt =>
        obtain ⟨hidle, rfl⟩ := interrupt_cases hnext
        exact ⟨hout, (fun _ _ _ h => nomatch h), (fun _ _ _ h => nomatch h)⟩
    | handle choice => exact hrouted.handles hout (handle_cases hnext)
    | mcu step =>
        have hdoes := mcu_cases hnext
        exact hrouted.of_handler hout hdoes.sameDriver.handler (.inr hdoes.users_eq)

end Codec

/-- In every run in which no slot is bound again while a request or a reply that names
it is on its way, no reply crosses files. -/
theorem replies_own
    (maxUsersNb : ℕ) (hmax : maxUsersNb < 2 ^ 31) (codec : Codec)
    (hrun : CodecRun maxUsersNb {.modelled, .bindsUnnamed} codec) : codec.RepliesOwn := by
  have hdelivered : ∀ codec, CodecRun maxUsersNb {.modelled, .bindsUnnamed} codec →
      ∀ f file mail, codec.Delivers f file mail → mail.IsReply → mail.asker = some f := by
    rintro codec hrun f file mail ⟨⟨nbMsg, hdelivering⟩, -⟩ hreply
    exact (Codec.routed_of_run hmax (by simp) (by simp) hrun).asker_eq hdelivering hreply
  exact ⟨hdelivered codec hrun, queued_of_run _ hdelivered hrun⟩

def requestMoves (f i : ℕ) : List CodecMove :=
  .enter f (.decoderCreate zeroParams ⟨0, 0⟩) :: List.replicate 4 (.call f i .succeed)

/-- The request of a file times out, the file closes, and another file gets its slot
and its reply. -/
def crossingMoves : List CodecMove :=
  .bind .decoder :: requestMoves 0 0 ++
    [.call 0 0 .timeout, .call 0 0 .succeed, .call 0 0 .succeed, .enter 0 (.release 1)] ++
    List.replicate 23 (.call 0 1 .succeed) ++
    [.mcu .take, .bind .decoder, .mcu (.create 0 5 (replyMail .createChannel 5 0)),
      .interrupt] ++
    List.replicate 3 (.handle .succeed)

set_option maxRecDepth 20000 in
theorem run_crossingMoves :
    ∃ (codec : Codec) (file : File) (mail : McuMail),
      runSteps (codecNext 1)
          (fun codec move => [CodecCondition.modelled].all fun condition =>
            condition.passes 1 codec move) crossingMoves codecStart = some codec ∧
        codec.files[1]? = some file ∧ file.queued .create = [mail] ∧
        mail.mail.uid? = some .createChannel ∧ mail.asker = some 0 :=
  ⟨_, _, _, rfl, rfl, rfl, rfl, rfl⟩

theorem not_replies_own :
    ¬ ∀ (maxUsersNb : ℕ) (codec : Codec), maxUsersNb < 2 ^ 31 →
      CodecRun maxUsersNb {.modelled} codec → codec.RepliesOwn := by
  intro hall
  obtain ⟨codec, file, mail, hrun, hfile, hqueued, huid, hasker⟩ := run_crossingMoves
  have hsteps : CodecRun 1 {.modelled} codec := codecRun_of_passes (by simp) hrun
  have hown := (hall 1 codec (by decide) hsteps).queued 1 file hfile .create mail
    (by rw [hqueued]; exact List.mem_singleton_self mail) (.inl huid)
  rw [hasker] at hown
  exact absurd hown (by decide)

/-- A file closes with nothing on its way, and the next one in its slot gets the reply
to its own request. -/
def rebindMoves : List CodecMove :=
  [.bind .decoder, .enter 0 (.release 1)] ++ List.replicate 23 (.call 0 0 .succeed) ++
    .bind .decoder :: requestMoves 1 0 ++
    [.mcu .take, .mcu (.create 0 5 (replyMail .createChannel 5 0)), .interrupt] ++
    List.replicate 3 (.handle .succeed)

set_option maxRecDepth 20000 in
theorem run_rebindMoves :
    ∃ (codec : Codec) (file : File) (mail : McuMail),
      runSteps (codecNext 1)
          (fun codec move => [CodecCondition.modelled, .bindsUnnamed].all fun condition =>
            condition.passes 1 codec move) rebindMoves codecStart = some codec ∧
        codec.files[1]? = some file ∧ file.queued .create = [mail] ∧
        mail.mail.uid? = some .createChannel :=
  ⟨_, _, _, rfl, rfl, rfl, rfl⟩

theorem replies_own_of_rebind :
    ∃ (codec : Codec) (file : File) (mail : McuMail),
      codec.files[1]? = some file ∧ mail ∈ file.queued .create ∧ mail.asker = some 1 := by
  obtain ⟨codec, file, mail, hrun, hfile, hqueued, huid⟩ := run_rebindMoves
  have hsteps : CodecRun 1 {.modelled, .bindsUnnamed} codec :=
    codecRun_of_passes (by simp) hrun
  have hmem : mail ∈ file.queued .create := by
    rw [hqueued]
    exact List.mem_singleton_self mail
  have hown := replies_own 1 (by decide) codec hsteps
  exact ⟨codec, file, mail, hfile, hmem, hown.queued 1 file hfile .create mail hmem
    (.inl huid)⟩

end VcuDriver

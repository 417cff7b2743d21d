import VcuDriver.UserRules

/-!
# The operations keep what holds of a user

Every operation, started by a call that owns nothing, keeps the invariant of a
user and leaves the call owning nothing.  Together with the rules for the single
actions this makes the outline of a user valid: its invariant holds in every
reachable state, under the conditions of the regime.
-/

namespace VcuDriver

open Conc

variable {kind : UserKind} {uid : Word} {conditions : Set Condition}
variable {i : ℕ} {op : UserOp} {α : Type}
variable {post : α → UserState → Prop} {state : UserState}
variable {held : List UserOperation} {channel : ChannelData}

/-! ## Destroying the channel -/

theorem Owns.toIntact
    (howns : Owns conditions i op held none channel state)
    (hidle : channel.hist.Idle)
    (hsettled : kind = .encoder → op.closes = false → channel.Settled)
    (halive : .destroyWaits ∈ conditions → channel.chanUid ≠ badChan →
      channel.chanUid ∉ channel.hist.dead) :
    Intact kind conditions i op held state where
  toAt := howns.toAt
  idle _ := by
    rw [howns.hist_eq]
    exact hidle
  settled hkind hcloses _ := by
    rw [howns.channel]
    exact hsettled hkind hcloses
  all := howns.create
  alive := by
    rw [howns.chanUid_eq, howns.hist_eq]
    exact halive

theorem Ready.toOwns
    (hready : Ready kind conditions i op held none state) (hcreate : .create ∈ held) :
    Owns conditions i op held none state.channel state :=
  ⟨hready.toAt, hcreate, rfl⟩

/-- The call holds every mutex, with a channel that may be destroyed. -/
def LockedAll (kind : UserKind) (conditions : Set Condition) (i : ℕ) (op : UserOp)
    (held : List UserOperation) (state : UserState) : Prop :=
  Intact kind conditions i op held state ∧
    (.destroysCreated ∈ conditions → state.chanUid ≠ badChan)

theorem wp_lockAll
    {rest taken : List UserOperation} (hnodup : (taken ++ rest).Nodup)
    (hcreate : .create ∈ taken ++ rest)
    (hlast : rest.getLast? = some .reconstructed)
    (hready : Ready kind conditions i op taken none state) :
    userWp kind uid conditions i op (lockAll rest taken)
      (fun locked last =>
        if locked then LockedAll kind conditions i op (taken ++ rest) last
        else Ready kind conditions i op [] none last) state := by
  induction rest generalizing taken state with
  | nil => exact absurd hlast (by simp)
  | cons operation rest ih =>
      have hnot : operation ∉ taken := fun hmem =>
        List.disjoint_of_nodup_append hnodup hmem List.mem_cons_self
      apply wp_lockKillable hready
      · intro state₁ hready₁
        rw [if_pos rfl]
        apply wp_seq (wp_unlockAll hnodup.of_append_left hready₁ hnot)
        intro _ state₂ hready₂
        exact hready₂
      · intro state₁ hinv hready₁ hfree hallowed htaken
        have herr : ¬ (0 : ℤ) = -EINTR := by decide
        rw [if_neg herr]
        have hsplit := List.append_cons taken operation rest
        rw [hsplit] at hnodup hcreate ⊢
        cases rest with
        | cons next rest =>
            have hlast' : (next :: rest).getLast? = some .reconstructed := by
              rw [← hlast, List.getLast?_cons_cons]
            exact ih hnodup hcreate hlast' htaken
        | nil =>
            have hop : operation = .reconstructed := by simpa using hlast
            have hchannel : (state₁.take i operation).channel = state₁.channel :=
              (calm_take operation).channel
            have hchan : (state₁.take i operation).chanUid = state₁.chanUid :=
              congrArg ChannelData.chanUid hchannel
            have hhist : (state₁.take i operation).hist = state₁.hist :=
              congrArg ChannelData.hist hchannel
            rw [List.append_nil] at hcreate ⊢
            refine ⟨⟨htaken, hcreate, ?_⟩, ?_⟩
            · rw [hchan, hhist]
              exact fun hwaits hbad => (hinv.alive_of_not_holdsAll hwaits hbad
                (UserState.not_holdsAll_of_free hfree)).2
            · rw [hchan]
              exact fun hcreated => hallowed _ hcreated (congrArg _ hop) rfl

/-- The channel is forgotten once its destroy mail is accepted. -/
theorem wp_forgetChannel
    (howns : Owns conditions i op userOperations none channel state)
    (hidle : channel.hist.Idle) (hdead : channel.hist.chanUid ∈ channel.hist.dead) :
    userWp kind uid conditions i op forgetChannel
      (fun _ last => Intact kind conditions i op userOperations last) state := by
  have hall : ∀ operation, operation ∈ userOperations := mem_userOperations
  have hforgot : channel.hist.next (.chanUid badChan) =
      { channel.hist with chanUid := badChan } := by
    simp [Hist.next]
  apply own_setChanUid howns
  · exact .inr hdead
  · rw [hforgot]
    exact ⟨rfl, fun _ => hidle.awaiting, fun _ _ _ hbad => absurd rfl hbad,
      .inr (.inr hall)⟩
  · intro state₁ howns₁
    rw [hforgot] at howns₁
    apply own_setCheckpoint howns₁
    · exact ⟨rfl, fun _ => hidle.awaiting, fun _ _ _ hbad => absurd rfl hbad,
        .inr (.inr hall)⟩
    · intro state₂ howns₂
      apply own_bufpoolFree howns₂
      intro state₃ howns₃
      apply wp_last
      apply own_bufpoolFree howns₃
      intro state₄ howns₄
      apply howns₄.toIntact
      · exact ⟨hidle.inHand, hidle.awaiting⟩
      · intro _ _
        refine ⟨rfl, .inl rfl, fun hcheckpoint => absurd rfl hcheckpoint, ?_⟩
        intro _ pool
        cases pool with
        | intBuffers => rfl
        | recBuffers => rfl
      · exact fun _ hbad => absurd rfl hbad

/-- The accepted destroy mail of the channel held. -/
theorem hist_send_destroy
    {mail : Al5Mail} (hist : Hist)
    (huid : mail.uid? = some .destroyChannel ∨
      mail.uid? = some .quietDestroyChannel) :
    hist.send mail = { hist with dead := mailChanUid mail :: hist.dead } := by
  unfold Hist.send
  rcases huid with huid | huid <;> rw [huid]

theorem okSent_destroy
    {mail : Al5Mail} {hist : Hist}
    (huid : mail.uid? = some .destroyChannel ∨
      mail.uid? = some .quietDestroyChannel)
    (hchan : mailChanUid mail = hist.chanUid)
    (hcreated : .destroysCreated ∈ conditions → hist.chanUid ≠ badChan)
    (halive : .destroyWaits ∈ conditions → hist.chanUid ≠ badChan →
      hist.chanUid ∉ hist.dead) : OkSent uid conditions hist mail := by
  have hok : mailChanUid mail = hist.chanUid ∧
      (.destroysCreated ∈ conditions → hist.chanUid ≠ badChan) ∧
      (.destroyWaits ∈ conditions →
        hist.chanUid ≠ badChan → hist.Alive hist.chanUid) :=
    ⟨hchan, hcreated, fun hwaits hbad => ⟨hbad, halive hwaits hbad⟩⟩
  unfold OkSent
  rcases huid with huid | huid <;> rw [huid] <;> exact hok

theorem wp_destroyUnderLocks
    {quiet : Bool} (hquiet : op.closes = true → quiet = true)
    (hlocked : LockedAll kind conditions i op userOperations state) :
    userWp kind uid conditions i op (destroyUnderLocks quiet)
      (fun _ last => Intact kind conditions i op userOperations last) state := by
  have hlasting : Lasting i (LockedAll kind conditions i op userOperations) := by
    constructor
    · intro state state' hlocked hrely
      have hchannel :=
        hrely.creating ((hlocked.1.locks .create).mpr hlocked.1.all)
      refine ⟨lasting_intact.rely state state' hlocked.1 hrely, ?_⟩
      rw [show state'.chanUid = state.chanUid from
        congrArg ChannelData.chanUid hchannel]
      exact hlocked.2
    · intro state state' hlocked hcalm
      refine ⟨lasting_intact.calm state state' hlocked.1 hcalm, ?_⟩
      rw [show state'.chanUid = state.chanUid from
        congrArg ChannelData.chanUid hcalm.channel]
      exact hlocked.2
  apply wp_getChanUid hlasting hlocked
  intro state₁ hinv hlocked₁
  obtain ⟨hintact, hcreated⟩ := hlocked₁
  have howns := hintact.toReady.toOwns hintact.all
  have hsane := howns.sane hinv
  have hidle : state₁.hist.Idle := hintact.idle hintact.all
  have hsettled : kind = .encoder → op.closes = false → state₁.channel.Settled :=
    fun hkind hcloses => hintact.settled hkind hcloses hintact.all
  have hmay : ∀ mail : Al5Mail,
      mail.uid? = some .destroyChannel ∨ mail.uid? = some .quietDestroyChannel →
      MayAdvance kind conditions op userOperations state₁.channel
        { state₁.channel with hist := state₁.channel.hist.send mail } := by
    intro mail huid
    rw [hist_send_destroy _ huid]
    refine ⟨hsane.chanUid, fun _ => hidle.awaiting, ?_, .inr (.inr mem_userOperations)⟩
    intro hkind hcloses halloc hbad
    have hstocked := hsane.stocked hkind hcloses halloc hbad
    exact ⟨hstocked.full, hstocked.sendReference⟩
  have hok : ∀ mail : Al5Mail,
      mail.uid? = some .destroyChannel ∨ mail.uid? = some .quietDestroyChannel →
      mailChanUid mail = state₁.chanUid →
      OkSent uid conditions state₁.channel.hist mail := by
    intro mail huid hchan
    have hknown : state₁.channel.hist.chanUid = state₁.chanUid := hinv.chanUid
    apply okSent_destroy huid
    · rw [hknown]
      exact hchan
    · rw [hknown]
      exact hcreated
    · rw [hknown]
      exact hintact.alive
  have hrefused : ∀ (last : UserState) (err : ℤ), err ≠ 0 →
      Owns conditions i op userOperations none state₁.channel last →
      userWp kind uid conditions i op (pure err)
        (fun _ last => Intact kind conditions i op userOperations last) last :=
    fun last err _ howns => howns.toIntact hidle hsettled hintact.alive
  cases quiet with
  | true =>
      apply wp_bind
      apply own_sendBuilt (builds_emptyMail .quietDestroyChannel _) howns
      · exact fun mail hnames => .ignored fun exchange => Exchange.ignores_sent
          (by rw [hnames.uid?_eq]; cases exchange <;> simp [Exchange.request])
      · exact fun mail hnames => hok mail (.inr hnames.uid?_eq) hnames.mailChanUid_eq
      · exact fun mail hnames => hmay mail (.inr hnames.uid?_eq)
      · intro state₂ err howns₂ herr
        rw [if_pos herr]
        exact hrefused state₂ err herr howns₂
      · intro state₂ mail hnames howns₂
        rw [hist_send_destroy _ (.inr hnames.uid?_eq)] at howns₂
        apply wp_seq (wp_forgetChannel howns₂ ⟨hidle.inHand, hidle.awaiting⟩ ?_)
        · exact fun _ last hlast => hlast
        · rw [hnames.mailChanUid_eq]
          exact List.mem_cons.mpr (.inl hsane.chanUid)
  | false =>
      have hcloses : op.closes = false := by
        cases hop : op.closes with
        | false => rfl
        | true => exact absurd (hquiet hop) (by simp)
      apply wp_bind
      apply own_sendBuilt (builds_emptyMail .destroyChannel _) howns
      · exact fun mail hnames => @Moves.asked conditions i op userOperations .destroy
          mail (mem_userOperations _) hnames.uid?_eq
      · exact fun mail hnames => hok mail (.inl hnames.uid?_eq) hnames.mailChanUid_eq
      · exact fun mail hnames => hmay mail (.inl hnames.uid?_eq)
      · intro state₂ err howns₂ herr
        rw [if_pos herr]
        exact hrefused state₂ err herr howns₂
      · intro state₂ mail hnames howns₂
        rw [hist_send_destroy _ (.inl hnames.uid?_eq)] at howns₂
        apply own_queuePopDestroy howns₂ hcloses
        intro reply state₃ hfound howns₃
        cases reply with
        | none =>
            apply howns₃.toIntact ⟨hidle.inHand, hidle.awaiting⟩
            · intro hkind hcloses
              have hdone := hsettled hkind hcloses
              exact ⟨hdone.finished, hdone.stage, hdone.resumable, hdone.empty⟩
            · exact fun hwaits => absurd rfl (hfound hwaits)
        | some reply =>
            apply wp_calm rfl lasting_owns howns₃
            intro state₄ _ howns₄
            apply wp_seq (wp_forgetChannel howns₄ ⟨hidle.inHand, hidle.awaiting⟩ ?_)
            · exact fun _ last hlast => hlast
            · rw [hnames.mailChanUid_eq]
              exact List.mem_cons.mpr (.inl hsane.chanUid)

theorem wp_userQueuesUnlock
    (hready : Ready kind conditions i op held none state) :
    userWp kind uid conditions i op userQueuesUnlock
      (fun _ last => Ready kind conditions i op held none last) state := by
  apply wp_calm rfl lasting_ready hready
  intro state₁ _ hready₁
  apply wp_calm rfl lasting_ready hready₁
  intro state₂ _ hready₂
  apply wp_calm rfl lasting_ready hready₂
  intro state₃ _ hready₃
  apply wp_last
  exact wp_calm rfl lasting_ready hready₃ fun _ _ hready₄ => hready₄

theorem wp_userQueuesLock
    (hready : Ready kind conditions i op held none state) :
    userWp kind uid conditions i op userQueuesLock
      (fun _ last => Ready kind conditions i op held none last) state := by
  apply wp_calm rfl lasting_ready hready
  intro state₁ _ hready₁
  apply wp_calm rfl lasting_ready hready₁
  intro state₂ _ hready₂
  apply wp_calm rfl lasting_ready hready₂
  intro state₃ _ hready₃
  apply wp_last
  exact wp_calm rfl lasting_ready hready₃ fun _ _ hready₄ => hready₄

theorem wp_destroyChannel
    {quiet : Bool} (hquiet : op.closes = true → quiet = true)
    (hready : Ready kind conditions i op [] none state) :
    userWp kind uid conditions i op (al5UserDestroyChannel quiet)
      (fun _ last => Ready kind conditions i op [] none last) state := by
  apply wp_getChanUid lasting_ready hready
  intro state₁ _ hready₁
  split
  · exact hready₁
  · apply wp_seq (wp_userQueuesUnlock hready₁)
    intro _ state₂ hready₂
    apply wp_seq (wp_lockAll (by decide) (by decide) rfl hready₂)
    intro locked state₃ hlocked
    cases locked with
    | true =>
        apply wp_seq (wp_destroyUnderLocks hquiet hlocked)
        intro err state₄ hintact
        apply wp_seq (wp_unlockAll_of_intact (by decide) hintact)
        intro _ state₅ hready₅
        apply wp_seq (wp_userQueuesLock hready₅)
        exact fun _ last hlast => hlast
    | false =>
        apply wp_seq (wp_userQueuesLock hlocked)
        exact fun _ last hlast => hlast

/-! ## Operations under one mutex -/

/-- A call holds the channel, and not all mutexes. -/
theorem Guards.alive
    {operation other : UserOperation} {chanUid : Word}
    (hguards : Guards kind conditions i op held chanUid state)
    (hinv : UserInv kind uid conditions state) (hmem : operation ∈ held)
    (hmissing : other ∉ held) (hwaits : .destroyWaits ∈ conditions) :
    state.hist.Alive chanUid := by
  have hbad : state.chanUid ≠ badChan := by
    rw [hguards.chanUid]
    exact hguards.created
  have halive := hinv.alive_of_not_holdsAll hwaits hbad
    (hguards.toAt.not_holdsAll hmem hmissing)
  rwa [hguards.chanUid] at halive

theorem wp_sendFrameCommand
    {constructor : Word → Bool → MailResult} {mailUid : MailUid}
    (hbuilds : ∀ chanUid, Builds (constructor chanUid) mailUid chanUid)
    (hplain : mailUid.isPlain = true)
    (hok : ∀ state₁ mail chanUid, UserInv kind uid conditions state₁ →
      Guards kind conditions i op [.xcode] chanUid state₁ →
      mail.Names mailUid chanUid →
      (∀ condition ∈ conditions,
        condition.Admits state₁ op (.send mail) .succeed) →
        OkSent uid conditions state₁.hist mail)
    (hready : Ready kind conditions i op [] none state) :
    userWp kind uid conditions i op (sendFrameCommand constructor)
      (fun _ last => Ready kind conditions i op [] none last) state := by
  apply wp_lockKillable hready
  · intro state₁ hready₁
    rw [if_pos rfl]
    exact hready₁
  · intro state₁ _ _ _ _ htaken
    rw [if_neg (by decide : ¬ (0 : ℤ) = -EINTR)]
    apply wp_getChanUid lasting_ready htaken
    intro state₂ _ hready₂
    split
    · exact wp_unlock_last hready₂ fun _ hready₃ => hready₃
    · rename_i hbad
      have hguards : Guards kind conditions i op [.xcode] state₂.chanUid state₂ :=
        ⟨hready₂, by simp, hbad, rfl⟩
      apply wp_getChanUid lasting_guards hguards
      intro state₃ _ hguards₃
      rw [hguards₃.chanUid]
      apply wp_bind
      apply wp_sendPlain (hbuilds _) hplain lasting_guards hguards₃
      · exact fun state₄ mail hinv₄ hguards₄ => hok state₄ mail _ hinv₄ hguards₄
      · intro state₄ err hguards₄
        exact wp_unlock_last hguards₄.toReady fun _ hready₅ => hready₅

theorem wp_waitForStatus (hready : Ready kind conditions i op [] none state) :
    userWp kind uid conditions i op waitForStatus
      (fun _ last => Ready kind conditions i op [] none last) state := by
  apply wp_trylock hready
  · exact fun _ hready₁ => hready₁
  · intro state₁ hready₁
    apply wp_getChanUid lasting_ready hready₁
    intro state₂ _ hready₂
    split
    · exact wp_unlock_last hready₂ fun _ hready₃ => hready₃
    · apply wp_calm rfl lasting_ready hready₂
      intro state₃ _ hready₃
      apply wp_calm rfl lasting_ready hready₃
      intro state₄ mail hready₄
      cases mail with
      | none => exact wp_unlock_last hready₄ fun _ hready₅ => hready₅
      | some mail =>
          apply wp_calm rfl lasting_ready hready₄
          intro state₅ _ hready₅
          exact wp_unlock_last hready₅ fun _ hready₆ => hready₆

theorem wp_waitForStartCode (hready : Ready kind conditions i op [] none state) :
    userWp kind uid conditions i op al5dUserWaitForStartCode
      (fun _ last => Ready kind conditions i op [] none last) state := by
  apply wp_trylock hready
  · exact fun _ hready₁ => hready₁
  · intro state₁ hready₁
    apply wp_calm rfl lasting_ready hready₁
    intro state₂ _ hready₂
    apply wp_calm rfl lasting_ready hready₂
    intro state₃ mail hready₃
    cases mail with
    | none => exact wp_unlock_last hready₃ fun _ hready₄ => hready₄
    | some mail =>
        apply wp_calm rfl lasting_ready hready₃
        intro state₄ _ hready₄
        exact wp_unlock_last hready₄ fun _ hready₅ => hready₅

theorem wp_searchStartCode
    (msg : Al5SearchScMsg) (hready : Ready kind conditions i op [] none state) :
    userWp kind uid conditions i op (al5dUserSearchStartCode uid msg)
      (fun _ last => Ready kind conditions i op [] none last) state := by
  apply wp_sendPlain (Request.builds (.searchStartCode uid msg)) rfl lasting_ready hready
  · intro state₁ mail _ _ hnames _
    unfold OkSent
    rw [hnames.uid?_eq]
    exact hnames.mailChanUid_eq
  · exact fun _ _ hready₁ => hready₁

theorem wp_putStreamBuffer
    {buffer : Al5Buffer} (hop : op = .putStreamBuffer buffer)
    (hready : Ready kind conditions i op [] none state) :
    userWp kind uid conditions i op (al5eUserPutStreamBuffer buffer)
      (fun _ last => Ready kind conditions i op [] none last) state := by
  apply wp_getChanUid lasting_ready hready
  intro state₁ _ hready₁
  split
  · exact hready₁
  · apply wp_calm rfl lasting_ready hready₁
    intro state₂ result hready₂
    cases result with
    | error error => exact hready₂
    | ok info =>
        dsimp only
        split
        · exact hready₂
        · apply wp_getChanUid lasting_ready hready₂
          intro state₃ _ hready₃
          apply wp_sendPlain (builds_putStreamMail _ info buffer) rfl lasting_ready
            hready₃
          · intro state₄ mail hinv₄ _ hnames hallowed
            unfold OkSent
            rw [hnames.uid?_eq]
            intro hwaits hguarded
            obtain ⟨hchan, hbad, hnot⟩ := hallowed _ hguarded buffer mail hop rfl
            rw [hchan]
            exact hinv₄.alive_of_not_holdsAll hwaits hbad hnot
          · exact fun _ _ hready₄ => hready₄

theorem wp_getUserRecBuffer
    {id : Word} {pending : Option Exchange}
    (hready : Ready kind conditions i op held pending state) :
    userWp kind uid conditions i op (getUserRecBuffer id)
      (fun _ last => Ready kind conditions i op held pending last) state := by
  apply wp_calm rfl lasting_ready hready
  intro state₁ bufpool hready₁
  split
  · exact hready₁
  · apply wp_last
    exact wp_calm rfl lasting_ready hready₁ fun _ _ hready₂ => hready₂

theorem wp_getRec (hready : Ready kind conditions i op [] none state) :
    userWp kind uid conditions i op al5eUserGetRec
      (fun _ last => Ready kind conditions i op [] none last) state := by
  apply wp_trylock hready
  · exact fun _ hready₁ => hready₁
  · intro state₁ hready₁
    apply wp_getChanUid lasting_ready hready₁
    intro state₂ _ hready₂
    split
    · exact wp_unlock_last hready₂ fun _ hready₃ => hready₃
    · rename_i hbad
      have hguards : Guards kind conditions i op [.reconstructed] state₂.chanUid
          state₂ :=
        ⟨hready₂, by simp, hbad, rfl⟩
      apply wp_getChanUid lasting_guards hguards
      intro state₃ _ hguards₃
      rw [hguards₃.chanUid]
      apply wp_bind
      apply wp_sendBuilt (builds_emptyMail .getReconstructedPicture _) lasting_guards
        hguards₃
      · intro state₄ err hguards₄ herr
        rw [if_pos herr]
        exact wp_unlock_last hguards₄.toReady fun _ hready₅ => hready₅
      · intro state₄ mail hinv₄ hguards₄ hnames _
        have hhist : (state₄.record (.sent i mail)).hist = state₄.hist := by
          rw [UserState.hist_record]
          simp only [Hist.next, Hist.send, hnames.uid?_eq]
        have hchannel : (state₄.record (.sent i mail)).channel = state₄.channel :=
          UserState.channel_of_hist hhist rfl rfl rfl
        have hmoves : Moves conditions i op [.reconstructed] none (.sent i mail)
            (some .reconstructed) :=
          .asked (List.mem_singleton_self _) hnames.uid?_eq
        have hok : OkSent uid conditions state₄.hist mail := by
          unfold OkSent
          rw [hnames.uid?_eq]
          intro hwaits
          rw [hnames.mailChanUid_eq]
          exact hguards₄.alive hinv₄ (List.mem_singleton_self _)
            (by decide : UserOperation.init ∉ _) hwaits
        refine ⟨Sound.note hinv₄ rfl rfl rfl rfl hchannel rfl (.inr rfl) hinv₄.sorted hok
          (hmoves.mayLog hguards₄.toAt), ?_⟩
        have hasked : Ready kind conditions i op [.reconstructed] (some .reconstructed)
            (state₄.record (.sent i mail)) :=
          ⟨hguards₄.toAt.moved hmoves rfl rfl rfl, by simp, by simp⟩
        rw [if_neg (by decide : ¬ (0 : ℤ) ≠ 0)]
        apply wp_calm rfl lasting_ready hasked
        intro state₅ _ hready₅
        apply wp_popReconstructed hready₅
        intro reply state₆ hready₆
        cases reply with
        | none => exact wp_unlock_last hready₆ fun _ hready₇ => hready₇
        | some reply =>
            apply wp_seq (wp_getUserRecBuffer hready₆)
            intro fd state₇ hready₇
            apply wp_calm rfl lasting_ready hready₇
            intro state₈ _ hready₈
            apply wp_unlock_last hready₈
            intro state₉ hready₉
            split
            · exact hready₉
            · exact hready₉

theorem wp_releaseRec
    {fd : Word} (hready : Ready kind conditions i op [] none state) :
    userWp kind uid conditions i op (al5eUserReleaseRec fd)
      (fun _ last => Ready kind conditions i op [] none last) state := by
  apply wp_trylock hready
  · exact fun _ hready₁ => hready₁
  · intro state₁ hready₁
    apply wp_getChanUid lasting_ready hready₁
    intro state₂ _ hready₂
    split
    · exact wp_unlock_last hready₂ fun _ hready₃ => hready₃
    · rename_i hbad
      have hguards : Guards kind conditions i op [.reconstructed] state₂.chanUid
          state₂ :=
        ⟨hready₂, by simp, hbad, rfl⟩
      apply wp_calm rfl lasting_guards hguards
      intro state₃ id hguards₃
      split
      · exact wp_unlock_last hguards₃.toReady fun _ hready₄ => hready₄
      · apply wp_getChanUid lasting_guards hguards₃
        intro state₄ _ hguards₄
        rw [hguards₄.chanUid]
        apply wp_bind
        apply wp_sendPlain (builds_classicMail .releaseReconstructedPicture _ _ _) rfl
          lasting_guards hguards₄
        · intro state₅ mail hinv₅ hguards₅ hnames _
          unfold OkSent
          rw [hnames.uid?_eq]
          intro hwaits
          rw [hnames.mailChanUid_eq]
          exact hguards₅.alive hinv₅ (List.mem_singleton_self _)
            (by decide : UserOperation.init ∉ _) hwaits
        · intro state₅ err hguards₅
          exact wp_unlock_last hguards₅.toReady fun _ hready₆ => hready₆

/-! ## Creating a channel -/

theorem hist_send_create
    {mail : Al5Mail} (hist : Hist) (huid : mail.uid? = some .createChannel) :
    hist.send mail = { hist with awaiting := true } := by
  unfold Hist.send
  rw [huid]

theorem hist_popped_create
    {hist : Hist} (hawaiting : hist.awaiting = true) (mail : Option Al5Mail) :
    hist.next (.popped i .create mail) =
      { hist with
        inHand := mail.bind grantedChannel
        awaiting := false
        asked := (mail.map buffersAsked).getD hist.asked } := by
  simp [Hist.next, hawaiting]

theorem hist_obtain {value : Word} (hist : Hist) (hbad : value ≠ badChan) :
    hist.next (.chanUid value) =
      { hist with
        chanUid := value
        dead := hist.dead.filter fun uid => uid ≠ value
        halfCreated := true
        pushedIntermediate := false
        pushedReference := false
        inHand := none } := by
  simp [Hist.next, hbad]

theorem grantedChannel_of_ne {mail : Al5Mail} (hbad : mailChanUid mail ≠ badChan) :
    grantedChannel mail = some (mailChanUid mail) :=
  if_neg hbad

theorem grantedChannel_of_eq {mail : Al5Mail} (hbad : mailChanUid mail = badChan) :
    grantedChannel mail = none :=
  if_pos hbad

structure Vacant (kind : UserKind) (conditions : Set Condition) (op : UserOp)
    (channel : ChannelData) : Prop where
  open_file : op.closes = false
  known : channel.hist.chanUid = badChan
  vacant : channel.chanUid = badChan

theorem Vacant.mayAdvance
    {channel' : ChannelData} (hvacant : Vacant kind conditions op channel)
    (hchan : channel'.chanUid = channel.chanUid)
    (hknown : channel'.hist.chanUid = channel.hist.chanUid)
    (hdead : channel'.hist.dead = channel.hist.dead) :
    MayAdvance kind conditions op held channel channel' where
  chanUid := by rw [hchan, hknown, hvacant.known, hvacant.vacant]
  quiet hcloses := by
    rw [hvacant.open_file] at hcloses
    exact absurd hcloses (by simp)
  stocked _ _ _ hbad := by
    rw [hchan, hvacant.vacant] at hbad
    exact absurd rfl hbad
  moves := .inl ⟨hchan, hdead⟩

/-- The create request. -/
theorem own_sendCreate
    {constructor : Bool → MailResult} {post : ℤ → UserState → Prop}
    (hbuilds : Builds constructor .createChannel uid)
    (hvacant : Vacant kind conditions op channel) (hidle : channel.hist.Idle)
    (howns : Owns conditions i op held none channel state)
    (hrefused : ∀ state₁ err, Owns conditions i op held none channel state₁ →
      err ≠ 0 → post err state₁)
    (hsent : ∀ state₁, Owns conditions i op held (some .create)
      { channel with hist := { channel.hist with awaiting := true } } state₁ →
        post 0 state₁) :
    userWp kind uid conditions i op (sendBuilt constructor) post state := by
  apply own_sendBuilt hbuilds howns
  · exact fun mail hnames => @Moves.asked conditions i op held .create mail
      howns.create hnames.uid?_eq
  · intro mail hnames
    unfold OkSent
    rw [hnames.uid?_eq]
    exact ⟨hnames.mailChanUid_eq, hvacant.known, hidle⟩
  · intro mail hnames
    rw [hist_send_create _ hnames.uid?_eq]
    exact hvacant.mayAdvance rfl rfl rfl
  · exact hrefused
  · intro state₁ mail hnames howns₁
    rw [hist_send_create _ hnames.uid?_eq] at howns₁
    exact hsent state₁ howns₁

/-- The wait for the feedback of a create request. -/
theorem own_queuePopTimeoutCreate
    {next : ℤ × Option Al5Mail → UserProg α}
    (hvacant : Vacant kind conditions op channel) (hidle : channel.hist.Idle)
    (howns : Owns conditions i op held (some .create)
      { channel with hist := { channel.hist with awaiting := true } } state)
    (hnone : ∀ state₁ err, err ≠ 0 → Owns conditions i op held none channel state₁ →
      userWp kind uid conditions i op (next (err, none)) post state₁)
    (hsome : ∀ state₁ mail, mail.uid? = some .createChannel → Owns conditions i op held none
      { channel with
        hist := { channel.hist with
          inHand := grantedChannel mail, asked := buffersAsked mail } } state₁ →
      userWp kind uid conditions i op (next (0, some mail)) post state₁) :
    userWp kind uid conditions i op (al5QueuePopTimeout .create >>= next) post
      state := by
  apply wp_calm rfl lasting_owns howns
  intro state₁ err howns₁
  have hvacant₁ : Vacant kind conditions op
      { channel with hist := { channel.hist with awaiting := true } } :=
    ⟨hvacant.open_file, hvacant.known, hvacant.vacant⟩
  apply own_popCreate howns₁ hidle.inHand
  · intro mail
    rw [hist_popped_create rfl]
    exact hvacant₁.mayAdvance rfl rfl rfl
  · exact hvacant.open_file
  · intro mail state₂ huid howns₂
    rw [hist_popped_create rfl] at howns₂
    cases mail with
    | none =>
        have herr : (if waitError err ≠ 0 then waitError err else -EINVAL) ≠ 0 := by
          split
          · assumption
          · decide
        apply hnone state₂ _ herr
        have hsame : ({ channel with hist := { channel.hist with
            awaiting := false, inHand := none } } : ChannelData) = channel := by
          rw [← hidle.awaiting, ← hidle.inHand]
        rw [← hsame]
        exact howns₂
    | some mail =>
        apply hsome state₂ mail (huid mail rfl)
        have hsame : ({ channel.hist with
            inHand := grantedChannel mail, asked := buffersAsked mail } : Hist) =
            { channel.hist with inHand := grantedChannel mail, awaiting := false,
                                asked := buffersAsked mail } := by
          rw [← hidle.awaiting]
        rw [hsame]
        exact howns₂

/-- Giving back the create mutex. -/
theorem wp_unlockCreate
    {next : Unit → UserProg α}
    (howns : Owns conditions i op [.create] none channel state)
    (hidle : channel.hist.Idle)
    (hsettled : kind = .encoder → op.closes = false → channel.Settled)
    (hnext : ∀ state₁, Ready kind conditions i op [] none state₁ →
      userWp kind uid conditions i op (next ()) post state₁) :
    userWp kind uid conditions i op
      (Prog.perform (.mutexUnlock .create) >>= next) post state := by
  have hready : Ready kind conditions i op [.create] none state := by
    refine ⟨howns.toAt, ?_, ?_⟩
    · rw [howns.hist_eq]
      exact fun _ => hidle
    · rw [howns.channel]
      exact fun hkind hcloses _ => hsettled hkind hcloses
  exact wp_unlock_last hready hnext

/-- What a create feedback grants is recorded. -/
theorem own_obtain
    {mail : Al5Mail} {next : Unit → UserProg α}
    (hvacant : Vacant kind conditions op channel) (hbad : mailChanUid mail ≠ badChan)
    (hcheckpoint : kind = .encoder → channel.checkpoint = noCheckpoint)
    (howns : Owns conditions i op held none
      { channel with
        hist := { channel.hist with
          inHand := grantedChannel mail, asked := buffersAsked mail } } state)
    (hnext : ∀ state₁, Owns conditions i op held none
      { channel with
        chanUid := mailChanUid mail
        hist := { channel.hist with
          chanUid := mailChanUid mail
          dead := channel.hist.dead.filter fun uid => uid ≠ mailChanUid mail
          halfCreated := true
          pushedIntermediate := false
          pushedReference := false
          inHand := none
          asked := buffersAsked mail } } state₁ →
      userWp kind uid conditions i op (next ()) post state₁) :
    userWp kind uid conditions i op
      (Prog.perform (.setChanUid (mailChanUid mail)) >>= next) post state := by
  apply own_setChanUid howns
  · simp only [OkEvent]
    rw [if_neg hbad, grantedChannel_of_ne hbad]
    exact ⟨rfl, hvacant.known⟩
  · rw [hist_obtain _ hbad]
    refine ⟨rfl, ?_, ?_, .inr (.inl ⟨hvacant.vacant, by simp⟩)⟩
    · intro hcloses
      rw [hvacant.open_file] at hcloses
      exact absurd hcloses (by simp)
    · intro hkind _ _ _
      refine ⟨fun _ hfinished => absurd hfinished (by simp), fun hsend => ?_⟩
      have hsend : channel.checkpoint = checkpointSendReferenceBuffers := hsend
      rw [hcheckpoint hkind] at hsend
      exact absurd hsend (by decide)
  · intro state₁ howns₁
    rw [hist_obtain _ hbad] at howns₁
    exact hnext state₁ howns₁

theorem wp_initChan
    {mail : Al5Mail} (hkind : kind ≠ .encoder)
    (huid : mail.uid? = some .createChannel)
    (hvacant : Vacant kind conditions op channel) (hidle : channel.hist.Idle)
    (howns : Owns conditions i op [.create] none
      { channel with
        hist := { channel.hist with
          inHand := grantedChannel mail, asked := buffersAsked mail } } state) :
    userWp kind uid conditions i op (initChan mail)
      (fun _ last => ∃ channel' : ChannelData, channel'.hist.Idle ∧
        Owns conditions i op [.create] none channel' last) state := by
  have hgranted : al5MailGetChanUid mail = mailChanUid mail := by
    simp only [al5MailGetChanUid, huid]
    rfl
  unfold initChan
  rw [hgranted]
  by_cases hbad : mailChanUid mail = badChan
  · rw [grantedChannel_of_eq hbad] at howns
    rw [hbad]
    apply own_setChanUid howns
    · exact .inl hvacant.known
    · exact ⟨by simp [Hist.next], fun hcloses => by simp [hvacant.open_file] at hcloses,
        fun h => absurd h hkind, .inl ⟨hvacant.vacant.symm, by simp [Hist.next]⟩⟩
    · intro state₁ howns₁
      apply own_getChanUid howns₁
      intro state₂ _ howns₂
      refine ⟨_, ?_, howns₂⟩
      constructor <;> simp [Hist.next, hidle.awaiting]
  · apply own_obtain hvacant hbad (fun h => absurd h hkind) howns
    intro state₁ howns₁
    apply own_getChanUid howns₁
    intro state₂ _ howns₂
    rw [if_neg hbad]
    refine ⟨_, ?_, howns₂⟩
    exact ⟨rfl, hidle.awaiting⟩

theorem wp_decoderCreate
    {param : Al5Params} {status : Al5dChannelStatus} (hkind : kind ≠ .encoder)
    (hopen : op.closes = false) (hready : Ready kind conditions i op [] none state) :
    userWp kind uid conditions i op (al5dUserCreateChannel uid param status)
      (fun _ last => Ready kind conditions i op [] none last) state := by
  have hsettled : ∀ channel : ChannelData,
      kind = .encoder → op.closes = false → channel.Settled :=
    fun _ h => absurd h hkind
  apply wp_lockKillable hready
  · intro state₁ hready₁
    rw [if_pos rfl]
    exact hready₁
  · intro state₀ _ _ _ _ htaken
    rw [if_neg (by decide : ¬ (0 : ℤ) = -EINTR)]
    have howns₁ := htaken.toOwns (List.mem_singleton_self _)
    have hidle := htaken.idle (List.mem_singleton_self _)
    generalize state₀.take i .create = state₁ at howns₁ hidle ⊢
    apply own_getChanUid howns₁
    intro state₂ hsane howns₂
    split
    · exact wp_unlockCreate howns₂ hidle (hsettled _) fun _ hready₃ => hready₃
    · rename_i hbad
      have hvacant : Vacant kind conditions op state₁.channel :=
        ⟨hopen, hsane.chanUid.trans (not_not.mp hbad), not_not.mp hbad⟩
      apply wp_bind
      apply own_sendCreate (Request.builds (.decoderCreateChannel uid param)) hvacant hidle
        howns₂
      · intro state₃ err howns₃ herr
        rw [if_pos herr]
        exact wp_unlockCreate howns₃ hidle (hsettled _) fun _ hready₄ => hready₄
      · intro state₃ howns₃
        rw [if_neg (by decide : ¬ (0 : ℤ) ≠ 0)]
        apply own_queuePopTimeoutCreate hvacant hidle howns₃
        · intro state₄ err _ howns₄
          exact wp_unlockCreate howns₄ hidle (hsettled _) fun _ hready₅ => hready₅
        · intro state₄ mail huid howns₄
          dsimp only
          apply wp_seq (wp_initChan hkind huid hvacant hidle howns₄)
          rintro err state₅ ⟨channel, hidle₅, howns₅⟩
          apply wp_calm rfl lasting_owns howns₅
          intro state₆ _ howns₆
          exact wp_unlockCreate howns₆ hidle₅ (hsettled _) fun _ hready₇ => hready₇

/-! ## Creating the channel of an encoder -/

structure ChannelData.Obtained (channel : ChannelData)
    (message : Al5eFeedbackChannel) : Prop where
  idle : channel.hist.Idle
  known : channel.hist.chanUid = channel.chanUid
  created : channel.chanUid ≠ badChan
  checkpoint : channel.checkpoint = noCheckpoint
  empty : ∀ pool, channel.pools pool = []
  askedInt : channel.hist.asked .intBuffers =
    message.buffersNeeded.intBuffersCount.toNat
  askedRec : channel.hist.asked .recBuffers =
    message.buffersNeeded.recBuffersCount.toNat

/-- What a creation leaves behind: a channel that is settled after a failure,
and one with no buffers after a success. -/
def Tried (conditions : Set Condition) (i : ℕ) (op : UserOp)
    (result : ℤ × Al5eChannelStatus × Al5eFeedbackChannel) (state : UserState) :
    Prop :=
  ∃ channel : ChannelData, Owns conditions i op [.create] none channel state ∧
    (result.1 ≠ 0 → channel.hist.Idle ∧ channel.Settled) ∧
    (result.1 = 0 → channel.Obtained result.2.2)

theorem wp_tryToCreateChannel
    {param : Al5Params} {status : Al5eChannelStatus}
    (hvacant : Vacant kind conditions op channel) (hidle : channel.hist.Idle)
    (hsettled : channel.Settled) (hcheckpoint : channel.checkpoint = noCheckpoint)
    (howns : Owns conditions i op [.create] none channel state) :
    userWp kind uid conditions i op (tryToCreateChannel uid param status)
      (Tried conditions i op) state := by
  apply wp_bind
  apply own_sendCreate (Request.builds (.encoderCreateChannel uid param)) hvacant hidle
    howns
  · intro state₁ err howns₁ herr
    rw [if_pos herr]
    exact ⟨channel, howns₁, fun _ => ⟨hidle, hsettled⟩, fun h => absurd h herr⟩
  · intro state₁ howns₁
    rw [if_neg (by decide : ¬ (0 : ℤ) ≠ 0)]
    apply own_queuePopTimeoutCreate hvacant hidle howns₁
    · intro state₂ err herr howns₂
      exact ⟨channel, howns₂, fun _ => ⟨hidle, hsettled⟩, fun h => absurd h herr⟩
    · intro state₂ mail _ howns₂
      apply wp_calm rfl lasting_owns howns₂
      intro state₃ _ howns₃
      have hmessage : (feedbackOfMail mail).chanUid = mailChanUid mail := rfl
      rw [hmessage]
      split
      · rename_i hbad
        rw [grantedChannel_of_eq hbad] at howns₃
        refine ⟨_, howns₃, fun _ => ⟨⟨rfl, hidle.awaiting⟩, ?_⟩,
          fun h => absurd h (by decide : ¬ (-EINVAL : ℤ) = 0)⟩
        exact ⟨hsettled.finished, hsettled.stage, fun h => absurd hcheckpoint h,
          hsettled.empty⟩
      · rename_i hbad
        apply own_obtain hvacant hbad (fun _ => hcheckpoint) howns₃
        intro state₄ howns₄
        refine ⟨_, howns₄, fun h => absurd rfl h, fun _ => ?_⟩
        exact ⟨⟨rfl, hidle.awaiting⟩, rfl, hbad, hcheckpoint,
          hsettled.empty hvacant.vacant, rfl, rfl⟩

theorem allocate_ne_no : checkpointAllocateBuffers ≠ noCheckpoint := by decide

theorem allocate_ne_reference :
    checkpointAllocateBuffers ≠ checkpointSendReferenceBuffers := by decide

theorem intermediate_ne_no : checkpointSendIntermediateBuffers ≠ noCheckpoint := by
  decide

theorem intermediate_ne_reference :
    checkpointSendIntermediateBuffers ≠ checkpointSendReferenceBuffers := by decide

theorem reference_ne_no : checkpointSendReferenceBuffers ≠ noCheckpoint := by decide

structure ChannelData.Resumed (channel : ChannelData) : Prop where
  idle : channel.hist.Idle
  settled : channel.Settled
  created : channel.chanUid ≠ badChan

/-- The owner of the create mutex is alone. -/
theorem Owns.alive
    (howns : Owns conditions i op [.create] none channel state)
    (hinv : UserInv kind uid conditions state) (hbad : channel.chanUid ≠ badChan)
    (hwaits : .destroyWaits ∈ conditions) :
    channel.hist.Alive channel.chanUid := by
  rw [← howns.hist_eq, ← howns.chanUid_eq]
  rw [← howns.chanUid_eq] at hbad
  exact hinv.alive_of_not_holdsAll hwaits hbad
    (howns.toAt.not_holdsAll (List.mem_singleton_self _)
      (by decide : UserOperation.init ∉ _))

def MailUid.pushes : MailUid → Bool
  | .pushBufferIntermediate | .pushBufferReference => true
  | _ => false

theorem hist_send_push
    {mail : Al5Mail} {mailUid : MailUid} {hist : Hist}
    (huid : mail.uid? = some mailUid) (hpushes : mailUid.pushes = true)
    (hchan : mailChanUid mail = hist.chanUid) :
    hist.send mail = { hist with
      pushedIntermediate :=
        hist.pushedIntermediate || decide (mailUid = .pushBufferIntermediate)
      pushedReference :=
        hist.pushedReference || decide (mailUid = .pushBufferReference) } := by
  unfold Hist.send
  rw [huid]
  cases mailUid <;> first | exact absurd hpushes Bool.false_ne_true | simp [hchan]

/-- The buffers of a pool are sent, or refused. -/
theorem own_sendBuffers
    {mailUid : MailUid} {pool : BufferPool} {next : ℤ → UserProg α}
    (hpushes : mailUid.pushes = true) (hresumed : channel.Resumed)
    (howns : Owns conditions i op [.create] none channel state)
    (hopen : op.closes = false)
    (hrefused : ∀ state₁ err, err ≠ 0 → Owns conditions i op [.create] none channel
      state₁ → userWp kind uid conditions i op (next err) post state₁)
    (hsent : ∀ state₁, Sane kind conditions op channel →
      Owns conditions i op [.create] none
        { channel with hist := { channel.hist with
            pushedIntermediate := channel.hist.pushedIntermediate ||
              decide (mailUid = .pushBufferIntermediate)
            pushedReference := channel.hist.pushedReference ||
              decide (mailUid = .pushBufferReference) } } state₁ →
      userWp kind uid conditions i op (next 0) post state₁) :
    userWp kind uid conditions i op (sendBuffers mailUid pool >>= next) post
      state := by
  apply wp_bind
  apply wp_getChanUid lasting_owns howns
  intro state₁ hinv howns₁
  have hsane := howns₁.sane hinv
  have halive := howns₁.alive hinv hresumed.created
  rw [howns₁.chanUid_eq]
  apply wp_calm rfl lasting_owns howns₁
  intro state₂ bufpool howns₂
  have hsend : ∀ mail : Al5Mail, mail.Names mailUid channel.chanUid →
      channel.hist.send mail = { channel.hist with
        pushedIntermediate := channel.hist.pushedIntermediate ||
          decide (mailUid = .pushBufferIntermediate)
        pushedReference := channel.hist.pushedReference ||
          decide (mailUid = .pushBufferReference) } :=
    fun mail hnames => hist_send_push hnames.uid?_eq hpushes
      (hnames.mailChanUid_eq.trans hsane.chanUid.symm)
  apply own_sendBuilt (builds_mailFromBufpool mailUid _ bufpool) howns₂
  · refine fun mail hnames => .ignored fun exchange => Exchange.ignores_sent ?_
    rw [hnames.uid?_eq]
    intro heq
    rw [Option.some.inj heq] at hpushes
    cases exchange <;> exact absurd hpushes Bool.false_ne_true
  · intro mail hnames
    have hok : .destroyWaits ∈ conditions → channel.hist.Alive (mailChanUid mail) := by
      rw [hnames.mailChanUid_eq]
      exact halive
    unfold OkSent
    rw [hnames.uid?_eq]
    cases mailUid <;> first | exact absurd hpushes Bool.false_ne_true | exact hok
  · intro mail hnames
    rw [hsend mail hnames]
    refine ⟨hsane.chanUid, ?_, ?_, .inl ⟨rfl, rfl⟩⟩
    · intro hcloses
      rw [hopen] at hcloses
      exact absurd hcloses (by simp)
    · intro hkind hcloses halloc hbad
      have hstocked := hsane.stocked hkind hcloses halloc hbad
      refine ⟨fun hno hfinished => ?_, fun href => ?_⟩
      · have hbuffered := hstocked.full hno hfinished
        exact ⟨by simp [hbuffered.1], by simp [hbuffered.2]⟩
      · simp [hstocked.sendReference href]
  · exact fun state₃ err howns₃ herr => hrefused state₃ err herr howns₃
  · intro state₃ mail hnames howns₃
    rw [hsend mail hnames] at howns₃
    exact hsent state₃ hsane howns₃

theorem wp_createSendReference
    (hresumed : channel.Resumed) (hopen : op.closes = false)
    (howns : Owns conditions i op [.create] none channel state) :
    userWp kind uid conditions i op createSendReference
      (fun _ last => Ready kind conditions i op [] none last) state := by
  have hsettled : kind = .encoder → op.closes = false → channel.Settled :=
    fun _ _ => hresumed.settled
  apply own_getCheckpoint howns
  intro state₁ hsane howns₁
  split
  · rename_i hstage
    apply own_sendBuffers rfl hresumed howns₁ hopen
    · intro state₂ err herr howns₂
      rw [if_pos herr]
      exact wp_unlockCreate howns₂ hresumed.idle hsettled fun _ hready₃ => hready₃
    · intro state₂ _ howns₂
      rw [if_neg (by decide : ¬ (0 : ℤ) ≠ 0)]
      apply own_setCheckpoint howns₂
      · refine ⟨hsane.chanUid, ?_, ?_, .inl ⟨rfl, rfl⟩⟩
        · intro hcloses
          rw [hopen] at hcloses
          exact absurd hcloses (by simp)
        · intro hkind hcloses halloc hbad
          have hstocked := hsane.stocked hkind hcloses halloc hbad
          refine ⟨fun _ _ => ⟨?_, ?_⟩, fun href => absurd href.symm reference_ne_no⟩
          · simp [Hist.next, hstocked.sendReference hstage]
          · simp [Hist.next]
      · intro state₃ howns₃
        apply wp_unlockCreate howns₃ ⟨hresumed.idle.inHand, hresumed.idle.awaiting⟩
        · intro _ _
          exact ⟨rfl, .inl rfl, fun h => absurd rfl h,
            fun hbad => absurd hbad hresumed.created⟩
        · exact fun _ hready₄ => hready₄
  · exact wp_unlockCreate howns₁ hresumed.idle hsettled fun _ hready₂ => hready₂

theorem wp_createSendIntermediate
    (hresumed : channel.Resumed) (hopen : op.closes = false)
    (howns : Owns conditions i op [.create] none channel state) :
    userWp kind uid conditions i op createSendIntermediate
      (fun _ last => Ready kind conditions i op [] none last) state := by
  have hsettled : kind = .encoder → op.closes = false → channel.Settled :=
    fun _ _ => hresumed.settled
  apply own_getCheckpoint howns
  intro state₁ hsane howns₁
  split
  · rename_i hstage
    have hstarted : channel.checkpoint ≠ noCheckpoint := by
      rw [hstage]
      exact intermediate_ne_no
    apply own_sendBuffers rfl hresumed howns₁ hopen
    · intro state₂ err herr howns₂
      rw [if_pos herr]
      exact wp_unlockCreate howns₂ hresumed.idle hsettled fun _ hready₃ => hready₃
    · intro state₂ _ howns₂
      rw [if_neg (by decide : ¬ (0 : ℤ) ≠ 0)]
      apply own_setCheckpoint howns₂
      · refine ⟨hsane.chanUid, ?_, ?_, .inl ⟨rfl, rfl⟩⟩
        · intro hcloses
          rw [hopen] at hcloses
          exact absurd hcloses (by simp)
        · intro _ _ _ _
          refine ⟨fun hno => absurd hno reference_ne_no, fun _ => ?_⟩
          simp [Hist.next]
      · intro state₃ howns₃
        apply wp_createSendReference _ hopen howns₃
        refine ⟨⟨hresumed.idle.inHand, hresumed.idle.awaiting⟩, ?_, hresumed.created⟩
        exact ⟨rfl, .inr (.inr rfl),
          fun _ => ⟨hresumed.created, (hresumed.settled.resumable hstarted).2⟩,
          fun hbad => absurd hbad hresumed.created⟩
  · exact wp_createSendReference hresumed hopen howns₁

structure ChannelData.Allocating (channel : ChannelData)
    (buffers : Al5ChannelBuffers) : Prop where
  idle : channel.hist.Idle
  finished : channel.hist.halfCreated = false
  created : channel.chanUid ≠ badChan
  checkpoint : channel.checkpoint = checkpointAllocateBuffers
  empty : ∀ pool, channel.pools pool = []
  askedInt : channel.hist.asked .intBuffers = buffers.intBuffersCount.toNat
  askedRec : channel.hist.asked .recBuffers = buffers.recBuffersCount.toNat

/-- The channel with its buffers, or with some of them after a failure. -/
def Stocking (conditions : Set Condition) (i : ℕ) (op : UserOp)
    (channel : ChannelData) (err : ℤ) (state : UserState) : Prop :=
  ∃ pools : BufferPool → List DmaBuffer,
    Owns conditions i op [.create] none { channel with pools } state ∧
      (err ≠ 0 → .allocates ∉ conditions) ∧
      (err = 0 → ∀ pool, (pools pool).length = channel.hist.asked pool)

theorem wp_allocateChannelBuffers
    {buffers : Al5ChannelBuffers} (hallocating : channel.Allocating buffers)
    (hsane : Sane kind conditions op channel) (hopen : op.closes = false)
    (howns : Owns conditions i op [.create] none channel state) :
    userWp kind uid conditions i op (allocateChannelBuffers buffers)
      (Stocking conditions i op channel) state := by
  have hmay : ∀ before after : BufferPool → List DmaBuffer,
      MayAdvance kind conditions op [.create] { channel with pools := before }
        { channel with pools := after } := by
    intro before after
    refine ⟨hsane.chanUid, ?_, ?_, .inl ⟨rfl, rfl⟩⟩
    · intro hcloses
      rw [hopen] at hcloses
      exact absurd hcloses (by simp)
    · intro hkind hcloses halloc hbad
      have hstocked := hsane.stocked hkind hcloses halloc hbad
      exact ⟨hstocked.full, hstocked.sendReference⟩
  have hfailed : ¬ (-ENOMEM : ℤ) = 0 := by decide
  apply own_bufpoolAllocate howns (hallocating.empty .intBuffers)
    (hmay channel.pools)
  · intro state₁ hfail howns₁
    rw [if_pos hfailed]
    exact ⟨_, howns₁, fun _ => hfail, fun h => absurd h hfailed⟩
  · intro state₁ ints hints howns₁
    rw [if_neg (by decide : ¬ (0 : ℤ) ≠ 0)]
    apply wp_last
    apply own_bufpoolAllocate howns₁
    · simpa using hallocating.empty .recBuffers
    · exact hmay _
    · intro state₂ hfail howns₂
      exact ⟨_, howns₂, fun _ => hfail, fun h => absurd h hfailed⟩
    · intro state₂ recs hrecs howns₂
      refine ⟨_, howns₂, fun h => absurd rfl h, fun _ pool => ?_⟩
      cases pool with
      | intBuffers => simp [hints, hallocating.askedInt]
      | recBuffers => simp [hrecs, hallocating.askedRec]

theorem wp_createAllocate
    {message : Al5eFeedbackChannel} (hopen : op.closes = false)
    (hstage : channel.Allocating message.buffersNeeded ∨ channel.Resumed)
    (howns : Owns conditions i op [.create] none channel state) :
    userWp kind uid conditions i op (createAllocate message)
      (fun _ last => Ready kind conditions i op [] none last) state := by
  apply own_getCheckpoint howns
  intro state₁ hsane howns₁
  have hquiet : ∀ hist : Hist, op.closes = true → hist.awaiting = false := by
    intro hist hcloses
    rw [hopen] at hcloses
    exact absurd hcloses (by simp)
  rcases hstage with hallocating | hresumed
  · rw [if_pos hallocating.checkpoint]
    apply wp_seq (wp_allocateChannelBuffers hallocating hsane hopen howns₁)
    rintro err state₂ ⟨pools, howns₂, hfailed, hfull⟩
    split
    · rename_i herr
      apply own_setCheckpoint howns₂
      · exact ⟨hsane.chanUid, hquiet _, fun _ _ halloc => absurd halloc (hfailed herr),
          .inl ⟨rfl, rfl⟩⟩
      · intro state₃ howns₃
        apply wp_unlockCreate howns₃
          ⟨hallocating.idle.inHand, hallocating.idle.awaiting⟩
        · intro _ _
          exact ⟨rfl, .inl rfl, fun h => absurd rfl h,
            fun hbad => absurd hbad hallocating.created⟩
        · intro state₄ hready₄
          apply wp_seq (wp_destroyChannel (fun hcloses => ?_) hready₄)
          · exact fun _ last hlast => hlast
          · rw [hopen] at hcloses
            exact absurd hcloses (by simp)
    · rename_i herr
      apply own_setCheckpoint howns₂
      · refine ⟨hsane.chanUid, hquiet _, ?_, .inl ⟨rfl, rfl⟩⟩
        intro _ _ _ _
        exact ⟨fun hno => absurd hno intermediate_ne_no,
          fun href => absurd href intermediate_ne_reference⟩
      · intro state₃ howns₃
        apply wp_createSendIntermediate _ hopen howns₃
        refine ⟨⟨hallocating.idle.inHand, hallocating.idle.awaiting⟩, ?_,
          hallocating.created⟩
        exact ⟨rfl, .inr (.inl rfl),
          fun _ => ⟨hallocating.created, hfull (not_not.mp herr)⟩,
          fun hbad => absurd hbad hallocating.created⟩
  · have hother : channel.checkpoint ≠ checkpointAllocateBuffers := by
      rcases hresumed.settled.stage with h | h | h <;> rw [h] <;> decide
    rw [if_neg hother]
    exact wp_createSendIntermediate hresumed hopen howns₁

def Checked (kind : UserKind) (conditions : Set Condition) (i : ℕ) (op : UserOp)
    (channel : ChannelData) (created : Bool) (state : UserState) : Prop :=
  Owns conditions i op [.create] none channel state ∧
    Sane kind conditions op channel ∧
    (created = false → channel.chanUid = badChan ∨ channel.checkpoint ≠ noCheckpoint)

theorem wp_channelIsFullyCreated
    (howns : Owns conditions i op [.create] none channel state) :
    userWp kind uid conditions i op channelIsFullyCreated
      (Checked kind conditions i op channel) state := by
  apply own_getChanUid howns
  intro state₁ hsane howns₁
  split
  · rename_i hbad
    exact ⟨howns₁, hsane, fun _ => .inl hbad⟩
  · apply own_getCheckpoint howns₁
    intro state₂ _ howns₂
    exact ⟨howns₂, hsane, fun h => .inr (of_decide_eq_false h)⟩

theorem wp_encoderCreate
    {param : Al5Params} {status : Al5eChannelStatus} (hkind : kind = .encoder)
    (hopen : op.closes = false) (hready : Ready kind conditions i op [] none state) :
    userWp kind uid conditions i op (al5eUserCreateChannel uid param status)
      (fun _ last => Ready kind conditions i op [] none last) state := by
  apply wp_lockKillable hready
  · intro state₁ hready₁
    rw [if_pos rfl]
    exact hready₁
  · intro state₀ _ _ _ _ htaken
    rw [if_neg (by decide : ¬ (0 : ℤ) = -EINTR)]
    have howns₁ := htaken.toOwns (List.mem_singleton_self _)
    have hidle := htaken.idle (List.mem_singleton_self _)
    have hsettled := htaken.settled hkind hopen (List.mem_singleton_self _)
    generalize state₀.take i .create = state₁ at howns₁ hidle hsettled ⊢
    have hsettled' : kind = .encoder → op.closes = false → state₁.channel.Settled :=
      fun _ _ => hsettled
    apply wp_seq (wp_channelIsFullyCreated howns₁)
    rintro created state₂ ⟨howns₂, hsane, hmissing⟩
    cases created with
    | true =>
        exact wp_unlockCreate howns₂ hidle hsettled' fun _ hready₃ => hready₃
    | false =>
        rw [if_neg (by simp)]
        apply own_getCheckpoint howns₂
        intro state₃ _ howns₃
        split
        · rename_i hno
          have hbad : state₁.channel.chanUid = badChan := by
            rcases hmissing rfl with hbad | hstarted
            · exact hbad
            · exact absurd hno hstarted
          have hvacant : Vacant kind conditions op state₁.channel :=
            ⟨hopen, hsane.chanUid.trans hbad, hbad⟩
          apply wp_seq (wp_tryToCreateChannel hvacant hidle hsettled hno howns₃)
          rintro ⟨err, newStatus, message⟩ state₄ ⟨channel, howns₄, hfailed, hobtained⟩
          dsimp only
          split
          · rename_i herr
            obtain ⟨hidle₄, hsettled₄⟩ := hfailed herr
            exact wp_unlockCreate howns₄ hidle₄ (fun _ _ => hsettled₄)
              fun _ hready₅ => hready₅
          · rename_i herr
            have hnew := hobtained (not_not.mp herr)
            apply own_setCheckpoint howns₄
            · refine ⟨hnew.known, ?_, ?_, .inl ⟨rfl, rfl⟩⟩
              · intro hcloses
                rw [hopen] at hcloses
                exact absurd hcloses (by simp)
              · intro _ _ _ _
                exact ⟨fun h => absurd h allocate_ne_no, fun h => absurd h allocate_ne_reference⟩
            · intro state₅ howns₅
              have hallocating : ({ channel with
                  hist := channel.hist.next (.checkpoint checkpointAllocateBuffers)
                  checkpoint := checkpointAllocateBuffers } :
                    ChannelData).Allocating message.buffersNeeded :=
                ⟨⟨hnew.idle.inHand, hnew.idle.awaiting⟩, rfl, hnew.created, rfl,
                  hnew.empty, hnew.askedInt, hnew.askedRec⟩
              apply wp_seq (wp_createAllocate hopen (.inl hallocating) howns₅)
              exact fun _ last hlast => hlast
        · rename_i hstarted
          have hresumed : state₁.channel.Resumed :=
            ⟨hidle, hsettled, (hsettled.resumable hstarted).1⟩
          apply wp_seq (wp_createAllocate hopen (.inr hresumed) howns₃)
          exact fun _ last hlast => hlast

/-! ## Closing the file -/

section

variable (hcloses : op.closes = true)
include hcloses

theorem wp_drainQueue
    {which : UserMail} (rounds : ℕ)
    (hready : Ready kind conditions i op [] none state) :
    userWp kind uid conditions i op (drainQueue which rounds)
      (fun _ last => Ready kind conditions i op [] none last) state := by
  induction rounds generalizing state with
  | zero =>
      apply wp_last
      exact wp_calm rfl lasting_ready hready fun _ _ hready₁ => hready₁
  | succ rounds ih =>
      apply wp_calm rfl lasting_ready hready
      intro state₁ _ hready₁
      apply wp_popResidual hcloses hready₁
      intro mail state₂ hready₂
      cases mail with
      | none => exact hready₂
      | some mail =>
          apply wp_calm rfl lasting_ready hready₂
          intro state₃ _ hready₃
          exact ih hready₃

theorem wp_removeResidualMessages
    {queues : List UserMail} (rounds : ℕ)
    (hready : Ready kind conditions i op [] none state) :
    userWp kind uid conditions i op (removeResidualMessages rounds queues)
      (fun _ last => Ready kind conditions i op [] none last) state := by
  induction queues generalizing state with
  | nil => exact hready
  | cons which queues ih =>
      apply wp_queueUnlockClosing hcloses hready
      intro state₁ hready₁
      apply wp_seq (wp_drainQueue hcloses rounds hready₁)
      intro _ state₂ hready₂
      exact ih hready₂

omit hcloses in
theorem wp_quietDestroyLoop
    (tries : ℕ) (hready : Ready kind conditions i op [] none state) :
    userWp kind uid conditions i op (quietDestroyLoop tries)
      (fun _ last => Ready kind conditions i op [] none last) state := by
  induction tries generalizing state with
  | zero => exact hready
  | succ tries ih =>
      apply wp_seq (wp_destroyChannel (fun _ => rfl) hready)
      intro ret state₁ hready₁
      split
      · exact hready₁
      · exact ih hready₁

theorem wp_destroyChannelResources
    (hready : Ready kind conditions i op [] none state) :
    userWp kind uid conditions i op al5UserDestroyChannelResources
      (fun _ last => Ready kind conditions i op [] none last) state := by
  apply wp_bufpoolFreeClosing hcloses hready
  intro state₁ hready₁
  apply wp_last
  exact wp_bufpoolFreeClosing hcloses hready₁ fun _ hready₂ => hready₂

/-- The call owns nothing and the user is not bound any more. -/
def Unbound (kind : UserKind) (conditions : Set Condition) (i : ℕ) (op : UserOp)
    (state : UserState) : Prop :=
  Ready kind conditions i op [] none state ∧ state.bound = false

omit hcloses in
theorem wp_residualThenUnbind
    (hcloses : op.closes = true) (rounds : ℕ)
    (hready : Ready kind conditions i op [] none state) :
    userWp kind uid conditions i op
      (al5UserRemoveResidualMessages rounds >>= fun _ => Prog.perform UserAct.unbind)
      (fun _ last => Unbound kind conditions i op last) state := by
  apply wp_seq (wp_removeResidualMessages hcloses rounds hready)
  intro _ state₁ hready₁
  apply wp_last
  exact wp_unbind hcloses hready₁ fun _ hready₂ hbound => ⟨hready₂, hbound⟩

theorem wp_release
    (rounds : ℕ) (hready : Ready kind conditions i op [] none state) :
    userWp kind uid conditions i op (al5CodecRelease rounds)
      (fun _ last => Unbound kind conditions i op last) state := by
  apply wp_getChanUid lasting_ready hready
  intro state₁ _ hready₁
  split
  · exact wp_residualThenUnbind hcloses rounds hready₁
  · apply wp_seq (wp_quietDestroyLoop 10000 hready₁)
    intro _ state₂ hready₂
    apply wp_seq (wp_destroyChannelResources hcloses hready₂)
    intro _ state₃ hready₃
    exact wp_residualThenUnbind hcloses rounds hready₃

end

/-! ## Booting the MCU -/

theorem wp_popInit
    {next : ℤ × Option Al5Mail → UserProg α}
    (hready : Ready kind conditions i op [.init] none state)
    (hnone : ∀ state₁ err, Ready kind conditions i op [.init] none state₁ →
      userWp kind uid conditions i op (next (err, none)) post state₁)
    (hsome : ∀ state₁ mail, Ready kind conditions i op [.init] none state₁ →
      userWp kind uid conditions i op (next (0, some mail)) post state₁) :
    userWp kind uid conditions i op (al5QueuePopTimeout .init >>= next) post
      state := by
  apply wp_calm rfl lasting_ready hready
  intro state₁ err hready₁
  apply wp_calm rfl lasting_ready hready₁
  intro state₂ mail hready₂
  cases mail with
  | none => exact hnone state₂ _ hready₂
  | some mail => exact hsome state₂ mail hready₂

theorem wp_initMcu
    {msg : List Byte} (hready : Ready kind conditions i op [] none state) :
    userWp kind uid conditions i op (initMcu uid msg)
      (fun _ last => Ready kind conditions i op [] none last) state := by
  apply wp_lockKillable hready
  · intro state₁ hready₁
    rw [if_pos rfl]
    exact hready₁
  · intro state₀ _ _ _ _ htaken
    rw [if_neg (by decide : ¬ (0 : ℤ) = -EINTR)]
    apply wp_popInit htaken
    · exact fun _ _ hready₁ => wp_unlock_last hready₁ fun _ hready₂ => hready₂
    · intro state₁ mail hready₁
      apply wp_calm rfl lasting_ready hready₁
      intro state₂ _ hready₂
      apply wp_calm rfl lasting_ready hready₂
      intro state₃ suballocBuf hready₃
      cases suballocBuf with
      | false => exact wp_unlock_last hready₃ fun _ hready₄ => hready₄
      | true =>
          apply wp_bind
          apply wp_sendPlain (builds_initMsg uid msg) rfl lasting_ready hready₃
          · intro state₄ mail _ _ hnames _
            unfold OkSent
            rw [hnames.uid?_eq]
            exact hnames.mailChanUid_eq
          · intro state₄ err hready₄
            dsimp only
            split
            · exact wp_unlock_last hready₄ fun _ hready₅ => hready₅
            · apply wp_popInit hready₄
              · exact fun _ _ hready₅ =>
                  wp_unlock_last hready₅ fun _ hready₆ => hready₆
              · intro state₅ mail hready₅
                apply wp_calm rfl lasting_ready hready₅
                intro state₆ _ hready₆
                exact wp_unlock_last hready₆ fun _ hready₇ => hready₇

theorem wp_setFirmware
    {msg : List Byte} (hcloses : op.closes = true)
    (hready : Ready kind conditions i op [] none state) :
    userWp kind uid conditions i op (al5CodecSetFirmware uid msg)
      (fun _ last => Ready kind conditions i op [] none last) state := by
  apply wp_seq (wp_initMcu hready)
  intro err state₁ hready₁
  split
  · exact hready₁
  · exact wp_unbind hcloses hready₁ fun _ hready₂ _ => hready₂

/-! ## All operations -/

theorem Ready.holdsNone
    (hready : Ready kind conditions i op [] none state) : state.HoldsNone i :=
  fun operation hlock => absurd ((hready.locks operation).mp hlock) List.not_mem_nil

/-- An operation that does not release the file. -/
theorem wp_body_of_ready
    {program : UserProg α} {f : α → UserOut} (hrelease : op.isRelease = false)
    (hwp : userWp kind uid conditions i op program
      (fun _ last => Ready kind conditions i op [] none last) state) :
    userWp kind uid conditions i op (program.bind fun value => .ret (f value))
      ((userOutline kind uid conditions).post i op) state := by
  apply wp_seq hwp
  intro value last hready
  refine ⟨hready.holdsNone, ?_⟩
  rw [hrelease]
  exact fun h => absurd h (by simp)

theorem okSent_encode
    {msg : Al5EncodeMsg} (hop : op = .encodeOneFrame msg) (hkind : kind = .encoder)
    {mail : Al5Mail} {chanUid : Word} (hinv : UserInv kind uid conditions state)
    (hguards : Guards kind conditions i op [.xcode] chanUid state)
    (hnames : mail.Names .encodeOneFrm chanUid)
    (hallowed : ∀ condition ∈ conditions,
      condition.Admits state op (.send mail) .succeed) :
    OkSent uid conditions state.hist mail := by
  unfold OkSent
  rw [hnames.uid?_eq]
  refine ⟨?_, ?_⟩
  · intro hwaits
    rw [hnames.mailChanUid_eq]
    exact hguards.alive hinv (List.mem_singleton_self _)
      (by decide : UserOperation.init ∉ _) hwaits
  · intro halloc hencodes
    have hcloser : state.closer = none :=
      hguards.toAt.closer_eq_none (by rw [hop]; rfl)
    have hbad : state.chanUid ≠ badChan := by
      rw [hguards.chanUid]
      exact hguards.created
    obtain ⟨hno, hfinished⟩ := hallowed _ hencodes msg mail hop rfl
    have hstocked := hinv.stocked hkind hcloser halloc hbad
    refine ⟨?_, hstocked.full hno hfinished⟩
    rw [hnames.mailChanUid_eq, hinv.chanUid]
    exact hguards.chanUid.symm

theorem okSent_decode
    {mail : Al5Mail} {mailUid : MailUid} {chanUid : Word}
    (huid : mailUid = .decodeOneFrm ∨ mailUid = .decodeOneSlice)
    (hinv : UserInv kind uid conditions state)
    (hguards : Guards kind conditions i op [.xcode] chanUid state)
    (hnames : mail.Names mailUid chanUid) : OkSent uid conditions state.hist mail := by
  have hok : .destroyWaits ∈ conditions → state.hist.Alive (mailChanUid mail) := by
    intro hwaits
    rw [hnames.mailChanUid_eq]
    exact hguards.alive hinv (List.mem_singleton_self _)
      (by decide : UserOperation.init ∉ _) hwaits
  unfold OkSent
  rw [hnames.uid?_eq]
  rcases huid with rfl | rfl <;> exact hok

theorem wp_userBody
    (hoffered : op.offeredTo kind = true)
    (hready : Ready kind conditions i op [] none state) :
    userWp kind uid conditions i op (userBody uid op)
      ((userOutline kind uid conditions).post i op) state := by
  cases op with
  | encoderCreate param status =>
      have hkind : kind = .encoder := by cases kind <;> simp_all [UserOp.offeredTo]
      exact wp_body_of_ready rfl (wp_encoderCreate hkind rfl hready)
  | encodeOneFrame msg =>
      have hkind : kind = .encoder := by cases kind <;> simp_all [UserOp.offeredTo]
      apply wp_body_of_ready rfl
      exact wp_sendFrameCommand (fun chanUid => Request.builds (.encodeOneFrame chanUid msg))
        rfl (fun _ _ _ hinv hguards hnames hallowed =>
          okSent_encode rfl hkind hinv hguards hnames hallowed) hready
  | encoderWaitForStatus => exact wp_body_of_ready rfl (wp_waitForStatus hready)
  | putStreamBuffer buffer =>
      exact wp_body_of_ready rfl (wp_putStreamBuffer rfl hready)
  | getRec => exact wp_body_of_ready rfl (wp_getRec hready)
  | releaseRec fd => exact wp_body_of_ready rfl (wp_releaseRec hready)
  | decoderCreate param status =>
      have hkind : kind ≠ .encoder := by cases kind <;> simp_all [UserOp.offeredTo]
      exact wp_body_of_ready rfl (wp_decoderCreate hkind rfl hready)
  | decodeOneFrame msg =>
      apply wp_body_of_ready rfl
      exact wp_sendFrameCommand (fun chanUid => Request.builds (.decodeOneFrame chanUid msg))
        rfl (fun _ _ _ hinv hguards hnames _ =>
          okSent_decode (.inl rfl) hinv hguards hnames) hready
  | decodeOneSlice msg =>
      apply wp_body_of_ready rfl
      exact wp_sendFrameCommand (fun chanUid => Request.builds (.decodeOneSlice chanUid msg))
        rfl (fun _ _ _ hinv hguards hnames _ =>
          okSent_decode (.inr rfl) hinv hguards hnames) hready
  | searchStartCode msg => exact wp_body_of_ready rfl (wp_searchStartCode msg hready)
  | decoderWaitForStatus => exact wp_body_of_ready rfl (wp_waitForStatus hready)
  | waitForStartCode => exact wp_body_of_ready rfl (wp_waitForStartCode hready)
  | destroy quiet =>
      apply wp_body_of_ready rfl
      exact wp_destroyChannel (fun hcloses => absurd hcloses Bool.false_ne_true) hready
  | release rounds =>
      apply wp_seq (wp_release rfl rounds hready)
      exact fun _ last hlast => ⟨hlast.1.holdsNone, fun _ => hlast.2⟩
  | setFirmware msg => exact wp_body_of_ready rfl (wp_setFirmware rfl hready)

/-! ## The outline is valid -/

theorem sound_deliver (mail : Al5Mail) (hinv : UserInv kind uid conditions state) :
    UserInv kind uid conditions (al5UserDeliver mail state) ∧
      ∀ j, UserRely j state (al5UserDeliver mail state) := by
  have hqueue : ∀ which : UserMail,
      ((al5UserDeliver mail state).queues which).locked = (state.queues which).locked ∧
        ((state.queues which).mails ≠ [] →
          ((al5UserDeliver mail state).queues which).mails ≠ []) := by
    intro which
    unfold al5UserDeliver
    by_cases hwhich : which = mailToQueue mail.uid?
    · subst hwhich
      rw [UserState.setQueue_self]
      exact ⟨rfl, fun _ => by simp⟩
    · rw [UserState.setQueue_of_ne _ hwhich]
      exact ⟨rfl, id⟩
  have hsorted : (al5UserDeliver mail state).Sorted := by
    apply hinv.sorted.setQueue
    intro other hother
    rcases List.mem_append.mp hother with hother | hother
    · exact hinv.sorted _ other hother
    · rw [List.mem_singleton.mp hother]
  have hflag : state.closer = none →
      ((al5UserDeliver mail state).queues .destroy).locked = true := by
    rw [(hqueue .destroy).1]
    exact hinv.destroyLocked
  exact hinv.still rfl rfl rfl rfl (fun _ => rfl) id hflag (hqueue .destroy).2 hsorted

theorem userInv_init : UserInv kind uid conditions al5UserInit where
  chanUid := rfl
  idle _ := ⟨rfl, rfl⟩
  settled _ _ _ :=
    ⟨rfl, .inl rfl, fun h => absurd rfl h, fun _ _ => rfl⟩
  stocked _ _ _ hbad := absurd rfl hbad
  closing _ _ _ hcloser := absurd hcloser (by simp [al5UserInit])
  quiet hcloser := absurd rfl hcloser
  bound _ := rfl
  destroyLocked _ := rfl
  alive _ hbad := absurd rfl hbad
  paired _ _ _ := .inl rfl
  sorted _ _ hmail := absurd hmail List.not_mem_nil
  events := eachEvent_nil _

theorem ready_of_holdsNone
    (hnone : state.HoldsNone i)
    (hcloser : state.closer = if op.closes then some i else none) :
    Ready kind conditions i op [] none state where
  locks operation := by
    constructor
    · exact fun hlock => absurd hlock (hnone operation)
    · exact fun hmem => absurd hmem List.not_mem_nil
  closer := hcloser
  pairs _ hmutex := absurd hmutex List.not_mem_nil
  idle hmem := absurd hmem List.not_mem_nil
  settled _ _ hmem := absurd hmem List.not_mem_nil

/-- The file is closed while no call holds a mutex. -/
theorem userInv_close
    (hinv : UserInv kind uid conditions state) (closer : ℕ)
    (hfree : ∀ operation, state.locks operation = none) :
    UserInv kind uid conditions { state with closer := some closer } where
  chanUid := hinv.chanUid
  idle := hinv.idle
  settled _ hcloser := absurd hcloser (by simp)
  stocked _ hcloser := absurd hcloser (by simp)
  closing _ operation _ _ hlock := by
    have hlock : state.locks operation = some _ := hlock
    rw [hfree operation] at hlock
    exact absurd hlock (by simp)
  quiet _ := (hinv.idle (hfree .create)).awaiting
  bound hcloser := absurd hcloser (by simp)
  destroyLocked hcloser := absurd hcloser (by simp)
  alive := hinv.alive
  paired _ _ hcloser := absurd hcloser (by simp)
  sorted := hinv.sorted
  events := hinv.events

theorem userOutline_valid :
    (userOutline kind uid conditions).Valid al5UserInit where
  init := userInv_init
  init_fresh _ _ := by simp [al5UserInit]
  env := by
    intro mail state state' hinv henv _
    simp only [userMachine] at henv
    split at henv
    · rw [← Option.some.inj henv]
      exact sound_deliver mail hinv
    · exact absurd henv (by simp)
  enter := by
    intro calls op state state' hinv henter _ hcovered hfresh
    simp only [userMachine, userEnter] at henter
    split at henter
    · rename_i hopen
      obtain ⟨hcloser, hoffered⟩ := hopen
      split at henter
      · rename_i hcloses
        split at henter
        · rename_i hfinished
          rw [← Option.some.inj henter]
          have hreturned : ∀ (j : ℕ) call, calls[j]? = some call →
              ∃ out, call.prog = .ret out := by
            intro j call hcall
            have hdone := List.all_eq_true.mp hfinished call
              (List.mem_of_getElem? hcall)
            obtain ⟨callOp, prog⟩ := call
            cases prog with
            | ret out => exact ⟨out, rfl⟩
            | act action next => exact absurd hdone (by simp)
          have hnone : ∀ j, state.HoldsNone j := by
            intro j
            cases hcall : calls[j]? with
            | none => exact hfresh j (List.getElem?_eq_none_iff.mp hcall)
            | some call =>
                obtain ⟨out, hret⟩ := hreturned j call hcall
                have hpost := hcovered j call hcall
                unfold Outline.Covered at hpost
                rw [hret] at hpost
                exact hpost.1
          have hfree : ∀ operation, state.locks operation = none := by
            intro operation
            cases hlock : state.locks operation with
            | none => rfl
            | some j => exact absurd hlock (hnone j operation)
          refine ⟨userInv_close hinv _ hfree, ?_, fun j _ => hnone j, ?_⟩
          · intro j call hcall
            obtain ⟨out, hret⟩ := hreturned j call hcall
            have hpost := hcovered j call hcall
            unfold Outline.Covered at hpost ⊢
            rw [hret] at hpost ⊢
            exact hpost
          · exact wp_userBody hoffered
              (ready_of_holdsNone (hnone _) (by rw [if_pos hcloses]))
        · exact absurd henter (by simp)
      · rename_i hcloses
        rw [← Option.some.inj henter]
        refine ⟨hinv, hcovered, fun j hj => hfresh j (Nat.le_of_lt hj), ?_⟩
        exact wp_userBody hoffered
          (ready_of_holdsNone (hfresh _ (Nat.le_refl _)) (by rw [hcloser, if_neg hcloses]))
    · exact absurd henter (by simp)

/-- Every reachable configuration of a user. -/
theorem user_holds
    {config : UserConfig}
    (hreach : (userMachine kind uid).Reach (userRegime conditions) userStart config) :
    (userOutline kind uid conditions).Holds config :=
  userOutline_valid.sound hreach

theorem user_inv
    {config : UserConfig}
    (hreach : (userMachine kind uid).Reach (userRegime conditions) userStart config) :
    UserInv kind uid conditions config.state :=
  (user_holds hreach).inv

end VcuDriver

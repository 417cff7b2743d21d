import VcuDriver.UserOps

/-!
# The mails which a user builds

Whatever sizes a request carries, a constructor that returns a mail has put the
uid of the mail in its header and the addressee in the first word of its body.
-/

namespace VcuDriver

/-- The mail has the given uid, and the first word of its body is the
addressee. -/
structure Al5Mail.Names (mail : Al5Mail) (mailUid : MailUid) (addressee : Word) :
    Prop where
  msgUid : mail.msgUid = mailUid.code.setWidth 16
  body : wordBytes addressee <+: mail.body

/-- Every mail which the constructor returns has this uid and addressee. -/
def Builds (constructor : Bool → MailResult) (mailUid : MailUid)
    (addressee : Word) : Prop :=
  ∀ kmalloc mail, constructor kmalloc = .ok (some mail) →
    mail.Names mailUid addressee

variable {mailUid : MailUid} {addressee : Word} {kmalloc : Bool}

namespace Al5Mail.Names

variable {mail : Al5Mail}

theorem uid?_eq (hnames : mail.Names mailUid addressee) :
    mail.uid? = some mailUid := by
  have hcode : (mailUid.code.setWidth 16).setWidth 32 = mailUid.code := by
    cases mailUid <;> rfl
  unfold Al5Mail.uid? al5MailGetUid
  rw [hnames.msgUid, hcode]
  exact MailUid.ofCode?_code mailUid

theorem mailChanUid_eq (hnames : mail.Names mailUid addressee) :
    mailChanUid mail = addressee := by
  obtain ⟨rest, hrest⟩ := hnames.body
  unfold mailChanUid al5MailGetWord
  rw [← hrest]
  exact wordAt_wordBytes_append addressee rest

end Al5Mail.Names

/-! ## Writes keep the names -/

def NamesIfMail (mailUid : MailUid) (addressee : Word) (mail : Option Al5Mail) :
    Prop :=
  ∀ content, mail = some content → content.Names mailUid addressee

theorem names_of_write
    {mail result : Option Al5Mail} {content : List Byte} {size : ℕ}
    (hwrite : al5MailWrite mail content size = .ok result)
    (hnames : NamesIfMail mailUid addressee mail) :
    NamesIfMail mailUid addressee result := by
  obtain ⟨before, hmail, _, _, hresult⟩ := al5MailWrite_inv hwrite
  intro after hafter
  have hbefore := hnames before hmail
  rw [hresult] at hafter
  rw [← Option.some.inj hafter]
  exact ⟨hbefore.msgUid, hbefore.body.trans (List.prefix_append _ _)⟩

/-- The first word written to a fresh mail is its addressee. -/
theorem names_of_create
    {size : Word} {result : Option Al5Mail}
    (hwrite : al5MailWriteWord (al5MailCreate kmalloc mailUid.code size) addressee =
      .ok result) :
    NamesIfMail mailUid addressee result := by
  obtain ⟨before, hmail, _, hresult⟩ := al5MailWriteWord_inv hwrite
  unfold al5MailCreate at hmail
  intro after hafter
  rw [hresult] at hafter
  rw [← Option.some.inj hafter]
  cases kmalloc with
  | false => simp at hmail
  | true =>
      rw [if_pos rfl] at hmail
      rw [← Option.some.inj hmail]
      exact ⟨rfl, List.prefix_refl _⟩

theorem bind_eq_ok
    {first : MailResult} {rest : Option Al5Mail → MailResult}
    {result : Option Al5Mail} (hbind : first >>= rest = .ok result) :
    ∃ mid, first = .ok mid ∧ rest mid = .ok result := by
  cases first with
  | error fault => exact absurd hbind (by simp [bind, Except.bind])
  | ok mid => exact ⟨mid, rfl, hbind⟩

theorem names_of_writeChunks
    {chunks : List Chunk} {mail result : Option Al5Mail}
    (hwrite : writeChunks chunks mail = .ok result)
    (hnames : NamesIfMail mailUid addressee mail) :
    NamesIfMail mailUid addressee result := by
  induction chunks generalizing mail with
  | nil =>
      rw [writeChunks, Except.ok.injEq] at hwrite
      rw [← hwrite]
      exact hnames
  | cons chunk chunks ih =>
      rw [writeChunks] at hwrite
      obtain ⟨mid, hfirst, hrest⟩ := bind_eq_ok hwrite
      apply ih hrest
      cases chunk with
      | word value => exact names_of_write hfirst hnames
      | params array => exact names_of_write hfirst hnames

theorem names_of_writeBuffers
    {buffers : List DmaBuffer} {mail result : Option Al5Mail}
    (hwrite : writeBuffers buffers mail = .ok result)
    (hnames : NamesIfMail mailUid addressee mail) :
    NamesIfMail mailUid addressee result := by
  induction buffers generalizing mail with
  | nil =>
      rw [writeBuffers, Except.ok.injEq] at hwrite
      rw [← hwrite]
      exact hnames
  | cons buffer buffers ih =>
      rw [writeBuffers] at hwrite
      obtain ⟨mid₁, hfirst, hwrite⟩ := bind_eq_ok hwrite
      obtain ⟨mid₂, hsecond, hwrite⟩ := bind_eq_ok hwrite
      obtain ⟨mid₃, hthird, hrest⟩ := bind_eq_ok hwrite
      have hnames₁ := names_of_write hfirst hnames
      have hnames₂ := names_of_write hsecond hnames₁
      exact ih hrest (names_of_write hthird hnames₂)

/-! ## The constructors -/

namespace Request

def senderUid : Request → Word
  | .encoderCreateChannel uid _ | .encodeOneFrame uid _
  | .decoderCreateChannel uid _ | .decodeOneFrame uid _
  | .decodeOneSlice uid _ | .searchStartCode uid _ => uid

theorem builds (request : Request) :
    Builds (fun kmalloc => request.build kmalloc) request.mailUid
      request.senderUid := by
  intro kmalloc mail hbuild
  dsimp only at hbuild
  rw [build_eq] at hbuild
  split_ifs at hbuild with hnull
  · exact absurd (Except.ok.inj hbuild) (by simp)
  have hchunks : ∃ rest,
      request.chunks = .word request.senderUid :: rest := by
    cases request <;> exact ⟨_, rfl⟩
  obtain ⟨rest, hrest⟩ := hchunks
  rw [hrest, writeChunks] at hbuild
  obtain ⟨mid, hfirst, hwrite⟩ := bind_eq_ok hbuild
  exact names_of_writeChunks hwrite (names_of_create hfirst) mail rfl

end Request

theorem builds_emptyMail (mailUid : MailUid) (senderUid : Word) :
    Builds (fun kmalloc => al5CreateEmptyMail kmalloc senderUid mailUid.code)
      mailUid senderUid := by
  intro kmalloc mail hbuild
  exact names_of_create hbuild mail rfl

theorem builds_classicMail (mailUid : MailUid) (senderUid : Word)
    (msg : List Byte) (msgSize : Word) :
    Builds (fun kmalloc =>
      al5CreateClassicMail kmalloc senderUid mailUid.code msg msgSize)
      mailUid senderUid := by
  intro kmalloc mail hbuild
  dsimp only at hbuild
  unfold al5CreateClassicMail at hbuild
  split at hbuild
  · simp at hbuild
  · rename_i fresh hfresh
    rw [← hfresh] at hbuild
    obtain ⟨mid, hfirst, hrest⟩ := bind_eq_ok hbuild
    exact names_of_write hrest (names_of_create hfirst) mail rfl

theorem builds_initMsg (senderUid : Word) (msg : List Byte) :
    Builds (fun kmalloc => createInitMsg kmalloc senderUid msg) .init senderUid := by
  intro kmalloc mail hbuild
  dsimp only at hbuild
  unfold createInitMsg at hbuild
  split at hbuild
  · simp at hbuild
  · rename_i fresh hfresh
    rw [← hfresh] at hbuild
    obtain ⟨mid, hfirst, hrest⟩ := bind_eq_ok hbuild
    exact names_of_write hrest (names_of_create hfirst) mail rfl

theorem builds_mailFromBufpool (mailUid : MailUid) (chanUid : Word)
    (bufpool : List DmaBuffer) :
    Builds (createMailFromBufpool mailUid.code chanUid bufpool) mailUid
      chanUid := by
  intro kmalloc mail hbuild
  unfold createMailFromBufpool at hbuild
  obtain ⟨mid, hfirst, hrest⟩ := bind_eq_ok hbuild
  exact names_of_writeBuffers hrest (names_of_create hfirst) mail rfl

theorem builds_putStreamMail (chanUid : Word) (info : BufferInfo)
    (buffer : Al5Buffer) :
    Builds (createPutStreamMail chanUid info buffer) .putStreamBuffer chanUid := by
  intro kmalloc mail hbuild
  unfold createPutStreamMail at hbuild
  obtain ⟨mid₁, hwrite₁, hbuild⟩ := bind_eq_ok hbuild
  obtain ⟨mid₂, hwrite₂, hbuild⟩ := bind_eq_ok hbuild
  obtain ⟨mid₃, hwrite₃, hbuild⟩ := bind_eq_ok hbuild
  obtain ⟨mid₄, hwrite₄, hbuild⟩ := bind_eq_ok hbuild
  obtain ⟨mid₅, hwrite₅, hbuild⟩ := bind_eq_ok hbuild
  have hnames₁ := names_of_create hwrite₁
  have hnames₂ := names_of_write hwrite₂ hnames₁
  have hnames₃ := names_of_write hwrite₃ hnames₂
  have hnames₄ := names_of_write hwrite₄ hnames₃
  have hnames₅ := names_of_write hwrite₅ hnames₄
  exact names_of_write hbuild hnames₅ mail rfl

end VcuDriver

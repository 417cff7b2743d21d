import VcuDriver.Mail

/-!
# The mail factories

The constructors of `al_codec_mails.c`, `enc_mails_factory.c` and
`dec_mails_factory.c` build a mail from the argument of a request.  Sizes are
summed modulo `2 ^ 32` and are not compared with the 512 bytes of the array
they describe.

The last section says exactly when a constructor stays in bounds: it does when
no size exceeds its array.
-/

namespace VcuDriver

/-! ## Arguments of the requests -/

/-- `struct al5_params`: a size chosen by the caller and an array of 128 words,
called `opaque_params` by the encoder and `opaque` by the decoder. -/
structure Al5Params where
  size : Word
  opaqueParams : List Byte
  length_eq : opaqueParams.length = 512

theorem length_zeroBytes : (List.replicate 512 (0 : Byte)).length = 512 :=
  List.length_replicate

structure Al5EncodeMsg where
  params : Al5Params
  addresses : Al5Params

structure Al5DecodeMsg where
  params : Al5Params
  addresses : Al5Params
  sliceParamV : Word

structure Al5SearchScMsg where
  param : Al5Params
  bufferAddrs : Al5Params

/-! ## Constructors of `al_codec_mails.c` -/

def uidSize : Word := 4

def al5CreateEmptyMail (kmalloc : Bool) (senderUid msgUid : Word) : MailResult :=
  al5MailWriteWord (al5MailCreate kmalloc msgUid uidSize) senderUid

/-- `al5_create_classic_mail`, the only constructor here that tests for `NULL`. -/
def al5CreateClassicMail (kmalloc : Bool) (senderUid msgUid : Word)
    (msg : List Byte) (msgSize : Word) : MailResult :=
  match al5MailCreate kmalloc msgUid (uidSize + msgSize) with
  | none => .ok none
  | some mail => do
      let mail ← al5MailWriteWord (some mail) senderUid
      al5MailWrite mail msg msgSize.toNat

def mcuInitMsgSize : Word := 24

def createInitMsg (kmalloc : Bool) (chanUid : Word) (msg : List Byte) :
    MailResult :=
  match al5MailCreate kmalloc MailUid.init.code (uidSize + mcuInitMsgSize) with
  | none => .ok none
  | some mail => do
      let mail ← al5MailWriteWord (some mail) chanUid
      al5MailWrite mail msg mcuInitMsgSize.toNat

def createDestroyChannelMsg (kmalloc : Bool) (chanUid : Word) : MailResult :=
  al5CreateEmptyMail kmalloc chanUid MailUid.destroyChannel.code

def createQuietDestroyChannelMsg (kmalloc : Bool) (chanUid : Word) : MailResult :=
  al5CreateEmptyMail kmalloc chanUid MailUid.quietDestroyChannel.code

/-! ## Constructors of the encoder -/

def al5eCreateEncodeOneFrameMsg (kmalloc : Bool) (chanUid : Word)
    (msg : Al5EncodeMsg) : MailResult := do
  let mailSize := 8 + msg.params.size + msg.addresses.size
  let mail := al5MailCreate kmalloc MailUid.encodeOneFrm.code mailSize
  let padding : Word := 0
  let mail ← al5MailWriteWord mail chanUid
  let mail ← al5MailWriteWord mail padding
  let mail ← al5MailWrite mail msg.params.opaqueParams msg.params.size.toNat
  al5MailWrite mail msg.addresses.opaqueParams msg.addresses.size.toNat

def al5eCreateChannelParamMsg (kmalloc : Bool) (userUid : Word)
    (msg : Al5Params) : MailResult :=
  al5CreateClassicMail kmalloc userUid MailUid.createChannel.code
    msg.opaqueParams msg.size

/-! ## Constructors of the decoder -/

def writeDecodeMail (mail : Option Al5Mail) (chanUid : Word)
    (msg : Al5DecodeMsg) : MailResult := do
  let mail ← al5MailWriteWord mail chanUid
  let mail ← al5MailWrite mail msg.params.opaqueParams msg.params.size.toNat
  let mail ←
    al5MailWrite mail msg.addresses.opaqueParams msg.addresses.size.toNat
  al5MailWriteWord mail msg.sliceParamV

def al5dCreateDecodeOneSliceMsg (kmalloc : Bool) (chanUid : Word)
    (msg : Al5DecodeMsg) : MailResult :=
  let mailSize := 4 + msg.params.size + msg.addresses.size + 4
  writeDecodeMail (al5MailCreate kmalloc MailUid.decodeOneSlice.code mailSize)
    chanUid msg

def al5dCreateDecodeOneFrameMsg (kmalloc : Bool) (chanUid : Word)
    (msg : Al5DecodeMsg) : MailResult :=
  let mailSize := 4 + msg.params.size + msg.addresses.size + 4
  writeDecodeMail (al5MailCreate kmalloc MailUid.decodeOneFrm.code mailSize)
    chanUid msg

def al5dCreateChannelParamMsg (kmalloc : Bool) (userUid : Word)
    (msg : Al5Params) : MailResult := do
  let mailSize := 4 + msg.size
  let mail := al5MailCreate kmalloc MailUid.createChannel.code mailSize
  let mail ← al5MailWriteWord mail userUid
  al5MailWrite mail msg.opaqueParams msg.size.toNat

def al5dCreateSearchScMail (kmalloc : Bool) (userUid : Word)
    (msg : Al5SearchScMsg) : MailResult := do
  let mailSize := 4 + msg.param.size + msg.bufferAddrs.size
  let mail := al5MailCreate kmalloc MailUid.searchStartCode.code mailSize
  let mail ← al5MailWriteWord mail userUid
  let mail ← al5MailWrite mail msg.param.opaqueParams msg.param.size.toNat
  al5MailWrite mail msg.bufferAddrs.opaqueParams msg.bufferAddrs.size.toNat

/-! ## Requests -/

/-- One write of a constructor. -/
inductive Chunk where
  | word (value : Word)
  | params (array : Al5Params)

namespace Chunk

def bytes : Chunk → List Byte
  | .word value => wordBytes value
  | .params array => array.opaqueParams.take array.size.toNat

def write (mail : Option Al5Mail) : Chunk → MailResult
  | .word value => al5MailWriteWord mail value
  | .params array => al5MailWrite mail array.opaqueParams array.size.toNat

/-- The chunk does not exceed its array. -/
def Fits : Chunk → Prop
  | .word _ => True
  | .params array => array.size.toNat ≤ 512

end Chunk

def writeChunks : List Chunk → Option Al5Mail → MailResult
  | [], mail => .ok mail
  | chunk :: chunks, mail => do
      let mail ← chunk.write mail
      writeChunks chunks mail

/-- The requests whose mail carries arrays of the caller, with the uid that
addresses them. -/
inductive Request where
  | encoderCreateChannel (userUid : Word) (param : Al5Params)
  | encodeOneFrame (chanUid : Word) (msg : Al5EncodeMsg)
  | decoderCreateChannel (userUid : Word) (param : Al5Params)
  | decodeOneFrame (chanUid : Word) (msg : Al5DecodeMsg)
  | decodeOneSlice (chanUid : Word) (msg : Al5DecodeMsg)
  | searchStartCode (userUid : Word) (msg : Al5SearchScMsg)

namespace Request

/-- The mail passed to `al5_check_and_send`. -/
def build (kmalloc : Bool) : Request → MailResult
  | .encoderCreateChannel userUid param =>
      al5eCreateChannelParamMsg kmalloc userUid param
  | .encodeOneFrame chanUid msg => al5eCreateEncodeOneFrameMsg kmalloc chanUid msg
  | .decoderCreateChannel userUid param =>
      al5dCreateChannelParamMsg kmalloc userUid param
  | .decodeOneFrame chanUid msg => al5dCreateDecodeOneFrameMsg kmalloc chanUid msg
  | .decodeOneSlice chanUid msg => al5dCreateDecodeOneSliceMsg kmalloc chanUid msg
  | .searchStartCode userUid msg => al5dCreateSearchScMail kmalloc userUid msg

def sources : Request → List Al5Params
  | .encoderCreateChannel _ param | .decoderCreateChannel _ param => [param]
  | .encodeOneFrame _ msg => [msg.params, msg.addresses]
  | .decodeOneFrame _ msg | .decodeOneSlice _ msg => [msg.params, msg.addresses]
  | .searchStartCode _ msg => [msg.param, msg.bufferAddrs]

def mailUid : Request → MailUid
  | .encoderCreateChannel .. | .decoderCreateChannel .. => .createChannel
  | .encodeOneFrame .. => .encodeOneFrm
  | .decodeOneFrame .. => .decodeOneFrm
  | .decodeOneSlice .. => .decodeOneSlice
  | .searchStartCode .. => .searchStartCode

/-- The layout of the body: the uid, the padding of an encode request, the
arrays, and the slice parameters of a decode request. -/
def chunks : Request → List Chunk
  | .encoderCreateChannel uid param | .decoderCreateChannel uid param =>
      [.word uid, .params param]
  | .encodeOneFrame uid msg =>
      [.word uid, .word 0, .params msg.params, .params msg.addresses]
  | .decodeOneFrame uid msg | .decodeOneSlice uid msg =>
      [.word uid, .params msg.params, .params msg.addresses,
        .word msg.sliceParamV]
  | .searchStartCode uid msg =>
      [.word uid, .params msg.param, .params msg.bufferAddrs]

/-- The bytes which the MCU is to receive as the body of the mail. -/
def fields (request : Request) : List Byte :=
  request.chunks.flatMap Chunk.bytes

def mailSize : Request → Word
  | .encoderCreateChannel _ param => uidSize + param.size
  | .encodeOneFrame _ msg => 8 + msg.params.size + msg.addresses.size
  | .decoderCreateChannel _ param => 4 + param.size
  | .decodeOneFrame _ msg | .decodeOneSlice _ msg =>
      4 + msg.params.size + msg.addresses.size + 4
  | .searchStartCode _ msg => 4 + msg.param.size + msg.bufferAddrs.size

def checksNull : Request → Bool
  | .encoderCreateChannel .. => true
  | _ => false

/-- The request reads no array past its end, writes no byte past its
allocation, and records the number of body bytes it wrote; or it is refused. -/
def InBounds (kmalloc : Bool) (request : Request) : Prop :=
  ∃ result, request.build kmalloc = .ok result ∧
    ∀ mail, result = some mail → mail.Complete

def SizesFit (request : Request) : Prop :=
  ∀ params ∈ request.sources, params.size.toNat ≤ 512

instance (request : Request) : Decidable request.SizesFit :=
  inferInstanceAs
    (Decidable (∀ params ∈ request.sources, params.size.toNat ≤ 512))

end Request

/-! ## When a constructor stays in bounds -/

theorem Chunk.write_eq_ok
    {chunk : Chunk} {mail : Al5Mail} (hfits : chunk.Fits)
    (hroom : mail.body.length + chunk.bytes.length ≤ mail.contentSize) :
    chunk.write (some mail) =
      .ok (some { mail with body := mail.body ++ chunk.bytes }) := by
  cases chunk with
  | word value => exact al5MailWrite_eq_ok le_rfl hroom
  | params array =>
      have hsize : array.size.toNat ≤ 512 := hfits
      have hlength := array.length_eq
      apply al5MailWrite_eq_ok
      · omega
      · simp only [Chunk.bytes, List.length_take] at hroom
        omega

theorem Chunk.write_inv
    {chunk : Chunk} {mail result : Option Al5Mail}
    (hwrite : chunk.write mail = .ok result) :
    chunk.Fits ∧ mail ≠ none := by
  cases chunk with
  | word value =>
      obtain ⟨before, rfl, _⟩ := al5MailWriteWord_inv hwrite
      exact ⟨trivial, Option.some_ne_none before⟩
  | params array =>
      obtain ⟨before, rfl, hsource, _⟩ := al5MailWrite_inv hwrite
      rw [array.length_eq] at hsource
      exact ⟨hsource, Option.some_ne_none before⟩

/-- The body after writes which are all in bounds. -/
theorem writeChunks_eq_ok
    {chunks : List Chunk} {mail : Al5Mail}
    (hfits : ∀ chunk ∈ chunks, chunk.Fits)
    (hroom : mail.body.length + (chunks.flatMap Chunk.bytes).length ≤
      mail.contentSize) :
    writeChunks chunks (some mail) =
      .ok (some { mail with
        body := mail.body ++ chunks.flatMap Chunk.bytes }) := by
  induction chunks generalizing mail with
  | nil => simp [writeChunks]
  | cons chunk chunks ih =>
      rw [List.flatMap_cons, List.length_append] at hroom
      have hwrite : chunk.write (some mail) =
          .ok (some { mail with body := mail.body ++ chunk.bytes }) :=
        Chunk.write_eq_ok (hfits chunk List.mem_cons_self) (by omega)
      rw [writeChunks, hwrite, List.flatMap_cons, ← List.append_assoc]
      apply ih
      · exact fun chunk hchunk => hfits chunk (List.mem_cons_of_mem _ hchunk)
      · simp only [List.length_append]
        omega

/-- A constructor that does not fault stayed in bounds at every write. -/
theorem writeChunks_inv
    {chunks : List Chunk} {mail result : Option Al5Mail}
    (hwrite : writeChunks chunks mail = .ok result) :
    ∀ chunk ∈ chunks, chunk.Fits ∧ mail ≠ none := by
  induction chunks generalizing mail with
  | nil => simp
  | cons chunk chunks ih =>
      rw [writeChunks] at hwrite
      cases hfirst : chunk.write mail with
      | error fault =>
          rw [hfirst] at hwrite
          exact absurd hwrite (by simp [bind, Except.bind])
      | ok next =>
          rw [hfirst] at hwrite
          obtain ⟨hfits, hnull⟩ := Chunk.write_inv hfirst
          intro chunk' hmem
          rcases List.mem_cons.mp hmem with rfl | hmem
          · exact ⟨hfits, hnull⟩
          · exact ⟨(ih hwrite chunk' hmem).1, hnull⟩

namespace Request

variable {request : Request} {kmalloc : Bool}

theorem bind_pure_result (result : MailResult) :
    (result >>= fun mail => .ok mail) = result := by
  cases result <;> rfl

/-- Every constructor allocates its mail and writes its chunks. -/
theorem build_eq (kmalloc : Bool) (request : Request) :
    request.build kmalloc =
      if request.checksNull && !kmalloc then
        .ok none
      else
        writeChunks request.chunks
          (al5MailCreate kmalloc request.mailUid.code request.mailSize) := by
  cases request with
  | encoderCreateChannel uid param =>
      cases kmalloc with
      | false => rfl
      | true =>
          simp only [build, al5eCreateChannelParamMsg, al5CreateClassicMail,
            checksNull, chunks, mailUid, mailSize, writeChunks, Chunk.write,
            al5MailCreate, bind_pure_result, if_true, Bool.not_true,
            Bool.and_false, Bool.false_eq_true, if_false]
  | encodeOneFrame uid msg =>
      simp only [build, al5eCreateEncodeOneFrameMsg, checksNull, chunks, mailUid,
        mailSize, writeChunks, Chunk.write, bind_pure_result, Bool.false_and,
        Bool.false_eq_true, if_false]
  | decoderCreateChannel uid param =>
      simp only [build, al5dCreateChannelParamMsg, checksNull, chunks, mailUid,
        mailSize, writeChunks, Chunk.write, bind_pure_result, Bool.false_and,
        Bool.false_eq_true, if_false]
  | decodeOneFrame uid msg =>
      simp only [build, al5dCreateDecodeOneFrameMsg, writeDecodeMail, checksNull,
        chunks, mailUid, mailSize, writeChunks, Chunk.write, bind_pure_result,
        Bool.false_and, Bool.false_eq_true, if_false]
  | decodeOneSlice uid msg =>
      simp only [build, al5dCreateDecodeOneSliceMsg, writeDecodeMail, checksNull,
        chunks, mailUid, mailSize, writeChunks, Chunk.write, bind_pure_result,
        Bool.false_and, Bool.false_eq_true, if_false]
  | searchStartCode uid msg =>
      simp only [build, al5dCreateSearchScMail, checksNull, chunks, mailUid,
        mailSize, writeChunks, Chunk.write, bind_pure_result, Bool.false_and,
        Bool.false_eq_true, if_false]

theorem chunks_fit (request : Request) :
    (∀ chunk ∈ request.chunks, chunk.Fits) ↔ request.SizesFit := by
  cases request <;> simp [chunks, SizesFit, sources, Chunk.Fits]

/-- The sum of the sizes does not wrap when they fit. -/
theorem mailSize_eq (hsizes : request.SizesFit) :
    request.mailSize.toNat = request.fields.length ∧
      request.fields.length ≤ 1032 := by
  have hlength := fun params : Al5Params => params.length_eq
  cases request <;>
    simp only [SizesFit, sources, List.mem_cons, List.not_mem_nil, or_false,
      forall_eq_or_imp, forall_eq] at hsizes <;>
    simp [mailSize, uidSize, fields, chunks, Chunk.bytes, BitVec.toNat_add,
      hlength, wordBytes] <;>
    omega

def mail (request : Request) : Al5Mail where
  msgUid := request.mailUid.code.setWidth 16
  bodySize := request.mailSize.setWidth 16
  contentSize := request.mailSize.toNat
  body := request.fields

theorem build_mail (hsizes : request.SizesFit) :
    request.build true = .ok (some request.mail) := by
  obtain ⟨hsize, _⟩ := mailSize_eq hsizes
  have hfits := (chunks_fit request).mpr hsizes
  rw [build_eq]
  simp only [Bool.not_true, Bool.and_false, Bool.false_eq_true, if_false]
  unfold al5MailCreate
  rw [if_pos rfl, writeChunks_eq_ok hfits]
  · rfl
  · rw [List.length_nil, Nat.zero_add, hsize]
    rfl

theorem mail_complete (hsizes : request.SizesFit) : request.mail.Complete := by
  obtain ⟨hsize, hle⟩ := mailSize_eq hsizes
  have hmod : request.fields.length % 2 ^ 16 = request.fields.length :=
    Nat.mod_eq_of_lt (by omega)
  unfold Al5Mail.Complete al5MailGetSize mail
  rw [BitVec.toNat_setWidth, hsize]
  exact hmod.symm

/-- A constructor that does not fault found every size within its array. -/
theorem sizesFit_of_build
    {result : Option Al5Mail} (hbuild : request.build true = .ok result) :
    request.SizesFit := by
  rw [build_eq] at hbuild
  simp only [Bool.not_true, Bool.and_false, Bool.false_eq_true, if_false] at hbuild
  have hfits := fun chunk hmem => (writeChunks_inv hbuild chunk hmem).1
  exact (chunks_fit request).mp hfits

/-- A constructor without memory that does not fault returned `NULL`. -/
theorem checksNull_of_build
    {result : Option Al5Mail} (hbuild : request.build false = .ok result) :
    request.checksNull = true ∧ result = none := by
  rw [build_eq] at hbuild
  by_cases hnull : request.checksNull = true
  · rw [hnull] at hbuild
    exact ⟨hnull, (Except.ok.inj hbuild).symm⟩
  · rw [Bool.not_eq_true] at hnull
    rw [hnull] at hbuild
    have hwritten := writeChunks_inv hbuild
    cases request <;>
      exact absurd rfl (hwritten _ List.mem_cons_self).2

/-- A constructor is in bounds exactly when no size exceeds its array, or when
its allocation fails and it tests for that. -/
theorem inBounds_iff (kmalloc : Bool) (request : Request) :
    request.InBounds kmalloc ↔
      (kmalloc = true ∧ request.SizesFit) ∨
        (kmalloc = false ∧ request.checksNull = true) := by
  constructor
  · rintro ⟨result, hbuild, _⟩
    cases kmalloc with
    | true => exact .inl ⟨rfl, sizesFit_of_build hbuild⟩
    | false => exact .inr ⟨rfl, (checksNull_of_build hbuild).1⟩
  · rintro (⟨rfl, hsizes⟩ | ⟨rfl, hnull⟩)
    · refine ⟨some request.mail, build_mail hsizes, ?_⟩
      intro mail hmail
      rw [← Option.some.inj hmail]
      exact mail_complete hsizes
    · refine ⟨none, ?_, ?_⟩
      · rw [build_eq, hnull]
        rfl
      · intro mail hmail
        exact absurd hmail (Option.some_ne_none mail).symm

/-- An encode request whose first size is 513 reads past its array. -/
theorem not_inBounds_of_size_513 :
    ¬ ∀ (kmalloc : Bool) (request : Request), request.InBounds kmalloc := by
  intro hall
  obtain ⟨result, hbuild, _⟩ := hall true (.encodeOneFrame 0 {
    params := ⟨513, List.replicate 512 0, List.length_replicate⟩
    addresses := ⟨0, List.replicate 512 0, List.length_replicate⟩ })
  have hsize := sizesFit_of_build hbuild _ List.mem_cons_self
  exact absurd hsize (by decide)

end Request

end VcuDriver

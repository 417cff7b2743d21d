import VcuDriver.MailboxSpace
import VcuDriver.UserOps

/-!
# The mails that hand over the buffers

`create_mail_from_bufpool` lists the buffers of a pool behind the uid of the
channel.  The number of buffers is the one the MCU asked for; the length of the
list is computed in 32 bits, recorded in 16, and the ring goes by the record.

The list is complete exactly when its length fits the record, or when the mail
goes nowhere.
-/

namespace VcuDriver

open Conc

/-! ## What the MCU is to receive -/

/-- The three words about a buffer: its address, the same address as the MCU sees
it, and its size. -/
def DmaBuffer.words (buffer : DmaBuffer) : List Word :=
  [buffer.dmaHandle.setWidth 32, buffer.dmaHandle.setWidth 32 + 0x80000000,
    buffer.size]

def listBody (chanUid : Word) (bufpool : List DmaBuffer) : List Byte :=
  (chanUid :: bufpool.flatMap DmaBuffer.words).flatMap wordBytes

def listLength (count : ℕ) : ℕ :=
  4 + 12 * count

theorem flatMap_words_length (bufpool : List DmaBuffer) :
    ((bufpool.flatMap DmaBuffer.words).flatMap wordBytes).length =
      12 * bufpool.length := by
  induction bufpool with
  | nil => rfl
  | cons buffer bufpool ih =>
      rw [List.flatMap_cons, List.flatMap_append, List.length_append, ih,
        List.length_cons]
      have hbuffer : (buffer.words.flatMap wordBytes).length = 12 := rfl
      omega

theorem listBody_length (chanUid : Word) (bufpool : List DmaBuffer) :
    (listBody chanUid bufpool).length = listLength bufpool.length := by
  rw [listBody, List.flatMap_cons, List.length_append, flatMap_words_length]
  rfl

namespace Ring

def headerAt (size offset : ℕ) (ring : Ring) : List Byte :=
  (List.range 4).map fun j => ring.byteAt ((offset + j) % size)

structure HoldsMail (size offset : ℕ) (mailUid : MailUid) (body : List Byte)
    (ring : Ring) : Prop where
  msgUid : unserializeMsgUid (ring.headerAt size offset) = mailUid.code.setWidth 16
  bodySize : (unserializeBodySize (ring.headerAt size offset)).toNat = body.length
  bytes : ∀ j < body.length,
    ring.byteAt ((offset + (4 + j)) % size) = VcuDriver.byteAt body j

end Ring

/-! ## The push -/

def BufferPool.pushMail : BufferPool → MailUid
  | .intBuffers => .pushBufferIntermediate
  | .recBuffers => .pushBufferReference

/-- `send_intermediate_buffers` and `send_reference_buffers`, down to the ring. -/
def pushBuffers (size : ℕ) (pool : BufferPool) (kmalloc : Bool) (ring : Ring)
    (chanUid : Word) (bufpool : List DmaBuffer) : Except Fault (ℤ × Ring) :=
  (createMailFromBufpool pool.pushMail.code chanUid bufpool kmalloc).map fun mail =>
    (al5CheckAndSend size mail).run Ring.access ring

/-- No byte is written past the allocation, and a push which returns 0 left the
whole list on the ring. -/
structure ListComplete (size : ℕ) (pool : BufferPool) (kmalloc : Bool) (ring : Ring)
    (chanUid : Word) (bufpool : List DmaBuffer) : Prop where
  inBounds : pushBuffers size pool kmalloc ring chanUid bufpool ≠
    .error .bodyOverflow
  complete : ∀ after,
    pushBuffers size pool kmalloc ring chanUid bufpool = .ok (0, after) →
      after.HoldsMail size ring.tail pool.pushMail (listBody chanUid bufpool)

/-! ## The mail -/

theorem bind_ok (mail : Option Al5Mail) (rest : Option Al5Mail → MailResult) :
    (.ok mail : MailResult) >>= rest = rest mail := rfl

theorem al5MailWriteWord_eq (mail : Al5Mail) (word : Word) :
    al5MailWriteWord (some mail) word =
      if mail.contentSize < mail.body.length + 4 then .error .bodyOverflow
      else .ok (some { mail with body := mail.body ++ wordBytes word }) := by
  by_cases hroom : mail.contentSize < mail.body.length + 4
  · rw [if_pos hroom]
    simp [al5MailWriteWord, al5MailWrite, hroom]
  · rw [if_neg hroom]
    exact al5MailWrite_eq_ok le_rfl (by omega)

/-- The loop over the buffers, with room for all of them. -/
theorem writeBuffers_eq_ok
    {bufpool : List DmaBuffer} {mail : Al5Mail}
    (hroom : mail.body.length + 12 * bufpool.length ≤ mail.contentSize) :
    writeBuffers bufpool (some mail) =
      .ok (some { mail with
        body := mail.body ++
          (bufpool.flatMap DmaBuffer.words).flatMap wordBytes }) := by
  induction bufpool generalizing mail with
  | nil => simp [writeBuffers]
  | cons buffer bufpool ih =>
      rw [List.length_cons] at hroom
      rw [writeBuffers, al5MailWriteWord_eq, if_neg (by omega), bind_ok,
        al5MailWriteWord_eq, if_neg (by
          simp only [List.length_append, wordBytes_length]
          omega), bind_ok, al5MailWriteWord_eq, if_neg (by
          simp only [List.length_append, wordBytes_length]
          omega), bind_ok, ih (by
          simp only [List.length_append, wordBytes_length]
          omega)]
      simp only [List.flatMap_cons, DmaBuffer.words, List.flatMap_append,
        List.append_assoc, List.flatMap_nil, List.append_nil,
        al5McuGetVirtualAddress]

/-- Without room for all of them, a write passes the end of the allocation. -/
theorem writeBuffers_eq_error
    {bufpool : List DmaBuffer} {mail : Al5Mail}
    (hstart : mail.body.length ≤ mail.contentSize)
    (hroom : mail.contentSize < mail.body.length + 12 * bufpool.length) :
    writeBuffers bufpool (some mail) = .error .bodyOverflow := by
  induction bufpool generalizing mail with
  | nil =>
      rw [List.length_nil] at hroom
      omega
  | cons buffer bufpool ih =>
      rw [List.length_cons] at hroom
      rw [writeBuffers, al5MailWriteWord_eq]
      by_cases hfirst : mail.contentSize < mail.body.length + 4
      · rw [if_pos hfirst]
        rfl
      rw [if_neg hfirst, bind_ok, al5MailWriteWord_eq]
      simp only [List.length_append, wordBytes_length]
      by_cases hsecond : mail.contentSize < mail.body.length + 4 + 4
      · rw [if_pos hsecond]
        rfl
      rw [if_neg hsecond, bind_ok, al5MailWriteWord_eq]
      simp only [List.length_append, wordBytes_length]
      by_cases hthird : mail.contentSize < mail.body.length + 4 + 4 + 4
      · rw [if_pos hthird]
        rfl
      rw [if_neg hthird, bind_ok]
      apply ih
      · simp only [List.length_append, wordBytes_length]
        omega
      · simp only [List.length_append, wordBytes_length]
        omega

def listMail (mailUid : MailUid) (chanUid : Word) (bufpool : List DmaBuffer) :
    Al5Mail where
  msgUid := mailUid.code.setWidth 16
  bodySize := BitVec.ofNat 16 (listLength bufpool.length)
  contentSize := listLength bufpool.length
  body := listBody chanUid bufpool

theorem contentSize_toNat (count : ℕ) :
    (4 + BitVec.ofNat 32 count * 12 : Word).toNat = listLength count % 2 ^ 32 := by
  have hfour : (4 : Word).toNat = 4 := rfl
  have htwelve : (12 : Word).toNat = 12 := rfl
  unfold listLength
  rw [BitVec.toNat_add, BitVec.toNat_mul, BitVec.toNat_ofNat, hfour, htwelve]
  omega

/-- The constructor builds the whole list or leaves its allocation. -/
theorem createMailFromBufpool_eq (mailUid : MailUid) (chanUid : Word)
    (bufpool : List DmaBuffer) :
    createMailFromBufpool mailUid.code chanUid bufpool true =
      if listLength bufpool.length < 2 ^ 32 then
        .ok (some (listMail mailUid chanUid bufpool))
      else
        .error .bodyOverflow := by
  have hcontent := contentSize_toNat bufpool.length
  unfold createMailFromBufpool al5MailCreate
  dsimp only
  rw [if_pos rfl, al5MailWriteWord_eq]
  by_cases hfit : listLength bufpool.length < 2 ^ 32
  · rw [Nat.mod_eq_of_lt hfit] at hcontent
    have hsize : (4 + BitVec.ofNat 32 bufpool.length * 12 : Word).setWidth 16 =
        BitVec.ofNat 16 (listLength bufpool.length) := by
      apply BitVec.eq_of_toNat_eq
      rw [BitVec.toNat_setWidth, hcontent, BitVec.toNat_ofNat]
    dsimp only
    rw [if_pos hfit, hcontent, hsize, if_neg (by
      unfold listLength
      simp), bind_ok, writeBuffers_eq_ok (by
      unfold listLength
      simp)]
    rfl
  · rw [if_neg hfit]
    dsimp only
    split
    · rfl
    · rename_i hfirst
      rw [bind_ok]
      apply writeBuffers_eq_error
      · simp only [List.nil_append, wordBytes_length] at hfirst ⊢
        simpa using hfirst
      · simp only [List.nil_append, wordBytes_length]
        rw [hcontent]
        have hmod := Nat.mod_lt (listLength bufpool.length) (show 0 < 2 ^ 32 from by decide)
        unfold listLength at hmod hfit ⊢
        omega

theorem listMail_size (mailUid : MailUid) (chanUid : Word)
    (bufpool : List DmaBuffer) :
    al5MailGetSize (listMail mailUid chanUid bufpool) =
      listLength bufpool.length % 2 ^ 16 :=
  BitVec.toNat_ofNat _ _

/-! ## The list on the ring -/

theorem byteAt_headerAt (size offset : ℕ) (ring : Ring) {j : ℕ} (hj : j < 4) :
    VcuDriver.byteAt (ring.headerAt size offset) j =
      ring.byteAt ((offset + j) % size) := by
  have hin : j < (List.range 4).length := by
    rw [List.length_range]
    exact hj
  have hget : (List.range 4)[j]? = some j := by
    rw [List.getElem?_eq_getElem hin, List.getElem_range]
  unfold VcuDriver.byteAt Ring.headerAt
  rw [List.getD_eq_getElem?_getD, List.getElem?_map, hget]
  rfl

/-- The header of an accepted mail reads back. -/
theorem after_header
    {N T : ℕ} {mail : Al5Mail} (ring : Ring) (hfit : frameWords mail ≤ N) :
    unserializeMsgUid ((ring.after N T mail).headerAt (4 * N) (slot N T)) =
        mail.msgUid ∧
      unserializeBodySize ((ring.after N T mail).headerAt (4 * N) (slot N T)) =
        mail.bodySize := by
  have hbytes : ∀ j < 4,
      byteAt ((ring.after N T mail).headerAt (4 * N) (slot N T)) j =
        byteAt (serializeHeader mail.msgUid mail.bodySize) j := by
    intro j hj
    rw [byteAt_headerAt _ _ _ hj]
    exact byteAt_after_header ring hfit hj
  constructor
  · rw [unserializeMsgUid_congr hbytes, unserializeMsgUid_serializeHeader]
  · rw [unserializeBodySize_congr hbytes, unserializeBodySize_serializeHeader]

/-- The ring holds the whole list exactly when its length was recorded. -/
theorem after_holdsMail_iff
    {N T : ℕ} (ring : Ring) (mailUid : MailUid) (chanUid : Word)
    (bufpool : List DmaBuffer)
    (hfit : frameWords (listMail mailUid chanUid bufpool) ≤ N) :
    (ring.after N T (listMail mailUid chanUid bufpool)).HoldsMail (4 * N) (slot N T)
        mailUid (listBody chanUid bufpool) ↔
      listLength bufpool.length ≤ 65535 := by
  have hheader := after_header (T := T) ring hfit
  have hsize := listMail_size mailUid chanUid bufpool
  have hlength := listBody_length chanUid bufpool
  constructor
  · intro hholds
    have hrecord := hholds.bodySize
    rw [hheader.2, hlength] at hrecord
    have hlow : listLength bufpool.length % 2 ^ 16 = listLength bufpool.length := by
      rw [← hsize]
      exact hrecord
    omega
  · intro hshort
    rw [Nat.mod_eq_of_lt (by omega)] at hsize
    refine ⟨hheader.1, ?_, ?_⟩
    · rw [hheader.2, hlength]
      exact hsize
    · intro j hj
      apply byteAt_after_body ring hfit
      rw [hsize]
      unfold listLength at hlength ⊢
      omega

/-- The three ends of a push with memory: past the allocation, refused, or sent. -/
theorem pushBuffers_eq
    {N H T : ℕ} {ring : Ring} (hring : 4 * N ≤ 65532) (hhead : ring.head = slot N H)
    (htail : ring.tail = slot N T) (hHT : H ≤ T) (hwindow : T < H + N)
    (pool : BufferPool) (chanUid : Word) (bufpool : List DmaBuffer) :
    pushBuffers (4 * N) pool true ring chanUid bufpool =
      if listLength bufpool.length < 2 ^ 32 then
        if H + N < T + frameWords (listMail pool.pushMail chanUid bufpool) + 1 then
          .ok (-EAGAIN, ring)
        else
          .ok (0, ring.after N T (listMail pool.pushMail chanUid bufpool))
      else
        .error .bodyOverflow := by
  unfold pushBuffers
  rw [createMailFromBufpool_eq]
  by_cases hwrap : listLength bufpool.length < 2 ^ 32
  · rw [if_pos hwrap, if_pos hwrap, Except.map,
      run_al5CheckAndSend _ hring hhead htail hHT hwindow]
    split
    · rfl
    · rfl
  · rw [if_neg hwrap, if_neg hwrap]
    rfl

section Ends

variable {size : ℕ} {pool : BufferPool} {kmalloc : Bool} {ring : Ring}
  {chanUid : Word} {bufpool : List DmaBuffer}

theorem listComplete_of_refused
    (hpush : pushBuffers size pool kmalloc ring chanUid bufpool =
      .ok (-EAGAIN, ring)) :
    ListComplete size pool kmalloc ring chanUid bufpool where
  inBounds := by
    rw [hpush]
    simp
  complete after hok := by
    rw [hpush, Except.ok.injEq] at hok
    exact absurd (congrArg Prod.fst hok) (show -EAGAIN ≠ 0 from by decide)

theorem listComplete_iff_of_sent {after : Ring}
    (hpush : pushBuffers size pool kmalloc ring chanUid bufpool = .ok (0, after)) :
    ListComplete size pool kmalloc ring chanUid bufpool ↔
      after.HoldsMail size ring.tail pool.pushMail (listBody chanUid bufpool) := by
  constructor
  · exact fun hcomplete => hcomplete.complete after hpush
  · intro hholds
    refine ⟨by rw [hpush]; simp, ?_⟩
    intro after' hok
    rw [hpush, Except.ok.injEq, Prod.mk.injEq] at hok
    rw [← hok.2]
    exact hholds

theorem listComplete_of_no_memory :
    ListComplete size pool false ring chanUid bufpool := by
  have hpush : pushBuffers size pool false ring chanUid bufpool =
      .error .nullMail := rfl
  refine ⟨by rw [hpush]; simp, ?_⟩
  intro after hok
  rw [hpush] at hok
  exact absurd hok (by simp)

end Ends

/-- A push writes outside its mail exactly when the 32-bit length wraps, and leaves
the list incomplete exactly when the 16-bit record does. -/
theorem listComplete_iff
    {size : ℕ} (haligned : size % 4 = 0) (hhigh : size ≤ 65532)
    {ring : Ring} (hvalid : ring.Valid size) (pool : BufferPool) (kmalloc : Bool)
    (chanUid : Word) (bufpool : List DmaBuffer) :
    ListComplete size pool kmalloc ring chanUid bufpool ↔
      kmalloc = false ∨ listLength bufpool.length ≤ 65535 ∨
        (listLength bufpool.length < 2 ^ 32 ∧
          size ≤ spaceUsed size ring +
            roundup4 (4 + listLength bufpool.length % 2 ^ 16)) := by
  obtain ⟨N, rfl⟩ : ∃ N, size = 4 * N := ⟨size / 4, by omega⟩
  obtain ⟨H, T, hhead, htail, hHT, hwindow, _⟩ := hvalid.positions
  cases kmalloc with
  | false => exact iff_of_true listComplete_of_no_memory (.inl rfl)
  | true =>
      have hused := spaceUsed_slot hhead htail hHT hwindow
      have hpush := pushBuffers_eq hhigh hhead htail hHT hwindow pool chanUid bufpool
      have hframe : roundup4 (4 + listLength bufpool.length % 2 ^ 16) =
          4 * frameWords (listMail pool.pushMail chanUid bufpool) := by
        unfold roundup4 frameWords
        rw [listMail_size]
        omega
      rw [hused, hframe]
      by_cases hwrap : listLength bufpool.length < 2 ^ 32
      · rw [if_pos hwrap] at hpush
        by_cases hfull : H + N <
            T + frameWords (listMail pool.pushMail chanUid bufpool) + 1
        · rw [if_pos hfull] at hpush
          exact iff_of_true (listComplete_of_refused hpush)
            (.inr (.inr ⟨hwrap, by omega⟩))
        · rw [if_neg hfull] at hpush
          rw [listComplete_iff_of_sent hpush, htail,
            after_holdsMail_iff ring _ _ _ (by omega)]
          constructor
          · exact fun hshort => .inr (.inl hshort)
          · rintro (hfalse | hshort | ⟨_, hnoRoom⟩)
            · exact absurd hfalse (by decide)
            · exact hshort
            · omega
      · -- The allocation is shorter than the list: the loop leaves it.
        rw [if_neg hwrap] at hpush
        refine iff_of_false (fun hcomplete => hcomplete.inBounds hpush) ?_
        rintro (hfalse | hshort | ⟨hfit, _⟩)
        · exact absurd hfalse (by decide)
        · omega
        · exact hwrap hfit

/-- The list of two buffers arrives on an empty ring. -/
theorem listComplete_two_buffers :
    ListComplete 2040 .intBuffers true ⟨0, 0, fun _ => 0⟩ 3
      [⟨0x100001000, 4096⟩, ⟨0x2000, 8192⟩] := by
  have hvalid : (⟨0, 0, fun _ => 0⟩ : Ring).Valid 2040 :=
    ⟨rfl, by decide, rfl, by decide⟩
  exact (listComplete_iff (by decide) (by decide) hvalid .intBuffers true 3 _).mpr
    (.inr (.inl (by decide)))

/-- The list of 5461 buffers is sent as a mail with no body. -/
theorem not_listComplete_5461_buffers :
    ¬ ∀ (ring : Ring) (pool : BufferPool) (chanUid : Word)
        (bufpool : List DmaBuffer), ring.Valid 2040 →
      ListComplete 2040 pool true ring chanUid bufpool := by
  intro hall
  have hvalid : (⟨0, 0, fun _ => 0⟩ : Ring).Valid 2040 :=
    ⟨rfl, by decide, rfl, by decide⟩
  have hcomplete := hall ⟨0, 0, fun _ => 0⟩ .recBuffers 3
    (List.replicate 5461 ⟨0x1000, 4096⟩) hvalid
  have hlength : listLength (List.replicate 5461 (⟨0x1000, 4096⟩ : DmaBuffer)).length =
      65536 := by
    rw [List.length_replicate]
    rfl
  have hwords : frameWords (listMail .pushBufferReference 3
      (List.replicate 5461 ⟨0x1000, 4096⟩)) = 1 := by
    unfold frameWords
    rw [listMail_size, hlength]
    rfl
  have hpush := pushBuffers_eq (N := 510) (H := 0) (T := 0) (by decide)
    (show (⟨0, 0, fun _ => 0⟩ : Ring).head = slot 510 0 from rfl) rfl le_rfl (by decide)
    .recBuffers 3 (List.replicate 5461 ⟨0x1000, 4096⟩)
  rw [hlength, if_pos (by decide), if_neg (by
    rw [BufferPool.pushMail, hwords]
    decide)] at hpush
  have hholds := (listComplete_iff_of_sent hpush).mp hcomplete
  have hshort := (after_holdsMail_iff (N := 510) (T := 0) _ _ _ _ (by
    rw [BufferPool.pushMail, hwords]
    decide)).mp hholds
  omega

end VcuDriver

import VcuDriver.UserOps

/-!
# Stream buffers

`al5e_user_put_stream_buffer` gives the MCU a window of a dma-buf of the user: a
bus address, a size and an offset.  A dma-buf is mapped for the device as a
list of segments; `al5_get_dmabuf_info` reports the address of the first, cut to
32 bits, and the size of the whole, cut likewise.

The window is inside the dma-buf when its offset is, and when the MCU finds
every byte of the window at the address which it computes from the reported one.
-/

namespace VcuDriver

open Conc

/-! ## dma-bufs -/

/-- A mapped entry of a scatter list. -/
structure Segment where
  dmaAddress : BitVec 64
  dmaLength : Word
  length_pos : 0 < dmaLength.toNat

/-- A dma-buf mapped for the device: its scatter list has a first entry. -/
structure DmaBuf where
  size : BitVec 64
  sgl : Segment
  following : List Segment

namespace DmaBuf

def segments (dbuf : DmaBuf) : List Segment :=
  dbuf.sgl :: dbuf.following

end DmaBuf

def deviceAddress : List Segment → ℕ → Option ℕ
  | [], _ => none
  | segment :: segments, k =>
      if k < segment.dmaLength.toNat then
        some (segment.dmaAddress.toNat + k)
      else
        deviceAddress segments (k - segment.dmaLength.toNat)

/-- How many bytes of a scatter list follow each other from an address on. -/
def contiguousRun (start : ℕ) : List Segment → ℕ
  | [] => 0
  | segment :: segments =>
      if segment.dmaAddress.toNat = start then
        segment.dmaLength.toNat +
          contiguousRun (start + segment.dmaLength.toNat) segments
      else
        0

/-- The contiguous run is the longest range of addresses at which the bytes of
the scatter list are found in order. -/
theorem le_contiguousRun_iff (start size : ℕ) (segments : List Segment) :
    size ≤ contiguousRun start segments ↔
      ∀ k < size, deviceAddress segments k = some (start + k) := by
  induction segments generalizing start size with
  | nil =>
      unfold contiguousRun deviceAddress
      constructor
      · intro hsize k hk
        omega
      · intro hfound
        by_contra hsize
        exact absurd (hfound 0 (by omega)) (by simp)
  | cons segment segments ih =>
      have hpos := segment.length_pos
      have hrest := ih (start + segment.dmaLength.toNat)
        (size - segment.dmaLength.toNat)
      unfold contiguousRun deviceAddress
      by_cases hstart : segment.dmaAddress.toNat = start
      · rw [if_pos hstart, hstart]
        have hsplit : size ≤ segment.dmaLength.toNat +
              contiguousRun (start + segment.dmaLength.toNat) segments ↔
            size - segment.dmaLength.toNat ≤
              contiguousRun (start + segment.dmaLength.toNat) segments := by
          omega
        rw [hsplit, hrest]
        constructor
        · intro hfound k hk
          by_cases hfirst : k < segment.dmaLength.toNat
          · rw [if_pos hfirst]
          · rw [if_neg hfirst, hfound _ (by omega)]
            congr 1
            omega
        · intro hfound k hk
          have hbyte := hfound (segment.dmaLength.toNat + k) (by omega)
          rw [if_neg (by omega), Nat.add_sub_cancel_left] at hbyte
          rw [hbyte]
          congr 1
          omega
      · rw [if_neg hstart]
        constructor
        · intro hsize k hk
          omega
        · intro hfound
          by_contra hsize
          have hbyte := hfound 0 (by omega)
          rw [if_pos hpos, Option.some.injEq] at hbyte
          omega

namespace DmaBuf

/-- A device address belongs to the dma-buf. -/
def Owns (dbuf : DmaBuf) (address : ℕ) : Prop :=
  ∃ k, deviceAddress dbuf.segments k = some address

end DmaBuf

/-! ## The reported address and size -/

/-- What the kernel makes of a handle. -/
inductive Attachment where
  | noDmaBuf
  | notAttached
  | notMapped
  | mapped (dbuf : DmaBuf)

def al5GetDmabufInfo : Attachment → Except ℤ BufferInfo
  | .noDmaBuf => .error (-EINVAL)
  | .notAttached => .error (-EINVAL)
  | .notMapped => .error (-EINVAL)
  | .mapped dbuf => .ok {
      busAddress := dbuf.sgl.dmaAddress.setWidth 32
      size := dbuf.size.setWidth 32 }

/-- The results of a call's actions when the handle it asks about is attached
like this. -/
def Attachment.Answers (attachment : Attachment) :
    (action : UserAct) → action.Res → Prop
  | .getDmabufInfo _, result => result = al5GetDmabufInfo attachment
  | _, _ => True

/-! ## The window which the MCU gets -/

def windowAddress (mail : Al5Mail) : ℕ :=
  (al5MailGetWord mail 1).toNat

def windowSize (mail : Al5Mail) : ℕ :=
  (al5MailGetWord mail 3).toNat

def windowOffset (mail : Al5Mail) : ℕ :=
  (al5MailGetWord mail 4).toNat

/-- The MCU gets an offset in the dma-buf, and finds each byte of the window at
the address it computes. -/
structure WindowInside (dbuf : DmaBuf) (mail : Al5Mail) : Prop where
  offset_le : windowOffset mail ≤ dbuf.size.toNat
  found : ∀ k < windowSize mail,
    deviceAddress dbuf.segments k = some (windowAddress mail + k)

/-- Every address of a window inside a dma-buf belongs to it. -/
theorem WindowInside.owns
    {dbuf : DmaBuf} {mail : Al5Mail} (hinside : WindowInside dbuf mail) {k : ℕ}
    (hk : k < windowSize mail) : dbuf.Owns (windowAddress mail + k) :=
  ⟨k, hinside.found k hk⟩

/-- Whatever stream-buffer mail the operation sends, its window is inside the
dma-buf. -/
def StreamWindowInside (attachment : Attachment) (buffer : Al5Buffer) : Prop :=
  ∀ mail,
    (al5eUserPutStreamBuffer buffer).MayPerform attachment.Answers (.send mail) →
      ∃ dbuf, attachment = .mapped dbuf ∧ WindowInside dbuf mail

def putStreamMail (chanUid : Word) (info : BufferInfo) (buffer : Al5Buffer) :
    Al5Mail where
  msgUid := 18
  bodySize := 28
  contentSize := 28
  body := wordBytes chanUid ++ wordBytes info.busAddress ++
    wordBytes (al5McuGetVirtualAddress info.busAddress) ++
    wordBytes buffer.size ++ wordBytes buffer.offset ++
    (wordBytes (buffer.streamBufferPtr.setWidth 32) ++
      wordBytes ((buffer.streamBufferPtr >>> 32).setWidth 32))

section

variable (chanUid : Word) (info : BufferInfo) (buffer : Al5Buffer)

theorem createPutStreamMail_eq_ok :
    createPutStreamMail chanUid info buffer true =
      .ok (some (putStreamMail chanUid info buffer)) := by
  rfl

theorem windowAddress_putStreamMail :
    windowAddress (putStreamMail chanUid info buffer) = info.busAddress.toNat :=
  congrArg BitVec.toNat (wordOfBytes_wordByte info.busAddress)

theorem windowSize_putStreamMail :
    windowSize (putStreamMail chanUid info buffer) = buffer.size.toNat :=
  congrArg BitVec.toNat (wordOfBytes_wordByte buffer.size)

theorem windowOffset_putStreamMail :
    windowOffset (putStreamMail chanUid info buffer) = buffer.offset.toNat :=
  congrArg BitVec.toNat (wordOfBytes_wordByte buffer.offset)

end

/-- The operation sends exactly when the handle is mapped and the size passes
the comparison with the reported one. -/
theorem mayPerform_send_iff
    (attachment : Attachment) (buffer : Al5Buffer) (mail : Al5Mail) :
    (al5eUserPutStreamBuffer buffer).MayPerform attachment.Answers (.send mail) ↔
      ∃ info chanUid, al5GetDmabufInfo attachment = .ok info ∧
        buffer.size ≤ info.size ∧ mail = putStreamMail chanUid info buffer := by
  have hsend : ∀ chanUid info,
      (sendBuilt (createPutStreamMail chanUid info buffer)).MayPerform
          attachment.Answers (.send mail) ↔
        mail = putStreamMail chanUid info buffer := by
    intro chanUid info
    unfold sendBuilt buildMail
    simp only [Prog.bind_eq, Prog.perform_bind, Prog.act_bind, Prog.mayPerform_act]
    constructor
    · rintro (hact | ⟨kmalloc, -, hrest⟩)
      · exact absurd hact (by simp)
      cases kmalloc with
      | true =>
          rw [createPutStreamMail_eq_ok] at hrest
          rcases hrest with hact | ⟨result, -, hnone⟩
          · exact (UserAct.send.inj hact).symm
          · exact absurd hnone (Prog.mayPerform_ret _)
      | false =>
          rcases hrest with hact | ⟨result, -, hnone⟩
          · exact absurd hact (by simp)
          · exact absurd hnone (Prog.mayPerform_ret _)
    · rintro rfl
      refine .inr ⟨true, trivial, ?_⟩
      rw [createPutStreamMail_eq_ok]
      exact .inl rfl
  unfold al5eUserPutStreamBuffer
  simp only [Prog.bind_eq, Prog.perform_bind, Prog.mayPerform_act]
  constructor
  · rintro (hact | ⟨first, -, hrest⟩)
    · exact absurd hact (by simp)
    split at hrest
    · exact absurd hrest (Prog.mayPerform_ret _)
    rcases hrest with hact | ⟨result, hresult, hrest⟩
    · exact absurd hact (by simp)
    cases result with
    | error error => exact absurd hrest (Prog.mayPerform_ret _)
    | ok info =>
        dsimp only at hrest
        split at hrest
        · exact absurd hrest (Prog.mayPerform_ret _)
        · rename_i hsize
          rcases hrest with hact | ⟨chanUid, -, hrest⟩
          · exact absurd hact (by simp)
          exact ⟨info, chanUid, hresult.symm, BitVec.not_lt.mp hsize,
            (hsend chanUid info).mp hrest⟩
  · rintro ⟨info, chanUid, hinfo, hsize, hmail⟩
    refine .inr ⟨0, trivial, ?_⟩
    rw [if_neg (by decide)]
    refine .inr ⟨.ok info, hinfo.symm, ?_⟩
    dsimp only
    rw [if_neg (BitVec.not_lt.mpr hsize)]
    exact .inr ⟨chanUid, trivial, (hsend chanUid info).mpr hmail⟩

/-- The window of the mail is inside the dma-buf when the offset is, and when
the run of contiguous segments from the reported address on is long enough. -/
theorem windowInside_putStreamMail_iff
    (chanUid : Word) (info : BufferInfo) (buffer : Al5Buffer) (dbuf : DmaBuf) :
    WindowInside dbuf (putStreamMail chanUid info buffer) ↔
      buffer.offset.toNat ≤ dbuf.size.toNat ∧
        buffer.size.toNat ≤ contiguousRun info.busAddress.toNat dbuf.segments := by
  rw [le_contiguousRun_iff]
  constructor
  · rintro ⟨hoffset, hfound⟩
    rw [windowOffset_putStreamMail] at hoffset
    rw [windowSize_putStreamMail, windowAddress_putStreamMail] at hfound
    exact ⟨hoffset, hfound⟩
  · rintro ⟨hoffset, hfound⟩
    constructor
    · rw [windowOffset_putStreamMail]
      exact hoffset
    · rw [windowSize_putStreamMail, windowAddress_putStreamMail]
      exact hfound

/-- From the reported address a dma-buf is contiguous as far as from its first
address, if that was not cut. -/
theorem contiguousRun_reported (dbuf : DmaBuf) :
    contiguousRun (dbuf.sgl.dmaAddress.setWidth 32).toNat dbuf.segments =
      if dbuf.sgl.dmaAddress.toNat < 2 ^ 32 then
        contiguousRun dbuf.sgl.dmaAddress.toNat dbuf.segments
      else
        0 := by
  rw [BitVec.toNat_setWidth]
  split
  · rename_i hlow
    rw [Nat.mod_eq_of_lt hlow]
  · rename_i hhigh
    unfold contiguousRun DmaBuf.segments
    exact if_neg (by omega)

/-- The buffer asks for a window that the dma-buf has: the offset is inside, and
either nothing is asked for, or the first address has 32 bits and the segments
are contiguous for as long as the window is. -/
def BufferFits (dbuf : DmaBuf) (buffer : Al5Buffer) : Prop :=
  buffer.offset.toNat ≤ dbuf.size.toNat ∧
    (buffer.size = 0 ∨
      dbuf.sgl.dmaAddress.toNat < 2 ^ 32 ∧
        buffer.size.toNat ≤
          contiguousRun dbuf.sgl.dmaAddress.toNat dbuf.segments)

/-- The window is inside the dma-buf exactly when the handle is not mapped, when
the size is refused, or when the buffer fits. -/
theorem streamWindowInside_iff (attachment : Attachment) (buffer : Al5Buffer) :
    StreamWindowInside attachment buffer ↔
      ∀ dbuf, attachment = .mapped dbuf →
        buffer.size ≤ dbuf.size.setWidth 32 → BufferFits dbuf buffer := by
  have hfits : ∀ chanUid (dbuf : DmaBuf) (info : BufferInfo),
      info.busAddress = dbuf.sgl.dmaAddress.setWidth 32 →
        (WindowInside dbuf (putStreamMail chanUid info buffer) ↔
          BufferFits dbuf buffer) := by
    intro chanUid dbuf info hbus
    rw [windowInside_putStreamMail_iff, hbus, contiguousRun_reported]
    unfold BufferFits
    have hzero : buffer.size = 0 ↔ buffer.size.toNat = 0 := by
      rw [← BitVec.toNat_inj]
      rfl
    rw [hzero]
    split <;> omega
  constructor
  · rintro hinside dbuf rfl hsize
    obtain ⟨dbuf', hdbuf, hwindow⟩ := hinside _
      ((mayPerform_send_iff _ _ _).mpr ⟨_, 0, rfl, hsize, rfl⟩)
    rw [← Attachment.mapped.inj hdbuf] at hwindow
    exact (hfits 0 dbuf _ rfl).mp hwindow
  · intro hbuffer mail hsend
    obtain ⟨info, chanUid, hinfo, hsize, rfl⟩ := (mayPerform_send_iff _ _ _).mp hsend
    cases attachment with
    | noDmaBuf => exact absurd hinfo (by simp [al5GetDmabufInfo])
    | notAttached => exact absurd hinfo (by simp [al5GetDmabufInfo])
    | notMapped => exact absurd hinfo (by simp [al5GetDmabufInfo])
    | mapped dbuf =>
        obtain rfl := Except.ok.inj hinfo
        exact ⟨dbuf, rfl, (hfits chanUid dbuf _ rfl).mpr (hbuffer dbuf rfl hsize)⟩

/-- A dma-buf of 4096 bytes at the bus address 0x1000. -/
def onePage : DmaBuf where
  size := 4096
  sgl := ⟨0x1000, 4096, by decide⟩
  following := []

/-- Sixteen bytes at an offset of 8192 of a dma-buf of 4096 bytes are sent. -/
theorem not_streamWindowInside_of_offset :
    ¬ ∀ (attachment : Attachment) (buffer : Al5Buffer),
      StreamWindowInside attachment buffer := by
  intro hall
  have hinside := hall (.mapped onePage) ⟨0, 3, 8192, 16⟩
  have hfits := (streamWindowInside_iff _ _).mp hinside onePage rfl (by decide)
  exact absurd hfits.1 (by decide)

end VcuDriver

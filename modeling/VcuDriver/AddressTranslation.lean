import VcuDriver.PoolMails

/-!
# Addresses as the MCU sees them

The MCU adds an offset of its own to every 32-bit address: one for the
instructions, one for the data.  `al_codec.c` sets both offsets from the address
of the firmware, and the driver sends data addresses which the second offset
leads back to the buffers.

The offsets are computed in the width of `dma_addr_t`, which is 32 bits on some
hosts; the borrow of the subtraction is then written by hand.
-/

namespace VcuDriver

def mcuCacheOffset : ℕ := 0x80000000

structure AddrOffset where
  lsb : Word
  msb : Word
  deriving DecidableEq

/-- The address which the MCU reaches for one of its own. -/
def AddrOffset.resolve (offset : AddrOffset) (address : Word) : BitVec 64 :=
  address.setWidth 64 + (offset.msb ++ offset.lsb)

/-! ## The registers -/

/-- `set_icache_offset`, in the width of `dma_addr_t`. -/
def setIcacheOffset {w : ℕ} (icache : BitVec w) : AddrOffset :=
  let dmaHandle := icache - BitVec.ofNat w mcuCacheOffset
  let msb : Word :=
    if icache.toNat < mcuCacheOffset then 0xFFFFFFFF else 0
  { lsb := dmaHandle.setWidth 32
    msb := if w / 8 = 4 then msb else (dmaHandle >>> 32).setWidth 32 }

/-- `set_dcache_offset`, in the width of `dma_addr_t`. -/
def setDcacheOffset {w : ℕ} (icache : BitVec w) : AddrOffset :=
  let memSeg : BitVec w :=
    (icache.setWidth 64 &&& 0xffffffff00000000#64).setWidth w
  let dmaHandle := memSeg - BitVec.ofNat w mcuCacheOffset
  let msb : Word :=
    if memSeg.toNat < mcuCacheOffset then 0xFFFFFFFF else 0
  { lsb := dmaHandle.setWidth 32
    msb := if w / 8 = 4 then msb else (dmaHandle >>> 32).setWidth 32 }

/-! ## The messages -/

structure McuInitMsg where
  addr : Word
  size : Word
  l2SizeInBits : Word
  l2ColorBitdepth : Word
  numCores : Word
  coreFrequency : Word

def McuInitMsg.bytes (msg : McuInitMsg) : List Byte :=
  [msg.addr, msg.size, msg.l2SizeInBits, msg.l2ColorBitdepth, msg.numCores,
    msg.coreFrequency].flatMap wordBytes

/-- What `set_l2_info` reads from the parent device, if there is one. -/
structure L2Info where
  sizeInBits : Word
  colorBitdepth : Word
  numCores : Word
  frequency : Word

/-- The message of `init_mcu` about the memory of the suballocator. -/
def initMsg (suballocBuf : DmaBuffer) (parent : Option L2Info) : McuInitMsg :=
  let l2 := parent.getD ⟨-1, -1, -1, -1⟩
  { addr := (suballocBuf.dmaHandle + BitVec.ofNat 64 mcuCacheOffset).setWidth 32
    size := suballocBuf.size
    l2SizeInBits := l2.sizeInBits
    l2ColorBitdepth := l2.colorBitdepth
    numCores := l2.numCores
    coreFrequency := l2.frequency }

/-! ## Where the offsets lead -/

/-- A buffer in the 2G zone which begins at the segment of the firmware. -/
structure InZone (icache address : BitVec 64) : Prop where
  segment : address >>> 32 = icache >>> 32
  low : (address.setWidth 32).toNat < 2 ^ 31

theorem resolve_toNat (offset : AddrOffset) (address : Word) :
    (offset.resolve address).toNat =
      (address.toNat + (2 ^ 32 * offset.msb.toNat + offset.lsb.toNat)) % 2 ^ 64 := by
  have hlsb := offset.lsb.isLt
  have happend : (offset.msb ++ offset.lsb).toNat =
      2 ^ 32 * offset.msb.toNat + offset.lsb.toNat := by
    rw [BitVec.toNat_append, Nat.shiftLeft_eq, Nat.mul_comm,
      Nat.two_pow_add_eq_or_of_lt hlsb]
  rw [AddrOffset.resolve, BitVec.toNat_add, happend,
    BitVec.toNat_setWidth_of_le (by decide)]

/-- The high and the low half of a register pair make up the 64-bit value. -/
theorem resolve_halves (value : BitVec 64) (address : Word) :
    AddrOffset.resolve ⟨value.setWidth 32, (value >>> 32).setWidth 32⟩ address =
      address.setWidth 64 + value := by
  have hvalue := value.isLt
  apply BitVec.eq_of_toNat_eq
  rw [resolve_toNat]
  simp only [BitVec.toNat_setWidth, BitVec.toNat_ushiftRight, BitVec.toNat_add,
    Nat.shiftRight_eq_div_pow]
  omega

theorem setIcacheOffset_resolve (icache : BitVec 64) (address : Word) :
    (setIcacheOffset icache).resolve address =
      address.setWidth 64 + (icache - BitVec.ofNat 64 mcuCacheOffset) :=
  resolve_halves _ address

theorem setDcacheOffset_resolve (icache : BitVec 64) (address : Word) :
    (setDcacheOffset icache).resolve address =
      address.setWidth 64 +
        ((icache &&& 0xffffffff00000000#64) - BitVec.ofNat 64 mcuCacheOffset) := by
  simp only [setDcacheOffset, BitVec.setWidth_eq]
  exact resolve_halves _ address

/-- The segment of an address, as a number. -/
theorem segment_toNat (icache : BitVec 64) :
    (icache &&& 0xffffffff00000000#64).toNat = icache.toNat / 2 ^ 32 * 2 ^ 32 := by
  have hones : 0xffffffff00000000#64 = BitVec.allOnes 64 <<< 32 := by decide
  have hmask : icache &&& 0xffffffff00000000#64 = (icache >>> 32) <<< 32 := by
    apply BitVec.eq_of_getLsbD_eq
    intro k hk
    rw [hones, BitVec.getLsbD_and, BitVec.getLsbD_shiftLeft, BitVec.getLsbD_shiftLeft,
      BitVec.getLsbD_ushiftRight, BitVec.getLsbD_allOnes]
    by_cases hlow : k < 32
    · simp [hlow]
    · have hhigh : 32 + (k - 32) = k := by omega
      simp [hlow, hk, hhigh, show k - 32 < 64 from by omega]
  rw [hmask, BitVec.toNat_shiftLeft, BitVec.toNat_ushiftRight,
    Nat.shiftRight_eq_div_pow, Nat.shiftLeft_eq]
  have hlt := icache.isLt
  omega

/-- A buffer in the zone lies at its segment and the low half of its address. -/
theorem InZone.toNat_eq {icache address : BitVec 64} (hzone : InZone icache address) :
    address.toNat = icache.toNat / 2 ^ 32 * 2 ^ 32 + (address.setWidth 32).toNat := by
  have hsegment := congrArg BitVec.toNat hzone.segment
  simp only [BitVec.toNat_ushiftRight, Nat.shiftRight_eq_div_pow] at hsegment
  rw [BitVec.toNat_setWidth]
  omega

/-- The data offset leads the address which the driver sends to the buffer. -/
theorem resolve_virtualAddress {icache address : BitVec 64}
    (hzone : InZone icache address) :
    (setDcacheOffset icache).resolve
      (al5McuGetVirtualAddress (address.setWidth 32)) = address := by
  have hlow := hzone.low
  have haddress := hzone.toNat_eq
  have hvirtual : (al5McuGetVirtualAddress (address.setWidth 32)).toNat =
      (address.setWidth 32).toNat + 0x80000000 := by
    rw [al5McuGetVirtualAddress, BitVec.toNat_add]
    exact Nat.mod_eq_of_lt (by simp; omega)
  apply BitVec.eq_of_toNat_eq
  rw [setDcacheOffset_resolve, BitVec.toNat_add, BitVec.toNat_sub, segment_toNat,
    BitVec.toNat_setWidth_of_le (by decide), hvirtual]
  have hicache := icache.isLt
  have hlt := address.isLt
  simp only [mcuCacheOffset, BitVec.toNat_ofNat]
  omega

/-- The sum of `init_mcu` is the same address. -/
theorem initMsg_addr (suballocBuf : DmaBuffer) (parent : Option L2Info) :
    (initMsg suballocBuf parent).addr =
      al5McuGetVirtualAddress (suballocBuf.dmaHandle.setWidth 32) := by
  rw [initMsg, al5McuGetVirtualAddress, BitVec.setWidth_add _ _ (by decide)]
  rfl

theorem resolve_instruction (icache : BitVec 64) {k : ℕ} (hk : k < 2 ^ 31) :
    (setIcacheOffset icache).resolve (BitVec.ofNat 32 (mcuCacheOffset + k)) =
      icache + BitVec.ofNat 64 k := by
  have hicache := icache.isLt
  apply BitVec.eq_of_toNat_eq
  rw [setIcacheOffset_resolve, BitVec.toNat_add, BitVec.toNat_add, BitVec.toNat_sub,
    BitVec.toNat_setWidth_of_le (by decide)]
  simp only [mcuCacheOffset, BitVec.toNat_ofNat]
  omega

/-! ## The words in the mails -/

theorem wordAt_flatMap_wordBytes {words : List Word} {i : ℕ} {word : Word}
    (hword : words[i]? = some word) :
    wordAt (words.flatMap wordBytes) (4 * i) = word := by
  induction words generalizing i with
  | nil => exact absurd hword (by simp)
  | cons first words ih =>
      rw [List.flatMap_cons]
      cases i with
      | zero =>
          obtain rfl := Option.some.inj hword
          exact wordAt_wordBytes_append first _
      | succ i =>
          rw [List.getElem?_cons_succ] at hword
          have hrest := wordAt_append_right (wordBytes first) (words.flatMap wordBytes) (4 * i)
          rw [wordBytes_length, ih hword] at hrest
          rw [Nat.mul_succ, Nat.add_comm, hrest]

/-- The second word about a buffer is the address which the MCU uses. -/
theorem words_getElem? {bufpool : List DmaBuffer} {i : ℕ} {buffer : DmaBuffer}
    (hbuffer : bufpool[i]? = some buffer) :
    (bufpool.flatMap DmaBuffer.words)[3 * i + 1]? =
      some (al5McuGetVirtualAddress (buffer.dmaHandle.setWidth 32)) := by
  induction bufpool generalizing i with
  | nil => exact absurd hbuffer (by simp)
  | cons first bufpool ih =>
      cases i with
      | zero =>
          obtain rfl := Option.some.inj hbuffer
          rfl
      | succ i =>
          rw [List.getElem?_cons_succ] at hbuffer
          exact ih hbuffer

/-- A mail from a pool has the words of its buffers behind the channel uid. -/
theorem writeBuffers_inv {bufpool : List DmaBuffer} {mail result : Option Al5Mail}
    {before : Al5Mail} (hmail : mail = some before)
    (hwrite : writeBuffers bufpool mail = .ok result) :
    result = some { before with
      body := before.body ++ (bufpool.flatMap DmaBuffer.words).flatMap wordBytes } := by
  induction bufpool generalizing mail before with
  | nil =>
      simp only [writeBuffers, Except.ok.injEq] at hwrite
      simp [← hwrite, hmail]
  | cons buffer bufpool ih =>
      simp only [writeBuffers, bind, Except.bind] at hwrite
      split at hwrite
      · exact absurd hwrite (by simp)
      · rename_i first hfirst
        split at hwrite
        · exact absurd hwrite (by simp)
        · rename_i second hsecond
          split at hwrite
          · exact absurd hwrite (by simp)
          · rename_i third hthird
            obtain ⟨_, hbefore, -, rfl⟩ := al5MailWriteWord_inv hfirst
            obtain ⟨_, hone, -, rfl⟩ := al5MailWriteWord_inv hsecond
            obtain ⟨_, htwo, -, rfl⟩ := al5MailWriteWord_inv hthird
            rw [hmail] at hbefore
            obtain rfl := Option.some.inj hbefore
            obtain rfl := Option.some.inj hone
            obtain rfl := Option.some.inj htwo
            rw [ih rfl hwrite]
            simp [DmaBuffer.words, al5McuGetVirtualAddress]

/-- The mail which `create_mail_from_bufpool` makes tells the MCU how to reach each
buffer. -/
theorem bufpool_word {msgUid chanUid : Word} {bufpool : List DmaBuffer} {mail : Al5Mail}
    {i : ℕ} {buffer : DmaBuffer}
    (hcreate : createMailFromBufpool msgUid chanUid bufpool true = .ok (some mail))
    (hbuffer : bufpool[i]? = some buffer) :
    al5MailGetWord mail (3 * i + 2) =
      al5McuGetVirtualAddress (buffer.dmaHandle.setWidth 32) := by
  simp only [createMailFromBufpool, al5MailCreate, if_true, bind, Except.bind] at hcreate
  split at hcreate
  · exact absurd hcreate (by simp)
  · rename_i first hfirst
    obtain ⟨before, hbefore, -, rfl⟩ := al5MailWriteWord_inv hfirst
    obtain rfl := Option.some.inj hbefore
    obtain rfl := Option.some.inj (writeBuffers_inv rfl hcreate)
    have hword := wordAt_append_right (wordBytes chanUid)
      ((bufpool.flatMap DmaBuffer.words).flatMap wordBytes) (4 * (3 * i + 1))
    rw [wordAt_flatMap_wordBytes (words_getElem? hbuffer), wordBytes_length] at hword
    have hoffset : 4 * (3 * i + 2) = 4 + 4 * (3 * i + 1) := by omega
    rw [al5MailGetWord, hoffset]
    exact hword

theorem streamBuffer_word {chanUid : Word} {info : BufferInfo} {buffer : Al5Buffer}
    {mail : Al5Mail}
    (hcreate : createPutStreamMail chanUid info buffer true = .ok (some mail)) :
    al5MailGetWord mail 2 = al5McuGetVirtualAddress info.busAddress := by
  have hbody : mail.body =
      [chanUid, info.busAddress, al5McuGetVirtualAddress info.busAddress, buffer.size,
        buffer.offset, buffer.streamBufferPtr.setWidth 32,
        (buffer.streamBufferPtr >>> 32).setWidth 32].flatMap wordBytes :=
    congrArg Al5Mail.body (Option.some.inj (Except.ok.inj hcreate)).symm
  rw [al5MailGetWord, hbody]
  exact wordAt_flatMap_wordBytes rfl

theorem initMsg_word {uid : Word} {msg : McuInitMsg} {mail : Al5Mail}
    (hcreate : createInitMsg true uid msg.bytes = .ok (some mail)) :
    al5MailGetWord mail 1 = msg.addr := by
  have hbody : mail.body =
      [uid, msg.addr, msg.size, msg.l2SizeInBits, msg.l2ColorBitdepth, msg.numCores,
        msg.coreFrequency].flatMap wordBytes :=
    congrArg Al5Mail.body (Option.some.inj (Except.ok.inj hcreate)).symm
  rw [al5MailGetWord, hbody]
  exact wordAt_flatMap_wordBytes rfl

/-! ## The translation is consistent -/

/-- The MCU finds its instructions, and every buffer in the zone of the firmware whose
address a mail tells it. -/
structure Translates (icache : BitVec 64) : Prop where
  instructions : ∀ k < 2 ^ 31,
    (setIcacheOffset icache).resolve (BitVec.ofNat 32 (mcuCacheOffset + k)) =
      icache + BitVec.ofNat 64 k
  virtual : ∀ address, InZone icache address →
    (setDcacheOffset icache).resolve
      (al5McuGetVirtualAddress (address.setWidth 32)) = address
  suballocator : ∀ suballocBuf parent, InZone icache suballocBuf.dmaHandle →
    (setDcacheOffset icache).resolve (initMsg suballocBuf parent).addr =
      suballocBuf.dmaHandle
  bufferMails : ∀ msgUid chanUid bufpool mail (i : ℕ) buffer,
    createMailFromBufpool msgUid chanUid bufpool true = .ok (some mail) →
    bufpool[i]? = some buffer → InZone icache buffer.dmaHandle →
      (setDcacheOffset icache).resolve (al5MailGetWord mail (3 * i + 2)) =
        buffer.dmaHandle
  streamMails : ∀ chanUid info buffer mail address,
    createPutStreamMail chanUid info buffer true = .ok (some mail) →
    info.busAddress = address.setWidth 32 → InZone icache address →
      (setDcacheOffset icache).resolve (al5MailGetWord mail 2) = address
  initMails : ∀ uid suballocBuf parent mail,
    createInitMsg true uid (initMsg suballocBuf parent).bytes = .ok (some mail) →
    InZone icache suballocBuf.dmaHandle →
      (setDcacheOffset icache).resolve (al5MailGetWord mail 1) = suballocBuf.dmaHandle

/-- The offsets computed in 32 bits. -/
theorem setIcacheOffset_narrow (icache : BitVec 32) :
    setIcacheOffset icache = setIcacheOffset (icache.setWidth 64) := by
  have hicache := icache.isLt
  simp only [setIcacheOffset, AddrOffset.mk.injEq]
  constructor
  · apply BitVec.eq_of_toNat_eq
    simp only [BitVec.toNat_setWidth, BitVec.toNat_sub, BitVec.toNat_ofNat, mcuCacheOffset]
    omega
  · rw [if_pos trivial, if_neg (show ¬ 64 / 8 = 4 from by decide)]
    apply BitVec.eq_of_toNat_eq
    by_cases hborrow : icache.toNat < mcuCacheOffset
    · rw [if_pos hborrow, show (0xFFFFFFFF : Word).toNat = 0xFFFFFFFF from rfl]
      unfold mcuCacheOffset at hborrow ⊢
      simp only [BitVec.toNat_setWidth, BitVec.toNat_sub, BitVec.toNat_ofNat,
        BitVec.toNat_ushiftRight, Nat.shiftRight_eq_div_pow]
      omega
    · rw [if_neg hborrow, show (0 : Word).toNat = 0 from rfl]
      unfold mcuCacheOffset at hborrow ⊢
      simp only [BitVec.toNat_setWidth, BitVec.toNat_sub, BitVec.toNat_ofNat,
        BitVec.toNat_ushiftRight, Nat.shiftRight_eq_div_pow]
      omega

theorem setDcacheOffset_narrow (icache : BitVec 32) :
    setDcacheOffset icache = setDcacheOffset (icache.setWidth 64) := by
  have hicache := icache.isLt
  have hwide : icache.setWidth 64 &&& 0xffffffff00000000#64 = 0#64 := by
    apply BitVec.eq_of_toNat_eq
    rw [segment_toNat, BitVec.toNat_setWidth_of_le (by decide), Nat.div_eq_of_lt hicache]
    rfl
  simp only [setDcacheOffset, BitVec.setWidth_eq, hwide]
  decide

/-- Instructions and buffers are where the MCU looks for them, and a host with 32-bit
addresses programs the same offsets. -/
theorem addresses_translate :
    (∀ icache : BitVec 64, Translates icache) ∧
      ∀ icache : BitVec 32,
        setIcacheOffset icache = setIcacheOffset (icache.setWidth 64) ∧
          setDcacheOffset icache = setDcacheOffset (icache.setWidth 64) := by
  refine ⟨fun icache => ?_, fun icache =>
    ⟨setIcacheOffset_narrow icache, setDcacheOffset_narrow icache⟩⟩
  refine ⟨fun k hk => resolve_instruction icache hk, fun address hzone =>
    resolve_virtualAddress hzone, ?_, ?_, ?_, ?_⟩
  · intro suballocBuf parent hzone
    rw [initMsg_addr]
    exact resolve_virtualAddress hzone
  · intro msgUid chanUid bufpool mail i buffer hcreate hbuffer hzone
    rw [bufpool_word hcreate hbuffer]
    exact resolve_virtualAddress hzone
  · intro chanUid info buffer mail address hcreate hbus hzone
    rw [streamBuffer_word hcreate, hbus]
    exact resolve_virtualAddress hzone
  · intro uid suballocBuf parent mail hcreate hzone
    rw [initMsg_word hcreate, initMsg_addr]
    exact resolve_virtualAddress hzone

end VcuDriver

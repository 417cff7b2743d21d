import VcuDriver.Mailbox

/-!
# The layout of mails on the ring

On a ring of `N` words, `write_data` and `read_data` are lists of word accesses
at consecutive positions modulo `N`, whether the copy wraps or not.  From this
normal form come the frame of a mail (its header word and the complete words of
its body), the space which a mail takes, and the exact test by which
`al5_mailbox_write` accepts it.
-/

namespace VcuDriver

open Conc

/-! ## Word positions -/

/-- The byte offset of a word position on a ring of `N` words. -/
def slot (N position : ℕ) : ℕ :=
  4 * (position % N)

theorem slot_lt {N : ℕ} (hN : 0 < N) (position : ℕ) :
    slot N position < 4 * N := by
  have hmod := Nat.mod_lt position hN
  unfold slot
  omega

theorem slot_inj {N p q : ℕ} (hslot : slot N p = slot N q) :
    p % N = q % N := by
  unfold slot at hslot
  omega

/-- Words of a ring which are less than `N` apart have different slots. -/
theorem slot_ne {N p q : ℕ} (hpq : p < q) (hwindow : q < p + N) :
    slot N p ≠ slot N q := by
  intro heq
  have hmod := slot_inj heq
  have hdvd : N ∣ q - p := (Nat.modEq_iff_dvd' hpq.le).mp hmod
  have hle := Nat.le_of_dvd (by omega) hdvd
  omega

theorem slot_add_of_lt {N T j : ℕ} (hj : T % N + j < N) :
    slot N (T + j) = slot N T + 4 * j := by
  unfold slot
  rw [Nat.add_mod, Nat.mod_eq_of_lt (show j < N from by omega),
    Nat.mod_eq_of_lt hj]
  omega

theorem slot_add_wrap {N T : ℕ} (hN : 0 < N) :
    slot N (T + (N - T % N)) = 0 := by
  have hmod := Nat.mod_lt T hN
  have hdiv := Nat.div_add_mod T N
  have hmul : N * (T / N + 1) = N * (T / N) + N := Nat.mul_succ N (T / N)
  have hsum : T + (N - T % N) = N * (T / N + 1) := by omega
  rw [hsum]
  simp [slot]

theorem advance_slot
    {N T size : ℕ} (hN : 0 < N) (hsize : size ≤ 65535) (hring : 4 * N ≤ 65532) :
    advance (4 * N) (slot N T) size = slot N (T + (size + 3) / 4) := by
  have hslot := slot_lt hN T
  have hround : (slot N T + size + 3) / 4 * 4 = 4 * (T % N + (size + 3) / 4) := by
    unfold slot
    omega
  have hmod : 4 * (T % N + (size + 3) / 4) % (4 * N) =
      4 * ((T + (size + 3) / 4) % N) := by
    rw [Nat.mul_mod_mul_left, Nat.mod_add_mod]
  have hlt := slot_lt hN (T + (size + 3) / 4)
  rw [advance_eq, sizeT_eq (by omega), hround, hmod, u32_eq]
  · rfl
  · unfold slot at hlt
    omega

/-! ## Lists of word accesses -/

def storeWords : List (ℕ × Word) → RingProg Unit
  | [] => .ret ()
  | (offset, word) :: rest =>
      .act (.writeWord offset word) fun _ => storeWords rest

def loadWords : List ℕ → RingProg (List Word)
  | [] => .ret []
  | offset :: rest =>
      .act (.readWord offset) fun word =>
        (loadWords rest).bind fun words => .ret (word :: words)

def pokeWords : List Byte → ℕ → List Word → List Byte
  | buffer, _, [] => buffer
  | buffer, offset, word :: words =>
      pokeWords (pokeWord buffer offset word) (offset + 4) words

theorem storeWords_append (stores stores' : List (ℕ × Word)) :
    storeWords (stores ++ stores') =
      (storeWords stores).bind fun _ => storeWords stores' := by
  induction stores with
  | nil => rfl
  | cons store stores ih =>
      obtain ⟨offset, word⟩ := store
      simp only [List.cons_append, storeWords, Prog.act_bind, ih]

theorem loadWords_append (offsets offsets' : List ℕ) :
    loadWords (offsets ++ offsets') =
      (loadWords offsets).bind fun words =>
        (loadWords offsets').bind fun words' => .ret (words ++ words') := by
  induction offsets with
  | nil =>
      have hid := (loadWords offsets').bind_ret
      simp only [List.nil_append, loadWords, Prog.ret_bind]
      exact hid.symm
  | cons offset offsets ih =>
      simp only [List.cons_append, loadWords, Prog.act_bind, ih,
        Prog.bind_assoc, Prog.ret_bind]

/-- The offsets of `count` words from a position. -/
def slots (N position count : ℕ) : List ℕ :=
  (List.range count).map fun j => slot N (position + j)

/-- The stores that put the words of a buffer at a position. -/
def storesAt (N position : ℕ) (data : List Byte) (count : ℕ) :
    List (ℕ × Word) :=
  (List.range count).map fun j =>
    (slot N (position + j), wordAt data (4 * j))

/-! ## Normal form of the copies -/

theorem memcpyToio32Loop_eq (dst : ℕ) (src : List Byte) (i count : ℕ) :
    memcpyToio32Loop dst src i count =
      storeWords ((List.range count).map fun j =>
        (dst + 4 * (i + j), wordAt src (4 * (i + j)))) := by
  induction count generalizing i with
  | zero => rfl
  | succ count ih =>
      rw [List.range_succ_eq_map]
      simp only [memcpyToio32Loop, ih, List.map_cons, List.map_map, storeWords,
        Nat.add_zero]
      congr 1
      funext _
      congr 1
      apply List.map_congr_left
      intro j _
      simp only [Function.comp_apply, Nat.succ_eq_add_one]
      rw [show i + 1 + j = i + (j + 1) from by omega]

theorem memcpyFromio32Loop_eq
    (iterator src : ℕ) (buffer : List Byte) (i count : ℕ) :
    memcpyFromio32Loop iterator src buffer i count =
      (loadWords ((List.range count).map fun j => src + 4 * (i + j))).bind
        fun words => .ret (pokeWords buffer (iterator + 4 * i) words) := by
  induction count generalizing i buffer with
  | zero => rfl
  | succ count ih =>
      rw [List.range_succ_eq_map]
      simp only [memcpyFromio32Loop, List.map_cons, List.map_map, loadWords,
        Nat.add_zero, Prog.act_bind, Prog.bind_assoc, Prog.ret_bind]
      congr 1
      funext word
      rw [ih]
      have hoffsets :
          (List.range count).map (fun j => src + 4 * (i + 1 + j)) =
            (List.range count).map
              ((fun j => src + 4 * (i + j)) ∘ Nat.succ) := by
        apply List.map_congr_left
        intro j _
        simp only [Function.comp_apply, Nat.succ_eq_add_one]
        rw [show i + 1 + j = i + (j + 1) from by omega]
      rw [hoffsets]
      rfl

theorem storesAt_split
    {N T : ℕ} (data : List Byte) {count : ℕ} (hcount : N - T % N ≤ count) :
    storesAt N T data count =
      storesAt N T data (N - T % N) ++
        storesAt N (T + (N - T % N)) (data.drop (4 * (N - T % N)))
          (count - (N - T % N)) := by
  have hrange : List.range count =
      List.range (N - T % N) ++
        (List.range (count - (N - T % N))).map (N - T % N + ·) := by
    rw [← List.range_add]
    congr 1
    omega
  unfold storesAt
  rw [hrange, List.map_append, List.map_map]
  congr 1
  apply List.map_congr_left
  intro j _
  rw [wordAt_drop]
  simp only [Function.comp_apply, Nat.mul_add, Nat.add_assoc]

theorem slots_split
    {N T count : ℕ} (hcount : N - T % N ≤ count) :
    slots N T count =
      slots N T (N - T % N) ++
        slots N (T + (N - T % N)) (count - (N - T % N)) := by
  have hrange : List.range count =
      List.range (N - T % N) ++
        (List.range (count - (N - T % N))).map (N - T % N + ·) := by
    rw [← List.range_add]
    congr 1
    omega
  unfold slots
  rw [hrange, List.map_append, List.map_map]
  congr 1
  apply List.map_congr_left
  intro j _
  simp only [Function.comp_apply, Nat.add_assoc]

/-- A copy that does not reach the end of the ring. -/
theorem memcpyToio32_eq
    {N T size : ℕ} (data : List Byte) (hfit : T % N + size / 4 ≤ N) :
    memcpyToio32 (slot N T) data size = storeWords (storesAt N T data (size / 4)) := by
  unfold memcpyToio32
  rw [memcpyToio32Loop_eq]
  unfold storesAt
  congr 1
  apply List.map_congr_left
  intro j hj
  rw [List.mem_range] at hj
  rw [Nat.zero_add, slot_add_of_lt (by omega)]

theorem memcpyFromio32_eq
    {N T size : ℕ} (buffer : List Byte) (iterator : ℕ)
    (hfit : T % N + size / 4 ≤ N) :
    memcpyFromio32 buffer iterator (slot N T) size =
      (loadWords (slots N T (size / 4))).bind fun words =>
        .ret (pokeWords buffer iterator words) := by
  unfold memcpyFromio32
  rw [memcpyFromio32Loop_eq]
  have hoffsets :
      (List.range (size / 4)).map (fun j => slot N T + 4 * (0 + j)) =
        slots N T (size / 4) := by
    unfold slots
    apply List.map_congr_left
    intro j hj
    rw [List.mem_range] at hj
    rw [Nat.zero_add, slot_add_of_lt (by omega)]
  rw [hoffsets, Nat.mul_zero, Nat.add_zero]

theorem mailboxIsWrapping_slot
    {N T size : ℕ} (hN : 0 < N) (hring : 4 * N ≤ 65532) (hsize : size ≤ 65535) :
    mailboxIsWrapping (4 * N) (slot N T) size =
      decide (4 * N < slot N T + size) := by
  have hslot := slot_lt hN T
  rw [mailboxIsWrapping_eq, sizeT_eq (by omega)]

/-- `write_data` stores the complete words of the data at consecutive
positions and advances the local tail by the rounded size. -/
theorem writeData_eq
    {N T size : ℕ} (data : List Byte) (hN : 0 < N) (hring : 4 * N ≤ 65532)
    (hsize : size ≤ 4 * N) :
    writeData (4 * N) (slot N T) data size =
      (storeWords (storesAt N T data (size / 4))).bind fun _ =>
        .ret (slot N (T + (size + 3) / 4)) := by
  have hslot := slot_lt hN T
  have hmod := Nat.mod_lt T hN
  have hslotEq : slot N T = 4 * (T % N) := rfl
  unfold writeData
  rw [mailboxIsWrapping_slot hN hring (by omega)]
  by_cases hwrap : 4 * N < slot N T + size
  · rw [decide_eq_true hwrap]
    have hspace : sizeTSub (4 * N) (slot N T) = 4 * (N - T % N) := by
      rw [sizeTSub_eq (by omega) (by omega)]
      omega
    have hrest : sizeTSub size (4 * (N - T % N)) = size - 4 * (N - T % N) :=
      sizeTSub_eq (by omega) (by omega)
    have hfirst : memcpyToio32 (slot N T) data (4 * (N - T % N)) =
        storeWords (storesAt N T data (N - T % N)) := by
      rw [memcpyToio32_eq data (by omega),
        Nat.mul_div_cancel_left _ (by omega)]
    have hwrapMod : (T + (N - T % N)) % N = 0 := by
      have hzero := slot_add_wrap (T := T) hN
      unfold slot at hzero
      omega
    have hsecond :
        memcpyToio32 0 (data.drop (4 * (N - T % N))) (size - 4 * (N - T % N)) =
          storeWords (storesAt N (T + (N - T % N))
            (data.drop (4 * (N - T % N))) (size / 4 - (N - T % N))) := by
      rw [← slot_add_wrap (T := T) hN, memcpyToio32_eq _ (by omega)]
      congr 2
      omega
    have htail : u16 (advance (4 * N) 0 (size - 4 * (N - T % N))) =
        slot N (T + (size + 3) / 4) := by
      rw [← slot_add_wrap (T := T) hN, advance_slot hN (by omega) hring]
      have hpos : T + (N - T % N) + (size - 4 * (N - T % N) + 3) / 4 =
          T + (size + 3) / 4 := by
        omega
      have hlt := slot_lt hN (T + (size + 3) / 4)
      rw [hpos, u16_eq (by omega)]
    rw [storesAt_split data (show N - T % N ≤ size / 4 from by omega),
      storeWords_append]
    simp only [if_true, writeInMailboxUntilWrap, untilWrap_wrapping, hspace, hrest,
      Prog.bind_eq, Prog.pure_eq, Prog.bind_assoc, Prog.ret_bind, hfirst, hsecond, htail]
  · rw [decide_eq_false hwrap]
    have htail : u16 (advance (4 * N) (slot N T) size) =
        slot N (T + (size + 3) / 4) := by
      have hlt := slot_lt hN (T + (size + 3) / 4)
      rw [advance_slot hN (by omega) hring, u16_eq (by omega)]
    simp only [Bool.false_eq_true, if_false, Prog.bind_eq, Prog.pure_eq,
      Prog.ret_bind, htail]
    rw [memcpyToio32_eq data (by omega)]

/-- The words loaded are as many as the offsets. -/
theorem loadWords_bind_congr
    {α : Type} {offsets : List ℕ} {f g : List Word → RingProg α}
    (hfg : ∀ words, words.length = offsets.length → f words = g words) :
    (loadWords offsets).bind f = (loadWords offsets).bind g := by
  induction offsets generalizing f g with
  | nil => exact hfg [] rfl
  | cons offset offsets ih =>
      simp only [loadWords, Prog.act_bind, Prog.bind_assoc, Prog.ret_bind]
      congr 1
      funext word
      apply ih
      intro words hlength
      exact hfg (word :: words) (by simp [hlength])

theorem pokeWords_append
    (buffer : List Byte) (offset : ℕ) (words words' : List Word) :
    pokeWords buffer offset (words ++ words') =
      pokeWords (pokeWords buffer offset words) (offset + 4 * words.length)
        words' := by
  induction words generalizing buffer offset with
  | nil => rfl
  | cons word words ih =>
      simp only [List.cons_append, pokeWords, ih, List.length_cons]
      congr 1
      omega

/-- `read_data` loads the complete words at consecutive positions into a zeroed
buffer and then advances the head by the rounded size. -/
theorem readDataAt_eq
    {N H size : ℕ} (hN : 0 < N) (hring : 4 * N ≤ 65532) (hsize : size ≤ 4 * N) :
    readDataAt (4 * N) size (slot N H) =
      (loadWords (slots N H (size / 4))).bind fun words =>
        .act (.writeHead (slot N (H + (size + 3) / 4))) fun _ =>
          .ret (pokeWords (List.replicate size 0) 0 words) := by
  have hslot := slot_lt hN H
  have hmod := Nat.mod_lt H hN
  have hslotEq : slot N H = 4 * (H % N) := rfl
  unfold readDataAt
  rw [mailboxIsWrapping_slot hN hring (by omega)]
  by_cases hwrap : 4 * N < slot N H + size
  · rw [decide_eq_true hwrap]
    have hspace : sizeTSub (4 * N) (slot N H) = 4 * (N - H % N) := by
      rw [sizeTSub_eq (by omega) (by omega)]
      omega
    have hrest : sizeTSub size (4 * (N - H % N)) = size - 4 * (N - H % N) :=
      sizeTSub_eq (by omega) (by omega)
    have hfirst : ∀ buffer,
        memcpyFromio32 buffer 0 (slot N H) (4 * (N - H % N)) =
          (loadWords (slots N H (N - H % N))).bind fun words =>
            .ret (pokeWords buffer 0 words) := by
      intro buffer
      rw [memcpyFromio32_eq buffer 0 (by omega),
        Nat.mul_div_cancel_left _ (by omega)]
    have hwrapMod : (H + (N - H % N)) % N = 0 := by
      have hzero := slot_add_wrap (T := H) hN
      unfold slot at hzero
      omega
    have hsecond : ∀ buffer,
        memcpyFromio32 buffer (4 * (N - H % N)) 0 (size - 4 * (N - H % N)) =
          (loadWords (slots N (H + (N - H % N)) (size / 4 - (N - H % N)))).bind
            fun words =>
              .ret (pokeWords buffer (4 * (N - H % N)) words) := by
      intro buffer
      rw [← slot_add_wrap (T := H) hN, memcpyFromio32_eq _ _ (by omega)]
      congr 3
      omega
    have hhead : advance (4 * N) 0 (size - 4 * (N - H % N)) =
        slot N (H + (size + 3) / 4) := by
      rw [← slot_add_wrap (T := H) hN, advance_slot hN (by omega) hring]
      congr 1
      omega
    rw [slots_split (show N - H % N ≤ size / 4 from by omega), loadWords_append]
    simp only [if_true, readInMailboxUntilWrap, untilWrap_wrapping, hspace, hrest,
      Prog.bind_eq, Prog.pure_eq, Prog.bind_assoc, Prog.ret_bind, hfirst, hsecond,
      Prog.perform_bind]
    apply loadWords_bind_congr
    intro words hlength
    have hwords : words.length = N - H % N := by
      rw [hlength, slots, List.length_map, List.length_range]
    congr 1
    funext words'
    rw [hhead, pokeWords_append, hwords, Nat.zero_add]
  · rw [decide_eq_false hwrap]
    simp only [Bool.false_eq_true, if_false, Prog.bind_eq, Prog.pure_eq,
      Prog.ret_bind, Prog.perform_bind]
    rw [memcpyFromio32_eq _ _ (by omega), Prog.bind_assoc,
      advance_slot (T := H) hN (show size ≤ 65535 from by omega) hring]
    simp only [Prog.ret_bind]

/-! ## Normal form of the operations -/

theorem al5MailboxWrite_eq (mailboxSize : ℕ) (mail : Al5Mail) :
    al5MailboxWrite mailboxSize mail =
      .act .readHead fun headValue => .act .readTail fun tailValue =>
        if notEnoughSpaceInMailbox mailboxSize
            (if tailValue ≥ headValue then tailValue - headValue
              else sizeTSub (sizeT (mailboxSize + tailValue)) headValue)
            (sizeT (al5MailGetSize mail + headerSize)) then
          .ret (-EAGAIN)
        else
          .act .readTail fun value =>
            (writeData mailboxSize (u16 value)
              (serializeHeader mail.msgUid
                (BitVec.ofNat 16 (al5MailGetSize mail))) headerSize).bind
              fun localTail =>
                (writeData mailboxSize localTail (al5MailGetBody mail)
                  (al5MailGetSize mail)).bind fun localTail =>
                    .act (.writeTail localTail) fun _ => .ret 0 := by
  unfold al5MailboxWrite
  simp only [usedBytes_wrapping, pullTail, pushTail, Prog.bind_eq, Prog.perform_bind,
    Prog.pure_eq, Prog.act_bind, Prog.ret_bind]

theorem al5McuSend_bind_eq
    {α : Type} (mailboxSize : ℕ) (mail : Al5Mail) (f : ℤ → RingProg α) :
    (al5McuSend mailboxSize mail).bind f =
      .act (.lock .write) fun _ =>
        (al5MailboxWrite mailboxSize mail).bind fun error =>
          .act (.unlock .write) fun _ => f error := by
  unfold al5McuSend
  simp only [Prog.bind_eq, Prog.perform_bind, Prog.pure_eq, Prog.act_bind,
    Prog.ret_bind, Prog.bind_assoc]

theorem al5CheckAndSend_eq (mailboxSize : ℕ) (mail : Al5Mail) :
    al5CheckAndSend mailboxSize (some mail) =
      (al5McuSend mailboxSize mail).bind fun err =>
        if err ≠ 0 then .ret err else .act .signal fun _ => .ret 0 := by
  unfold al5CheckAndSend
  simp only [Prog.bind_eq, Prog.perform_bind, Prog.pure_eq]

theorem al5McuIsEmpty_bind_eq {α : Type} (f : Bool → RingProg α) :
    al5McuIsEmpty.bind f =
      .act (.lock .read) fun _ => .act .readHead fun headValue =>
        .act .readTail fun tailValue => .act (.unlock .read) fun _ =>
          f (headValue == tailValue) := by
  unfold al5McuIsEmpty
  simp only [Prog.bind_eq, Prog.perform_bind, Prog.pure_eq, Prog.act_bind,
    Prog.ret_bind]

theorem al5McuRecv_bind_eq
    {α : Type} (mailboxSize : ℕ) (f : Al5Mail → RingProg α) :
    (al5McuRecv mailboxSize).bind f =
      .act (.lock .read) fun _ =>
        (al5MailboxRead mailboxSize).bind fun mail =>
          .act (.unlock .read) fun _ => f mail := by
  unfold al5McuRecv
  simp only [Prog.bind_eq, Prog.perform_bind, Prog.pure_eq, Prog.act_bind,
    Prog.ret_bind, Prog.bind_assoc]

theorem al5MailboxRead_eq (mailboxSize : ℕ) :
    al5MailboxRead mailboxSize =
      .act .readHead fun headValue =>
        (readDataAt mailboxSize headerSize headValue).bind fun header =>
          .act .readHead fun headValue =>
            (readDataAt mailboxSize (unserializeBodySize header).toNat
              headValue).bind fun body =>
              .ret {
                msgUid := unserializeMsgUid header
                bodySize := unserializeBodySize header
                contentSize := (unserializeBodySize header).toNat
                body := body } := by
  unfold al5MailboxRead readData
  simp only [Prog.bind_eq, Prog.perform_bind, Prog.pure_eq, Prog.act_bind]

theorem readMail_bind_eq
    {α : Type} (mailboxSize : ℕ) (f : Option Al5Mail → RingProg α) :
    (readMail mailboxSize).bind f =
      .act (.lock .irqThread) fun _ => al5McuIsEmpty.bind fun isEmpty =>
        if isEmpty then
          .act (.unlock .irqThread) fun _ => f none
        else
          (al5McuRecv mailboxSize).bind fun mail =>
            .act (.deliver mail) fun _ =>
              .act (.unlock .irqThread) fun _ => f (some mail) := by
  unfold readMail
  simp only [Prog.bind_eq, Prog.perform_bind, Prog.pure_eq, Prog.act_bind,
    Prog.bind_assoc]
  congr 1
  funext _
  congr 1
  funext isEmpty
  cases isEmpty with
  | false =>
      simp only [Bool.false_eq_true, if_false, Prog.bind_assoc, Prog.act_bind,
        Prog.ret_bind]
  | true => simp only [if_true, Prog.act_bind, Prog.ret_bind]

/-! ## Frames -/

theorem wordAt_serializeHeader_byte (msgUid bodySize : BitVec 16) {k : ℕ}
    (hk : k < 4) :
    wordByte (wordAt (serializeHeader msgUid bodySize) 0) k =
      byteAt (serializeHeader msgUid bodySize) k := by
  rw [wordByte_wordAt _ _ hk, Nat.zero_add]

theorem unserializeMsgUid_congr {header header' : List Byte}
    (hbytes : ∀ k < 4, byteAt header k = byteAt header' k) :
    unserializeMsgUid header = unserializeMsgUid header' := by
  unfold unserializeMsgUid
  rw [hbytes 2 (by omega), hbytes 3 (by omega)]

theorem unserializeBodySize_congr {header header' : List Byte}
    (hbytes : ∀ k < 4, byteAt header k = byteAt header' k) :
    unserializeBodySize header = unserializeBodySize header' := by
  unfold unserializeBodySize
  rw [hbytes 0 (by omega), hbytes 1 (by omega)]

/-- The low and high byte of a 16-bit value put it together again. -/
theorem ofNat_low_high (value : BitVec 16) :
    BitVec.ofNat 16
      (((value &&& 0x00ff).setWidth 8 : BitVec 8).toNat +
        ((value >>> 8).setWidth 8 : BitVec 8).toNat * 2 ^ 8) = value := by
  apply BitVec.eq_of_toNat_eq
  have hvalue := value.isLt
  have hmask : value.toNat &&& (0x00ff : BitVec 16).toNat = value.toNat % 256 :=
    Nat.and_two_pow_sub_one_eq_mod value.toNat 8
  simp only [BitVec.toNat_ofNat, BitVec.toNat_setWidth, BitVec.toNat_and,
    BitVec.toNat_ushiftRight, Nat.shiftRight_eq_div_pow, hmask]
  omega

theorem unserializeMsgUid_serializeHeader (msgUid bodySize : BitVec 16) :
    unserializeMsgUid (serializeHeader msgUid bodySize) = msgUid :=
  ofNat_low_high msgUid

theorem unserializeBodySize_serializeHeader (msgUid bodySize : BitVec 16) :
    unserializeBodySize (serializeHeader msgUid bodySize) = bodySize :=
  ofNat_low_high bodySize

def headerWord (mail : Al5Mail) : Word :=
  wordAt (serializeHeader mail.msgUid mail.bodySize) 0

def frameWords (mail : Al5Mail) : ℕ :=
  1 + (al5MailGetSize mail + 3) / 4

def frameStores (N position : ℕ) (mail : Al5Mail) : List (ℕ × Word) :=
  (slot N position, headerWord mail) ::
    storesAt N (position + 1) mail.body (al5MailGetSize mail / 4)

theorem al5MailGetSize_le (mail : Al5Mail) : al5MailGetSize mail ≤ 65535 := by
  have hsize := mail.bodySize.isLt
  unfold al5MailGetSize
  omega

/-- What a read finds when it loads the header word back. -/
theorem readHeader_eq (mail : Al5Mail) :
    unserializeMsgUid (pokeWords (List.replicate headerSize 0) 0 [headerWord mail]) =
        mail.msgUid ∧
      unserializeBodySize
        (pokeWords (List.replicate headerSize 0) 0 [headerWord mail]) =
          mail.bodySize := by
  have hbytes : ∀ k < 4,
      byteAt (pokeWords (List.replicate headerSize 0) 0 [headerWord mail]) k =
        byteAt (serializeHeader mail.msgUid mail.bodySize) k := by
    intro k hk
    rw [← wordAt_serializeHeader_byte _ _ hk]
    have hcases : k = 0 ∨ k = 1 ∨ k = 2 ∨ k = 3 := by omega
    rcases hcases with rfl | rfl | rfl | rfl <;> rfl
  constructor
  · rw [unserializeMsgUid_congr hbytes, unserializeMsgUid_serializeHeader]
  · rw [unserializeBodySize_congr hbytes, unserializeBodySize_serializeHeader]

/-- Stores past a word leave it alone. -/
theorem wordAt_pokeWords_before
    {buffer : List Byte} {offset other : ℕ} {words : List Word}
    (hbefore : other + 4 ≤ offset) :
    wordAt (pokeWords buffer offset words) other = wordAt buffer other := by
  induction words generalizing buffer offset with
  | nil => rfl
  | cons word words ih =>
      rw [pokeWords, ih (by omega), wordAt_pokeWord_of_disjoint _ (.inl hbefore)]

/-- The words poked at the front of a buffer read back. -/
theorem wordAt_pokeWords
    {buffer : List Byte} {offset : ℕ} {words : List Word} {j : ℕ} {word : Word}
    (hword : words[j]? = some word)
    (hfit : offset + 4 * words.length ≤ buffer.length) :
    wordAt (pokeWords buffer offset words) (offset + 4 * j) = word := by
  induction words generalizing buffer offset j with
  | nil => simp at hword
  | cons first words ih =>
      simp only [List.length_cons] at hfit
      cases j with
      | zero =>
          simp only [List.getElem?_cons_zero, Option.some.injEq] at hword
          have hoffset : offset + 4 * 0 = offset := by omega
          rw [pokeWords, hoffset, wordAt_pokeWords_before le_rfl,
            wordAt_pokeWord_self _ (by omega), hword]
      | succ j =>
          have hoffset : offset + 4 * (j + 1) = offset + 4 + 4 * j := by omega
          rw [pokeWords, hoffset]
          apply ih hword
          rw [pokeWord_length]
          omega

@[simp] theorem pokeWords_length (buffer : List Byte) (offset : ℕ)
    (words : List Word) :
    (pokeWords buffer offset words).length = buffer.length := by
  induction words generalizing buffer offset with
  | nil => rfl
  | cons word words ih => rw [pokeWords, ih, pokeWord_length]

/-! ## Space -/

/-- On a window shorter than the ring, positions and register values determine
each other. -/
theorem mod_distance {N H T : ℕ} (hHT : H ≤ T) (hwindow : T < H + N) :
    (T % N = H % N + (T - H) ∧ H % N ≤ T % N) ∨
      (T % N + N = H % N + (T - H) ∧ T % N < H % N) := by
  have hN : 0 < N := by omega
  have hH := Nat.mod_lt H hN
  have hT : T % N = (H % N + (T - H)) % N := by
    rw [Nat.mod_add_mod]
    congr 1
    omega
  by_cases hlt : H % N + (T - H) < N
  · rw [Nat.mod_eq_of_lt hlt] at hT
    omega
  · have hsub : (H % N + (T - H)) % N = H % N + (T - H) - N := by
      rw [Nat.mod_eq_sub_mod (by omega)]
      exact Nat.mod_eq_of_lt (by omega)
    omega

/-- The registers are equal exactly when the positions are. -/
theorem slot_eq_iff {N H T : ℕ} (hHT : H ≤ T) (hwindow : T < H + N) :
    slot N H = slot N T ↔ H = T := by
  constructor
  · intro heq
    have hdist := mod_distance hHT hwindow
    unfold slot at heq
    omega
  · rintro rfl
    rfl

/-- `al5_mailbox_write` refuses a mail exactly when the free words do not
exceed its frame. -/
theorem notEnoughSpace_iff
    {N H T : ℕ} (mail : Al5Mail) (hring : 4 * N ≤ 65532) (hHT : H ≤ T)
    (hwindow : T < H + N) :
    notEnoughSpaceInMailbox (4 * N)
        (if slot N T ≥ slot N H then slot N T - slot N H
          else sizeTSub (sizeT (4 * N + slot N T)) (slot N H))
        (sizeT (al5MailGetSize mail + headerSize)) =
      decide (H + N < T + frameWords mail + 1) := by
  have hsize := al5MailGetSize_le mail
  have hslotH := slot_lt (show 0 < N from by omega) H
  have hslotT := slot_lt (show 0 < N from by omega) T
  have hused : (if slot N T ≥ slot N H then slot N T - slot N H
      else sizeTSub (sizeT (4 * N + slot N T)) (slot N H)) = 4 * (T - H) := by
    have hdist := mod_distance hHT hwindow
    split_ifs with hge
    · unfold slot at hge ⊢
      omega
    · rw [sizeT_eq (by omega), sizeTSub_eq (by omega) (by omega)]
      unfold slot at hge ⊢
      omega
  rw [notEnoughSpaceInMailbox_eq]
  unfold headerSize frameWords
  rw [hused, sizeT_eq (show al5MailGetSize mail + 4 < 2 ^ 64 from by omega),
    sizeT_eq (by omega), sizeTSub_eq (by omega) (by omega)]
  apply decide_eq_decide.mpr
  omega

/-- `al5_mailbox_write` after its test and `pull_tail`. -/
theorem writeMail_eq
    {α : Type} {N T : ℕ} {mail : Al5Mail} (f : ℕ → RingProg α)
    (hring : 4 * N ≤ 65532) (hfit : frameWords mail ≤ N) :
    ((writeData (4 * N) (slot N T)
        (serializeHeader mail.msgUid
          (BitVec.ofNat 16 (al5MailGetSize mail))) headerSize).bind
      fun localTail =>
        (writeData (4 * N) localTail (al5MailGetBody mail)
          (al5MailGetSize mail)).bind f) =
      (storeWords (frameStores N T mail)).bind fun _ =>
        f (slot N (T + frameWords mail)) := by
  have hN : 0 < N := by
    unfold frameWords at hfit
    omega
  have hbodySize : BitVec.ofNat 16 (al5MailGetSize mail) = mail.bodySize := by
    simp [al5MailGetSize]
  have hsize : al5MailGetSize mail ≤ 4 * N := by
    unfold frameWords at hfit
    omega
  have hhead : storesAt N T
      (serializeHeader mail.msgUid mail.bodySize) (headerSize / 4) =
        [(slot N T, headerWord mail)] := rfl
  rw [hbodySize, writeData_eq _ hN hring (show headerSize ≤ 4 * N from by
    unfold headerSize; omega), hhead, Prog.bind_assoc]
  simp only [Prog.ret_bind, storeWords, Prog.act_bind, frameStores]
  rw [show T + (headerSize + 3) / 4 = T + 1 from rfl,
    writeData_eq _ hN hring hsize, Prog.bind_assoc]
  unfold frameWords al5MailGetBody
  simp only [Prog.ret_bind, Nat.add_assoc T 1]

end VcuDriver

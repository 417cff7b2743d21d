import VcuDriver.MailboxFifo
import VcuDriver.MailFactory

/-!
# Sending a command

What `al5_check_and_send` leaves on the ring when it runs to its end.  The ring
holds the header and the complete words of the body behind the old tail; the
one to three bytes after the last complete word are never copied, although the
tail is advanced past them.
-/

namespace VcuDriver

open Conc

/-! ## A mailbox at rest -/

structure Ring where
  head : ℕ
  tail : ℕ
  data : ℕ → Word

namespace Ring

def access (action : RingAct) (ring : Ring) : action.Res × Ring :=
  match action with
  | .lock _ | .unlock _ | .signal | .deliver _ => ((), ring)
  | .readHead => (ring.head, ring)
  | .readTail => (ring.tail, ring)
  | .writeHead value => ((), { ring with head := value })
  | .writeTail value => ((), { ring with tail := value })
  | .readWord offset => (ring.data offset, ring)
  | .writeWord offset word =>
      ((), { ring with data := Function.update ring.data offset word })

section Runs

variable {α : Type} (ring : Ring)

theorem run_readHead (next : ℕ → RingProg α) :
    Prog.run access (.act .readHead next) ring =
      (next ring.head).run access ring := by rfl

theorem run_readTail (next : ℕ → RingProg α) :
    Prog.run access (.act .readTail next) ring =
      (next ring.tail).run access ring := by rfl

theorem run_lock (which : RingLock) (next : Unit → RingProg α) :
    Prog.run access (.act (.lock which) next) ring =
      (next ()).run access ring := by rfl

end Runs

structure Valid (size : ℕ) (ring : Ring) : Prop where
  head_aligned : ring.head % 4 = 0
  head_lt : ring.head < size
  tail_aligned : ring.tail % 4 = 0
  tail_lt : ring.tail < size

def used (size : ℕ) (ring : Ring) : ℕ :=
  if ring.head ≤ ring.tail then ring.tail - ring.head
  else size + ring.tail - ring.head

def byteAt (ring : Ring) (offset : ℕ) : Byte :=
  wordByte (ring.data (offset / 4 * 4)) (offset % 4)

end Ring

/-! ## The stores of a run -/

def storeAll (data : ℕ → Word) (stores : List (ℕ × Word)) : ℕ → Word :=
  stores.foldl (fun data store => Function.update data store.1 store.2) data

theorem storeAll_of_not_mem
    {data : ℕ → Word} {stores : List (ℕ × Word)} {offset : ℕ}
    (hnot : ∀ store ∈ stores, store.1 ≠ offset) :
    storeAll data stores offset = data offset := by
  induction stores generalizing data with
  | nil => rfl
  | cons store stores ih =>
      have hne := hnot store List.mem_cons_self
      have hrest : storeAll (Function.update data store.1 store.2) stores offset =
          Function.update data store.1 store.2 offset :=
        ih fun store' hmem => hnot store' (List.mem_cons_of_mem _ hmem)
      rw [Function.update_of_ne hne.symm] at hrest
      exact hrest

/-- Stores at different offsets all take effect. -/
theorem storeAll_of_mem
    {data : ℕ → Word} {stores : List (ℕ × Word)} {store : ℕ × Word}
    (hdistinct : stores.Pairwise fun store store' => store.1 ≠ store'.1)
    (hmem : store ∈ stores) :
    storeAll data stores store.1 = store.2 := by
  induction stores generalizing data with
  | nil => exact absurd hmem List.not_mem_nil
  | cons first stores ih =>
      rw [List.pairwise_cons] at hdistinct
      obtain ⟨hfirst, hrest⟩ := hdistinct
      rcases List.mem_cons.mp hmem with rfl | hmem
      · have hlast : storeAll (Function.update data store.1 store.2) stores
            store.1 = Function.update data store.1 store.2 store.1 :=
          storeAll_of_not_mem fun store' hmem => (hfirst store' hmem).symm
        rw [Function.update_self] at hlast
        exact hlast
      · exact ih hrest hmem

theorem run_storeWords (stores : List (ℕ × Word)) (ring : Ring) :
    (storeWords stores).run Ring.access ring =
      ((), { ring with data := storeAll ring.data stores }) := by
  induction stores generalizing ring with
  | nil => rfl
  | cons store stores ih =>
      obtain ⟨offset, word⟩ := store
      rw [storeWords, Prog.run_act, ih]
      rfl

theorem frameStores_pairwise
    {N T : ℕ} {mail : Al5Mail} (hfit : frameWords mail ≤ N) :
    (frameStores N T mail).Pairwise fun store store' => store.1 ≠ store'.1 := by
  rw [List.pairwise_iff_getElem]
  intro j k hj hk hjk
  obtain ⟨hfirst, _⟩ := frameStores_getElem? (List.getElem?_eq_getElem hj)
  obtain ⟨hsecond, hlt⟩ := frameStores_getElem? (List.getElem?_eq_getElem hk)
  rw [hfirst, hsecond]
  exact slot_ne (by omega) (by omega)

/-! ## The run of a send -/

/-- Word positions of the registers of a ring at rest. -/
theorem Ring.Valid.positions
    {N : ℕ} {ring : Ring} (hvalid : ring.Valid (4 * N)) :
    ∃ H T, ring.head = slot N H ∧ ring.tail = slot N T ∧ H ≤ T ∧ T < H + N ∧
      ring.used (4 * N) = 4 * (T - H) := by
  obtain ⟨hhead, hheadLt, htail, htailLt⟩ := hvalid
  have hslot : ∀ k, k < N → slot N k = 4 * k := by
    intro k hk
    unfold slot
    rw [Nat.mod_eq_of_lt hk]
  have hhead' := hslot (ring.head / 4) (by omega)
  have htail' := hslot (ring.tail / 4) (by omega)
  unfold Ring.used
  by_cases hle : ring.head ≤ ring.tail
  · refine ⟨ring.head / 4, ring.tail / 4, ?_⟩
    rw [hhead', htail', if_pos hle]
    omega
  · have hwrap : slot N (ring.tail / 4 + N) = slot N (ring.tail / 4) := by
      unfold slot
      rw [Nat.add_mod_right]
    refine ⟨ring.head / 4, ring.tail / 4 + N, ?_⟩
    rw [hhead', hwrap, htail', if_neg hle]
    omega

def frameSize (mail : Al5Mail) : ℕ :=
  4 * frameWords mail

/-- `al5_check_and_send` refuses a mail that would fill the ring; otherwise it
stores the frame of the mail behind the tail and moves the tail past it. -/
theorem run_al5CheckAndSend
    {N H T : ℕ} {ring : Ring} (mail : Al5Mail) (hring : 4 * N ≤ 65532)
    (hhead : ring.head = slot N H) (htail : ring.tail = slot N T)
    (hHT : H ≤ T) (hwindow : T < H + N) :
    (al5CheckAndSend (4 * N) (some mail)).run Ring.access ring =
      if H + N < T + frameWords mail + 1 then
        (-EAGAIN, ring)
      else
        (0, { ring with
          tail := slot N (T + frameWords mail)
          data := storeAll ring.data (frameStores N T mail) }) := by
  have htest := notEnoughSpace_iff mail hring hHT hwindow
  rw [← hhead, ← htail] at htest
  rw [al5CheckAndSend_eq, al5McuSend_bind_eq, al5MailboxWrite_eq]
  simp only [Prog.act_bind]
  rw [Ring.run_lock, Ring.run_readHead, Ring.run_readTail, htest]
  by_cases hfull : H + N < T + frameWords mail + 1
  · rw [decide_eq_true hfull, if_pos hfull]
    rfl
  · have hslot := slot_lt (show 0 < N from by omega) T
    rw [decide_eq_false hfull, if_neg hfull]
    simp only [Bool.false_eq_true, if_false, Prog.act_bind, Prog.bind_assoc]
    rw [Ring.run_readTail, htail, u16_eq (by omega), writeMail_eq _ hring (by omega), Prog.run_bind,
      run_storeWords]
    rfl

/-! ## The bytes of a sent mail -/

def Ring.after (N T : ℕ) (mail : Al5Mail) (ring : Ring) : Ring :=
  { ring with
    tail := slot N (T + frameWords mail)
    data := storeAll ring.data (frameStores N T mail) }

theorem byteAt_slot (N T j : ℕ) (ring : Ring) :
    ring.byteAt ((slot N T + j) % (4 * N)) =
      wordByte (ring.data (slot N (T + j / 4))) (j % 4) := by
  have hmod : (slot N T + j) % (4 * N) = slot N (T + j / 4) + j % 4 := by
    have hsplit : slot N T + j = 4 * (T % N + j / 4) + j % 4 := by
      unfold slot
      omega
    by_cases hN : N = 0
    · subst hN
      unfold slot
      simp only [Nat.mul_zero, Nat.mod_zero]
      omega
    · have hlt := slot_lt (Nat.pos_of_ne_zero hN) (T + j / 4)
      have hword : 4 * (T % N + j / 4) % (4 * N) = slot N (T + j / 4) := by
        rw [Nat.mul_mod_mul_left, Nat.mod_add_mod]
        rfl
      have hlow : slot N (T + j / 4) + j % 4 < 4 * N := by
        unfold slot at hlt ⊢
        omega
      rw [hsplit, Nat.add_mod, hword, Nat.mod_eq_of_lt (a := j % 4) (by omega),
        Nat.mod_eq_of_lt hlow]
  have hfloor : (slot N (T + j / 4) + j % 4) / 4 * 4 = slot N (T + j / 4) := by
    unfold slot
    omega
  have hbyte : (slot N (T + j / 4) + j % 4) % 4 = j % 4 := by
    unfold slot
    omega
  unfold Ring.byteAt
  rw [hmod, hfloor, hbyte]

section SentBytes

variable {N T : ℕ} {mail : Al5Mail} (ring : Ring)

theorem after_data_of_mem
    {store : ℕ × Word} (hfit : frameWords mail ≤ N)
    (hmem : store ∈ frameStores N T mail) :
    (ring.after N T mail).data store.1 = store.2 :=
  storeAll_of_mem (frameStores_pairwise hfit) hmem

/-- The header of the mail lies at the old tail. -/
theorem byteAt_after_header
    (hfit : frameWords mail ≤ N) {j : ℕ} (hj : j < 4) :
    (ring.after N T mail).byteAt ((slot N T + j) % (4 * N)) =
      byteAt (serializeHeader mail.msgUid mail.bodySize) j := by
  have hword := after_data_of_mem ring (T := T) hfit List.mem_cons_self
  rw [byteAt_slot, Nat.div_eq_of_lt hj, Nat.mod_eq_of_lt hj]
  dsimp only at hword
  rw [Nat.add_zero, hword]
  exact wordAt_serializeHeader_byte _ _ hj

/-- The complete words of the body follow. -/
theorem byteAt_after_body
    (hfit : frameWords mail ≤ N) {j : ℕ} (hj : j < al5MailGetSize mail / 4 * 4) :
    (ring.after N T mail).byteAt ((slot N T + (4 + j)) % (4 * N)) =
      byteAt mail.body j := by
  have hmem : (slot N (T + 1 + j / 4), wordAt mail.body (4 * (j / 4))) ∈
      frameStores N T mail := by
    apply List.mem_cons_of_mem
    unfold storesAt
    rw [List.mem_map]
    exact ⟨j / 4, List.mem_range.mpr (by omega), rfl⟩
  have hword := after_data_of_mem ring hfit hmem
  have hpos : T + (4 + j) / 4 = T + 1 + j / 4 := by omega
  have hbyte : (4 + j) % 4 = j % 4 := by omega
  have hindex : 4 * (j / 4) + j % 4 = j := by omega
  rw [byteAt_slot, hpos, hbyte]
  dsimp only at hword
  rw [hword, wordByte_wordAt _ _ (by omega), hindex]

/-- The bytes behind the last complete word are those of the old ring. -/
theorem byteAt_after_rest
    (hfit : frameWords mail ≤ N) {j : ℕ} (hlow : al5MailGetSize mail / 4 * 4 ≤ j)
    (hhigh : j < al5MailGetSize mail) :
    (ring.after N T mail).byteAt ((slot N T + (4 + j)) % (4 * N)) =
      ring.byteAt ((slot N T + (4 + j)) % (4 * N)) := by
  have hkeep : (ring.after N T mail).data (slot N (T + (4 + j) / 4)) =
      ring.data (slot N (T + (4 + j) / 4)) := by
    apply storeAll_of_not_mem
    intro store hmem
    obtain ⟨k, hk⟩ := List.mem_iff_getElem?.mp hmem
    obtain ⟨hoffset, _⟩ := frameStores_getElem? hk
    have hlength := (List.getElem?_eq_some_iff.mp hk).1
    unfold frameStores storesAt at hlength
    simp only [List.length_cons, List.length_map, List.length_range] at hlength
    unfold frameWords at hfit
    rw [hoffset]
    exact slot_ne (by omega) (by omega)
  rw [byteAt_slot, byteAt_slot, hkeep]

end SentBytes

/-! ## Commands arrive byte-exact -/

namespace Request

/-- `al5_check_and_send` of the mail of a request. -/
def send (size : ℕ) (kmalloc : Bool) (ring : Ring) (request : Request) :
    Except Fault (ℤ × Ring) :=
  (request.build kmalloc).map fun mail =>
    (al5CheckAndSend size mail).run Ring.access ring

/-- The header and the fields of the request, as its receiver expects them. -/
def frame (request : Request) : List Byte :=
  serializeHeader (request.mailUid.code.setWidth 16)
    (BitVec.ofNat 16 request.fields.length) ++ request.fields

/-- If the send returns 0, the bytes from the old tail on are the frame. -/
def ArrivesExact (size : ℕ) (kmalloc : Bool) (ring : Ring) (request : Request) :
    Prop :=
  ∀ outcome ∈ (request.send size kmalloc ring).toOption, outcome.1 = 0 →
    ∀ j < request.frame.length,
      outcome.2.byteAt ((ring.tail + j) % size) = VcuDriver.byteAt request.frame j

/-- The bytes of the body which no word copy moves are on the ring already. -/
def RestOnRing (size : ℕ) (ring : Ring) (request : Request) : Prop :=
  ∀ j < request.fields.length, request.fields.length / 4 * 4 ≤ j →
    ring.byteAt ((ring.tail + (4 + j)) % size) = VcuDriver.byteAt request.fields j

theorem mail_size {request : Request} (hsizes : request.SizesFit) :
    al5MailGetSize request.mail = request.fields.length :=
  (mail_complete hsizes).symm

theorem frame_eq {request : Request} (hsizes : request.SizesFit) :
    request.frame =
      serializeHeader request.mail.msgUid request.mail.bodySize ++
        request.fields := by
  have hsize : request.mail.bodySize = BitVec.ofNat 16 request.fields.length := by
    rw [← mail_size hsizes]
    simp [al5MailGetSize]
  rw [frame, hsize]
  rfl

/-- After an accepted send the ring holds the frame exactly when it already
held the bytes behind the last complete word. -/
theorem after_holds_frame_iff
    {N T : ℕ} {ring : Ring} {request : Request} (hsizes : request.SizesFit)
    (hfit : frameWords request.mail ≤ N) (htail : ring.tail = slot N T) :
    (∀ j < request.frame.length,
      (ring.after N T request.mail).byteAt ((ring.tail + j) % (4 * N)) =
        VcuDriver.byteAt request.frame j) ↔ request.RestOnRing (4 * N) ring := by
  have hsize := mail_size hsizes
  have hheaderLength : (serializeHeader request.mail.msgUid
      request.mail.bodySize).length = 4 := rfl
  have hlength : request.frame.length = 4 + request.fields.length := by
    rw [frame_eq hsizes, List.length_append, hheaderLength]
  have hframe : ∀ j, VcuDriver.byteAt request.frame (4 + j) =
      VcuDriver.byteAt request.fields j := by
    intro j
    rw [frame_eq hsizes]
    exact byteAt_append_right _ _ j
  constructor
  · intro hholds j hj hrest
    have hbyte := hholds (4 + j) (by omega)
    rw [htail, byteAt_after_rest ring hfit (by omega) (by omega), hframe] at hbyte
    rw [htail, hbyte]
  · intro hrest j hj
    rcases Nat.lt_or_ge j 4 with hheader | hbody
    · rw [htail, byteAt_after_header ring hfit hheader, frame_eq hsizes,
        byteAt_append_left _ _ hheader]
    · obtain ⟨k, rfl⟩ := Nat.exists_eq_add_of_le hbody
      rw [hframe, htail]
      by_cases hword : k < al5MailGetSize request.mail / 4 * 4
      · exact byteAt_after_body ring hfit hword
      · rw [byteAt_after_rest ring hfit (by omega) (by omega), ← htail]
        exact hrest k (by omega) (by omega)

theorem send_eq
    {N H T : ℕ} {ring : Ring} {request : Request} (hsizes : request.SizesFit)
    (hring : 4 * N ≤ 65532) (hhead : ring.head = slot N H)
    (htail : ring.tail = slot N T) (hHT : H ≤ T) (hwindow : T < H + N) :
    request.send (4 * N) true ring =
      .ok (if H + N < T + frameWords request.mail + 1 then (-EAGAIN, ring)
        else (0, ring.after N T request.mail)) := by
  unfold send
  rw [build_mail hsizes, Except.map,
    run_al5CheckAndSend _ hring hhead htail hHT hwindow]
  rfl

/-- A command arrives byte-exact exactly when it is not sent at all, or when
its length leaves no bytes behind the last complete word but those which the
ring holds already. -/
theorem arrivesExact_iff
    {size : ℕ} (haligned : size % 4 = 0) (hhigh : size ≤ 65532)
    {ring : Ring} (hvalid : ring.Valid size)
    {request : Request} (hsizes : request.SizesFit) (kmalloc : Bool) :
    request.ArrivesExact size kmalloc ring ↔
      kmalloc = false ∨
        size ≤ ring.used size + frameSize request.mail ∨
          request.RestOnRing size ring := by
  obtain ⟨N, rfl⟩ : ∃ N, size = 4 * N := ⟨size / 4, by omega⟩
  obtain ⟨H, T, hhead, htail, hHT, hwindow, hused⟩ := hvalid.positions
  cases kmalloc with
  | false =>
      refine iff_of_true ?_ (.inl rfl)
      intro outcome houtcome hzero
      unfold send at houtcome
      cases hbuild : request.build false with
      | error fault =>
          rw [hbuild] at houtcome
          exact absurd houtcome (by simp [Except.map, Except.toOption])
      | ok result =>
          obtain ⟨_, rfl⟩ := checksNull_of_build hbuild
          rw [hbuild] at houtcome
          have hrefused : (-ENOMEM, ring) = outcome := Option.some.inj houtcome
          rw [← hrefused] at hzero
          exact absurd hzero (show -ENOMEM ≠ 0 from by decide)
  | true =>
      have hsend := send_eq hsizes hhigh hhead htail hHT hwindow
      unfold frameSize
      by_cases hfull : H + N < T + frameWords request.mail + 1
      · rw [if_pos hfull] at hsend
        refine iff_of_true ?_ (.inr (.inl (by omega)))
        intro outcome houtcome hzero
        rw [hsend] at houtcome
        have hrefused : (-EAGAIN, ring) = outcome := Option.some.inj houtcome
        rw [← hrefused] at hzero
        exact absurd hzero (show -EAGAIN ≠ 0 from by decide)
      · rw [if_neg hfull] at hsend
        have hholds := after_holds_frame_iff hsizes
          (show frameWords request.mail ≤ N from by omega) htail
        constructor
        · intro hexact
          have hmem : (0, ring.after N T request.mail) ∈
              (request.send (4 * N) true ring).toOption := by
            rw [hsend]
            rfl
          exact .inr (.inr (hholds.mp (hexact _ hmem rfl)))
        · rintro (hfalse | hnoRoom | hrest) outcome houtcome _
          · exact absurd hfalse (by decide)
          · omega
          · rw [hsend] at houtcome
            have haccepted : (0, ring.after N T request.mail) = outcome :=
              Option.some.inj houtcome
            rw [← haccepted]
            exact hholds.mpr hrest

/-- A create request of one parameter word arrives on an empty ring. -/
theorem arrivesExact_one_word :
    (decoderCreateChannel 3
      ⟨4, List.replicate 512 0xab, List.length_replicate⟩).ArrivesExact 64 true
        ⟨0, 0, fun _ => 0⟩ := by
  have hlength : (decoderCreateChannel 3
      ⟨4, List.replicate 512 0xab, List.length_replicate⟩).fields.length = 8 := by
    decide +kernel
  have hiff := arrivesExact_iff (by decide) (by decide)
    (⟨rfl, by decide, rfl, by decide⟩ : (⟨0, 0, fun _ => 0⟩ : Ring).Valid 64)
    (show (decoderCreateChannel 3 ⟨4, List.replicate 512 0xab,
      List.length_replicate⟩).SizesFit from by decide) true
  refine hiff.mpr (.inr (.inr ?_))
  intro j hj hrest
  omega

/-- An encode request of one parameter byte. -/
def encodeOneByte : Request :=
  .encodeOneFrame 0 {
    params := ⟨1, List.replicate 512 0xab, List.length_replicate⟩
    addresses := ⟨0, List.replicate 512 0, List.length_replicate⟩ }

/-- On the zeroed ring of the driver the byte of that request does not arrive. -/
theorem not_arrivesExact_encodeOneByte :
    ¬ ∀ (ring : Ring) (request : Request), ring.Valid 2040 → request.SizesFit →
      request.ArrivesExact 2040 true ring := by
  intro hall
  have hvalid : (⟨0, 0, fun _ => 0⟩ : Ring).Valid 2040 :=
    ⟨rfl, by decide, rfl, by decide⟩
  have hsizes : encodeOneByte.SizesFit := by decide
  have hwords : frameWords encodeOneByte.mail = 4 := by decide +kernel
  have hlength : encodeOneByte.fields.length = 9 := by decide +kernel
  have hbyte : VcuDriver.byteAt encodeOneByte.fields 8 = 0xab := by
    decide +kernel
  have hsend : encodeOneByte.send (4 * 510) true ⟨0, 0, fun _ => 0⟩ =
      .ok (if 0 + 510 < 0 + frameWords encodeOneByte.mail + 1 then
          (-EAGAIN, ⟨0, 0, fun _ => 0⟩)
        else (0, Ring.after 510 0 encodeOneByte.mail ⟨0, 0, fun _ => 0⟩)) :=
    send_eq hsizes (by decide) rfl rfl le_rfl (by decide)
  rw [hwords, if_neg (by decide)] at hsend
  have hframe := hall _ encodeOneByte hvalid hsizes
    (0, Ring.after 510 0 encodeOneByte.mail ⟨0, 0, fun _ => 0⟩)
    (by rw [hsend]; rfl) rfl
  have hrest := (after_holds_frame_iff hsizes (by rw [hwords]; decide) rfl).mp
    hframe 8 (by rw [hlength]; decide) (by rw [hlength])
  rw [hbyte] at hrest
  exact absurd hrest (by decide)

end Request

end VcuDriver

import VcuDriver.MailboxSpace

/-!
# The mails on a ring at rest

`Ring.Holds` reads a ring as the list of the mails between head and tail: their
frames follow each other from the head on.  A write appends a mail to this list, a
read takes the first one away, and the ring is empty exactly when head and tail are
equal.
-/

namespace VcuDriver

open Conc

def mailsWords (mails : List Al5Mail) : ℕ :=
  (mails.map frameWords).sum

def FramesStored (N : ℕ) : ℕ → List Al5Mail → (ℕ → Word) → Prop
  | _, [], _ => True
  | position, mail :: mails, data =>
      (∀ store ∈ frameStores N position mail, data store.1 = store.2) ∧
        FramesStored N (position + frameWords mail) mails data

/-- The ring holds these mails and no others; the head is at word `H`. -/
structure Ring.Holds (N H : ℕ) (mails : List Al5Mail) (ring : Ring) : Prop where
  head : ring.head = slot N H
  tail : ring.tail = slot N (H + mailsWords mails)
  room : mailsWords mails < N
  stored : FramesStored N H mails ring.data
  complete : ∀ mail ∈ mails, mail.Complete

section

variable {N H : ℕ} {mails : List Al5Mail} {ring : Ring}

theorem mailsWords_cons (mail : Al5Mail) (mails : List Al5Mail) :
    mailsWords (mail :: mails) = frameWords mail + mailsWords mails := by
  simp [mailsWords]

theorem mailsWords_append (mails mails' : List Al5Mail) :
    mailsWords (mails ++ mails') = mailsWords mails + mailsWords mails' := by
  simp [mailsWords]

theorem length_le_mailsWords (mails : List Al5Mail) : mails.length ≤ mailsWords mails := by
  induction mails with
  | nil => exact Nat.zero_le _
  | cons mail mails ih =>
      have hpos := frameWords_pos mail
      rw [mailsWords_cons, List.length_cons]
      omega

theorem framesStored_append {position : ℕ} {mails' : List Al5Mail} {data : ℕ → Word} :
    FramesStored N position (mails ++ mails') data ↔
      FramesStored N position mails data ∧
        FramesStored N (position + mailsWords mails) mails' data := by
  induction mails generalizing position with
  | nil => exact (true_and _).symm.to_iff
  | cons mail mails ih =>
      simp only [List.cons_append, FramesStored, mailsWords_cons, ih, and_assoc,
        Nat.add_assoc]

/-- The frames stay stored when their slots are left alone. -/
theorem FramesStored.congr {position : ℕ} {data data' : ℕ → Word}
    (hstored : FramesStored N position mails data)
    (hsame : ∀ j < mailsWords mails,
      data' (slot N (position + j)) = data (slot N (position + j))) :
    FramesStored N position mails data' := by
  induction mails generalizing position with
  | nil => exact trivial
  | cons mail mails ih =>
      rw [mailsWords_cons] at hsame
      refine ⟨?_, ih hstored.2 ?_⟩
      · intro store hmem
        obtain ⟨j, hj, hoffset⟩ := frameStores_offset hmem
        have hword := hstored.1 store hmem
        rw [hoffset] at hword ⊢
        rw [hsame j (by omega), hword]
      · intro j hj
        rw [Nat.add_assoc]
        exact hsame (frameWords mail + j) (by omega)

/-- An accepted mail is the last one on the ring. -/
theorem Ring.Holds.append (hholds : ring.Holds N H mails) (mail : Al5Mail)
    (hcomplete : mail.Complete) (hroom : mailsWords mails + frameWords mail < N) :
    (ring.after N (H + mailsWords mails) mail).Holds N H (mails ++ [mail]) where
  head := hholds.head
  tail := by
    rw [mailsWords_append, mailsWords_cons, Ring.after, Nat.add_assoc]
    rfl
  room := by
    rw [mailsWords_append, mailsWords_cons]
    exact hroom
  stored := by
    rw [framesStored_append]
    refine ⟨hholds.stored.congr ?_, ?_, trivial⟩
    · intro j hj
      apply storeAll_of_not_mem
      intro store hmem
      obtain ⟨k, hk, hoffset⟩ := frameStores_offset hmem
      rw [hoffset]
      exact (slot_ne (by omega) (by omega)).symm
    · intro store hmem
      exact after_data_of_mem ring (by omega) hmem
  complete := by
    intro mail' hmem
    rcases List.mem_append.mp hmem with hmem | hmem
    · exact hholds.complete mail' hmem
    · exact List.mem_singleton.mp hmem ▸ hcomplete

/-- A mail which `al5_mailbox_write` accepts is the last one on the ring. -/
theorem Ring.Holds.run_al5MailboxWrite (hring : 4 * N ≤ 65532)
    (hholds : ring.Holds N H mails) {mail : Al5Mail} (hcomplete : mail.Complete)
    (haccepted : ((al5MailboxWrite (4 * N) mail).run Ring.access ring).1 = 0) :
    ((al5MailboxWrite (4 * N) mail).run Ring.access ring).2.Holds N H (mails ++ [mail]) := by
  have hroom := hholds.room
  rw [VcuDriver.run_al5MailboxWrite mail hring hholds.head hholds.tail (by omega)
    (by omega)] at haccepted ⊢
  by_cases hfull : H + N < H + mailsWords mails + frameWords mail + 1
  · rw [if_pos hfull] at haccepted
    exact absurd haccepted (show -EAGAIN ≠ 0 from by decide)
  · rw [if_neg hfull]
    exact hholds.append mail hcomplete (by omega)

/-- Head and tail are equal exactly when there is no mail between them. -/
theorem Ring.Holds.head_eq_tail_iff (hholds : ring.Holds N H mails) :
    ring.head = ring.tail ↔ mails = [] := by
  have hroom := hholds.room
  have hlength := length_le_mailsWords mails
  rw [hholds.head, hholds.tail, slot_eq_iff (by omega) (by omega), ← List.length_eq_zero_iff]
  constructor
  · intro heq
    omega
  · intro hnil
    rw [List.length_eq_zero_iff.mp hnil]
    rfl

/-! ## Reading a mail -/

theorem run_loadWords (offsets : List ℕ) (ring : Ring) :
    (loadWords offsets).run Ring.access ring = (offsets.map ring.data, ring) := by
  induction offsets with
  | nil => rfl
  | cons offset offsets ih =>
      rw [loadWords, Prog.run_act, Prog.run_bind]
      dsimp only [Ring.access]
      rw [ih]
      rfl

/-- A read loads the words that were stored and passes them. -/
theorem run_readDataAt (ring : Ring) {size position : ℕ} (stores : List (ℕ × Word))
    (hN : 0 < N) (hring : 4 * N ≤ 65532) (hsize : size ≤ 4 * N)
    (hslots : stores.map Prod.fst = slots N position (size / 4))
    (hstored : ∀ store ∈ stores, ring.data store.1 = store.2) :
    (readDataAt (4 * N) size (slot N position)).run Ring.access ring =
      (pokeWords (List.replicate size 0) 0 (stores.map Prod.snd),
        { ring with head := slot N (position + (size + 3) / 4) }) := by
  have hwords : (stores.map Prod.fst).map ring.data = stores.map Prod.snd := by
    rw [List.map_map]
    exact List.map_congr_left hstored
  rw [readDataAt_eq hN hring hsize, Prog.run_bind, run_loadWords, ← hslots, hwords]
  rfl

/-- `al5_mailbox_read` returns the first mail of the ring and leaves the others. -/
theorem Ring.Holds.run_al5MailboxRead {mail : Al5Mail} (hring : 4 * N ≤ 65532)
    (hholds : ring.Holds N H (mail :: mails)) :
    SameMail mail ((al5MailboxRead (4 * N)).run Ring.access ring).1 ∧
      ((al5MailboxRead (4 * N)).run Ring.access ring).2.Holds N (H + frameWords mail)
        mails := by
  have hroom := hholds.room
  have hpos := frameWords_pos mail
  rw [mailsWords_cons] at hroom
  have hN : 0 < N := by omega
  have hheaderSize : headerSize ≤ 4 * N := by
    unfold headerSize
    omega
  have hbodySize : al5MailGetSize mail ≤ 4 * N := by
    unfold frameWords at hroom
    omega
  -- The header is one word; it carries the size with which the body is read.
  have hheader := run_readDataAt ring [(slot N H, headerWord mail)] hN hring hheaderSize
    (show _ = slots N H (headerSize / 4) from rfl)
    fun store hmem => hholds.stored.1 store (List.mem_singleton.mp hmem ▸ List.mem_cons_self)
  have hbody := run_readDataAt { ring with head := slot N (H + (headerSize + 3) / 4) }
    (storesAt N (H + 1) mail.body (al5MailGetSize mail / 4)) hN hring hbodySize
    (storesAt_fst N (H + 1) mail.body _)
    fun store hmem => hholds.stored.1 store (List.mem_cons_of_mem _ hmem)
  have hsize : (unserializeBodySize (pokeWords (List.replicate headerSize 0) 0
      ([(slot N H, headerWord mail)].map Prod.snd))).toNat = al5MailGetSize mail :=
    congrArg BitVec.toNat (readHeader_eq mail).2
  have hrun : (al5MailboxRead (4 * N)).run Ring.access ring =
      (⟨unserializeMsgUid (pokeWords (List.replicate headerSize 0) 0 [headerWord mail]),
        unserializeBodySize (pokeWords (List.replicate headerSize 0) 0 [headerWord mail]),
        al5MailGetSize mail,
        pokeWords (List.replicate (al5MailGetSize mail) 0) 0
          ((storesAt N (H + 1) mail.body (al5MailGetSize mail / 4)).map Prod.snd)⟩,
        { ring with head := slot N (H + 1 + (al5MailGetSize mail + 3) / 4) }) := by
    rw [al5MailboxRead_eq, Ring.run_readHead, hholds.head, Prog.run_bind, hheader]
    dsimp only
    rw [Ring.run_readHead, Prog.run_bind, hsize]
    dsimp only
    rw [show H + (headerSize + 3) / 4 = H + 1 from rfl] at hbody ⊢
    rw [hbody]
    rfl
  rw [hrun]
  refine ⟨sameMail_of_words (hholds.complete mail List.mem_cons_self) rfl
    (storesAt_snd N (H + 1) _ _), ?_⟩
  exact {
    head := by
      unfold frameWords
      rw [Nat.add_assoc]
    tail := by
      rw [Nat.add_assoc H (frameWords mail), ← mailsWords_cons]
      exact hholds.tail
    room := by omega
    stored := hholds.stored.2
    complete := fun mail' hmem => hholds.complete mail' (List.mem_cons_of_mem _ hmem) }

end

end VcuDriver

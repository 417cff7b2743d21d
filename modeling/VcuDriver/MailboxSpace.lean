import VcuDriver.MailboxSend

/-!
# The space on the ring

`al5_mailbox_write` counts the bytes in use, compares them with the size of a
frame, and advances the tail in two steps.  The counts are exact: the frame is
rounded up to words, one word stays free, and no computation on the way leaves the
range of its type.

The last point is stated by a second version of the arithmetic, in which every
result is checked against its type.
-/

namespace VcuDriver

open Conc

/-! ## Arithmetic with checks -/

/-- The arithmetic in which a result that does not fit its type, or a negative difference,
is an error. -/
def checked : Unsigned Option where
  fit bits n := if n < 2 ^ bits then some n else none
  minus a b := if b ≤ a then some (a - b) else none

theorem fit_eq {bits n : ℕ} (hn : n < 2 ^ bits) : checked.fit bits n = some n :=
  if_pos hn

theorem minus_eq {a b : ℕ} (hba : b ≤ a) : checked.minus a b = some (a - b) :=
  if_pos hba

/-- The arithmetic of `write_data`: the new local tail. -/
def writeDataChecked (mailboxSize localTail size : ℕ) : Option ℕ := do
  let wraps ← wrapTest checked mailboxSize localTail size
  let (size, tailValue) ←
    if wraps then do
      let (_, size) ← untilWrap checked mailboxSize size localTail
      pure (size, 0)
    else
      pure (size, localTail)
  let tailValue ← advanced checked mailboxSize tailValue size
  checked.fit 16 tailValue

/-- The arithmetic of `al5_mailbox_write`: the new tail, or none when the mail is
refused. -/
def mailboxWriteChecked (mailboxSize headValue tailValue mailSize : ℕ) :
    Option (Option ℕ) := do
  let totalSize ← checked.fit 64 (mailSize + headerSize)
  let usedSize ← usedBytes checked mailboxSize headValue tailValue
  if ← spaceTest checked mailboxSize usedSize totalSize then
    pure none
  else do
    let _ ← checked.fit 16 mailSize
    let localTail ← checked.fit 16 tailValue
    let localTail ← writeDataChecked mailboxSize localTail headerSize
    let localTail ← writeDataChecked mailboxSize localTail mailSize
    pure (some localTail)

theorem wrapTest_checked
    {mailboxSize value dataSize : ℕ} (hfits : value + dataSize < 2 ^ 64) :
    wrapTest checked mailboxSize value dataSize =
      some (decide (value + dataSize > mailboxSize)) := by
  unfold wrapTest
  rw [fit_eq hfits]
  rfl

theorem untilWrap_checked
    {mailboxSize memcpySize value : ℕ} (hvalue : value ≤ mailboxSize)
    (hsize : mailboxSize - value ≤ memcpySize) :
    untilWrap checked mailboxSize memcpySize value =
      some (mailboxSize - value, memcpySize - (mailboxSize - value)) := by
  unfold untilWrap
  rw [minus_eq hvalue]
  simp only [Option.bind_eq_bind, Option.bind_some]
  rw [minus_eq hsize]
  rfl

theorem advanced_checked
    {mailboxSize value size : ℕ} (hfits : value + size + 3 < 2 ^ 64)
    (hresult : (value + size + 3) / 4 * 4 % mailboxSize < 2 ^ 32) :
    advanced checked mailboxSize value size =
      some ((value + size + 3) / 4 * 4 % mailboxSize) := by
  unfold advanced
  rw [fit_eq hfits]
  simp only [Option.bind_eq_bind, Option.bind_some]
  exact fit_eq hresult

theorem spaceTest_checked
    {mailboxSize usedSize dataSize : ℕ} (hfits : dataSize + 4 < 2 ^ 64)
    (hused : usedSize ≤ mailboxSize) :
    spaceTest checked mailboxSize usedSize dataSize =
      some (decide (dataSize + 4 > mailboxSize - usedSize)) := by
  unfold spaceTest
  rw [fit_eq hfits]
  simp only [Option.bind_eq_bind, Option.bind_some]
  rw [minus_eq hused]
  rfl

/-- The advance of `write_data` stays in range. -/
theorem writeDataChecked_slot
    {N T size : ℕ} (hN : 0 < N) (hring : 4 * N ≤ 65532) (hsize : size ≤ 4 * N) :
    writeDataChecked (4 * N) (slot N T) size = some (slot N (T + (size + 3) / 4)) := by
  have hslot := slot_lt hN T
  have hlast := slot_lt hN (T + (size + 3) / 4)
  have hround : (slot N T + size + 3) / 4 * 4 % (4 * N) = slot N (T + (size + 3) / 4) := by
    have hsum : (slot N T + size + 3) / 4 * 4 = 4 * (T % N + (size + 3) / 4) := by
      unfold slot
      omega
    rw [hsum, Nat.mul_mod_mul_left, Nat.mod_add_mod]
    rfl
  unfold writeDataChecked
  rw [wrapTest_checked (by omega)]
  simp only [Option.bind_eq_bind, Option.bind_some]
  by_cases hwrap : slot N T + size > 4 * N
  · -- The second part starts at offset 0; the whole advance is the same modulo the ring.
    have hspace : 4 * N - slot N T ≤ size := by omega
    have hrest : (0 + (size - (4 * N - slot N T)) + 3) / 4 * 4 % (4 * N) =
        slot N (T + (size + 3) / 4) := by
      obtain ⟨rest, hrest⟩ : ∃ rest, size = 4 * N - slot N T + rest :=
        ⟨size - (4 * N - slot N T), by omega⟩
      have hleft : 0 + (size - (4 * N - slot N T)) + 3 = rest + 3 := by omega
      have hright : slot N T + size + 3 = rest + 3 + 4 * N := by omega
      have hsum : (rest + 3 + 4 * N) / 4 * 4 = (rest + 3) / 4 * 4 + 4 * N := by omega
      rw [← hround, hleft, hright, hsum, Nat.add_mod_right]
    rw [if_pos (decide_eq_true hwrap), untilWrap_checked hslot.le hspace]
    simp only [Option.bind_some, Option.pure_def]
    rw [advanced_checked (by omega) (by omega), hrest]
    simp only [Option.bind_some]
    exact fit_eq (by omega)
  · rw [if_neg (by rw [decide_eq_false hwrap]; exact Bool.false_ne_true)]
    simp only [Option.bind_some, Option.pure_def]
    rw [advanced_checked (by omega) (by omega), hround]
    simp only [Option.bind_some]
    exact fit_eq (by omega)

/-- The count of the bytes in use stays in range and is the distance from head to
tail. -/
theorem usedBytes_checked_slot
    {N H T : ℕ} (hring : 4 * N ≤ 65532) (hHT : H ≤ T) (hwindow : T < H + N) :
    usedBytes checked (4 * N) (slot N H) (slot N T) = some (4 * (T - H)) := by
  have hN : 0 < N := by omega
  have hslotH := slot_lt hN H
  have hslotT := slot_lt hN T
  have hdist := mod_distance hHT hwindow
  unfold usedBytes
  by_cases hge : slot N T ≥ slot N H
  · rw [if_pos hge]
    unfold slot at hge ⊢
    exact congrArg some (by omega)
  · rw [if_neg hge, fit_eq (by omega)]
    simp only [Option.bind_eq_bind, Option.bind_some]
    rw [minus_eq (by omega)]
    unfold slot at hge ⊢
    congr 1
    omega

theorem mailboxWriteChecked_slot
    {N H T : ℕ} (mail : Al5Mail) (hring : 4 * N ≤ 65532) (hHT : H ≤ T)
    (hwindow : T < H + N) :
    mailboxWriteChecked (4 * N) (slot N H) (slot N T) (al5MailGetSize mail) =
      some (if H + N < T + frameWords mail + 1 then none
        else some (slot N (T + frameWords mail))) := by
  have hN : 0 < N := by omega
  have hsize := al5MailGetSize_le mail
  have hslotH := slot_lt hN H
  have hslotT := slot_lt hN T
  have hdist := mod_distance hHT hwindow
  have hused := usedBytes_checked_slot hring hHT hwindow
  unfold mailboxWriteChecked
  rw [fit_eq (show al5MailGetSize mail + headerSize < 2 ^ 64 from by
    unfold headerSize; omega)]
  simp only [Option.bind_eq_bind, Option.bind_some]
  rw [hused]
  simp only [Option.bind_some]
  rw [spaceTest_checked (by unfold headerSize; omega) (by omega)]
  simp only [Option.bind_some, decide_eq_true_eq]
  have htest : al5MailGetSize mail + headerSize + 4 > 4 * N - 4 * (T - H) ↔
      H + N < T + frameWords mail + 1 := by
    unfold headerSize frameWords
    omega
  by_cases hfull : H + N < T + frameWords mail + 1
  · rw [if_pos (htest.mpr hfull), if_pos hfull]
    rfl
  · have hfit : al5MailGetSize mail ≤ 4 * N := by
      unfold frameWords at hfull
      omega
    have hheader : headerSize ≤ 4 * N := by
      unfold headerSize
      omega
    rw [if_neg fun htoo => hfull (htest.mp htoo), if_neg hfull, fit_eq (by omega),
      fit_eq (by omega)]
    simp only [Option.bind_some]
    rw [writeDataChecked_slot hN hring hheader]
    simp only [Option.bind_some]
    rw [show T + (headerSize + 3) / 4 = T + 1 from rfl,
      writeDataChecked_slot hN hring hfit]
    unfold frameWords
    simp only [Option.bind_some, Option.pure_def, Nat.add_assoc T 1]

/-! ## The write -/

/-- `al5_mailbox_write` refuses a mail that would fill the ring; otherwise it
stores the frame behind the tail and moves the tail past it. -/
theorem run_al5MailboxWrite
    {N H T : ℕ} {ring : Ring} (mail : Al5Mail) (hring : 4 * N ≤ 65532)
    (hhead : ring.head = slot N H) (htail : ring.tail = slot N T)
    (hHT : H ≤ T) (hwindow : T < H + N) :
    (al5MailboxWrite (4 * N) mail).run Ring.access ring =
      if H + N < T + frameWords mail + 1 then (-EAGAIN, ring)
      else (0, ring.after N T mail) := by
  have htest := notEnoughSpace_iff mail hring hHT hwindow
  rw [← hhead, ← htail] at htest
  rw [al5MailboxWrite_eq, Ring.run_readHead, Ring.run_readTail, htest]
  by_cases hfull : H + N < T + frameWords mail + 1
  · rw [decide_eq_true hfull, if_pos hfull]
    rfl
  · have hslot := slot_lt (show 0 < N from by omega) T
    rw [decide_eq_false hfull, if_neg hfull]
    simp only [Bool.false_eq_true, if_false]
    rw [Ring.run_readTail, htail, u16_eq (by omega), writeMail_eq _ hring (by omega),
      Prog.run_bind, run_storeWords]
    rfl

/-- The bytes in use: the distance from head to tail modulo the size. -/
def spaceUsed (size : ℕ) (ring : Ring) : ℕ :=
  (ring.tail + size - ring.head) % size

theorem spaceUsed_slot
    {N H T : ℕ} {ring : Ring} (hhead : ring.head = slot N H)
    (htail : ring.tail = slot N T) (hHT : H ≤ T) (hwindow : T < H + N) :
    spaceUsed (4 * N) ring = 4 * (T - H) := by
  have hN : 0 < N := by omega
  have hslotH := slot_lt hN H
  have hslotT := slot_lt hN T
  unfold spaceUsed
  rw [hhead, htail]
  rcases mod_distance hHT hwindow with ⟨heq, _⟩ | ⟨heq, _⟩
  · have hsum : slot N T + 4 * N - slot N H = 4 * (T - H) + 4 * N := by
      unfold slot
      omega
    rw [hsum, Nat.add_mod_right, Nat.mod_eq_of_lt (by omega)]
  · have hsum : slot N T + 4 * N - slot N H = 4 * (T - H) := by
      unfold slot
      omega
    rw [hsum, Nat.mod_eq_of_lt (by omega)]

def roundup4 (n : ℕ) : ℕ :=
  (n + 3) / 4 * 4

structure SpaceExact (size : ℕ) (ring : Ring) (mail : Al5Mail) (err : ℤ)
    (after : Ring) : Prop where
  accepts : err = 0 ↔
    spaceUsed size ring + roundup4 (4 + al5MailGetSize mail) < size
  refuses : err ≠ 0 → after = ring
  valid : after.Valid size
  used : err = 0 →
    spaceUsed size after = spaceUsed size ring + roundup4 (4 + al5MailGetSize mail)
  apart : err = 0 → after.tail ≠ after.head
  inRange : mailboxWriteChecked size ring.head ring.tail (al5MailGetSize mail) =
    some (if err = 0 then some after.tail else none)

theorem valid_of_slots
    {N H T : ℕ} {ring : Ring} (hN : 0 < N) (hhead : ring.head = slot N H)
    (htail : ring.tail = slot N T) : ring.Valid (4 * N) := by
  have hslotH := slot_lt hN H
  have hslotT := slot_lt hN T
  refine ⟨?_, by omega, ?_, by omega⟩
  · rw [hhead]
    unfold slot
    omega
  · rw [htail]
    unfold slot
    omega

/-- For every ring at rest and every mail, the space on the ring is accounted
exactly. -/
theorem mailboxWrite_spaceExact
    (size : ℕ) (haligned : size % 4 = 0) (hlow : 8 ≤ size) (hhigh : size ≤ 65532)
    (ring : Ring) (hvalid : ring.Valid size) (mail : Al5Mail) :
    SpaceExact size ring mail
      ((al5MailboxWrite size mail).run Ring.access ring).1
      ((al5MailboxWrite size mail).run Ring.access ring).2 := by
  obtain ⟨N, rfl⟩ : ∃ N, size = 4 * N := ⟨size / 4, by omega⟩
  have hN : 0 < N := by omega
  obtain ⟨H, T, hhead, htail, hHT, hwindow, _⟩ := hvalid.positions
  have hused := spaceUsed_slot hhead htail hHT hwindow
  have hframe : roundup4 (4 + al5MailGetSize mail) = 4 * frameWords mail := by
    unfold roundup4 frameWords
    omega
  have hchecked := mailboxWriteChecked_slot mail hhigh hHT hwindow
  rw [← hhead, ← htail] at hchecked
  rw [run_al5MailboxWrite mail hhigh hhead htail hHT hwindow]
  by_cases hfull : H + N < T + frameWords mail + 1
  · have herr : (-EAGAIN : ℤ) ≠ 0 := by decide
    rw [if_pos hfull] at hchecked ⊢
    exact {
      accepts := by
        rw [hused, hframe]
        exact iff_of_false herr (by omega)
      refuses := fun _ => rfl
      valid := hvalid
      used := fun hzero => absurd hzero herr
      apart := fun hzero => absurd hzero herr
      inRange := by rw [hchecked, if_neg herr] }
  · rw [if_neg hfull] at hchecked ⊢
    have hhead' : (ring.after N T mail).head = slot N H := hhead
    have htail' : (ring.after N T mail).tail = slot N (T + frameWords mail) := rfl
    have hused' := spaceUsed_slot hhead' htail' (by omega) (by omega)
    exact {
      accepts := by
        rw [hused, hframe]
        exact iff_of_true rfl (by omega)
      refuses := fun hne => absurd rfl hne
      valid := valid_of_slots hN hhead' htail'
      used := fun _ => by
        rw [hused', hused, hframe]
        omega
      apart := fun _ heq => by
        rw [hhead', htail', eq_comm, slot_eq_iff (by omega) (by omega)] at heq
        unfold frameWords at heq
        omega
      inRange := by rw [hchecked, if_pos rfl, htail'] }

/-- The smallest ring takes a mail with no body, and is full then. -/
theorem mailboxWrite_spaceExact_empty_mail :
    ((al5MailboxWrite 8 ⟨5, 0, 0, []⟩).run Ring.access ⟨4, 4, fun _ => 0⟩).1 = 0 ∧
      SpaceExact 8 ⟨4, 4, fun _ => 0⟩ ⟨5, 0, 0, []⟩
        ((al5MailboxWrite 8 ⟨5, 0, 0, []⟩).run Ring.access ⟨4, 4, fun _ => 0⟩).1
        ((al5MailboxWrite 8 ⟨5, 0, 0, []⟩).run Ring.access ⟨4, 4, fun _ => 0⟩).2 :=
  ⟨by decide, mailboxWrite_spaceExact 8 (by decide) (by decide) (by decide)
    ⟨4, 4, fun _ => 0⟩ ⟨by decide, by decide, by decide, by decide⟩ ⟨5, 0, 0, []⟩⟩

end VcuDriver

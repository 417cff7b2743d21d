import VcuDriver.Codec
import VcuDriver.Dispatch

/-!
# The drain of the status mailbox

An interrupt calls `al5_group_read_mails`, which reads mails and dispatches them until
the mailbox is empty or a hundred mails were read.  The rest waits for the next
interrupt.
-/

namespace VcuDriver.Group

open Conc

/-- `read_mail`: the group afterwards, and the mail that was dispatched. -/
def readMail (cmdSize statusSize : ℕ) (state : McuGroup) : McuGroup × Al5Mail :=
  let received := (al5McuRecv statusSize).run Ring.access state.mcuToCpu
  ((handleMail cmdSize received.1 { state with mcuToCpu := received.2 }).1, received.1)

/-- The loop of `al5_group_read_mails`, with so many mails left to read at most: the
group afterwards, and the mails that were dispatched. -/
def readMails (cmdSize statusSize : ℕ) : ℕ → McuGroup → McuGroup × List Al5Mail
  | 0, state => (state, [])
  | left + 1, state =>
      if (al5McuIsEmpty.run Ring.access state.mcuToCpu).1 then
        (state, [])
      else
        let turn := readMail cmdSize statusSize state
        let rest := readMails cmdSize statusSize left turn.1
        (rest.1, turn.2 :: rest.2)

def al5GroupReadMails (cmdSize statusSize : ℕ) (state : McuGroup) :
    McuGroup × List Al5Mail :=
  readMails cmdSize statusSize maxMailboxMsg state

def handleMails (cmdSize : ℕ) (mails : List Al5Mail) (state : McuGroup) : McuGroup :=
  mails.foldl (fun state mail => (handleMail cmdSize mail state).1) state

section

variable {N H : ℕ} {mails : List Al5Mail} {state : McuGroup}

theorem run_al5McuIsEmpty (ring : Ring) :
    al5McuIsEmpty.run Ring.access ring = (ring.head == ring.tail, ring) := by
  rfl

theorem run_al5McuRecv (mailboxSize : ℕ) (ring : Ring) :
    (al5McuRecv mailboxSize).run Ring.access ring =
      (al5MailboxRead mailboxSize).run Ring.access ring := by
  have hbind := al5McuRecv_bind_eq mailboxSize .ret
  rw [Prog.bind_ret] at hbind
  rw [hbind, Ring.run_lock, Prog.run_bind]
  generalize (al5MailboxRead mailboxSize).run Ring.access ring = outcome
  rfl

/-- A dispatch neither reads nor writes the status mailbox. -/
theorem handleMail_mcuToCpu (cmdSize : ℕ) (mail : Al5Mail) (state : McuGroup)
    (mcuToCpu : Ring) :
    (handleMail cmdSize mail { state with mcuToCpu := mcuToCpu }).1 =
      { (handleMail cmdSize mail state).1 with mcuToCpu := mcuToCpu } := by
  -- The run of the send is named, so that nothing below has to evaluate it.
  obtain ⟨orphan, horphan⟩ : ∃ orphan, (destroyOrphanChannel cmdSize
      (al5MailGetChanUid mail)).run Ring.access state.cpuToMcu = orphan := ⟨_, rfl⟩
  unfold handleMail
  dsimp only
  rw [horphan]
  split_ifs <;> rfl

/-- The dispatch of many mails leaves the status mailbox alone. -/
theorem handleMails_mcuToCpu (cmdSize : ℕ) (mails : List Al5Mail) (state : McuGroup)
    (mcuToCpu : Ring) :
    handleMails cmdSize mails { state with mcuToCpu := mcuToCpu } =
      { handleMails cmdSize mails state with mcuToCpu := mcuToCpu } := by
  induction mails generalizing state with
  | nil => rfl
  | cons mail mails ih =>
      unfold handleMails at ih ⊢
      rw [List.foldl_cons, List.foldl_cons, handleMail_mcuToCpu cmdSize mail state mcuToCpu,
        ih]

/-! ## One call -/

/-- A call dispatches the first hundred mails in order, each with its uid, its length
and its words, and leaves the others on the ring. -/
structure Drained (N cmdSize : ℕ) (mails : List Al5Mail) (before : McuGroup)
    (outcome : McuGroup × List Al5Mail) (limit : ℕ) : Prop where
  dispatched : List.Forall₂ SameMail (mails.take limit) outcome.2
  handled : outcome.1 =
    { handleMails cmdSize outcome.2 before with mcuToCpu := outcome.1.mcuToCpu }
  remaining : ∃ H, outcome.1.mcuToCpu.Holds N H (mails.drop limit)

/-- One turn of the loop dispatches the first mail of the ring. -/
theorem readMail_spec (cmdSize : ℕ) {mail : Al5Mail} (hring : 4 * N ≤ 65532)
    (hholds : state.mcuToCpu.Holds N H (mail :: mails)) :
    SameMail mail (readMail cmdSize (4 * N) state).2 ∧
      (readMail cmdSize (4 * N) state).1.mcuToCpu.Holds N (H + frameWords mail) mails ∧
      (readMail cmdSize (4 * N) state).1 =
        { (handleMail cmdSize (readMail cmdSize (4 * N) state).2 state).1 with
          mcuToCpu := (readMail cmdSize (4 * N) state).1.mcuToCpu } := by
  obtain ⟨hsame, hrest⟩ := hholds.run_al5MailboxRead hring
  obtain ⟨received, hreceived⟩ : ∃ received,
      (al5MailboxRead (4 * N)).run Ring.access state.mcuToCpu = received := ⟨_, rfl⟩
  rw [hreceived] at hsame hrest
  have hturn : readMail cmdSize (4 * N) state =
      ({ (handleMail cmdSize received.1 state).1 with mcuToCpu := received.2 },
        received.1) := by
    have hmoved := handleMail_mcuToCpu cmdSize received.1 state received.2
    unfold readMail
    rw [run_al5McuRecv, hreceived]
    dsimp only
    rw [hmoved]
  rw [hturn]
  exact ⟨hsame, hrest, rfl⟩

theorem readMails_spec (cmdSize : ℕ) (hring : 4 * N ≤ 65532) (left : ℕ)
    (hholds : state.mcuToCpu.Holds N H mails) :
    Drained N cmdSize mails state (readMails cmdSize (4 * N) left state) left := by
  induction left generalizing H mails state with
  | zero => exact ⟨List.Forall₂.nil, rfl, H, hholds⟩
  | succ left ih =>
      have hempty := hholds.head_eq_tail_iff
      cases mails with
      | nil =>
          have heq : (state.mcuToCpu.head == state.mcuToCpu.tail) = true :=
            beq_iff_eq.mpr (hempty.mpr rfl)
          rw [readMails, run_al5McuIsEmpty, if_pos heq]
          exact ⟨List.Forall₂.nil, rfl, H, hholds⟩
      | cons mail mails =>
          have hne : ¬ (state.mcuToCpu.head == state.mcuToCpu.tail) = true := by
            rw [beq_iff_eq, hempty]
            exact List.cons_ne_nil mail mails
          rw [readMails, run_al5McuIsEmpty, if_neg hne]
          obtain ⟨hsame, hrest, hturn⟩ := readMail_spec cmdSize hring hholds
          generalize readMail cmdSize (4 * N) state = turn at hsame hrest hturn ⊢
          obtain ⟨hdispatched, hhandled, hremaining⟩ := ih hrest
          refine ⟨List.Forall₂.cons hsame hdispatched, ?_, hremaining⟩
          dsimp only
          rw [hhandled, hturn, handleMails_mcuToCpu]
          rfl

/-! ## Many calls -/

def afterInterrupts (cmdSize statusSize count : ℕ) (state : McuGroup) : McuGroup :=
  (fun state => (al5GroupReadMails cmdSize statusSize state).1)^[count] state

/-- What one call dispatches and leaves, and what is left after many. -/
structure DrainExact (N cmdSize : ℕ) (mails : List Al5Mail) (state : McuGroup) : Prop where
  first : Drained N cmdSize mails state (al5GroupReadMails cmdSize (4 * N) state) 100
  empties : (al5GroupReadMails cmdSize (4 * N) state).1.mcuToCpu.head =
      (al5GroupReadMails cmdSize (4 * N) state).1.mcuToCpu.tail ↔ mails.length ≤ 100
  left : ∀ count, ∃ H, (afterInterrupts cmdSize (4 * N) count state).mcuToCpu.Holds N H
    (mails.drop (100 * count))
  emptied : ∀ count, (afterInterrupts cmdSize (4 * N) count state).mcuToCpu.head =
      (afterInterrupts cmdSize (4 * N) count state).mcuToCpu.tail ↔
    (mails.length + 99) / 100 ≤ count

theorem holds_afterInterrupts (cmdSize : ℕ) (hring : 4 * N ≤ 65532) (count : ℕ)
    (hholds : state.mcuToCpu.Holds N H mails) :
    ∃ H, (afterInterrupts cmdSize (4 * N) count state).mcuToCpu.Holds N H
      (mails.drop (100 * count)) := by
  induction count generalizing H mails state with
  | zero => exact ⟨H, hholds⟩
  | succ count ih =>
      obtain ⟨H', hremaining⟩ := (readMails_spec cmdSize hring maxMailboxMsg hholds).remaining
      obtain ⟨H'', hrest⟩ := ih hremaining
      rw [List.drop_drop] at hrest
      refine ⟨H'', ?_⟩
      rw [Nat.mul_succ, Nat.add_comm]
      exact hrest

/-- Each interrupt drains a hundred mails from the front of the ring. -/
theorem drain_is_exact
    (N : ℕ) (hring : 4 * N ≤ 65532) (cmdSize : ℕ) (state : McuGroup) (H : ℕ)
    (mails : List Al5Mail) (hholds : state.mcuToCpu.Holds N H mails) :
    DrainExact N cmdSize mails state := by
  have hfirst : Drained N cmdSize mails state (al5GroupReadMails cmdSize (4 * N) state) 100 :=
    readMails_spec cmdSize hring maxMailboxMsg hholds
  refine ⟨hfirst, ?_, fun count => holds_afterInterrupts cmdSize hring count hholds, ?_⟩
  · obtain ⟨H', hremaining⟩ := hfirst.remaining
    rw [hremaining.head_eq_tail_iff, List.drop_eq_nil_iff]
  · intro count
    obtain ⟨H', hleft⟩ := holds_afterInterrupts cmdSize hring count hholds
    rw [hleft.head_eq_tail_iff, List.drop_eq_nil_iff]
    omega

end

/-- A ring whose first free word is the last one of the ring. -/
def wrappingRing : Ring :=
  ⟨4 * 509, 4 * 509, fun _ => 0⟩

/-- Two feedbacks written by the MCU over the end of the ring are drained by one
interrupt. -/
theorem drain_is_exact_of_two_feedbacks :
    ∃ state : McuGroup, state.mcuToCpu.Holds 510 509 [encodeFeedback 3, encodeFeedback 4] ∧
      DrainExact 510 2040 [encodeFeedback 3, encodeFeedback 4] state := by
  have hempty : wrappingRing.Holds 510 509 [] :=
    ⟨rfl, rfl, by decide, trivial, by simp⟩
  have hfirst := hempty.append (encodeFeedback 3) rfl (by decide)
  have hsecond := hfirst.append (encodeFeedback 4) rfl (by decide)
  exact ⟨{ twoUsers with mcuToCpu := _ }, hsecond,
    drain_is_exact 510 (by decide) 2040 { twoUsers with mcuToCpu := _ } 509
      [encodeFeedback 3, encodeFeedback 4] hsecond⟩

end VcuDriver.Group

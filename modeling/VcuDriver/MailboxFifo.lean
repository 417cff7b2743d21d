import VcuDriver.MailboxLayout
import VcuDriver.Conc.Outline

/-!
# The mailbox is a FIFO

Any number of senders and of turns of the interrupt thread run on one mailbox,
one register or word access at a time.  Positions count the words which have
passed the head and the tail since `al5_mailbox_init`; the invariant relates
them to the registers and to the contents of the ring.  A sender works with a
head value which may be out of date, and a reader publishes the head between
the header and the body of a mail; both only ever leave more room than the
sender assumes.
-/

namespace VcuDriver

open Conc

/-! ## The machine -/

/-- A mail whose body is complete. -/
abbrev WholeMail : Type :=
  { mail : Al5Mail // mail.Complete }

inductive RingOp where
  | send (mail : WholeMail)
  | read

inductive RingOut where
  | sent (error : ℤ)
  | read (mail : Option Al5Mail)

/-- A mail whose tail update has happened, and the tail register before it. -/
structure Published where
  mail : Al5Mail
  start : ℕ

def Published.offsets (size : ℕ) (entry : Published) : List ℕ :=
  (List.range (frameWords entry.mail)).map fun j => (entry.start + 4 * j) % size

/-- The registers and data of a mailbox with its locks, and what has happened
to it: the mails published and received, the number of updates of the head,
whether a word of an unconsumed mail was ever overwritten, and the calls which
stored to the tail or to the data. -/
structure RingState where
  head : ℕ
  tail : ℕ
  data : ℕ → Word
  owner : RingLock → Option ℕ
  published : List Published
  received : List Al5Mail
  headUpdates : ℕ
  overwritten : Bool
  touched : List ℕ

/-- `al5_mailbox_init` on memory of any contents. -/
def al5MailboxInit (data : ℕ → Word) : RingState where
  head := 0
  tail := 0
  data := data
  owner _ := none
  published := []
  received := []
  headUpdates := 0
  overwritten := false
  touched := []

namespace RingState

/-- A read updates the head after the header and again after the body, so a
mail is consumed at every second update. -/
def unconsumed (state : RingState) : List Published :=
  state.published.drop (state.headUpdates / 2)

def access (size i : ℕ) (op : RingOp) (state : RingState) :
    (action : RingAct) → action.Res × RingState
  | .lock which =>
      ((), { state with owner := Function.update state.owner which (some i) })
  | .unlock which =>
      ((), { state with owner := Function.update state.owner which none })
  | .readHead => (state.head, state)
  | .readTail => (state.tail, state)
  | .writeHead value =>
      ((), { state with head := value, headUpdates := state.headUpdates + 1 })
  | .writeTail value =>
      ((), { state with
        tail := value
        published := match op with
          | .send mail => state.published ++ [⟨mail, state.tail⟩]
          | .read => state.published
        touched := i :: state.touched })
  | .readWord offset => (state.data offset, state)
  | .writeWord offset word =>
      ((), { state with
        data := Function.update state.data offset word
        overwritten := state.overwritten ||
          state.unconsumed.any fun entry => offset ∈ entry.offsets size
        touched := i :: state.touched })
  | .signal => ((), state)
  | .deliver mail =>
      ((), { state with received := state.received ++ [mail] })

/-- A lock held by another call blocks. -/
def blocks (state : RingState) : RingAct → Bool
  | .lock which => (state.owner which).isSome
  | _ => false

end RingState

def ringMachine (size : ℕ) :
    Machine RingState RingAct RingAct.Res Unit RingOp RingOut Empty where
  body
    | .send mail => (al5McuSend size mail).bind fun error => .ret (.sent error)
    | .read => (readMail size).bind fun mail => .ret (.read mail)
  enter _ _ state := some state
  exec i op action _ state :=
    if state.blocks action then none else some (state.access size i op action)
  env event _ := nomatch event

/-! ## Positions -/

/-- The number of words taken by the first `count` mails. -/
def framesBefore (published : List Published) (count : ℕ) : ℕ :=
  ((published.take count).map fun entry => frameWords entry.mail).sum

namespace RingState

def headPos (state : RingState) : ℕ :=
  framesBefore state.published (state.headUpdates / 2) + state.headUpdates % 2

def tailPos (state : RingState) : ℕ :=
  framesBefore state.published state.published.length

end RingState

theorem frameWords_pos (mail : Al5Mail) : 0 < frameWords mail := by
  unfold frameWords
  omega

theorem framesBefore_succ
    {published : List Published} {k : ℕ} {entry : Published}
    (hentry : published[k]? = some entry) :
    framesBefore published (k + 1) =
      framesBefore published k + frameWords entry.mail := by
  simp [framesBefore, List.take_add_one, hentry]

theorem framesBefore_append
    {published : List Published} {k : ℕ} (rest : List Published)
    (hk : k ≤ published.length) :
    framesBefore (published ++ rest) k = framesBefore published k := by
  unfold framesBefore
  rw [List.take_append_of_le_length hk]

theorem framesBefore_mono
    (published : List Published) {k k' : ℕ} (hk : k ≤ k') :
    framesBefore published k ≤ framesBefore published k' := by
  induction hk with
  | refl => exact le_rfl
  | step _ ih =>
      apply ih.trans
      simp [framesBefore, List.take_add_one]

/-- A frame lies before the frame of a later mail. -/
theorem framesBefore_lt
    {published : List Published} {k k' : ℕ} {entry : Published}
    (hentry : published[k]? = some entry) (hk : k < k') :
    framesBefore published k + frameWords entry.mail ≤
      framesBefore published k' := by
  rw [← framesBefore_succ hentry]
  exact framesBefore_mono published hk

theorem lt_length_of_getElem?
    {published : List Published} {k : ℕ} {entry : Published}
    (hentry : published[k]? = some entry) : k < published.length := by
  rw [List.getElem?_eq_some_iff] at hentry
  exact hentry.1

theorem headPos_le_tailPos
    {state : RingState}
    (hupdates : state.headUpdates ≤ 2 * state.published.length) :
    state.headPos ≤ state.tailPos := by
  unfold RingState.headPos RingState.tailPos
  rcases Nat.mod_two_eq_zero_or_one state.headUpdates with heven | hodd
  · have hmono := framesBefore_mono state.published
      (show state.headUpdates / 2 ≤ state.published.length from by omega)
    omega
  · have hlt : state.headUpdates / 2 < state.published.length := by omega
    have hframe := framesBefore_lt (List.getElem?_eq_getElem hlt) hlt
    have hpos := frameWords_pos
      state.published[state.headUpdates / 2].mail
    omega

/-- The head only moves forward. -/
theorem headPos_mono
    {state state' : RingState}
    (hpublished : state'.published = state.published)
    (hupdates : state.headUpdates ≤ state'.headUpdates)
    (hle : state'.headUpdates ≤ 2 * state'.published.length) :
    state.headPos ≤ state'.headPos := by
  unfold RingState.headPos
  rw [hpublished] at hle ⊢
  rcases Nat.lt_or_ge (state.headUpdates / 2) (state'.headUpdates / 2) with
    hlt | hge
  · have hlength : state.headUpdates / 2 < state.published.length := by omega
    have hframe := framesBefore_lt (List.getElem?_eq_getElem hlength) hlt
    have hpos := frameWords_pos
      state.published[state.headUpdates / 2].mail
    omega
  · have heq : state.headUpdates / 2 = state'.headUpdates / 2 := by omega
    rw [heq]
    omega

/-! ## The invariant -/

/-- What a read preserves of a mail: its uid, its length and every complete
word of its body. -/
structure SameMail (sent received : Al5Mail) : Prop where
  uid : al5MailGetUid received = al5MailGetUid sent
  size : al5MailGetSize received = al5MailGetSize sent
  length : received.body.length = sent.body.length
  words : ∀ j, 4 * j + 4 ≤ sent.body.length →
    al5MailGetWord received j = al5MailGetWord sent j

structure RingInv (N : ℕ) (state : RingState) : Prop where
  head_eq : state.head = slot N state.headPos
  tail_eq : state.tail = slot N state.tailPos
  updates_le : state.headUpdates ≤ 2 * state.published.length
  room : state.tailPos < state.headPos + N
  start_eq : ∀ (k : ℕ) (entry : Published), state.published[k]? = some entry →
    entry.start = slot N (framesBefore state.published k)
  words : ∀ (k : ℕ) (entry : Published), state.headUpdates / 2 ≤ k →
    state.published[k]? = some entry →
      ∀ store ∈ frameStores N (framesBefore state.published k) entry.mail,
        state.data store.1 = store.2
  complete : ∀ (k : ℕ) (entry : Published),
    state.published[k]? = some entry → entry.mail.Complete
  received : List.Forall₂ (fun (entry : Published) mail => SameMail entry.mail mail)
    (state.published.take state.received.length) state.received
  idle : state.owner .irqThread = none →
    state.headUpdates = 2 * state.received.length
  kept : state.overwritten = false

theorem frameStores_offset
    {N position : ℕ} {mail : Al5Mail} {store : ℕ × Word}
    (hstore : store ∈ frameStores N position mail) :
    ∃ j < frameWords mail, store.1 = slot N (position + j) := by
  unfold frameStores storesAt at hstore
  simp only [List.mem_cons, List.mem_map, List.mem_range] at hstore
  unfold frameWords
  rcases hstore with rfl | ⟨j, hj, rfl⟩
  · exact ⟨0, by omega, rfl⟩
  · exact ⟨1 + j, by omega, by rw [Nat.add_assoc]⟩

theorem Published.mem_offsets
    {N position offset : ℕ} {entry : Published}
    (hstart : entry.start = slot N position)
    (hoffset : offset ∈ entry.offsets (4 * N)) :
    ∃ j < frameWords entry.mail, offset = slot N (position + j) := by
  unfold Published.offsets at hoffset
  simp only [List.mem_map, List.mem_range] at hoffset
  obtain ⟨j, hj, rfl⟩ := hoffset
  refine ⟨j, hj, ?_⟩
  rw [hstart]
  unfold slot
  rw [← Nat.mul_add, Nat.mul_mod_mul_left, Nat.mod_add_mod]

namespace RingInv

variable {N : ℕ} {state : RingState}

/-- Positions of unconsumed mails are less than `N` words behind a free
position; the word which `not_enough_space_in_mailbox` keeps free makes this
hold also for the header that a read in progress has left behind. -/
theorem slot_ne_free
    {k j free : ℕ} {entry : Published}
    (hk : state.headUpdates / 2 ≤ k)
    (hentry : state.published[k]? = some entry)
    (hj : j < frameWords entry.mail)
    (htail : state.tailPos ≤ free) (hfree : free + 2 ≤ state.headPos + N) :
    slot N (framesBefore state.published k + j) ≠ slot N free := by
  have hlt := lt_length_of_getElem? hentry
  have hbefore := framesBefore_lt hentry hlt
  have hfirst := framesBefore_mono state.published hk
  apply slot_ne
  · unfold RingState.tailPos at htail
    omega
  · unfold RingState.headPos at hfree
    omega

theorem setOwner
    (hinv : RingInv N state) {owner : RingLock → Option ℕ}
    (hidle : owner .irqThread = none →
      state.headUpdates = 2 * state.received.length) :
    RingInv N { state with owner := owner } where
  head_eq := hinv.head_eq
  tail_eq := hinv.tail_eq
  updates_le := hinv.updates_le
  room := hinv.room
  start_eq := hinv.start_eq
  words := hinv.words
  complete := hinv.complete
  received := hinv.received
  idle := hidle
  kept := hinv.kept

/-- A store to a free word. -/
theorem store
    (hinv : RingInv N state) {free : ℕ} {word : Word} {touched : List ℕ}
    (htail : state.tailPos ≤ free) (hfree : free + 2 ≤ state.headPos + N) :
    RingInv N { state with
      data := Function.update state.data (slot N free) word
      overwritten := state.overwritten ||
        state.unconsumed.any fun entry =>
          slot N free ∈ entry.offsets (4 * N)
      touched := touched } where
  head_eq := hinv.head_eq
  tail_eq := hinv.tail_eq
  updates_le := hinv.updates_le
  room := hinv.room
  start_eq := hinv.start_eq
  words := by
    intro k entry hk hentry store hstore
    obtain ⟨j, hj, hoffset⟩ := frameStores_offset hstore
    have hne := slot_ne_free hk hentry hj htail hfree
    change Function.update state.data (slot N free) word store.1 = store.2
    rw [hoffset, Function.update_of_ne hne, ← hoffset]
    exact hinv.words k entry hk hentry store hstore
  complete := hinv.complete
  received := hinv.received
  idle := hinv.idle
  kept := by
    rw [hinv.kept, Bool.false_or, List.any_eq_false]
    intro entry hmem hoffset
    rw [decide_eq_true_iff] at hoffset
    obtain ⟨k, hentry⟩ := List.mem_iff_getElem?.mp hmem
    rw [RingState.unconsumed, List.getElem?_drop] at hentry
    obtain ⟨j, hj, heq⟩ :=
      Published.mem_offsets (hinv.start_eq _ entry hentry) hoffset
    exact slot_ne_free (Nat.le_add_right _ k) hentry hj htail hfree heq.symm

/-- The update of the tail by which a mail is published. -/
theorem publish
    (hinv : RingInv N state) {mail : Al5Mail} (i : ℕ)
    (hcomplete : mail.Complete)
    (hroom : state.tailPos + frameWords mail < state.headPos + N)
    (hstored : ∀ store ∈ frameStores N state.tailPos mail,
      state.data store.1 = store.2) :
    RingInv N { state with
      tail := slot N (state.tailPos + frameWords mail)
      published := state.published ++ [⟨mail, state.tail⟩]
      touched := i :: state.touched } := by
  have hlast : (state.published ++ [⟨mail, state.tail⟩])[state.published.length]? =
      some ⟨mail, state.tail⟩ := List.getElem?_concat_length
  have hkeep := fun {k} (hk : k ≤ state.published.length) =>
    framesBefore_append [⟨mail, state.tail⟩] hk
  have htailPos : framesBefore (state.published ++ [⟨mail, state.tail⟩])
      (state.published.length + 1) = state.tailPos + frameWords mail := by
    rw [framesBefore_succ hlast, hkeep le_rfl]
    rfl
  have hupdates := hinv.updates_le
  have hheadPos : RingState.headPos { state with
      tail := slot N (state.tailPos + frameWords mail)
      published := state.published ++ [⟨mail, state.tail⟩]
      touched := i :: state.touched } = state.headPos := by
    have hhead := hkeep (show state.headUpdates / 2 ≤ _ from by omega)
    unfold RingState.headPos
    exact congrArg (· + state.headUpdates % 2) hhead
  have htailPos' : RingState.tailPos { state with
      tail := slot N (state.tailPos + frameWords mail)
      published := state.published ++ [⟨mail, state.tail⟩]
      touched := i :: state.touched } = state.tailPos + frameWords mail := by
    unfold RingState.tailPos
    dsimp only
    rw [List.length_append, List.length_singleton, htailPos]
    rfl
  have hcases : ∀ {k entry},
      (state.published ++ [⟨mail, state.tail⟩])[k]? = some entry →
        state.published[k]? = some entry ∨
          (k = state.published.length ∧ entry = ⟨mail, state.tail⟩) := by
    intro k entry hentry
    rcases Nat.lt_or_ge k state.published.length with hlt | hge
    · rw [List.getElem?_append_left hlt] at hentry
      exact .inl hentry
    · have hlt := lt_length_of_getElem? hentry
      rw [List.length_append, List.length_singleton] at hlt
      have hk : k = state.published.length := by omega
      subst hk
      rw [hlast] at hentry
      exact .inr ⟨rfl, (Option.some.inj hentry).symm⟩
  constructor
  · rw [hheadPos]
    exact hinv.head_eq
  · rw [htailPos']
  · change state.headUpdates ≤ 2 * (state.published ++ [_]).length
    rw [List.length_append]
    omega
  · rw [hheadPos, htailPos']
    exact hroom
  · intro k entry hentry
    rcases hcases hentry with hold | ⟨rfl, rfl⟩
    · have hlt := lt_length_of_getElem? hold
      rw [hkeep hlt.le]
      exact hinv.start_eq k entry hold
    · rw [hkeep le_rfl]
      exact hinv.tail_eq
  · intro k entry hk hentry
    rcases hcases hentry with hold | ⟨rfl, rfl⟩
    · have hlt := lt_length_of_getElem? hold
      rw [hkeep hlt.le]
      exact hinv.words k entry hk hold
    · rw [hkeep le_rfl]
      exact hstored
  · intro k entry hentry
    rcases hcases hentry with hold | ⟨rfl, rfl⟩
    · exact hinv.complete k entry hold
    · exact hcomplete
  · have hlength := hinv.received.length_eq
    rw [List.length_take] at hlength
    dsimp only
    rw [List.take_append_of_le_length (by omega)]
    exact hinv.received
  · exact hinv.idle
  · exact hinv.kept

/-- The update of the head between the header and the body. -/
theorem passHeader
    (hinv : RingInv N state) {k : ℕ} (hk : state.headUpdates = 2 * k)
    (hlt : k < state.published.length)
    (howner : state.owner .irqThread ≠ none) :
    RingInv N { state with
      head := slot N (framesBefore state.published k + 1)
      headUpdates := state.headUpdates + 1 } := by
  have hdiv : (state.headUpdates + 1) / 2 = k := by omega
  have hmod : (state.headUpdates + 1) % 2 = 1 := by omega
  have hroom := hinv.room
  unfold RingState.headPos at hroom
  constructor
  · unfold RingState.headPos
    rw [hdiv, hmod]
  · exact hinv.tail_eq
  · change state.headUpdates + 1 ≤ 2 * state.published.length
    omega
  · unfold RingState.headPos
    rw [hdiv, hmod]
    rw [show state.headUpdates / 2 = k from by omega] at hroom
    change state.tailPos < framesBefore state.published k + 1 + N
    omega
  · exact hinv.start_eq
  · intro k' entry hk'
    apply hinv.words k' entry
    change (state.headUpdates + 1) / 2 ≤ k' at hk'
    omega
  · exact hinv.complete
  · exact hinv.received
  · intro hfree
    exact absurd hfree howner
  · exact hinv.kept

/-- The update of the head after the body, which consumes the mail. -/
theorem passBody
    (hinv : RingInv N state) {k : ℕ} {entry : Published}
    (hk : state.headUpdates = 2 * k + 1)
    (hentry : state.published[k]? = some entry)
    (howner : state.owner .irqThread ≠ none) :
    RingInv N { state with
      head := slot N (framesBefore state.published k + frameWords entry.mail)
      headUpdates := state.headUpdates + 1 } := by
  have hdiv : (state.headUpdates + 1) / 2 = k + 1 := by omega
  have hmod : (state.headUpdates + 1) % 2 = 0 := by omega
  have hlt := lt_length_of_getElem? hentry
  have hroom := hinv.room
  have hpos := frameWords_pos entry.mail
  unfold RingState.headPos at hroom
  rw [show state.headUpdates / 2 = k from by omega] at hroom
  constructor
  · unfold RingState.headPos
    dsimp only
    rw [hdiv, hmod, framesBefore_succ hentry, Nat.add_zero]
  · exact hinv.tail_eq
  · change state.headUpdates + 1 ≤ 2 * state.published.length
    omega
  · unfold RingState.headPos
    dsimp only
    rw [hdiv, hmod, framesBefore_succ hentry]
    change state.tailPos < _
    omega
  · exact hinv.start_eq
  · intro k' entry' hk'
    apply hinv.words k' entry'
    change (state.headUpdates + 1) / 2 ≤ k' at hk'
    omega
  · exact hinv.complete
  · exact hinv.received
  · intro hfree
    exact absurd hfree howner
  · exact hinv.kept

/-- The return of a consumed mail. -/
theorem deliver
    (hinv : RingInv N state) {mail : Al5Mail} {entry : Published}
    (hentry : state.published[state.received.length]? = some entry)
    (hsame : SameMail entry.mail mail)
    (howner : state.owner .irqThread ≠ none) :
    RingInv N { state with received := state.received ++ [mail] } where
  head_eq := hinv.head_eq
  tail_eq := hinv.tail_eq
  updates_le := hinv.updates_le
  room := hinv.room
  start_eq := hinv.start_eq
  words := hinv.words
  complete := hinv.complete
  received := by
    change List.Forall₂ _
      (state.published.take (state.received ++ [mail]).length)
      (state.received ++ [mail])
    rw [List.length_append, List.length_singleton, List.take_add_one, hentry]
    exact List.rel_append hinv.received (.cons hsame .nil)
  idle := fun hfree => absurd hfree howner
  kept := hinv.kept

end RingInv

theorem ringInv_init {N : ℕ} (hN : 0 < N) (data : ℕ → Word) :
    RingInv N (al5MailboxInit data) where
  head_eq := by simp [al5MailboxInit, RingState.headPos, framesBefore, slot]
  tail_eq := by simp [al5MailboxInit, RingState.tailPos, framesBefore, slot]
  updates_le := by simp [al5MailboxInit]
  room := by
    simpa [al5MailboxInit, RingState.tailPos, RingState.headPos, framesBefore]
      using hN
  start_eq := by simp [al5MailboxInit]
  words := by simp [al5MailboxInit]
  complete := by simp [al5MailboxInit]
  received := .nil
  idle _ := rfl
  kept := rfl

/-! ## The outline -/

/-- What call `i` may rely on: its own locks, the tail side while it holds the
write lock, and the head side while it is the interrupt thread. -/
structure RingRely (i : ℕ) (state state' : RingState) : Prop where
  owner : ∀ which, state'.owner which = some i ↔ state.owner which = some i
  write : state.owner .write = some i →
    state'.tail = state.tail ∧ state'.data = state.data ∧
      state'.published = state.published ∧
      state.headUpdates ≤ state'.headUpdates
  irqThread : state.owner .irqThread = some i →
    state'.head = state.head ∧ state'.headUpdates = state.headUpdates ∧
      state'.received = state.received ∧ state.published <+: state'.published
  touched : i ∈ state'.touched ↔ i ∈ state.touched

theorem RingRely.trans
    {i : ℕ} {state₁ state₂ state₃ : RingState}
    (h₁₂ : RingRely i state₁ state₂) (h₂₃ : RingRely i state₂ state₃) :
    RingRely i state₁ state₃ where
  owner which := (h₂₃.owner which).trans (h₁₂.owner which)
  write hown := by
    obtain ⟨htail, hdata, hpublished, hupdates⟩ := h₁₂.write hown
    obtain ⟨htail', hdata', hpublished', hupdates'⟩ :=
      h₂₃.write ((h₁₂.owner .write).mpr hown)
    exact ⟨htail'.trans htail, hdata'.trans hdata,
      hpublished'.trans hpublished, hupdates.trans hupdates'⟩
  irqThread hown := by
    obtain ⟨hhead, hupdates, hreceived, hpublished⟩ := h₁₂.irqThread hown
    obtain ⟨hhead', hupdates', hreceived', hpublished'⟩ :=
      h₂₃.irqThread ((h₁₂.owner .irqThread).mpr hown)
    exact ⟨hhead'.trans hhead, hupdates'.trans hupdates,
      hreceived'.trans hreceived, hpublished.trans hpublished'⟩
  touched := h₂₃.touched.trans h₁₂.touched

/-- A refused send has stored nothing. -/
def RingPost (i : ℕ) (op : RingOp) (out : RingOut) (state : RingState) : Prop :=
  match op, out with
  | .send _, .sent error => error = -EAGAIN → i ∉ state.touched
  | _, _ => True

def ringOutline (N : ℕ) :
    Outline (ringMachine (4 * N)) .free where
  inv := RingInv N
  rely := RingRely
  fresh i state := i ∉ state.touched
  post := RingPost
  rely_refl i state := {
    owner := fun _ => Iff.rfl
    write := fun _ => ⟨rfl, rfl, rfl, le_rfl⟩
    irqThread := fun _ => ⟨rfl, rfl, rfl, List.prefix_rfl⟩
    touched := Iff.rfl }
  rely_trans := RingRely.trans
  fresh_rely hrely hfresh := fun hmem => hfresh (hrely.touched.mp hmem)
  post_rely {i op out state state'} hrely hpost := by
    cases op with
    | read => trivial
    | send mail =>
        cases out with
        | read mail => trivial
        | sent error =>
            intro herror hmem
            exact hpost herror (hrely.touched.mp hmem)

/-- The access of a call that is not blocked. -/
theorem ringMachine_exec
    {size i : ℕ} {op : RingOp} {action : RingAct} {choice : Unit}
    {state state' : RingState} {result : action.Res}
    (hexec : (ringMachine size).exec i op action choice state =
      some (result, state')) :
    state.blocks action = false ∧
      state.access size i op action = (result, state') := by
  simp only [ringMachine] at hexec
  split_ifs at hexec with hblocks
  exact ⟨by simpa using hblocks, Option.some.inj hexec⟩

/-! Guarantees of the accesses, by the lock under which each is made. -/

section Guarantees

variable {N i : ℕ} {state : RingState}

theorem guarantee_lock
    {which : RingLock} (hfree : state.owner which = none) :
    (ringOutline N).Guarantee i state { state with
      owner := Function.update state.owner which (some i) } := by
  intro j hji
  constructor
  · intro which'
    by_cases hwhich : which' = which
    · subst hwhich
      simp [hfree, Ne.symm hji]
    · simp [Function.update_of_ne hwhich]
  · exact fun _ => ⟨rfl, rfl, rfl, le_rfl⟩
  · exact fun _ => ⟨rfl, rfl, rfl, List.prefix_rfl⟩
  · exact Iff.rfl

theorem guarantee_unlock
    {which : RingLock} (hown : state.owner which = some i) :
    (ringOutline N).Guarantee i state { state with
      owner := Function.update state.owner which none } := by
  intro j hji
  constructor
  · intro which'
    by_cases hwhich : which' = which
    · subst hwhich
      simp [hown, Ne.symm hji]
    · simp [Function.update_of_ne hwhich]
  · exact fun _ => ⟨rfl, rfl, rfl, le_rfl⟩
  · exact fun _ => ⟨rfl, rfl, rfl, List.prefix_rfl⟩
  · exact Iff.rfl

/-- The holder of the write lock may change the tail side. -/
theorem guarantee_write
    {state' : RingState} (hown : state.owner .write = some i)
    (howner : state'.owner = state.owner) (hhead : state'.head = state.head)
    (hupdates : state'.headUpdates = state.headUpdates)
    (hreceived : state'.received = state.received)
    (hpublished : state.published <+: state'.published)
    (htouched : state'.touched = i :: state.touched) :
    (ringOutline N).Guarantee i state state' := by
  intro j hji
  constructor
  · intro which
    rw [howner]
  · intro hother
    rw [hown, Option.some.injEq] at hother
    exact absurd hother.symm hji
  · exact fun _ => ⟨hhead, hupdates, hreceived, hpublished⟩
  · rw [htouched, List.mem_cons]
    exact or_iff_right hji

/-- The interrupt thread may change the head side. -/
theorem guarantee_read
    {state' : RingState} (hown : state.owner .irqThread = some i)
    (howner : state'.owner = state.owner) (htail : state'.tail = state.tail)
    (hdata : state'.data = state.data)
    (hpublished : state'.published = state.published)
    (hupdates : state.headUpdates ≤ state'.headUpdates)
    (htouched : state'.touched = state.touched) :
    (ringOutline N).Guarantee i state state' := by
  intro j hji
  constructor
  · intro which
    rw [howner]
  · exact fun _ => ⟨htail, hdata, hpublished, hupdates⟩
  · intro hother
    rw [hown, Option.some.injEq] at hother
    exact absurd hother.symm hji
  · rw [htouched]

end Guarantees

/-! ## Sending -/

section Calls

variable {N i : ℕ} {op : RingOp} {state : RingState}

theorem wp_access
    {action : RingAct} {next : action.Res → RingProg RingOut}
    {post : RingOut → RingState → Prop} {assertion : RingState → Prop}
    (hassert : assertion state)
    (hstable : (ringOutline N).Stable i assertion)
    (hstep : ∀ state, RingInv N state → assertion state →
      state.blocks action = false →
        RingInv N (state.access (4 * N) i op action).2 ∧
          (ringOutline N).Guarantee i state
            (state.access (4 * N) i op action).2 ∧
          (ringOutline N).wp i op (next (state.access (4 * N) i op action).1)
            post (state.access (4 * N) i op action).2) :
    (ringOutline N).wp i op (.act action next) post state := by
  apply Outline.wp_act hassert hstable
  intro state₁ choice result state₂ hinv hassert₁ hexec _
  obtain ⟨hblocks, haccess⟩ := ringMachine_exec hexec
  have hresult := hstep state₁ hinv hassert₁ hblocks
  rw [haccess] at hresult
  exact hresult

/-- A read of a register or of the data leaves the state alone. -/
theorem wp_observe
    {action : RingAct} {next : action.Res → RingProg RingOut}
    {post : RingOut → RingState → Prop} {assertion : RingState → Prop}
    (hassert : assertion state)
    (hstable : (ringOutline N).Stable i assertion)
    (hsame : ∀ state : RingState,
      (state.access (4 * N) i op action).2 = state)
    (hstep : ∀ state, RingInv N state → assertion state →
      (ringOutline N).wp i op (next (state.access (4 * N) i op action).1)
        post state) :
    (ringOutline N).wp i op (.act action next) post state := by
  apply wp_access hassert hstable
  intro state hinv hassert _
  rw [hsame]
  exact ⟨hinv, Outline.Guarantee.refl i state, hstep state hinv hassert⟩

structure Preparing (i : ℕ) (state : RingState) : Prop where
  owner : state.owner .write = some i
  untouched : i ∉ state.touched

theorem Preparing.stable : (ringOutline N).Stable i (Preparing i) := by
  intro state state' hprep hrely _
  exact ⟨(hrely.owner .write).mpr hprep.owner,
    fun hmem => hprep.untouched (hrely.touched.mp hmem)⟩

/-- The call has read a head value which may be out of date by now. -/
structure SawHead (N i H : ℕ) (state : RingState) : Prop extends
    Preparing i state where
  stale : H ≤ state.headPos
  used : H ≤ state.tailPos
  window : state.tailPos < H + N

theorem SawHead.stable {H : ℕ} :
    (ringOutline N).Stable i (SawHead N i H) := by
  intro state state' hsaw hrely hinv'
  obtain ⟨_, _, hpublished, hupdates⟩ := hrely.write hsaw.owner
  have htail : state'.tailPos = state.tailPos := by
    unfold RingState.tailPos
    rw [hpublished]
  have hhead := headPos_mono hpublished hupdates hinv'.updates_le
  have hprep := Preparing.stable (N := N) state state' hsaw.toPreparing hrely hinv'
  exact ⟨hprep, hsaw.stale.trans hhead, htail ▸ hsaw.used, htail ▸ hsaw.window⟩

/-- There is room for the mail behind the tail, and the first stores of its
frame are done. -/
structure Storing (N i T : ℕ) (mail : Al5Mail) (stored : List (ℕ × Word))
    (state : RingState) : Prop where
  owner : state.owner .write = some i
  tail : state.tailPos = T
  room : T + frameWords mail < state.headPos + N
  done : ∀ store ∈ stored, state.data store.1 = store.2

theorem Storing.stable
    {T : ℕ} {mail : Al5Mail} {stored : List (ℕ × Word)} :
    (ringOutline N).Stable i (Storing N i T mail stored) := by
  intro state state' hstoring hrely hinv'
  obtain ⟨_, hdata, hpublished, hupdates⟩ := hrely.write hstoring.owner
  have htail : state'.tailPos = state.tailPos := by
    unfold RingState.tailPos
    rw [hpublished]
  have hhead := headPos_mono hpublished hupdates hinv'.updates_le
  have hroom := hstoring.room
  exact ⟨(hrely.owner .write).mpr hstoring.owner, htail.trans hstoring.tail,
    by omega, by rw [hdata]; exact hstoring.done⟩

theorem frameStores_getElem?
    {position k : ℕ} {mail : Al5Mail} {store : ℕ × Word}
    (hstore : (frameStores N position mail)[k]? = some store) :
    store.1 = slot N (position + k) ∧ k < frameWords mail := by
  unfold frameStores at hstore
  cases k with
  | zero =>
      simp only [List.getElem?_cons_zero, Option.some.injEq] at hstore
      subst hstore
      exact ⟨rfl, frameWords_pos mail⟩
  | succ k =>
      simp only [List.getElem?_cons_succ, storesAt, List.getElem?_map,
        Option.map_eq_some_iff] at hstore
      obtain ⟨j, hj, rfl⟩ := hstore
      obtain ⟨hlt, hget⟩ := List.getElem?_eq_some_iff.mp hj
      rw [List.length_range] at hlt
      rw [List.getElem_range] at hget
      subst hget
      unfold frameWords
      exact ⟨by rw [Nat.add_assoc, Nat.add_comm 1], by omega⟩

/-- The stores of a frame, one after the other. -/
theorem wp_storeWords
    {T : ℕ} {mail : Al5Mail} {next : RingProg RingOut}
    {post : RingOut → RingState → Prop} {stored todo : List (ℕ × Word)}
    (hsplit : frameStores N T mail = stored ++ todo)
    (hstoring : Storing N i T mail stored state)
    (hnext : ∀ state, Storing N i T mail (frameStores N T mail) state →
      (ringOutline N).wp i op next post state) :
    (ringOutline N).wp i op ((storeWords todo).bind fun _ => next) post
      state := by
  induction todo generalizing stored state with
  | nil =>
      rw [List.append_nil] at hsplit
      rw [← hsplit] at hstoring
      exact hnext state hstoring
  | cons store todo ih =>
      have hindex : (frameStores N T mail)[stored.length]? = some store := by
        rw [hsplit, List.getElem?_append_right le_rfl, Nat.sub_self]
        rfl
      obtain ⟨hoffset, hlt⟩ := frameStores_getElem? hindex
      obtain ⟨offset, word⟩ := store
      simp only at hoffset
      subst hoffset
      simp only [storeWords, Prog.act_bind]
      apply wp_access hstoring Storing.stable
      intro state hinv hstoring _
      have hroom := hstoring.room
      have htail := hstoring.tail
      refine ⟨hinv.store (by omega) (by omega), ?_, ?_⟩
      · exact guarantee_write hstoring.owner rfl rfl rfl rfl List.prefix_rfl rfl
      · have hsplit' : frameStores N T mail =
            (stored ++ [(slot N (T + stored.length), word)]) ++ todo := by
          rw [hsplit, List.append_assoc]
          rfl
        apply ih hsplit'
        refine ⟨hstoring.owner, htail, hroom, ?_⟩
        intro earlier hmem
        rw [List.mem_append, List.mem_singleton] at hmem
        rcases hmem with hmem | rfl
        · obtain ⟨k, hk⟩ := List.mem_iff_getElem?.mp hmem
          obtain ⟨hklt, _⟩ := List.getElem?_eq_some_iff.mp hk
          have hindex' : (frameStores N T mail)[k]? = some earlier := by
            rw [hsplit, List.getElem?_append_left hklt, hk]
          obtain ⟨hearlier, _⟩ := frameStores_getElem? hindex'
          have hhead := headPos_le_tailPos hinv.updates_le
          have hne : slot N (T + k) ≠ slot N (T + stored.length) :=
            slot_ne (by omega) (by omega)
          change Function.update state.data _ word earlier.1 = earlier.2
          rw [hearlier, Function.update_of_ne hne, ← hearlier]
          exact hstoring.done earlier hmem
        · change Function.update state.data (slot N (T + stored.length)) word
            (slot N (T + stored.length)) = word
          rw [Function.update_self]

theorem wp_unlock
    {which : RingLock} {next : RingProg RingOut}
    {post : RingOut → RingState → Prop} {assertion : RingState → Prop}
    (hassert : assertion state)
    (hstable : (ringOutline N).Stable i assertion)
    (hown : ∀ state, assertion state → state.owner which = some i)
    (hidle : which = .irqThread → ∀ state, assertion state →
      state.headUpdates = 2 * state.received.length)
    (hnext : ∀ state, assertion state →
      (ringOutline N).wp i op next post { state with
        owner := Function.update state.owner which none }) :
    (ringOutline N).wp i op (.act (.unlock which) fun _ => next) post
      state := by
  apply wp_access hassert hstable
  intro state hinv hassert _
  refine ⟨hinv.setOwner ?_, guarantee_unlock (hown state hassert),
    hnext state hassert⟩
  intro hfree
  by_cases hwhich : which = .irqThread
  · exact hidle hwhich state hassert
  · rw [Function.update_of_ne (Ne.symm hwhich)] at hfree
    exact hinv.idle hfree

/-- `al5_mcu_send` publishes its mail, or is refused and stores nothing. -/
theorem send_wp
    {mail : WholeMail} (hring : 4 * N ≤ 65532) (hfresh : i ∉ state.touched) :
    (ringOutline N).wp i (.send mail)
      ((al5McuSend (4 * N) mail).bind fun error => .ret (.sent error))
      (RingPost i (.send mail)) state := by
  rw [al5McuSend_bind_eq]
  have hstable : (ringOutline N).Stable i fun state => i ∉ state.touched :=
    fun _ _ hmem hrely _ hmem' => hmem (hrely.touched.mp hmem')
  apply wp_access hfresh hstable
  intro state hinv hfresh hblocks
  have hfree : state.owner .write = none := by
    simpa [RingState.blocks] using hblocks
  refine ⟨hinv.setOwner ?_, guarantee_lock hfree, ?_⟩
  · intro hirq
    exact hinv.idle hirq
  have hown : Function.update state.owner RingLock.write (some i) .write =
      some i := by
    rw [Function.update_self]
  have hprep : Preparing i
      (state.access (4 * N) i (.send mail) (.lock .write)).2 := ⟨hown, hfresh⟩
  rw [al5MailboxWrite_eq]
  simp only [Prog.act_bind]
  apply wp_observe hprep Preparing.stable (fun _ => rfl)
  intro state hinv hprep
  have hsaw : SawHead N i state.headPos state :=
    ⟨hprep, le_rfl, headPos_le_tailPos hinv.updates_le, hinv.room⟩
  have hhead : (state.access (4 * N) i (.send mail) .readHead).1 =
      slot N state.headPos := hinv.head_eq
  rw [hhead]
  generalize state.headPos = H at hsaw
  apply wp_observe hsaw SawHead.stable (fun _ => rfl)
  intro state hinv hsaw
  have htail : (state.access (4 * N) i (.send mail) .readTail).1 =
      slot N state.tailPos := hinv.tail_eq
  rw [htail, notEnoughSpace_iff _ hring hsaw.used hsaw.window]
  by_cases hfull : H + N < state.tailPos + frameWords mail.val + 1
  · rw [decide_eq_true hfull]
    simp only [if_true, Prog.ret_bind]
    apply wp_unlock hsaw.toPreparing Preparing.stable
    · exact fun _ hprep => hprep.owner
    · exact fun hwhich => absurd hwhich (by decide)
    · intro state hprep _
      exact hprep.untouched
  · rw [decide_eq_false hfull]
    simp only [Bool.false_eq_true, if_false, Prog.act_bind, Prog.bind_assoc,
      Prog.ret_bind]
    have hstale := hsaw.stale
    have hstoring : Storing N i state.tailPos mail.val [] state :=
      ⟨hsaw.owner, rfl, by omega, by simp⟩
    generalize state.tailPos = T at hstoring
    apply wp_observe hstoring Storing.stable (fun _ => rfl)
    intro state hinv hstoring
    have hroom := hstoring.room
    have hle := headPos_le_tailPos hinv.updates_le
    have hposT := hstoring.tail
    have hslot := slot_lt (show 0 < N from by omega) T
    have hpull : u16 (state.access (4 * N) i (.send mail) .readTail).1 =
        slot N T := by
      have htail : (state.access (4 * N) i (.send mail) .readTail).1 =
          slot N state.tailPos := hinv.tail_eq
      rw [htail, hposT, u16_eq (by omega)]
    rw [hpull, writeMail_eq _ hring (by omega)]
    apply wp_storeWords (List.nil_append _).symm hstoring
    intro state hstored
    apply wp_access hstored Storing.stable
    intro state hinv hstored _
    have hpublish := hinv.publish i mail.property (by rw [hstored.tail]; exact hstored.room)
      (by rw [hstored.tail]; exact hstored.done)
    rw [hstored.tail] at hpublish
    refine ⟨hpublish, ?_, ?_⟩
    · exact guarantee_write hstored.owner rfl rfl rfl rfl
        (List.prefix_append _ _) rfl
    · have hown : RingState.owner (state.access (4 * N) i (.send mail)
          (.writeTail (slot N (T + frameWords mail.val)))).2 .write = some i :=
        hstored.owner
      apply wp_unlock hown (fun _ _ hown hrely _ => (hrely.owner .write).mpr hown)
      · exact fun _ hown => hown
      · exact fun hwhich => absurd hwhich (by decide)
      · intro state _ herror
        exact absurd herror (by decide)

/-! ## Reading -/

/-- The call is the interrupt thread, between two mails or inside one. -/
structure Idle (i k updates : ℕ) (state : RingState) : Prop where
  owner : state.owner .irqThread = some i
  updates : state.headUpdates = updates
  received : state.received.length = k

theorem Idle.stable {k updates : ℕ} :
    (ringOutline N).Stable i (Idle i k updates) := by
  intro state state' hidle hrely _
  obtain ⟨_, hupdates, hreceived, _⟩ := hrely.irqThread hidle.owner
  exact ⟨(hrely.owner .irqThread).mpr hidle.owner, hupdates.trans hidle.updates,
    by rw [hreceived, hidle.received]⟩

/-- The call reads the mail after the `k` received ones, which lies at `H`. -/
structure Reading (i k updates H : ℕ) (entry : Published) (state : RingState) :
    Prop extends Idle i k updates state where
  entry_eq : state.published[k]? = some entry
  position : framesBefore state.published k = H

theorem Reading.stable {k updates H : ℕ} {entry : Published} :
    (ringOutline N).Stable i (Reading i k updates H entry) := by
  intro state state' hreading hrely hinv'
  obtain ⟨_, _, _, hpublished⟩ := hrely.irqThread hreading.owner
  obtain ⟨rest, hrest⟩ := hpublished
  have hlt := lt_length_of_getElem? hreading.entry_eq
  have hidle := Idle.stable (N := N) state state' hreading.toIdle hrely hinv'
  refine ⟨hidle, ?_, ?_⟩
  · rw [← hrest, List.getElem?_append_left hlt, hreading.entry_eq]
  · rw [← hrest, framesBefore_append rest hlt.le, hreading.position]

def ReadLocked (i : ℕ) (assertion : RingState → Prop) (state : RingState) :
    Prop :=
  state.owner .read = some i ∧ assertion state

theorem ReadLocked.stable {assertion : RingState → Prop}
    (hstable : (ringOutline N).Stable i assertion) :
    (ringOutline N).Stable i (ReadLocked i assertion) :=
  fun state state' hlocked hrely hinv' =>
    ⟨(hrely.owner .read).mpr hlocked.1,
      hstable state state' hlocked.2 hrely hinv'⟩

/-- Taking the read lock. -/
theorem wp_lock_read
    {next : RingProg RingOut} {post : RingOut → RingState → Prop}
    {assertion : RingState → Prop}
    (hassert : assertion state)
    (hstable : (ringOutline N).Stable i assertion)
    (howner : ∀ state owner, owner .irqThread = state.owner .irqThread →
      assertion state → assertion { state with owner := owner })
    (hnext : ∀ state, ReadLocked i assertion state →
      (ringOutline N).wp i op next post state) :
    (ringOutline N).wp i op (.act (.lock .read) fun _ => next) post state := by
  apply wp_access hassert hstable
  intro state hinv hassert hblocks
  have hfree : state.owner .read = none := by
    simpa [RingState.blocks] using hblocks
  refine ⟨hinv.setOwner hinv.idle, guarantee_lock hfree, hnext _ ⟨?_, ?_⟩⟩
  · change Function.update state.owner RingLock.read (some i) .read = some i
    rw [Function.update_self]
  · exact howner state _ rfl hassert

/-- Releasing the read lock. -/
theorem wp_unlock_read
    {next : RingProg RingOut} {post : RingOut → RingState → Prop}
    {assertion : RingState → Prop}
    (hassert : ReadLocked i assertion state)
    (hstable : (ringOutline N).Stable i assertion)
    (howner : ∀ state owner, owner .irqThread = state.owner .irqThread →
      assertion state → assertion { state with owner := owner })
    (hnext : ∀ state, assertion state →
      (ringOutline N).wp i op next post state) :
    (ringOutline N).wp i op (.act (.unlock .read) fun _ => next) post
      state := by
  apply wp_unlock hassert (ReadLocked.stable hstable)
  · exact fun _ hlocked => hlocked.1
  · exact fun hwhich => absurd hwhich (by decide)
  · exact fun state hlocked => hnext _ (howner state _ rfl hlocked.2)

theorem Idle.setOwner {k updates : ℕ} (state : RingState)
    (owner : RingLock → Option ℕ)
    (howner : owner .irqThread = state.owner .irqThread)
    (hidle : Idle i k updates state) :
    Idle i k updates { state with owner := owner } :=
  ⟨howner.trans hidle.owner, hidle.updates, hidle.received⟩

theorem Reading.setOwner {k updates H : ℕ} {entry : Published}
    (state : RingState) (owner : RingLock → Option ℕ)
    (howner : owner .irqThread = state.owner .irqThread)
    (hreading : Reading i k updates H entry state) :
    Reading i k updates H entry { state with owner := owner } :=
  ⟨hreading.toIdle.setOwner state owner howner, hreading.entry_eq,
    hreading.position⟩

/-- Loading words whose contents an assertion fixes. -/
theorem wp_loadWords
    {stores : List (ℕ × Word)} {next : List Word → RingProg RingOut}
    {post : RingOut → RingState → Prop} {assertion : RingState → Prop}
    (hassert : assertion state)
    (hstable : (ringOutline N).Stable i assertion)
    (hwords : ∀ state, RingInv N state → assertion state →
      ∀ store ∈ stores, state.data store.1 = store.2)
    (hnext : ∀ state, assertion state →
      (ringOutline N).wp i op (next (stores.map Prod.snd)) post state) :
    (ringOutline N).wp i op ((loadWords (stores.map Prod.fst)).bind next) post
      state := by
  induction stores generalizing next state with
  | nil => exact hnext state hassert
  | cons store stores ih =>
      simp only [List.map_cons, loadWords, Prog.act_bind, Prog.bind_assoc,
        Prog.ret_bind]
      apply wp_observe hassert hstable (fun _ => rfl)
      intro state hinv hassert
      have hload : (state.access (4 * N) i op (.readWord store.1)).1 =
          store.2 := hwords state hinv hassert store List.mem_cons_self
      rw [hload]
      apply ih hassert
      · intro state hinv hassert store' hmem
        exact hwords state hinv hassert store' (List.mem_cons_of_mem _ hmem)
      · exact hnext

theorem storesAt_fst (N position : ℕ) (data : List Byte) (count : ℕ) :
    (storesAt N position data count).map Prod.fst = slots N position count := by
  simp [storesAt, slots, Function.comp_def]

theorem storesAt_snd (N position : ℕ) (data : List Byte) (count : ℕ) :
    (storesAt N position data count).map Prod.snd =
      (List.range count).map fun j => wordAt data (4 * j) := by
  simp [storesAt, Function.comp_def]

/-- What a read rebuilds from the words of a complete mail. -/
theorem sameMail_of_words
    {mail : Al5Mail} (hcomplete : mail.Complete) {header : List Byte}
    (hheader : header =
      pokeWords (List.replicate headerSize 0) 0 [headerWord mail])
    {words : List Word}
    (hwords : words = (List.range (al5MailGetSize mail / 4)).map fun j =>
      wordAt mail.body (4 * j)) :
    SameMail mail {
      msgUid := unserializeMsgUid header
      bodySize := unserializeBodySize header
      contentSize := al5MailGetSize mail
      body := pokeWords (List.replicate (al5MailGetSize mail) 0) 0 words } := by
  obtain ⟨huid, hsize⟩ := readHeader_eq mail
  rw [← hheader] at huid hsize
  have hlength : mail.body.length = al5MailGetSize mail := hcomplete
  constructor
  · unfold al5MailGetUid
    rw [huid]
  · unfold al5MailGetSize
    rw [hsize]
  · rw [pokeWords_length, List.length_replicate, hlength]
  · intro j hj
    have hword : words[j]? = some (wordAt mail.body (4 * j)) := by
      rw [hwords, List.getElem?_map, List.getElem?_range (by omega)]
      rfl
    have hcount : words.length = al5MailGetSize mail / 4 := by
      rw [hwords, List.length_map, List.length_range]
    have hfit : 0 + 4 * words.length ≤
        (List.replicate (al5MailGetSize mail) (0 : Byte)).length := by
      rw [List.length_replicate, hcount]
      omega
    have hread := wordAt_pokeWords hword hfit
    rw [Nat.zero_add] at hread
    exact hread

/-- The words of the mail being read are the words that were stored. -/
theorem Reading.words
    {k updates H : ℕ} {entry : Published} (hinv : RingInv N state)
    (hreading : Reading i k updates H entry state) (hupdates : updates / 2 ≤ k) :
    ∀ store ∈ frameStores N H entry.mail, state.data store.1 = store.2 := by
  have hwords := hinv.words k entry
    (by rw [hreading.updates]; exact hupdates) hreading.entry_eq
  rw [hreading.position] at hwords
  exact hwords

theorem Reading.headPos_eq
    {k updates H : ℕ} {entry : Published}
    (hreading : Reading i k updates H entry state)
    (hupdates : updates / 2 = k) : state.headPos = H + updates % 2 := by
  unfold RingState.headPos
  rw [hreading.updates, hupdates, hreading.position]

/-- A published mail fits on the ring. -/
theorem Reading.fits
    {k H : ℕ} {entry : Published} (hinv : RingInv N state)
    (hreading : Reading i k (2 * k + 1) H entry state) :
    frameWords entry.mail ≤ N := by
  have hlt := lt_length_of_getElem? hreading.entry_eq
  have hframe := framesBefore_lt hreading.entry_eq hlt
  have hroom := hinv.room
  rw [hreading.headPos_eq (by omega)] at hroom
  rw [hreading.position] at hframe
  unfold RingState.tailPos at hroom
  omega

/-- One `read_data`: the words are those stored, and the head passes them. -/
theorem wp_readDataAt
    {k updates H position size : ℕ} {entry : Published}
    {stores : List (ℕ × Word)} {next : List Byte → RingProg RingOut}
    {post : RingOut → RingState → Prop}
    (hring : 4 * N ≤ 65532) (hN : 0 < N) (hsize : size ≤ 4 * N)
    (hstores : stores.map Prod.fst = slots N position (size / 4))
    (hlocked : ReadLocked i (Reading i k updates H entry) state)
    (hwords : ∀ state, RingInv N state → Reading i k updates H entry state →
      ∀ store ∈ stores, state.data store.1 = store.2)
    (hpass : ∀ state, RingInv N state → Reading i k updates H entry state →
      RingInv N { state with
        head := slot N (position + (size + 3) / 4)
        headUpdates := state.headUpdates + 1 })
    (hnext : ∀ state, ReadLocked i (Reading i k (updates + 1) H entry) state →
      (ringOutline N).wp i op
        (next (pokeWords (List.replicate size 0) 0 (stores.map Prod.snd)))
        post state) :
    (ringOutline N).wp i op
      ((readDataAt (4 * N) size (slot N position)).bind next) post state := by
  rw [readDataAt_eq hN hring hsize, ← hstores]
  simp only [Prog.bind_assoc, Prog.act_bind, Prog.ret_bind]
  apply wp_loadWords hlocked (ReadLocked.stable Reading.stable)
  · exact fun state hinv hlocked => hwords state hinv hlocked.2
  intro state hlocked
  apply wp_access hlocked (ReadLocked.stable Reading.stable)
  intro state hinv hlocked _
  have hreading := hlocked.2
  refine ⟨hpass state hinv hreading, ?_, ?_⟩
  · exact guarantee_read hreading.owner rfl rfl rfl rfl (Nat.le_succ _) rfl
  · apply hnext
    have hupdates : state.headUpdates + 1 = updates + 1 := by
      rw [hreading.updates]
    exact ⟨hlocked.1, ⟨hreading.owner, hupdates, hreading.received⟩,
      hreading.entry_eq, hreading.position⟩

theorem Reading.busy
    {k updates H : ℕ} {entry : Published}
    (hreading : Reading i k updates H entry state) :
    state.owner .irqThread ≠ none := by
  rw [hreading.owner]
  exact Option.some_ne_none i

/-- The head register while the call reads. -/
theorem Reading.head_eq
    {k updates H : ℕ} {entry : Published} (hinv : RingInv N state)
    (hreading : Reading i k updates H entry state)
    (hupdates : updates / 2 = k) : state.head = slot N (H + updates % 2) := by
  rw [hinv.head_eq, hreading.headPos_eq hupdates]

/-- `al5_mcu_recv` returns the next mail. -/
theorem recv_wp
    {k H : ℕ} {entry : Published} {next : Al5Mail → RingProg RingOut}
    {post : RingOut → RingState → Prop}
    (hN : 0 < N) (hring : 4 * N ≤ 65532)
    (hreading : Reading i k (2 * k) H entry state)
    (hnext : ∀ mail state, SameMail entry.mail mail →
      Reading i k (2 * k + 2) H entry state →
        (ringOutline N).wp i op (next mail) post state) :
    (ringOutline N).wp i op ((al5McuRecv (4 * N)).bind next) post state := by
  rw [al5McuRecv_bind_eq]
  apply wp_lock_read hreading Reading.stable Reading.setOwner
  intro state hlocked
  rw [al5MailboxRead_eq]
  simp only [Prog.act_bind, Prog.bind_assoc, Prog.ret_bind]
  -- The header is one word, and its update of the head frees it.
  apply wp_observe hlocked (ReadLocked.stable Reading.stable) (fun _ => rfl)
  intro state hinv hlocked
  have hhead : (state.access (4 * N) i op .readHead).1 = slot N H := by
    have heq := hlocked.2.head_eq hinv (by omega)
    rw [show 2 * k % 2 = 0 from by omega] at heq
    exact heq
  have hheader : [(slot N H, headerWord entry.mail)].map Prod.fst =
      slots N H (headerSize / 4) := rfl
  rw [hhead]
  apply wp_readDataAt hring hN (show headerSize ≤ 4 * N from by
    unfold headerSize; omega) hheader hlocked
  · intro state hinv hreading store hmem
    rw [List.mem_singleton] at hmem
    subst hmem
    exact hreading.words hinv (by omega) _ List.mem_cons_self
  · intro state hinv hreading
    have hpass := hinv.passHeader hreading.updates
      (lt_length_of_getElem? hreading.entry_eq) hreading.busy
    rw [hreading.position] at hpass
    exact hpass
  intro state hlocked
  -- The body follows, with the size which the header carries.
  apply wp_observe hlocked (ReadLocked.stable Reading.stable) (fun _ => rfl)
  intro state hinv hlocked
  have hhead : (state.access (4 * N) i op .readHead).1 = slot N (H + 1) := by
    have heq := hlocked.2.head_eq hinv (by omega)
    rw [show (2 * k + 1) % 2 = 1 from by omega] at heq
    exact heq
  have hfits := hlocked.2.fits hinv
  have hcomplete := hinv.complete k entry hlocked.2.entry_eq
  have hsize : (unserializeBodySize (pokeWords (List.replicate headerSize 0) 0
      (List.map Prod.snd [(slot N H, headerWord entry.mail)]))).toNat =
        al5MailGetSize entry.mail :=
    congrArg BitVec.toNat (readHeader_eq entry.mail).2
  have hle : al5MailGetSize entry.mail ≤ 4 * N := by
    unfold frameWords at hfits
    omega
  rw [hhead, hsize]
  apply wp_readDataAt hring hN hle (storesAt_fst N (H + 1) entry.mail.body _)
    hlocked
  · intro state hinv hreading store hmem
    exact hreading.words hinv (by omega) _ (List.mem_cons_of_mem _ hmem)
  · intro state hinv hreading
    have hpass := hinv.passBody hreading.updates hreading.entry_eq hreading.busy
    rw [hreading.position] at hpass
    unfold frameWords at hpass
    rw [Nat.add_assoc]
    exact hpass
  intro state hlocked
  apply wp_unlock_read hlocked Reading.stable Reading.setOwner
  intro state hreading
  apply hnext _ _ _ hreading
  exact sameMail_of_words hcomplete rfl (storesAt_snd N (H + 1) _ _)

structure SeenHead (i k head : ℕ) (state : RingState) : Prop extends
    Idle i k (2 * k) state where
  head_eq : state.head = head

theorem SeenHead.stable {k head : ℕ} :
    (ringOutline N).Stable i (SeenHead i k head) := by
  intro state state' hseen hrely hinv'
  have hidle := Idle.stable (N := N) state state' hseen.toIdle hrely hinv'
  obtain ⟨hhead, _, _, _⟩ := hrely.irqThread hseen.owner
  exact ⟨hidle, hhead.trans hseen.head_eq⟩

/-- When head and tail differ there is a mail to read. -/
theorem SeenHead.exists_entry
    {k head : ℕ} (hinv : RingInv N state) (hseen : SeenHead i k head state)
    (hne : head ≠ slot N state.tailPos) :
    ∃ entry, state.published[k]? = some entry := by
  rcases Nat.lt_or_ge k state.published.length with hlt | hge
  · exact ⟨state.published[k], List.getElem?_eq_getElem hlt⟩
  · have hupdates := hseen.updates
    have hle := hinv.updates_le
    have hk : state.headUpdates / 2 = state.published.length := by omega
    have hpos : state.headPos = state.tailPos := by
      unfold RingState.headPos RingState.tailPos
      rw [hk, show state.headUpdates % 2 = 0 from by omega, Nat.add_zero]
    rw [← hpos, ← hinv.head_eq] at hne
    exact absurd hseen.head_eq.symm hne

/-- One turn of the interrupt thread. -/
theorem read_wp (hN : 0 < N) (hring : 4 * N ≤ 65532) :
    (ringOutline N).wp i .read
      ((readMail (4 * N)).bind fun mail => .ret (.read mail))
      (RingPost i .read) state := by
  have htrue : (ringOutline N).Stable i fun _ => True :=
    Outline.Stable.const True
  rw [readMail_bind_eq]
  apply wp_access trivial htrue
  intro state hinv _ hblocks
  have hfree : state.owner .irqThread = none := by
    simpa [RingState.blocks] using hblocks
  have hupdates := hinv.idle hfree
  have hown : Function.update state.owner RingLock.irqThread (some i) .irqThread =
      some i := by
    rw [Function.update_self]
  refine ⟨hinv.setOwner fun _ => hupdates, guarantee_lock hfree, ?_⟩
  have hidle : Idle i state.received.length (2 * state.received.length)
      (state.access (4 * N) i .read (.lock .irqThread)).2 :=
    ⟨hown, hupdates, rfl⟩
  generalize state.received.length = k at hidle
  rw [al5McuIsEmpty_bind_eq]
  apply wp_lock_read hidle Idle.stable Idle.setOwner
  intro state hlocked
  apply wp_observe hlocked (ReadLocked.stable Idle.stable) (fun _ => rfl)
  intro state hinv hlocked
  have hseen : ReadLocked i (SeenHead i k (state.access (4 * N) i .read
      .readHead).1) state := ⟨hlocked.1, hlocked.2, rfl⟩
  generalize (state.access (4 * N) i .read .readHead).1 = head at hseen
  apply wp_observe hseen (ReadLocked.stable SeenHead.stable) (fun _ => rfl)
  intro state hinv hseen
  have htail : (state.access (4 * N) i .read .readTail).1 =
      slot N state.tailPos := hinv.tail_eq
  rw [htail]
  by_cases hempty : head = slot N state.tailPos
  · rw [beq_iff_eq.mpr hempty]
    apply wp_unlock_read ⟨hseen.1, hseen.2.toIdle⟩ Idle.stable Idle.setOwner
    intro state hidle
    simp only [if_true]
    apply wp_unlock hidle Idle.stable
    · exact fun _ hidle => hidle.owner
    · intro _ state hidle
      rw [hidle.updates, hidle.received]
    · exact fun _ _ => trivial
  · rw [beq_eq_false_iff_ne.mpr hempty]
    obtain ⟨entry, hentry⟩ := hseen.2.exists_entry hinv hempty
    have hreading : Reading i k (2 * k) (framesBefore state.published k) entry
        state := ⟨hseen.2.toIdle, hentry, rfl⟩
    generalize framesBefore state.published k = H at hreading
    apply wp_unlock_read ⟨hseen.1, hreading⟩ Reading.stable Reading.setOwner
    intro state hreading
    simp only [Bool.false_eq_true, if_false]
    apply recv_wp hN hring hreading
    intro mail state hsame hreading
    apply wp_access hreading Reading.stable
    intro state hinv hreading _
    have hentry' : state.published[state.received.length]? = some entry := by
      rw [hreading.received, hreading.entry_eq]
    refine ⟨hinv.deliver hentry' hsame hreading.busy, ?_, ?_⟩
    · exact guarantee_read hreading.owner rfl rfl rfl rfl le_rfl rfl
    · have hnext : Idle i (k + 1) (2 * k + 2)
          (state.access (4 * N) i .read (.deliver mail)).2 := by
        refine ⟨hreading.owner, hreading.updates, ?_⟩
        change (state.received ++ [mail]).length = k + 1
        rw [List.length_append, hreading.received, List.length_singleton]
      apply wp_unlock hnext Idle.stable
      · exact fun _ hidle => hidle.owner
      · intro _ state hidle
        rw [hidle.updates, hidle.received]
        omega
      · exact fun _ _ => trivial

end Calls

theorem ringOutline_valid
    {N : ℕ} (hN : 0 < N) (hring : 4 * N ≤ 65532) (data : ℕ → Word) :
    (ringOutline N).Valid (al5MailboxInit data) where
  init := ringInv_init hN data
  init_fresh _ := List.not_mem_nil
  env {event} := nomatch event
  enter {calls op state state'} hinv henter _ hcovered hfresh := by
    have hstate : state = state' := Option.some.inj henter
    subst hstate
    refine ⟨hinv, hcovered, fun i hi => hfresh i hi.le, ?_⟩
    cases op with
    | send mail => exact send_wp hring (hfresh _ le_rfl)
    | read => exact read_wp hN hring

/-! ## The FIFO -/

/-- What holds of a mailbox at every moment of a run. -/
structure MailboxFifo
    (config : Config RingState RingAct RingAct.Res RingOp RingOut) : Prop where
  /-- The mails read are the first mails published, in order. -/
  inOrder : ∃ read : List Published, read <+: config.state.published ∧
    List.Forall₂ (fun (entry : Published) mail => SameMail entry.mail mail) read
      config.state.received
  /-- No word of a published mail was overwritten before its consumption. -/
  kept : config.state.overwritten = false
  /-- A refused write stored neither to the tail nor to the data. -/
  refused : ∀ (i : ℕ) mail,
    config.calls[i]? = some ⟨.send mail, .ret (.sent (-EAGAIN))⟩ →
      i ∉ config.state.touched

/-- Whatever the interleaving of the accesses of its two ends, a mailbox is a
FIFO of mails. -/
theorem mailbox_is_fifo
    {size : ℕ} (haligned : size % 4 = 0) (hlow : 8 ≤ size) (hhigh : size ≤ 65532)
    (data : ℕ → Word)
    {config : Config RingState RingAct RingAct.Res RingOp RingOut}
    (hreach : (ringMachine size).Reach .free ⟨al5MailboxInit data, []⟩ config) :
    MailboxFifo config := by
  obtain ⟨N, rfl⟩ : ∃ N, size = 4 * N := ⟨size / 4, by omega⟩
  have hholds := (ringOutline_valid (by omega) hhigh data).sound hreach
  constructor
  · exact ⟨_, List.take_prefix _ _, hholds.inv.received⟩
  · exact hholds.inv.kept
  · intro i mail hcall
    exact hholds.covered i _ hcall rfl

/-- A mail of five bytes on a ring of four words, sent and read. -/
theorem mailbox_is_fifo_of_one_mail :
    ∃ config, (ringMachine 16).Reach .free
        ⟨al5MailboxInit fun _ => 0, []⟩ config ∧
      config.state.received.length = 1 ∧ MailboxFifo config := by
  have hrun : ((ringMachine 16).run
      ([.enter .read, .enter (.send ⟨⟨7, 5, 5, [1, 2, 3, 4, 5]⟩, rfl⟩)] ++
        List.replicate 8 (.step 1 ()) ++ List.replicate 15 (.step 0 ()))
      ⟨al5MailboxInit fun _ => 0, []⟩).any
        (fun config => config.state.received.length == 1) = true := by
    decide +kernel
  obtain ⟨config, hreach, hcheck⟩ := Machine.exists_reach_of_run hrun
  exact ⟨config, hreach, beq_iff_eq.mp hcheck,
    mailbox_is_fifo (by decide) (by decide) (by decide) _ hreach⟩

end VcuDriver

import VcuDriver.UserMails

/-!
# The mails of a creation

What the calls that create a channel may send, whoever of them sends it: requests
until a channel is obtained, then its intermediate buffers, then its reference
buffers, and nothing more.  `Pushes` is the automaton; it reads the log of a user.
-/

namespace VcuDriver

def sentMails : List Event → List (ℕ × Al5Mail)
  | [] => []
  | .sent call mail :: earlier => sentMails earlier ++ [(call, mail)]
  | _ :: earlier => sentMails earlier

inductive Pushes where
  | searching
  | obtained (chanUid : Word)
  | half (chanUid : Word) (intermediate : Al5Mail)
  | complete (chanUid : Word) (intermediate reference : Al5Mail)
  | astray

namespace Pushes

def send : Pushes → Al5Mail → Pushes
  | .searching, mail =>
      if mail.uid? = some .createChannel then .searching else .astray
  | .obtained chanUid, mail =>
      if mail.uid? = some .pushBufferIntermediate then .half chanUid mail else .astray
  | .half chanUid intermediate, mail =>
      if mail.uid? = some .pushBufferReference then
        .complete chanUid intermediate mail
      else
        .astray
  | .complete .., _ | .astray, _ => .astray

def obtain : Pushes → Word → Pushes
  | .searching, chanUid => if chanUid = badChan then .astray else .obtained chanUid
  | _, _ => .astray

def next (pushes : Pushes) : Event → Pushes
  | .sent _ mail => pushes.send mail
  | .chanUid value => pushes.obtain value
  | _ => pushes

def of : List Event → Pushes
  | [] => .searching
  | event :: earlier => (of earlier).next event

end Pushes

/-! ## Silent events -/

/-- Events which are neither a mail sent nor a channel obtained. -/
def Event.isSilent : Event → Bool
  | .sent .. | .chanUid _ => false
  | _ => true

theorem pushes_of_silent
    {event : Event} (hsilent : event.isSilent = true) (log : List Event) :
    Pushes.of (event :: log) = Pushes.of log := by
  cases event <;> first | rfl | exact absurd hsilent Bool.false_ne_true

theorem sentMails_of_silent
    {event : Event} (hsilent : event.isSilent = true) (log : List Event) :
    sentMails (event :: log) = sentMails log := by
  cases event <;> first | rfl | exact absurd hsilent Bool.false_ne_true

/-! ## What the automaton says about a log -/

def NoChannel (log : List Event) : Prop :=
  ∀ value, .chanUid value ∉ log

def RequestsOnly (log : List Event) : Prop :=
  ∀ sent ∈ sentMails log, sent.2.uid? = some .createChannel

/-- The log obtains the channel once; before there are only requests, and from then on
exactly these mails are sent. -/
def ObtainedThen (log : List Event) (chanUid : Word) (mails : List Al5Mail) : Prop :=
  ∃ later earlier, log = later ++ .chanUid chanUid :: earlier ∧
    NoChannel later ∧ NoChannel earlier ∧ RequestsOnly earlier ∧
    (sentMails later).map Prod.snd = mails

/-- What a log has done when it leads to a state of the automaton. -/
def Pushes.Describes (log : List Event) : Pushes → Prop
  | .searching => NoChannel log ∧ RequestsOnly log
  | .obtained chanUid => chanUid ≠ badChan ∧ ObtainedThen log chanUid []
  | .half chanUid intermediate =>
      chanUid ≠ badChan ∧ ObtainedThen log chanUid [intermediate] ∧
        intermediate.uid? = some .pushBufferIntermediate
  | .complete chanUid intermediate reference =>
      chanUid ≠ badChan ∧ ObtainedThen log chanUid [intermediate, reference] ∧
        intermediate.uid? = some .pushBufferIntermediate ∧
        reference.uid? = some .pushBufferReference
  | .astray => True

section

variable {log : List Event} {event : Event} {chanUid : Word} {mails : List Al5Mail}

theorem noChannel_cons (hnone : NoChannel log) (hevent : ∀ value, event ≠ .chanUid value) :
    NoChannel (event :: log) := by
  intro value hmem
  obtain heq | hmem := List.mem_cons.mp hmem
  · exact hevent value heq.symm
  · exact hnone value hmem

theorem ObtainedThen.silent
    (hthen : ObtainedThen log chanUid mails) (hsilent : event.isSilent = true) :
    ObtainedThen (event :: log) chanUid mails := by
  obtain ⟨later, earlier, rfl, hlater, hearlier, hrequests, hmails⟩ := hthen
  refine ⟨event :: later, earlier, rfl, noChannel_cons hlater ?_, hearlier, hrequests, ?_⟩
  · rintro value rfl
    exact absurd hsilent Bool.false_ne_true
  · rw [sentMails_of_silent hsilent]
    exact hmails

theorem ObtainedThen.sent
    (hthen : ObtainedThen log chanUid mails) (call : ℕ) (mail : Al5Mail) :
    ObtainedThen (.sent call mail :: log) chanUid (mails ++ [mail]) := by
  obtain ⟨later, earlier, rfl, hlater, hearlier, hrequests, rfl⟩ := hthen
  refine ⟨.sent call mail :: later, earlier, rfl, noChannel_cons hlater (by simp),
    hearlier, hrequests, ?_⟩
  simp [sentMails]

theorem describes_silent
    {pushes : Pushes} (hdescribes : pushes.Describes log)
    (hsilent : event.isSilent = true) : pushes.Describes (event :: log) := by
  cases pushes with
  | searching =>
      refine ⟨noChannel_cons hdescribes.1 ?_, ?_⟩
      · rintro value rfl
        exact absurd hsilent Bool.false_ne_true
      · unfold RequestsOnly
        rw [sentMails_of_silent hsilent]
        exact hdescribes.2
  | obtained chanUid => exact ⟨hdescribes.1, hdescribes.2.silent hsilent⟩
  | half chanUid intermediate =>
      exact ⟨hdescribes.1, hdescribes.2.1.silent hsilent, hdescribes.2.2⟩
  | complete chanUid intermediate reference =>
      exact ⟨hdescribes.1, hdescribes.2.1.silent hsilent, hdescribes.2.2⟩
  | astray => trivial

theorem describes_send
    {pushes : Pushes} (hdescribes : pushes.Describes log) (call : ℕ) (mail : Al5Mail) :
    (pushes.send mail).Describes (.sent call mail :: log) := by
  cases pushes with
  | searching =>
      by_cases huid : mail.uid? = some .createChannel
      · have hsend : Pushes.searching.send mail = .searching := if_pos huid
        rw [hsend]
        refine ⟨noChannel_cons hdescribes.1 (by simp), fun sent hsent => ?_⟩
        obtain hsent | hsent := List.mem_append.mp hsent
        · exact hdescribes.2 sent hsent
        · rw [List.mem_singleton.mp hsent]
          exact huid
      · have hsend : Pushes.searching.send mail = .astray := if_neg huid
        rw [hsend]
        trivial
  | obtained chanUid =>
      by_cases huid : mail.uid? = some .pushBufferIntermediate
      · have hsend : (Pushes.obtained chanUid).send mail = .half chanUid mail :=
          if_pos huid
        rw [hsend]
        exact ⟨hdescribes.1, hdescribes.2.sent call mail, huid⟩
      · have hsend : (Pushes.obtained chanUid).send mail = .astray := if_neg huid
        rw [hsend]
        trivial
  | half chanUid intermediate =>
      by_cases huid : mail.uid? = some .pushBufferReference
      · have hsend : (Pushes.half chanUid intermediate).send mail =
            .complete chanUid intermediate mail := if_pos huid
        rw [hsend]
        exact ⟨hdescribes.1, hdescribes.2.1.sent call mail, hdescribes.2.2, huid⟩
      · have hsend : (Pushes.half chanUid intermediate).send mail = .astray :=
          if_neg huid
        rw [hsend]
        trivial
  | complete chanUid intermediate reference => trivial
  | astray => trivial

theorem describes_obtain
    {pushes : Pushes} (hdescribes : pushes.Describes log) (value : Word) :
    (pushes.obtain value).Describes (.chanUid value :: log) := by
  cases pushes with
  | searching =>
      by_cases hbad : value = badChan
      · have hobtain : Pushes.searching.obtain value = .astray := if_pos hbad
        rw [hobtain]
        trivial
      · have hobtain : Pushes.searching.obtain value = .obtained value := if_neg hbad
        rw [hobtain]
        refine ⟨hbad, [], log, rfl, ?_, hdescribes.1, hdescribes.2, rfl⟩
        intro value hmem
        exact absurd hmem List.not_mem_nil
  | _ => trivial

end

/-- A log is described by the state it leads to. -/
theorem pushes_describe (log : List Event) : (Pushes.of log).Describes log := by
  induction log with
  | nil =>
      refine ⟨fun value hmem => absurd hmem List.not_mem_nil, fun sent hsent => ?_⟩
      exact absurd hsent List.not_mem_nil
  | cons event log ih =>
      cases event with
      | sent call mail => exact describes_send ih call mail
      | chanUid value => exact describes_obtain ih value
      | _ => exact describes_silent ih rfl

theorem sentMails_append (later earlier : List Event) :
    sentMails (later ++ earlier) = sentMails earlier ++ sentMails later := by
  induction later with
  | nil => simp [sentMails]
  | cons event later ih =>
      cases event with
      | sent call mail => simp [sentMails, ih]
      | _ => exact ih

/-- The mails sent after a channel was obtained follow the requests. -/
theorem ObtainedThen.sentMails_eq
    {log : List Event} {chanUid : Word} {mails : List Al5Mail}
    (hthen : ObtainedThen log chanUid mails) :
    ∃ requests pushed, sentMails log = requests ++ pushed ∧
      (∀ sent ∈ requests, sent.2.uid? = some .createChannel) ∧
      pushed.map Prod.snd = mails := by
  obtain ⟨later, earlier, rfl, -, -, hrequests, hmails⟩ := hthen
  refine ⟨sentMails earlier, sentMails later, ?_, hrequests, hmails⟩
  rw [sentMails_append]
  rfl

/-- Where the reference buffers were sent, the creation is complete or went astray. -/
theorem complete_of_reference
    {log : List Event} {call : ℕ} {mail : Al5Mail}
    (hsent : (call, mail) ∈ sentMails log)
    (huid : mail.uid? = some .pushBufferReference) :
    (∃ chanUid intermediate reference,
        Pushes.of log = .complete chanUid intermediate reference) ∨
      Pushes.of log = .astray := by
  have hdescribes := pushes_describe log
  have hother : ∀ {chanUid mails}, ObtainedThen log chanUid mails →
      mail ∈ mails ∨ mail.uid? = some .createChannel := by
    intro chanUid mails hthen
    obtain ⟨requests, pushed, hlog, hrequests, hmails⟩ := hthen.sentMails_eq
    rw [hlog] at hsent
    obtain hsent | hsent := List.mem_append.mp hsent
    · exact .inr (hrequests _ hsent)
    · exact .inl (hmails ▸ List.mem_map_of_mem (f := Prod.snd) hsent)
  cases hpushes : Pushes.of log with
  | searching =>
      rw [hpushes] at hdescribes
      cases huid.symm.trans (hdescribes.2 _ hsent)
  | obtained chanUid =>
      rw [hpushes] at hdescribes
      obtain hmem | hcreate := hother hdescribes.2
      · exact absurd hmem List.not_mem_nil
      · cases huid.symm.trans hcreate
  | half chanUid intermediate =>
      rw [hpushes] at hdescribes
      obtain hmem | hcreate := hother hdescribes.2.1
      · rw [List.mem_singleton.mp hmem, hdescribes.2.2] at huid
        cases huid
      · cases huid.symm.trans hcreate
  | complete chanUid intermediate reference => exact .inl ⟨_, _, _, rfl⟩
  | astray => exact .inr rfl

end VcuDriver

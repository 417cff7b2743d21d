import VcuDriver.Feedback
import VcuDriver.Group
import VcuDriver.MailboxContents

/-!
# The dispatch of a mail

`handle_mail` gives a mail of the MCU to a user of the group, or frees it and then
may ask the MCU to destroy the channel that nobody has.  It runs under the lock of
the group.

A mail is addressed by a slot of the table or by a channel uid.  The second search
compares with a field that is `BAD_CHAN` in a user without a channel.
-/

namespace VcuDriver.Group

open Conc

/-- A group with the mailboxes of its MCU. -/
structure McuGroup where
  group : Al5Group
  cpuToMcu : Ring
  mcuToCpu : Ring

/-- The mails that `handle_mail` may free: the one received, and the one built for
an orphan channel. -/
inductive Freed where
  | received
  | orphanDestroy
  deriving DecidableEq

/-! ## Delivery -/

namespace Al5Group

variable (group : Al5Group)

def retrieveUser (mail : Al5Mail) : Option ℕ :=
  match mail.uid? with
  | some .createChannel => group.al5GroupUserFromUid (al5MailGetWord mail 1).toInt
  | some .init | some .searchStartCode =>
      group.al5GroupUserFromUid (al5MailGetWord mail 0).toInt
  | _ => group.al5GroupUserFromChanUid (al5MailGetWord mail 0)

def deliver (pointer : ℕ) (mail : Al5Mail) : Al5Group :=
  group.setUser pointer
    { group.memory pointer with state := al5UserDeliver mail (group.user pointer) }

theorem user_deliver_self (pointer : ℕ) (mail : Al5Mail) :
    (group.deliver pointer mail).user pointer = al5UserDeliver mail (group.user pointer) := by
  unfold user deliver setUser
  dsimp only
  rw [Function.update_self]
  rfl

theorem user_deliver_of_ne {pointer other : ℕ} (hother : other ≠ pointer) (mail : Al5Mail) :
    (group.deliver pointer mail).user other = group.user other := by
  unfold user deliver setUser
  dsimp only
  rw [Function.update_of_ne hother]

def tryToDeliverToUser (mail : Al5Mail) : ℤ × Al5Group :=
  match group.retrieveUser mail with
  | none => (-1, group)
  | some pointer => (0, group.deliver pointer mail)

end Al5Group

/-! ## The handler -/

/-- `destroy_orphan_channel`, when its mail can be allocated. -/
def destroyOrphanChannel (mailboxSize : ℕ) (chanUid : Word) : RingProg (List Freed) :=
  match createQuietDestroyChannelMsg true chanUid with
  | .ok (some mail) => do
      let err ← al5McuSend mailboxSize mail
      if err ≠ 0 then
        pure [.orphanDestroy]
      else do
        Prog.perform RingAct.signal
        pure [.orphanDestroy]
  | _ => pure []

/-- `handle_mail`: the group afterwards, and what was freed. -/
def handleMail (mailboxSize : ℕ) (mail : Al5Mail) (state : McuGroup) :
    McuGroup × List Freed :=
  if mail.uid? = some .trace then
    (state, [.received])
  else
    let (error, group) := state.group.tryToDeliverToUser mail
    if error ≠ 0 then
      if shouldDestroyChannelOnBadFeedback mail.uid? then
        let orphan := (destroyOrphanChannel mailboxSize (al5MailGetChanUid mail)).run
          Ring.access state.cpuToMcu
        ({ state with group := group, cpuToMcu := orphan.2 }, orphan.1 ++ [.received])
      else
        ({ state with group := group }, [.received])
    else
      ({ state with group := group }, [])

/-! ## Addressees -/

/-- The word of the body with the uid of a user, in a mail that has one. -/
def userUidWord (mail : Al5Mail) : Option Word :=
  match mail.uid? with
  | some .createChannel => some (al5MailGetWord mail 1)
  | some .init | some .searchStartCode => some (al5MailGetWord mail 0)
  | _ => none

def ChannelAddressed (mail : Al5Mail) : Prop :=
  userUidWord mail = none ∧ mail.uid? ≠ some .trace

namespace Al5Group

variable (group : Al5Group)

def InSlot (word : Word) (pointer : ℕ) : Prop :=
  ∃ i : ℕ, word.toInt = i ∧ group.users[i]? = some (some pointer)

def HasChannel (chanUid : Word) (pointer : ℕ) : Prop :=
  group.Bound pointer ∧ (group.user pointer).chanUid = chanUid ∧
    (group.user pointer).chanUid ≠ badChan

/-- The user for whom a mail is meant: the one in a slot, or the only one that has a
channel. -/
def Addressee (mail : Al5Mail) (pointer : ℕ) : Prop :=
  match userUidWord mail with
  | some word => group.InSlot word pointer
  | none => group.HasChannel (al5MailGetWord mail 0) pointer ∧
      ∀ other, group.HasChannel (al5MailGetWord mail 0) other → other = pointer

def ChannelsDistinct : Prop :=
  ∀ pointer other, group.Bound pointer → group.Bound other →
    (group.user pointer).chanUid ≠ badChan →
      (group.user pointer).chanUid = (group.user other).chanUid → pointer = other

def Queued (before : Al5Group) (mail : Al5Mail) (pointer : ℕ) : Prop :=
  ∃ which, ((group.user pointer).queues which).mails =
    ((before.user pointer).queues which).mails ++ [mail]

theorem retrieveUser_eq (mail : Al5Mail) :
    group.retrieveUser mail =
      match userUidWord mail with
      | some word => group.al5GroupUserFromUid word.toInt
      | none => group.al5GroupUserFromChanUid (al5MailGetWord mail 0) := by
  unfold retrieveUser userUidWord
  cases mail.uid? with
  | none => rfl
  | some uid => cases uid <;> rfl

variable {group} {mail : Al5Mail} {pointer : ℕ}

theorem InSlot.bound {word : Word} (hslot : group.InSlot word pointer) :
    group.Bound pointer := by
  obtain ⟨i, -, hslot⟩ := hslot
  exact List.mem_of_getElem? hslot

/-- The lookup by uid is a bounded access to the table. -/
theorem userFromUid_eq_some_iff {word : Word} :
    group.al5GroupUserFromUid word.toInt = some pointer ↔ group.InSlot word pointer := by
  unfold al5GroupUserFromUid InSlot maxUsersNb
  by_cases hrange : word.toInt ≥ group.users.length ∨ word.toInt < 0
  · rw [if_pos hrange]
    refine iff_of_false (by simp) ?_
    rintro ⟨i, hi, hslot⟩
    have hlt := (List.getElem?_eq_some_iff.mp hslot).1
    omega
  · rw [if_neg hrange, List.getD_eq_getElem?_getD]
    constructor
    · intro hfound
      refine ⟨word.toInt.toNat, by omega, ?_⟩
      cases hslot : group.users[word.toInt.toNat]? with
      | none =>
          rw [hslot] at hfound
          exact absurd hfound (by simp)
      | some user =>
          rw [hslot, Option.getD_some] at hfound
          rw [hfound]
    · rintro ⟨i, hi, hslot⟩
      rw [hi, Int.toNat_natCast, hslot]
      rfl

/-- The lookup by channel finds a bound user whose field is this uid. -/
theorem userFromChanUid_some {chanUid : Word}
    (hfound : group.al5GroupUserFromChanUid chanUid = some pointer) :
    group.Bound pointer ∧ (group.user pointer).chanUid = chanUid := by
  unfold al5GroupUserFromChanUid at hfound
  have hfind := Option.join_eq_some_iff.mp hfound
  have hhas := List.find?_some hfind
  exact ⟨List.mem_of_find?_eq_some hfind, beq_iff_eq.mp hhas⟩

/-- It finds nobody only if no bound user has this uid in its field. -/
theorem userFromChanUid_none {chanUid : Word}
    (hnone : group.al5GroupUserFromChanUid chanUid = none) (hbound : group.Bound pointer) :
    (group.user pointer).chanUid ≠ chanUid := by
  intro hsame
  unfold al5GroupUserFromChanUid at hnone
  cases hfind : group.users.find? fun user => group.hasChannelId user chanUid with
  | none =>
      have hnot := List.find?_eq_none.mp hfind (some pointer) hbound
      exact hnot (beq_iff_eq.mpr hsame)
  | some user =>
      rw [hfind] at hnone
      cases user with
      | none =>
          have hhas := List.find?_some hfind
          exact absurd hhas Bool.false_ne_true
      | some user => exact absurd hnone (by simp)

/-- Where nobody is found, there is no addressee. -/
theorem no_addressee (hnone : group.retrieveUser mail = none) :
    ¬ group.Addressee mail pointer := by
  rw [retrieveUser_eq] at hnone
  unfold Addressee
  cases huid : userUidWord mail with
  | some word =>
      simp only [huid] at hnone ⊢
      intro hslot
      rw [userFromUid_eq_some_iff.mpr hslot] at hnone
      exact absurd hnone (by simp)
  | none =>
      simp only [huid] at hnone ⊢
      rintro ⟨⟨hbound, hsame, -⟩, -⟩
      exact userFromChanUid_none hnone hbound hsame

theorem retrieveUser_bound (hfound : group.retrieveUser mail = some pointer) :
    group.Bound pointer := by
  rw [retrieveUser_eq] at hfound
  cases huid : userUidWord mail with
  | some word =>
      simp only [huid] at hfound
      exact (userFromUid_eq_some_iff.mp hfound).bound
  | none =>
      simp only [huid] at hfound
      exact (userFromChanUid_some hfound).1

/-- The user found is the addressee, except for a user without a channel that is
found by the uid `BAD_CHAN`. -/
theorem addressee_iff (hdistinct : group.ChannelsDistinct)
    (hfound : group.retrieveUser mail = some pointer) :
    group.Addressee mail pointer ↔
      (userUidWord mail = none → al5MailGetWord mail 0 ≠ badChan) := by
  rw [retrieveUser_eq] at hfound
  unfold Addressee
  cases huid : userUidWord mail with
  | some word =>
      simp only [huid] at hfound ⊢
      exact iff_of_true (userFromUid_eq_some_iff.mp hfound) (by simp)
  | none =>
      simp only [huid] at hfound ⊢
      obtain ⟨hbound, hsame⟩ := userFromChanUid_some hfound
      constructor
      · rintro ⟨⟨-, -, hcreated⟩, -⟩ -
        rw [← hsame]
        exact hcreated
      · intro hword
        have hcreated : (group.user pointer).chanUid ≠ badChan := hsame ▸ hword trivial
        refine ⟨⟨hbound, hsame, hcreated⟩, ?_⟩
        rintro other ⟨hother, hotherSame, -⟩
        exact (hdistinct pointer other hbound hother hcreated
          (hsame.trans hotherSame.symm)).symm

end Al5Group

/-! ## What a dispatch does -/

def quietDestroyMail (chanUid : Word) : Al5Mail :=
  ⟨10, 4, 4, wordBytes chanUid⟩

/-- `destroy_orphan_channel` sends its mail as `al5_check_and_send` would. -/
theorem destroyOrphanChannel_eq (mailboxSize : ℕ) (chanUid : Word) :
    destroyOrphanChannel mailboxSize chanUid =
      (al5CheckAndSend mailboxSize (some (quietDestroyMail chanUid))).bind fun _ =>
        .ret [.orphanDestroy] := by
  have hmail : createQuietDestroyChannelMsg true chanUid =
      .ok (some (quietDestroyMail chanUid)) := by rfl
  unfold destroyOrphanChannel
  simp only [hmail, Prog.bind_eq, Prog.perform_bind, Prog.pure_eq]
  rw [al5CheckAndSend_eq, Prog.bind_assoc]
  congr 1
  funext err
  split
  · rfl
  · rfl

/-- A mail is traced, or delivered to the user found, or freed after nobody was
found. -/
inductive Handled (mailboxSize : ℕ) (mail : Al5Mail) (state : McuGroup) :
    McuGroup × List Freed → Prop where
  | traced (uid : mail.uid? = some .trace) :
      Handled mailboxSize mail state (state, [.received])
  | delivered (pointer : ℕ) (uid : mail.uid? ≠ some .trace)
      (found : state.group.retrieveUser mail = some pointer) :
      Handled mailboxSize mail state
        ({ state with group := state.group.deliver pointer mail }, [])
  | orphan (cpuToMcu : Ring) (uid : mail.uid? ≠ some .trace)
      (notFound : state.group.retrieveUser mail = none)
      (should : shouldDestroyChannelOnBadFeedback mail.uid? = true)
      (sent : ((al5CheckAndSend mailboxSize
        (some (quietDestroyMail (al5MailGetChanUid mail)))).run Ring.access
          state.cpuToMcu).2 = cpuToMcu) :
      Handled mailboxSize mail state
        ({ state with cpuToMcu := cpuToMcu }, [.orphanDestroy, .received])
  | dropped (uid : mail.uid? ≠ some .trace)
      (notFound : state.group.retrieveUser mail = none)
      (should : shouldDestroyChannelOnBadFeedback mail.uid? = false) :
      Handled mailboxSize mail state (state, [.received])

section

variable {mailboxSize : ℕ} {mail : Al5Mail} {state : McuGroup}

theorem handleMail_cases (mailboxSize : ℕ) (mail : Al5Mail) (state : McuGroup) :
    Handled mailboxSize mail state (handleMail mailboxSize mail state) := by
  unfold handleMail Al5Group.tryToDeliverToUser
  by_cases htrace : mail.uid? = some .trace
  · rw [if_pos htrace]
    exact .traced htrace
  · rw [if_neg htrace]
    cases hfound : state.group.retrieveUser mail with
    | some pointer => exact .delivered pointer htrace hfound
    | none =>
        have herror : (-1 : ℤ) ≠ 0 := by decide
        -- The ring is named, so that nothing below has to run the send.
        obtain ⟨cpuToMcu, hsent⟩ : ∃ cpuToMcu, ((al5CheckAndSend mailboxSize
            (some (quietDestroyMail (al5MailGetChanUid mail)))).run Ring.access
              state.cpuToMcu).2 = cpuToMcu := ⟨_, rfl⟩
        rw [destroyOrphanChannel_eq, Prog.run_bind, hsent]
        dsimp only
        rw [if_pos herror]
        cases hshould : shouldDestroyChannelOnBadFeedback mail.uid? with
        | true =>
            rw [if_pos rfl]
            exact .orphan cpuToMcu htrace hfound hshould hsent
        | false =>
            rw [if_neg Bool.false_ne_true]
            exact .dropped htrace hfound hshould

/-- A delivery appends the mail to one queue of one user. -/
theorem queued_deliver_iff {group : Al5Group} {pointer other : ℕ} :
    (group.deliver pointer mail).Queued group mail other ↔ other = pointer := by
  have hne : ∀ mails : List Al5Mail, mails ≠ mails ++ [mail] := by
    intro mails heq
    have hlength := congrArg List.length heq
    rw [List.length_append, List.length_singleton] at hlength
    omega
  constructor
  · rintro ⟨which, hqueue⟩
    by_contra hother
    rw [Al5Group.user_deliver_of_ne group hother] at hqueue
    exact hne _ hqueue
  · rintro rfl
    refine ⟨mailToQueue mail.uid?, ?_⟩
    rw [Al5Group.user_deliver_self]
    unfold al5UserDeliver UserState.setQueue
    dsimp only
    rw [Function.update_self]

theorem not_queued_self {group : Al5Group} {pointer : ℕ} :
    ¬ group.Queued group mail pointer := by
  rintro ⟨which, hqueue⟩
  have hlength := congrArg List.length hqueue
  rw [List.length_append, List.length_singleton] at hlength
  omega

/-- The users to whom a dispatch queues the mail: the one that is found. -/
theorem queued_handleMail_iff {pointer : ℕ} :
    (handleMail mailboxSize mail state).1.group.Queued state.group mail pointer ↔
      mail.uid? ≠ some .trace ∧ state.group.retrieveUser mail = some pointer := by
  have hcases := handleMail_cases mailboxSize mail state
  generalize handleMail mailboxSize mail state = outcome at hcases ⊢
  cases hcases with
  | traced huid => exact iff_of_false not_queued_self fun hboth => hboth.1 huid
  | delivered found huid hfound =>
      rw [queued_deliver_iff, hfound, Option.some.injEq]
      exact ⟨fun hsame => ⟨huid, hsame.symm⟩, fun hboth => hboth.2.symm⟩
  | orphan cpuToMcu huid hnone =>
      rw [hnone]
      exact iff_of_false not_queued_self (by simp)
  | dropped huid hnone =>
      rw [hnone]
      exact iff_of_false not_queued_self (by simp)

end

def OnlyAddressee (mailboxSize : ℕ) (mail : Al5Mail) (state : McuGroup) : Prop :=
  ∀ pointer, (handleMail mailboxSize mail state).1.group.Queued state.group mail pointer →
    state.group.Bound pointer ∧ state.group.Addressee mail pointer

/-- A mail for the channel `BAD_CHAN`, while a user is bound that has no channel. -/
def MeetsNoChannel (mail : Al5Mail) (group : Al5Group) : Prop :=
  ChannelAddressed mail ∧ al5MailGetWord mail 0 = badChan ∧
    ∃ pointer, group.Bound pointer ∧ (group.user pointer).chanUid = badChan

/-- A mail goes to its addressee only, exactly when it does not meet a user without a
channel. -/
theorem onlyAddressee_iff
    (mailboxSize : ℕ) (mail : Al5Mail) (state : McuGroup)
    (hdistinct : state.group.ChannelsDistinct) :
    OnlyAddressee mailboxSize mail state ↔ ¬ MeetsNoChannel mail state.group := by
  unfold OnlyAddressee
  simp only [queued_handleMail_iff]
  constructor
  · rintro honly ⟨⟨huid, htrace⟩, hbad, other, hbound, hother⟩
    cases hfound : state.group.retrieveUser mail with
    | none =>
        rw [Al5Group.retrieveUser_eq, huid, hbad] at hfound
        exact Al5Group.userFromChanUid_none hfound hbound hother
    | some pointer =>
        have haddressee := (honly pointer ⟨htrace, hfound⟩).2
        exact (Al5Group.addressee_iff hdistinct hfound).mp haddressee huid hbad
  · rintro hnot pointer ⟨htrace, hfound⟩
    have hbound := Al5Group.retrieveUser_bound hfound
    refine ⟨hbound, (Al5Group.addressee_iff hdistinct hfound).mpr ?_⟩
    intro huid hbad
    rw [Al5Group.retrieveUser_eq, huid, hbad] at hfound
    exact hnot ⟨⟨huid, htrace⟩, hbad, pointer, Al5Group.userFromChanUid_some hfound⟩

/-- Two users, of which the first has the channel 3 and the second none. -/
def twoUsers : McuGroup where
  group := {
    users := [some 7, some 9]
    memory := fun pointer =>
      if pointer = 7 then ⟨0, { al5UserInit with chanUid := 3 }⟩ else ⟨1, al5UserInit⟩ }
  cpuToMcu := ⟨0, 0, fun _ => 0⟩
  mcuToCpu := ⟨0, 0, fun _ => 0⟩

def encodeFeedback (chanUid : Word) : Al5Mail :=
  ⟨7, 8, 8, wordBytes chanUid ++ wordBytes 0⟩

theorem twoUsers_channelsDistinct : twoUsers.group.ChannelsDistinct := by
  intro pointer other hpointer hother hcreated hsame
  simp only [twoUsers, Al5Group.Bound, List.mem_cons, Option.some.injEq, List.not_mem_nil,
    or_false] at hpointer hother
  rcases hpointer with rfl | rfl <;> rcases hother with rfl | rfl
  · rfl
  · exact absurd hsame (by decide)
  · exact absurd rfl hcreated
  · rfl

/-- The feedback of channel 3 goes to the first of two users, which has it. -/
theorem onlyAddressee_of_channel_3 :
    (handleMail 2040 (encodeFeedback 3) twoUsers).1.group.Queued twoUsers.group
        (encodeFeedback 3) 7 ∧
      OnlyAddressee 2040 (encodeFeedback 3) twoUsers :=
  ⟨queued_handleMail_iff.mpr ⟨by decide, by decide⟩,
    (onlyAddressee_iff 2040 (encodeFeedback 3) twoUsers twoUsers_channelsDistinct).mpr
      fun hmeets => absurd hmeets.2.1 (by decide)⟩

/-- A feedback for the channel 0xff goes to the second one, which has no channel. -/
theorem not_onlyAddressee :
    ¬ ∀ (mail : Al5Mail) (state : McuGroup), state.group.ChannelsDistinct →
      8 ≤ mail.body.length → OnlyAddressee 2040 mail state := by
  intro hall
  have honly := hall (encodeFeedback badChan) twoUsers twoUsers_channelsDistinct (by decide)
  have hqueued : (handleMail 2040 (encodeFeedback badChan) twoUsers).1.group.Queued
      twoUsers.group (encodeFeedback badChan) 9 :=
    queued_handleMail_iff.mpr ⟨by decide, by decide⟩
  have haddressee := (honly 9 hqueued).2
  exact haddressee.1.2.2 rfl

/-! ## What a dispatch leaves alone -/

/-- The mail was appended to the queue of its uid, of one bound user, and belongs to
it; nothing else was touched. -/
structure Delivered (mail : Al5Mail) (before : McuGroup) (after : McuGroup)
    (freed : List Freed) : Prop where
  kept : freed = []
  cpuToMcu : after.cpuToMcu = before.cpuToMcu
  mcuToCpu : after.mcuToCpu = before.mcuToCpu
  users : after.group.users = before.group.users
  receiver : ∃ pointer, before.group.Bound pointer ∧
    (∀ other, other ≠ pointer → after.group.memory other = before.group.memory other) ∧
    after.group.memory pointer =
      { before.group.memory pointer with
        state := { before.group.user pointer with
          queues := Function.update (before.group.user pointer).queues (mailToQueue mail.uid?)
            ⟨((before.group.user pointer).queues (mailToQueue mail.uid?)).mails ++ [mail],
              ((before.group.user pointer).queues (mailToQueue mail.uid?)).locked⟩ } }

/-- The MCU was asked to destroy the channel that a mail names and nobody has. -/
structure OrphanDestroyed (N : ℕ) (mail : Al5Mail) (before after : McuGroup) : Prop where
  uid : mail.uid? ∉ [some .trace, some .init, some .searchStartCode, some .destroyChannel]
  noAddressee : ∀ pointer, ¬ before.group.Addressee mail pointer
  room : spaceUsed (4 * N) before.cpuToMcu +
    roundup4 (4 + al5MailGetSize (quietDestroyMail (mailChanUid mail))) < 4 * N
  command : ∃ T, before.cpuToMcu.tail = slot N T ∧
    after.cpuToMcu = before.cpuToMcu.after N T (quietDestroyMail (mailChanUid mail))
  contents : ∀ H mails, before.cpuToMcu.Holds N H mails →
    after.cpuToMcu.Holds N H (mails ++ [quietDestroyMail (mailChanUid mail)])

/-- The mail was freed once, no user was touched, and at most one command was sent. -/
structure Dropped (N : ℕ) (mail : Al5Mail) (before after : McuGroup)
    (freed : List Freed) : Prop where
  once : freed.count .received = 1
  balanced : freed.count .orphanDestroy ≤ 1
  group : after.group = before.group
  mcuToCpu : after.mcuToCpu = before.mcuToCpu
  commands : after.cpuToMcu = before.cpuToMcu ∨ OrphanDestroyed N mail before after

theorem delivered_deliver (mail : Al5Mail) {state : McuGroup} {pointer : ℕ}
    (hbound : state.group.Bound pointer) :
    Delivered mail state { state with group := state.group.deliver pointer mail } [] where
  kept := rfl
  cpuToMcu := rfl
  mcuToCpu := rfl
  users := rfl
  receiver := ⟨pointer, hbound, fun _ hother => Function.update_of_ne hother ..,
    Function.update_self ..⟩

/-- The frame of a mail depends on the slot of the tail only. -/
theorem after_congr {N T T' : ℕ} (hslot : slot N T = slot N T') (mail : Al5Mail)
    (ring : Ring) : ring.after N T mail = ring.after N T' mail := by
  have hshift : ∀ j, slot N (T + j) = slot N (T' + j) := by
    intro j
    have hmod := slot_inj hslot
    unfold slot
    rw [Nat.add_mod, hmod, ← Nat.add_mod]
  have hstores : frameStores N T mail = frameStores N T' mail := by
    unfold frameStores storesAt
    simp only [Nat.add_assoc, hslot, hshift]
  unfold Ring.after
  rw [hshift, hstores]

/-- The orphan's channel is destroyed if there is room on the ring. -/
theorem orphanDestroyed_or {N : ℕ} (hring : 4 * N ≤ 65532) {mail : Al5Mail}
    {state : McuGroup} {cpuToMcu : Ring} (hvalid : state.cpuToMcu.Valid (4 * N))
    (htrace : mail.uid? ≠ some .trace)
    (hnone : state.group.retrieveUser mail = none)
    (hshould : shouldDestroyChannelOnBadFeedback mail.uid? = true)
    (hsent : ((al5CheckAndSend (4 * N)
      (some (quietDestroyMail (al5MailGetChanUid mail)))).run Ring.access
        state.cpuToMcu).2 = cpuToMcu) :
    cpuToMcu = state.cpuToMcu ∨
      OrphanDestroyed N mail state { state with cpuToMcu := cpuToMcu } := by
  obtain ⟨H, T, hhead, htail, hHT, hwindow, -⟩ := hvalid.positions
  have hother : ∀ uid, shouldDestroyChannelOnBadFeedback uid = false → mail.uid? ≠ uid := by
    rintro uid hnot rfl
    rw [hshould] at hnot
    exact absurd hnot (by decide)
  have hinit := hother (some .init) rfl
  have hsearch := hother (some .searchStartCode) rfl
  have hdestroy := hother (some .destroyChannel) rfl
  have hword : al5MailGetChanUid mail = mailChanUid mail := by
    unfold al5MailGetChanUid
    split
    · exact absurd ‹_› hinit
    · exact absurd ‹_› hsearch
    · exact absurd ‹_› htrace
    · rfl
  have hsize : al5MailGetSize (quietDestroyMail (mailChanUid mail)) = 4 := rfl
  have hwords : frameWords (quietDestroyMail (mailChanUid mail)) = 2 := by
    unfold frameWords
    rw [hsize]
  rw [hword, run_al5CheckAndSend (quietDestroyMail (mailChanUid mail)) hring hhead htail hHT
    hwindow] at hsent
  by_cases hfull : H + N < T + frameWords (quietDestroyMail (mailChanUid mail)) + 1
  · rw [if_pos hfull] at hsent
    exact .inl hsent.symm
  · rw [if_neg hfull] at hsent
    subst hsent
    right
    exact {
      uid := by simp [htrace, hinit, hsearch, hdestroy]
      noAddressee := fun pointer => Al5Group.no_addressee hnone
      room := by
        rw [spaceUsed_slot hhead htail hHT hwindow, hsize]
        unfold roundup4
        omega
      command := ⟨T, htail, rfl⟩
      contents := by
        intro H' mails hholds
        have hslot := hholds.tail
        have hroom := hholds.room
        rw [htail] at hslot
        have hsame := after_congr hslot (quietDestroyMail (mailChanUid mail)) state.cpuToMcu
        have hused := spaceUsed_slot hholds.head hholds.tail (by omega) (by omega)
        rw [spaceUsed_slot hhead htail hHT hwindow] at hused
        have happend := hholds.append (quietDestroyMail (mailChanUid mail)) rfl (by omega)
        rw [← hsame] at happend
        exact happend }

theorem Dropped.not_delivered {N : ℕ} {mail : Al5Mail} {before after : McuGroup}
    {freed : List Freed} (hdropped : Dropped N mail before after freed) :
    ¬ Delivered mail before after freed := by
  intro hdelivered
  have honce := hdropped.once
  rw [hdelivered.kept] at honce
  exact absurd honce (by decide)

theorem dropped_unsent {N : ℕ} {mail : Al5Mail} {state : McuGroup} :
    Dropped N mail state state [.received] :=
  ⟨rfl, by decide, rfl, rfl, .inl rfl⟩

/-- Every mail is either delivered once or freed once. -/
theorem handleMail_conserves
    (N : ℕ) (hring : 4 * N ≤ 65532) (mail : Al5Mail) (state : McuGroup)
    (hvalid : state.cpuToMcu.Valid (4 * N)) :
    Xor
      (Delivered mail state (handleMail (4 * N) mail state).1
        (handleMail (4 * N) mail state).2)
      (Dropped N mail state (handleMail (4 * N) mail state).1
        (handleMail (4 * N) mail state).2) := by
  have hcases := handleMail_cases (4 * N) mail state
  generalize handleMail (4 * N) mail state = outcome at hcases ⊢
  cases hcases with
  | traced huid =>
      have hdropped : Dropped N mail state state [.received] := dropped_unsent
      exact .inr ⟨hdropped, hdropped.not_delivered⟩
  | delivered pointer huid hfound =>
      have hdelivered := delivered_deliver mail (Al5Group.retrieveUser_bound hfound)
      exact .inl ⟨hdelivered, fun hdropped => hdropped.not_delivered hdelivered⟩
  | orphan cpuToMcu huid hnone hshould hsent =>
      have hdropped : Dropped N mail state { state with cpuToMcu := cpuToMcu }
          [.orphanDestroy, .received] :=
        ⟨rfl, by decide, rfl, rfl, orphanDestroyed_or hring hvalid huid hnone hshould hsent⟩
      exact .inr ⟨hdropped, hdropped.not_delivered⟩
  | dropped huid hnone =>
      have hdropped : Dropped N mail state state [.received] := dropped_unsent
      exact .inr ⟨hdropped, hdropped.not_delivered⟩

/-- The feedback of a channel that nobody has, on an empty ring. -/
theorem handleMail_conserves_of_orphan :
    twoUsers.group.retrieveUser (encodeFeedback 5) = none ∧
      Xor
        (Delivered (encodeFeedback 5) twoUsers
          (handleMail (4 * 510) (encodeFeedback 5) twoUsers).1
          (handleMail (4 * 510) (encodeFeedback 5) twoUsers).2)
        (Dropped 510 (encodeFeedback 5) twoUsers
          (handleMail (4 * 510) (encodeFeedback 5) twoUsers).1
          (handleMail (4 * 510) (encodeFeedback 5) twoUsers).2) :=
  ⟨by decide, handleMail_conserves 510 (by decide) (encodeFeedback 5) twoUsers
    ⟨by decide, by decide, by decide, by decide⟩⟩

end VcuDriver.Group

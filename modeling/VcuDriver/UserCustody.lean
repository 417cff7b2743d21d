import VcuDriver.UserDiscipline
import VcuDriver.Conc.Places

/-!
# Where the mails of a user are

A mail that was delivered to a user lies in one of its queues until a call pops it;
the call holds it until it frees it.  A step of a call moves mails along this way
and neither loses nor doubles one.
-/

namespace VcuDriver

open Conc

/-! ## The places -/

def queuedMails (state : UserState) : List Al5Mail :=
  userMails.flatMap fun which => (state.queues which).mails

def heldMails (config : UserConfig) : List Al5Mail :=
  (List.range config.calls.length).flatMap fun i => mailsHeld i config.state.log

def freedMails : List Event → List Al5Mail
  | [] => []
  | .freed _ mail :: earlier => mail :: freedMails earlier
  | _ :: earlier => freedMails earlier

/-- Every mail of the user. -/
def custody (config : UserConfig) : List Al5Mail :=
  queuedMails config.state ++ heldMails config ++ freedMails config.state.log

section

variable {state state' : UserState} {i : ℕ}

/-- A queue with other mails. -/
theorem perm_queuedMails_setQueue (state : UserState) (which : UserMail)
    (queue : Al5Queue) :
    (queuedMails (state.setQueue which queue) ++ (state.queues which).mails).Perm
      (queuedMails state ++ queue.mails) := by
  have hother : ∀ other, other ≠ which →
      ((state.setQueue which queue).queues other).mails = (state.queues other).mails := by
    intro other hne
    simp [UserState.setQueue, Function.update_of_ne hne]
  have hself : ((state.setQueue which queue).queues which).mails = queue.mails := by
    simp [UserState.setQueue]
  have hnodup : userMails.Nodup := by decide
  have hmem : which ∈ userMails := by cases which <;> decide
  have hperm := perm_flatMap_of_one hnodup hmem hother
  rwa [hself] at hperm

def UserAct.keepsMails : UserAct → Bool
  | .listPop _ | .freeMail _ => false
  | _ => true

theorem act_keepsMails
    {action : UserAct} {choice : Choice} {result : action.Res}
    (hkeeps : action.keepsMails = true)
    (hact : state.act i action choice = some (result, state')) :
    (∀ which, (state'.queues which).mails = (state.queues which).mails) ∧
      freedMails state'.log = freedMails state.log ∧
      ∀ j, mailsHeld j state'.log = mailsHeld j state.log := by
  have hflag : ∀ which locked other, ((state.setQueue which
      { state.queues which with locked := locked }).queues other).mails =
        (state.queues other).mails := by
    intro which locked other
    by_cases hother : other = which
    · subst hother
      simp [UserState.setQueue]
    · simp [UserState.setQueue, Function.update_of_ne hother]
  cases action with
  | listPop which => exact absurd hkeeps (by simp [UserAct.keepsMails])
  | freeMail mail => exact absurd hkeeps (by simp [UserAct.keepsMails])
  | queueUnlock which =>
      cases choice with
      | succeed =>
          obtain ⟨-, rfl⟩ := Prod.mk.inj (Option.some.inj hact)
          exact ⟨hflag which false, rfl, fun _ => rfl⟩
      | _ => exact absurd hact (by simp [UserState.act])
  | queueLock which =>
      cases choice with
      | succeed =>
          obtain ⟨-, rfl⟩ := Prod.mk.inj (Option.some.inj hact)
          exact ⟨hflag which true, rfl, fun _ => rfl⟩
      | _ => exact absurd hact (by simp [UserState.act])
  | _ =>
      cases choice <;> simp only [UserState.act] at hact <;>
        first
          | (obtain ⟨-, rfl⟩ := Prod.mk.inj (Option.some.inj hact)
             exact ⟨fun _ => rfl, rfl, fun _ => rfl⟩)
          | (split_ifs at hact
             all_goals
               obtain ⟨-, rfl⟩ := Prod.mk.inj (Option.some.inj hact)
               exact ⟨fun _ => rfl, rfl, fun _ => rfl⟩)
          | exact absurd hact (by simp)

end

/-! ## Steps -/

section

variable {config config' : UserConfig}

theorem queuedMails_congr
    {state state' : UserState}
    (hmails : ∀ which, (state'.queues which).mails = (state.queues which).mails) :
    queuedMails state' = queuedMails state :=
  List.flatMap_congr fun which _ => hmails which

/-- What the held mails become when call `i` alone holds others. -/
theorem perm_heldMails
    {i : ℕ} (hlt : i < config.calls.length)
    (hlength : config'.calls.length = config.calls.length)
    (hothers : ∀ j, j ≠ i →
      mailsHeld j config'.state.log = mailsHeld j config.state.log) :
    (heldMails config' ++ mailsHeld i config.state.log).Perm
      (heldMails config ++ mailsHeld i config'.state.log) := by
  unfold heldMails
  rw [hlength]
  exact perm_flatMap_of_one List.nodup_range (List.mem_range.mpr hlt) hothers

theorem heldMails_congr
    (hlength : config'.calls.length = config.calls.length)
    (hheld : ∀ j, mailsHeld j config'.state.log = mailsHeld j config.state.log) :
    heldMails config' = heldMails config := by
  unfold heldMails
  rw [hlength]
  exact List.flatMap_congr fun j _ => hheld j

/-- A popped mail goes from its queue to the call. -/
theorem custody_listPop
    {i : ℕ} {which : UserMail} (hlt : i < config.calls.length)
    (hlength : config'.calls.length = config.calls.length)
    (hstate : config'.state = (config.state.setQueue which
      { config.state.queues which with
        mails := (config.state.queues which).mails.tail }).record
          (.popped i which (config.state.queues which).mails.head?)) :
    (custody config').Perm (custody config) := by
  have hqueued := perm_queuedMails_setQueue config.state which
    { config.state.queues which with
      mails := (config.state.queues which).mails.tail }
  have hqueues : queuedMails config'.state =
      queuedMails (config.state.setQueue which { config.state.queues which with
        mails := (config.state.queues which).mails.tail }) := by
    rw [hstate]
    rfl
  have hlog : config'.state.log =
      .popped i which (config.state.queues which).mails.head? :: config.state.log := by
    rw [hstate]
    rfl
  rw [← hqueues] at hqueued
  unfold custody
  cases hmails : (config.state.queues which).mails with
  | nil =>
      rw [hmails] at hqueued hlog
      rw [hlog]
      have hheld : heldMails config' = heldMails config :=
        heldMails_congr hlength fun j => by rw [hlog]; rfl
      rw [hheld]
      simp only [List.tail_nil, List.append_nil] at hqueued
      exact (hqueued.append_right _).append_right _
  | cons mail rest =>
      rw [hmails] at hqueued hlog
      have hheld := perm_heldMails hlt hlength fun j hne => by
        rw [hlog]
        simp [mailsHeld, Ne.symm hne]
      have hself : mailsHeld i config'.state.log =
          mail :: mailsHeld i config.state.log := by
        rw [hlog]
        simp [mailsHeld]
      have hfreed : freedMails config'.state.log = freedMails config.state.log := by
        rw [hlog]
        rfl
      rw [hself] at hheld
      rw [hfreed, List.perm_iff_count]
      intro other
      have hcount₁ := hqueued.count_eq other
      have hcount₂ := hheld.count_eq other
      simp only [List.tail_cons, List.count_append, List.count_cons] at *
      omega

/-- A freed mail was held by the call. -/
theorem custody_freeMail
    {i : ℕ} {mail : Al5Mail} (hlt : i < config.calls.length)
    (hlength : config'.calls.length = config.calls.length)
    (hmem : mail ∈ mailsHeld i config.state.log)
    (hstate : config'.state = config.state.record (.freed i mail)) :
    (custody config').Perm (custody config) := by
  have hqueues : queuedMails config'.state = queuedMails config.state := by
    rw [hstate]
    rfl
  have hlog : config'.state.log = .freed i mail :: config.state.log := by
    rw [hstate]
    rfl
  have hheld := perm_heldMails hlt hlength fun j hne => by
    rw [hlog]
    simp [mailsHeld, Ne.symm hne]
  have hself : mailsHeld i config'.state.log =
      (mailsHeld i config.state.log).erase mail := by
    rw [hlog]
    simp [mailsHeld]
  have hfreed : freedMails config'.state.log = mail :: freedMails config.state.log := by
    rw [hlog]
    rfl
  rw [hself] at hheld
  unfold custody
  rw [hqueues, hfreed, List.perm_iff_count]
  intro other
  have hcount₁ := hheld.count_eq other
  have hcount₂ := (List.perm_cons_erase hmem).count_eq other
  simp only [List.count_append, List.count_cons] at *
  omega

variable {kind : UserKind} {uid : Word}

/-- A step of a call loses no mail and doubles none. -/
theorem custody_step
    {i : ℕ} {choice : Choice}
    (hkept : userDiscipline.Kept KeepsRecord .empty (fun _ _ last => OwnsNothing last)
      config)
    (hnext : (userMachine kind uid).next config (.step i choice) = some config') :
    (custody config').Perm (custody config) := by
  obtain ⟨op, action, rest, result, state, hcall, hexec, rfl⟩ :=
    Machine.next_step_eq_some hnext
  obtain ⟨record, hkeeps, hmay, _⟩ := hkept.calls i _ hcall
  have hlt : i < config.calls.length := (List.getElem?_eq_some_iff.mp hcall).1
  have hlength : (config.calls.set i ⟨op, rest result⟩).length = config.calls.length :=
    List.length_set
  simp only [userMachine] at hexec
  split at hexec
  · cases action with
    | listPop which =>
        cases choice with
        | succeed =>
            obtain ⟨-, rfl⟩ := Prod.mk.inj (Option.some.inj hexec)
            exact custody_listPop hlt hlength rfl
        | _ => exact absurd hexec (by simp [UserState.act])
    | freeMail mail =>
        have hmem : mail ∈ mailsHeld i config.state.log := hkeeps.mails ▸ hmay
        cases choice with
        | succeed =>
            obtain ⟨-, rfl⟩ := Prod.mk.inj (Option.some.inj hexec)
            exact custody_freeMail hlt hlength hmem rfl
        | _ => exact absurd hexec (by simp [UserState.act])
    | _ =>
        obtain ⟨hqueues, hfreed, hheld⟩ := act_keepsMails rfl hexec
        have hsame : custody ⟨state, config.calls.set i ⟨op, rest result⟩⟩ =
            custody config := by
          unfold custody
          rw [queuedMails_congr hqueues, hfreed, heldMails_congr hlength hheld]
        exact List.Perm.of_eq hsame
  · exact absurd hexec (by simp)

/-- A call that enters holds no mail. -/
theorem custody_enter
    {op : UserOp}
    (hkept : userDiscipline.Kept KeepsRecord .empty (fun _ _ last => OwnsNothing last)
      config)
    (hnext : (userMachine kind uid).next config (.enter op) = some config') :
    custody config' = custody config := by
  obtain ⟨state, henter, rfl⟩ := Machine.next_enter_eq_some hnext
  have hstate : state.queues = config.state.queues ∧ state.log = config.state.log := by
    simp only [userMachine, userEnter] at henter
    split_ifs at henter
    · rw [← Option.some.inj henter]
      exact ⟨rfl, rfl⟩
    · rw [← Option.some.inj henter]
      exact ⟨rfl, rfl⟩
  have hfresh : mailsHeld config.calls.length config.state.log = [] :=
    (hkept.fresh config.calls.length le_rfl).mails
  unfold custody queuedMails heldMails
  simp only [hstate.1, hstate.2, List.length_append, List.length_singleton,
    List.range_succ, List.flatMap_append, List.flatMap_singleton, hfresh, List.append_nil]

/-- A delivered mail lies in a queue. -/
theorem custody_deliver (mail : Al5Mail) (config : UserConfig) :
    (custody ⟨al5UserDeliver mail config.state, config.calls⟩).Perm
      (mail :: custody config) := by
  have hqueued := perm_queuedMails_setQueue config.state
    (mailToQueue mail.uid?)
    { config.state.queues (mailToQueue mail.uid?) with
      mails := (config.state.queues (mailToQueue mail.uid?)).mails ++ [mail] }
  have hheld : heldMails ⟨al5UserDeliver mail config.state, config.calls⟩ =
      heldMails config := rfl
  have hfreed : freedMails (al5UserDeliver mail config.state).log =
      freedMails config.state.log := rfl
  unfold custody
  rw [hheld, hfreed, List.perm_iff_count]
  intro other
  have hcount := hqueued.count_eq other
  change List.count other (queuedMails (al5UserDeliver mail config.state) ++ _) = _
    at hcount
  simp only [List.count_append, List.count_cons, List.count_nil] at *
  omega

end

end VcuDriver

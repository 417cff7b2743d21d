import VcuDriver.OpenFiles
import VcuDriver.UserOps
import VcuDriver.Conc.Steps

/-!
# The users of a group

`al_group.c` keeps a table of pointers to the users of a codec.  The slot of a user is
its uid, which the user also stores: `al5_group_bind_user` takes the first free slot
and initialises the user with it, and `al5_group_unbind_user` trusts what the user
stores.

The calls run under the lock of the group, one at a time; between them a user changes
as it likes, but nothing writes its uid.
-/

namespace VcuDriver.Group

open Conc

/-- `struct al5_user`, with the uid that the group gave it. -/
structure Al5User where
  uid : ℤ
  state : UserState

/-- `struct al5_group`: the table, and what its pointers lead to. -/
structure Al5Group where
  users : List (Option ℕ)
  memory : ℕ → Al5User

/-- `al5_group_init`; the memory is what it was. -/
def al5GroupInit (maxUsersNb : ℕ) (memory : ℕ → Al5User) : Al5Group where
  users := List.replicate maxUsersNb none
  memory := memory

namespace Al5Group

variable (group : Al5Group)

def maxUsersNb : ℕ :=
  group.users.length

def user (pointer : ℕ) : UserState :=
  (group.memory pointer).state

def setUser (pointer : ℕ) (content : Al5User) : Al5Group :=
  { group with memory := Function.update group.memory pointer content }

def Bound (pointer : ℕ) : Prop :=
  some pointer ∈ group.users

/-- `al5_group_bind_user`: the loop over the slots ends at the first free one. -/
def al5GroupBindUser (pointer : ℕ) : ℤ × Al5Group :=
  match group.users.findIdx? Option.isNone with
  | none => (-EAGAIN, group)
  | some uid =>
      (0, { group.setUser pointer ⟨uid, al5UserInit⟩ with
        users := group.users.set uid (some pointer) })

def al5GroupUnbindUser (pointer : ℕ) : Al5Group :=
  { group with users := group.users.set (group.memory pointer).uid.toNat none }

def al5GroupUserFromUid (userUid : ℤ) : Option ℕ :=
  if userUid ≥ group.maxUsersNb ∨ userUid < 0 then none
  else group.users.getD userUid.toNat none

/-- `hasChannelId`; a user without a channel has the channel id `BAD_CHAN`. -/
def hasChannelId (user : Option ℕ) (channelId : Word) : Bool :=
  match user with
  | none => false
  | some pointer => (group.user pointer).chanUid == channelId

/-- `al5_group_user_from_chan_uid`: the first slot that matches. -/
def al5GroupUserFromChanUid (chanUid : Word) : Option ℕ :=
  (group.users.find? fun user => group.hasChannelId user chanUid).join

end Al5Group

/-! ## Binding and unbinding -/

/-- A group, with the users which are bound now. -/
structure TableState where
  group : Al5Group
  bound : List ℕ

/-- A call of bind or unbind, or a change of a user by anybody else. -/
inductive TableMove where
  | bind (pointer : ℕ)
  | unbind (pointer : ℕ)
  | work (pointer : ℕ) (content : Al5User)

/-- A user is bound only while it is not, and unbound only while it is; nobody else
writes the uid of a bound user. -/
def tableNext (state : TableState) : TableMove → Option TableState
  | .bind pointer =>
      if pointer ∈ state.bound then none
      else
        let (err, group) := state.group.al5GroupBindUser pointer
        some ⟨group, if err = 0 then pointer :: state.bound else state.bound⟩
  | .unbind pointer =>
      if pointer ∈ state.bound then
        some ⟨state.group.al5GroupUnbindUser pointer, state.bound.erase pointer⟩
      else
        none
  | .work pointer content =>
      if pointer ∈ state.bound → content.uid = (state.group.memory pointer).uid then
        some { state with group := state.group.setUser pointer content }
      else
        none

def tableStart (maxUsersNb : ℕ) (memory : ℕ → Al5User) : TableState :=
  ⟨al5GroupInit maxUsersNb memory, []⟩

/-- The table and the uids which the users store are inverse to each other. -/
structure TableInv (maxUsersNb : ℕ) (state : TableState) : Prop where
  size : state.group.users.length = maxUsersNb
  slots : ∀ (i : ℕ) pointer, state.group.users[i]? = some (some pointer) ↔
    pointer ∈ state.bound ∧ (state.group.memory pointer).uid = i
  placed : ∀ pointer ∈ state.bound, ∃ i : ℕ, (state.group.memory pointer).uid = i
  nodup : state.bound.Nodup

section

variable {maxUsersNb : ℕ} {state : TableState} {pointer : ℕ}

theorem tableInv_start (memory : ℕ → Al5User) :
    TableInv maxUsersNb (tableStart maxUsersNb memory) where
  size := List.length_replicate
  slots i pointer := by
    simp [tableStart, al5GroupInit, List.getElem?_replicate]
  placed pointer hmem := absurd hmem List.not_mem_nil
  nodup := List.nodup_nil

/-- A bound user stores the slot it is in. -/
theorem TableInv.slot_of_bound (hinv : TableInv maxUsersNb state)
    (hbound : pointer ∈ state.bound) :
    ∃ i < maxUsersNb, (state.group.memory pointer).uid = (i : ℤ) ∧
      state.group.users[i]? = some (some pointer) := by
  obtain ⟨i, huid⟩ := hinv.placed pointer hbound
  have hslot := (hinv.slots i pointer).mpr ⟨hbound, huid⟩
  have hlt := (List.getElem?_eq_some_iff.mp hslot).1
  exact ⟨i, hinv.size ▸ hlt, huid, hslot⟩

theorem TableInv.bind (hinv : TableInv maxUsersNb state) {uid : ℕ}
    (hnot : pointer ∉ state.bound)
    (hfree : state.group.users[uid]? = some none) :
    TableInv maxUsersNb
      ⟨{ state.group.setUser pointer ⟨uid, al5UserInit⟩ with
        users := state.group.users.set uid (some pointer) }, pointer :: state.bound⟩ := by
  have hlt := (List.getElem?_eq_some_iff.mp hfree).1
  have hself : (Function.update state.group.memory pointer ⟨uid, al5UserInit⟩ pointer).uid =
      uid := by
    rw [Function.update_self]
  have hothers : ∀ other, other ≠ pointer →
      Function.update state.group.memory pointer ⟨uid, al5UserInit⟩ other =
        state.group.memory other := fun other hne => Function.update_of_ne hne ..
  refine ⟨?_, ?_, ?_, List.nodup_cons.mpr ⟨hnot, hinv.nodup⟩⟩
  · rw [← hinv.size]
    exact List.length_set
  · intro i other
    dsimp only [Al5Group.setUser]
    by_cases hother : other = pointer
    · subst hother
      by_cases hi : i = uid
      · subst hi
        rw [List.getElem?_set_self hlt]
        exact iff_of_true rfl ⟨List.mem_cons_self, hself⟩
      · rw [List.getElem?_set_ne (Ne.symm hi), hinv.slots]
        refine iff_of_false (fun hold => hnot hold.1) ?_
        rintro ⟨-, huid⟩
        rw [hself] at huid
        exact hi (by omega)
    · rw [hothers other hother, List.mem_cons]
      by_cases hi : i = uid
      · subst hi
        rw [List.getElem?_set_self hlt]
        refine iff_of_false ?_ ?_
        · simpa using Ne.symm hother
        · rintro ⟨hmem, huid⟩
          have hold := (hinv.slots i other).mpr ⟨hmem.resolve_left hother, huid⟩
          rw [hfree] at hold
          exact absurd hold (by simp)
      · rw [List.getElem?_set_ne (Ne.symm hi), hinv.slots]
        exact and_congr_left fun _ => ⟨.inr, fun hmem => hmem.resolve_left hother⟩
  · intro other hmem
    by_cases hother : other = pointer
    · subst hother
      exact ⟨uid, hself⟩
    · dsimp only [Al5Group.setUser]
      rw [hothers other hother]
      exact hinv.placed other ((List.mem_cons.mp hmem).resolve_left hother)

theorem TableInv.unbind (hinv : TableInv maxUsersNb state)
    (hbound : pointer ∈ state.bound) :
    TableInv maxUsersNb
      ⟨state.group.al5GroupUnbindUser pointer, state.bound.erase pointer⟩ := by
  obtain ⟨uid, -, huid, hslot⟩ := hinv.slot_of_bound hbound
  have hlt := (List.getElem?_eq_some_iff.mp hslot).1
  have htoNat : (state.group.memory pointer).uid.toNat = uid := by
    rw [huid, Int.toNat_natCast]
  refine ⟨?_, ?_, ?_, hinv.nodup.erase _⟩
  · rw [← hinv.size]
    exact List.length_set
  · intro i other
    dsimp only [Al5Group.al5GroupUnbindUser]
    rw [htoNat, hinv.nodup.mem_erase_iff]
    by_cases hi : i = uid
    · subst hi
      rw [List.getElem?_set_self hlt]
      refine iff_of_false (by simp) ?_
      rintro ⟨⟨hne, hmem⟩, hother⟩
      have hsame := (hinv.slots i other).mpr ⟨hmem, hother⟩
      rw [hslot] at hsame
      exact hne (Option.some.inj (Option.some.inj hsame)).symm
    · rw [List.getElem?_set_ne (Ne.symm hi), hinv.slots, and_assoc]
      refine ⟨fun hold => ⟨?_, hold⟩, fun hnew => hnew.2⟩
      rintro rfl
      exact hi (by omega)
  · intro other hmem
    exact hinv.placed other (List.mem_of_mem_erase hmem)

theorem TableInv.work (hinv : TableInv maxUsersNb state) {content : Al5User}
    (hkept : pointer ∈ state.bound → content.uid = (state.group.memory pointer).uid) :
    TableInv maxUsersNb { state with group := state.group.setUser pointer content } := by
  have hsame : ∀ other ∈ state.bound,
      (Function.update state.group.memory pointer content other).uid =
        (state.group.memory other).uid := by
    intro other hmem
    by_cases hother : other = pointer
    · subst hother
      rw [Function.update_self, hkept hmem]
    · rw [Function.update_of_ne hother]
  refine ⟨hinv.size, ?_, ?_, hinv.nodup⟩
  · intro i other
    rw [show (state.group.setUser pointer content).users = state.group.users from rfl,
      hinv.slots]
    exact and_congr_right fun hmem => by rw [Al5Group.setUser, hsame other hmem]
  · intro other hmem
    obtain ⟨i, huid⟩ := hinv.placed other hmem
    exact ⟨i, by rw [Al5Group.setUser, hsame other hmem, huid]⟩

/-- Every move keeps the table and the stored uids inverse. -/
theorem TableInv.next (hinv : TableInv maxUsersNb state) {move : TableMove}
    {state' : TableState} (hnext : tableNext state move = some state') :
    TableInv maxUsersNb state' := by
  cases move with
  | bind pointer =>
      simp only [tableNext] at hnext
      split at hnext
      · exact absurd hnext (by simp)
      · rename_i hnot
        obtain rfl := Option.some.inj hnext
        cases hfind : state.group.users.findIdx? Option.isNone with
        | none =>
            simp only [Al5Group.al5GroupBindUser, hfind]
            exact hinv
        | some uid =>
            simp only [Al5Group.al5GroupBindUser, hfind, if_true]
            exact hinv.bind hnot (OpenFiles.findIdx?_free hfind)
  | unbind pointer =>
      simp only [tableNext] at hnext
      split at hnext
      · rename_i hbound
        obtain rfl := Option.some.inj hnext
        exact hinv.unbind hbound
      · exact absurd hnext (by simp)
  | work pointer content =>
      simp only [tableNext] at hnext
      split at hnext
      · rename_i hkept
        obtain rfl := Option.some.inj hnext
        exact hinv.work hkept
      · exact absurd hnext (by simp)

/-! ## What the invariant says -/

def TableState.slots (state : TableState) : List ℕ :=
  state.bound.map fun pointer => (state.group.memory pointer).uid.toNat

theorem TableInv.uid_injective (hinv : TableInv maxUsersNb state) {other : ℕ}
    (hbound : pointer ∈ state.bound) (hother : other ∈ state.bound)
    (huid : (state.group.memory pointer).uid = (state.group.memory other).uid) :
    pointer = other := by
  obtain ⟨i, -, hi, hslot⟩ := hinv.slot_of_bound hbound
  have hsame := (hinv.slots i other).mpr ⟨hother, huid ▸ hi⟩
  rw [hslot] at hsame
  exact Option.some.inj (Option.some.inj hsame)

theorem TableInv.slots_nodup (hinv : TableInv maxUsersNb state) : state.slots.Nodup := by
  refine hinv.nodup.map_on ?_
  intro pointer hbound other hother heq
  obtain ⟨i, -, hi, -⟩ := hinv.slot_of_bound hbound
  obtain ⟨j, -, hj, -⟩ := hinv.slot_of_bound hother
  exact hinv.uid_injective hbound hother (by omega)

theorem TableInv.mem_slots (hinv : TableInv maxUsersNb state) {i : ℕ} :
    i ∈ state.slots ↔ ∃ pointer, state.group.users[i]? = some (some pointer) := by
  rw [TableState.slots, List.mem_map]
  constructor
  · rintro ⟨pointer, hbound, hi⟩
    obtain ⟨j, -, hj, hslot⟩ := hinv.slot_of_bound hbound
    obtain rfl : j = i := by omega
    exact ⟨pointer, hslot⟩
  · rintro ⟨pointer, hslot⟩
    obtain ⟨hbound, huid⟩ := (hinv.slots i pointer).mp hslot
    exact ⟨pointer, hbound, by omega⟩

/-- Every slot is taken exactly when as many users are bound as there are slots. -/
theorem TableInv.full_iff (hinv : TableInv maxUsersNb state) :
    state.group.users.findIdx? Option.isNone = none ↔
      state.bound.length = maxUsersNb := by
  have hlength : state.slots.length = state.bound.length := List.length_map _
  have hrange : state.slots ⊆ List.range maxUsersNb := by
    intro i hi
    obtain ⟨pointer, hslot⟩ := hinv.mem_slots.mp hi
    exact List.mem_range.mpr (hinv.size ▸ (List.getElem?_eq_some_iff.mp hslot).1)
  constructor
  · intro hnone
    have hall : List.range maxUsersNb ⊆ state.slots := by
      intro i hi
      have hlt : i < state.group.users.length := hinv.size ▸ List.mem_range.mp hi
      have htaken := List.findIdx?_eq_none_iff.mp hnone _ (List.getElem_mem hlt)
      obtain ⟨pointer, hpointer⟩ :=
        Option.isSome_iff_exists.mp (Option.isNone_eq_false_iff.mp htaken)
      exact hinv.mem_slots.mpr ⟨pointer, by rw [List.getElem?_eq_getElem hlt, hpointer]⟩
    have hle := (hinv.slots_nodup.subperm hrange).length_le
    have hge := (List.nodup_range.subperm hall).length_le
    rw [List.length_range] at hle hge
    omega
  · intro hfull
    by_contra hsome
    obtain ⟨uid, hfind⟩ := Option.ne_none_iff_exists'.mp hsome
    have hfree := OpenFiles.findIdx?_free hfind
    have hnot : uid ∉ state.slots := by
      intro hmem
      obtain ⟨pointer, hslot⟩ := hinv.mem_slots.mp hmem
      rw [hfree] at hslot
      exact absurd hslot (by simp)
    have hlt : uid < maxUsersNb := hinv.size ▸ (List.getElem?_eq_some_iff.mp hfree).1
    have hsub : uid :: state.slots ⊆ List.range maxUsersNb :=
      List.cons_subset.mpr ⟨List.mem_range.mpr hlt, hrange⟩
    have hle := ((List.nodup_cons.mpr ⟨hnot, hinv.slots_nodup⟩).subperm hsub).length_le
    rw [List.length_cons, List.length_range] at hle
    omega

theorem TableInv.lookup (hinv : TableInv maxUsersNb state) (uid : ℤ) :
    state.group.al5GroupUserFromUid uid = some pointer ↔
      pointer ∈ state.bound ∧ (state.group.memory pointer).uid = uid := by
  have hsize : state.group.maxUsersNb = maxUsersNb := hinv.size
  unfold Al5Group.al5GroupUserFromUid
  by_cases hrange : uid ≥ state.group.maxUsersNb ∨ uid < 0
  · rw [if_pos hrange]
    refine iff_of_false (by simp) ?_
    rintro ⟨hbound, huid⟩
    obtain ⟨i, hlt, hi, -⟩ := hinv.slot_of_bound hbound
    omega
  · rw [if_neg hrange]
    have hnat : uid = (uid.toNat : ℤ) := by omega
    have hslot := hinv.slots uid.toNat pointer
    rw [← hnat] at hslot
    rw [← hslot, List.getD_eq_getElem?_getD]
    cases state.group.users[uid.toNat]? <;> simp

end

/-- The table and the users agree, a bind fails for want of a slot only and then
changes nothing, and a lookup finds the user of a uid. -/
structure TableExact (maxUsersNb : ℕ) (state : TableState) : Prop where
  slots : ∀ (i : ℕ) pointer, state.group.users[i]? = some (some pointer) ↔
    pointer ∈ state.bound ∧ (state.group.memory pointer).uid = i
  range : ∀ pointer ∈ state.bound, 0 ≤ (state.group.memory pointer).uid ∧
    (state.group.memory pointer).uid < maxUsersNb
  distinct : ∀ pointer ∈ state.bound, ∀ other ∈ state.bound,
    (state.group.memory pointer).uid = (state.group.memory other).uid → pointer = other
  nodup : state.bound.Nodup
  full : ∀ pointer, (state.group.al5GroupBindUser pointer).1 = -EAGAIN ↔
    state.bound.length = maxUsersNb
  refused : ∀ pointer, (state.group.al5GroupBindUser pointer).1 ≠ 0 →
    state.group.al5GroupBindUser pointer = (-EAGAIN, state.group)
  lookup : ∀ uid pointer, state.group.al5GroupUserFromUid uid = some pointer ↔
    pointer ∈ state.bound ∧ (state.group.memory pointer).uid = uid
  missing : ∀ uid, uid < 0 ∨ maxUsersNb ≤ uid →
    state.group.al5GroupUserFromUid uid = none

/-- After any binds and unbinds, each bound user is in the slot of its uid and no other
slot is taken. -/
theorem table_is_exact
    (maxUsersNb : ℕ) (memory : ℕ → Al5User) (state : TableState)
    (hsteps : Steps tableNext (fun _ _ => True) (tableStart maxUsersNb memory) state) :
    TableExact maxUsersNb state := by
  have hinv : TableInv maxUsersNb state :=
    hsteps.invariant (TableInv maxUsersNb) (tableInv_start memory)
      fun _ hinv _ hnext => hinv.next hnext
  have hsize : state.group.maxUsersNb = maxUsersNb := hinv.size
  refine ⟨hinv.slots, ?_, fun pointer hbound other hother huid =>
    hinv.uid_injective hbound hother huid, hinv.nodup, ?_, ?_,
    fun uid pointer => hinv.lookup uid, ?_⟩
  · intro pointer hbound
    obtain ⟨i, hlt, huid, -⟩ := hinv.slot_of_bound hbound
    omega
  · intro pointer
    rw [← hinv.full_iff, Al5Group.al5GroupBindUser]
    cases state.group.users.findIdx? Option.isNone with
    | none => simp
    | some uid => simp [EAGAIN]
  · intro pointer hfail
    rw [Al5Group.al5GroupBindUser] at hfail ⊢
    cases hfind : state.group.users.findIdx? Option.isNone with
    | none => rfl
    | some uid =>
        rw [hfind] at hfail
        exact absurd rfl hfail
  · intro uid hout
    rw [Al5Group.al5GroupUserFromUid, hsize]
    exact if_pos (by omega)

/-- Three users for two slots, while one of the first two is closed. -/
theorem table_is_exact_of_three_users :
    ∃ state, runSteps tableNext (fun _ _ => true) [.bind 7, .bind 9, .unbind 7, .bind 8]
        (tableStart 2 fun _ => ⟨0, al5UserInit⟩) = some state ∧
      state.group.users = [some 8, some 9] ∧ TableExact 2 state := by
  have hrun : ∃ state, runSteps tableNext (fun _ _ => true)
      [.bind 7, .bind 9, .unbind 7, .bind 8] (tableStart 2 fun _ => ⟨0, al5UserInit⟩) =
        some state ∧ state.group.users = [some 8, some 9] :=
    ⟨_, rfl, rfl⟩
  obtain ⟨state, hrun, husers⟩ := hrun
  have hsteps := Steps.of_runSteps (fun _ _ _ => trivial) hrun
  exact ⟨state, hrun, husers, table_is_exact 2 _ state hsteps⟩

end VcuDriver.Group

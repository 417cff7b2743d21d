import VcuDriver.Mail
import VcuDriver.Conc.Steps

/-!
# Open files

`al5_codec_open` allocates the data of the file and a user, and binds the user to
the first free slot of the group; `al5_codec_release` undoes all three.  Between
calls, the objects alive are those of the open files and of the table, as long as an
open does not fail half-way: the data is allocated first, its allocation is not
tested, and no error path frees it.

What `al5_codec_release` does to the channel of its user is left out here; it
neither frees the objects nor changes the table.
-/

namespace VcuDriver.OpenFiles

open Conc

/-- `struct al5_user`: which object it is, and the slot it is bound to. -/
structure BoundUser where
  object : ℕ
  uid : ℕ
  deriving DecidableEq

structure FilpData where
  object : ℕ
  user : BoundUser
  deriving DecidableEq

/-- The table of the group, the objects alive, and the private data of the open
files.  Objects are numbered from `next` on; `stopped` is a `NULL` pointer
dereferenced. -/
structure Files where
  users : List (Option ℕ)
  liveData : List ℕ
  liveUsers : List ℕ
  next : ℕ
  files : List FilpData
  stopped : Bool

/-- A codec after `al5_group_init`. -/
def al5GroupInit (maxUsersNb : ℕ) : Files where
  users := List.replicate maxUsersNb none
  liveData := []
  liveUsers := []
  next := 0
  files := []
  stopped := false

structure Outcomes where
  kzallocData : Bool
  kzallocUser : Bool

namespace Files

variable (state : Files)

/-! ## Operations -/

def kzallocData (succeeds : Bool) : Option ℕ × Files :=
  if succeeds then
    (some state.next,
      { state with liveData := state.next :: state.liveData, next := state.next + 1 })
  else
    (none, state)

def kzallocUser (succeeds : Bool) : Option ℕ × Files :=
  if succeeds then
    (some state.next,
      { state with liveUsers := state.next :: state.liveUsers, next := state.next + 1 })
  else
    (none, state)

def kzfreeUser (user : ℕ) : Files :=
  { state with liveUsers := state.liveUsers.erase user }

def kzfreeData (privateData : ℕ) : Files :=
  { state with liveData := state.liveData.erase privateData }

/-- `al5_group_bind_user`: the uid, or nothing when every slot is taken. -/
def al5GroupBindUser (user : ℕ) : Option ℕ × Files :=
  match state.users.findIdx? Option.isNone with
  | none => (none, state)
  | some uid => (some uid, { state with users := state.users.set uid (some user) })

def al5GroupUnbindUser (user : BoundUser) : Files :=
  { state with users := state.users.set user.uid none }

def al5CodecOpen (outcomes : Outcomes) : ℤ × Files :=
  let (privateData, state) := state.kzallocData outcomes.kzallocData
  match state.kzallocUser outcomes.kzallocUser with
  | (none, state) => (-ENOMEM, state)
  | (some user, state) =>
      match state.al5GroupBindUser user with
      | (none, state) => (-EAGAIN, state.kzfreeUser user)
      | (some uid, state) =>
          match privateData with
          | none => (0, { state with stopped := true })
          | some object =>
              (0, { state with files := ⟨object, ⟨user, uid⟩⟩ :: state.files })

def al5CodecRelease (privateData : FilpData) : Files :=
  let state := state.al5GroupUnbindUser privateData.user
  let state := state.kzfreeUser privateData.user.object
  let state := state.kzfreeData privateData.object
  { state with files := state.files.erase privateData }

end Files

inductive FileCall where
  | openFile (outcomes : Outcomes)
  | release (privateData : FilpData)

def fileNext (state : Files) (call : FileCall) : Option Files :=
  if state.stopped then none
  else
    match call with
    | .openFile outcomes => some (state.al5CodecOpen outcomes).2
    | .release privateData =>
        if privateData ∈ state.files then some (state.al5CodecRelease privateData)
        else none

/-! ## The correspondence -/

/-- The objects alive and the entries of the table are those of the open files. -/
structure Corresponds (state : Files) : Prop where
  data : state.liveData.Perm (state.files.map FilpData.object)
  users : state.liveUsers.Perm (state.files.map fun file => file.user.object)
  table : ∀ slot object, state.users[slot]? = some (some object) ↔
    ∃ file ∈ state.files, file.user = ⟨object, slot⟩
  dataNodup : (state.files.map FilpData.object).Nodup
  usersNodup : (state.files.map fun file => file.user.object).Nodup
  uidsNodup : (state.files.map fun file => file.user.uid).Nodup

/-- An open dereferences no `NULL` pointer, and when it fails, everything is as it
was. -/
structure OpenClean (state : Files) (outcomes : Outcomes) : Prop where
  noNull : (state.al5CodecOpen outcomes).2.stopped = false
  unchanged : (state.al5CodecOpen outcomes).1 ≠ 0 →
    (state.al5CodecOpen outcomes).2.liveData = state.liveData ∧
      (state.al5CodecOpen outcomes).2.liveUsers = state.liveUsers ∧
        (state.al5CodecOpen outcomes).2.users = state.users

def Files.hasFreeSlot (state : Files) : Bool :=
  (state.users.findIdx? Option.isNone).isSome

/-- The data of the file is allocated exactly when the rest of the open succeeds. -/
def Balanced (state : Files) (outcomes : Outcomes) : Prop :=
  outcomes.kzallocData = (outcomes.kzallocUser && state.hasFreeSlot)

def OpensBalanced (state : Files) : FileCall → Prop
  | .openFile outcomes => Balanced state outcomes
  | .release _ => True

/-! ## The ends of an open -/

section Ends

variable {state : Files} {outcomes : Outcomes}

theorem findIdx?_free {users : List (Option ℕ)} {uid : ℕ}
    (hfind : users.findIdx? Option.isNone = some uid) : users[uid]? = some none := by
  rw [List.findIdx?_eq_some_iff_getElem] at hfind
  obtain ⟨hlt, hnone, _⟩ := hfind
  rw [List.getElem?_eq_getElem hlt, Option.isNone_iff_eq_none.mp hnone]

/-- Nothing is allocated for a user: the data, if there is any, is kept. -/
theorem open_without_user (huser : outcomes.kzallocUser = false) :
    (state.al5CodecOpen outcomes).1 = -ENOMEM ∧
      (state.al5CodecOpen outcomes).2 =
        (state.kzallocData outcomes.kzallocData).2 := by
  unfold Files.al5CodecOpen Files.kzallocUser
  rw [huser]
  exact ⟨rfl, rfl⟩

/-- Every slot is taken: the user is freed, and the data, if there is any, is
kept. -/
theorem open_without_slot (huser : outcomes.kzallocUser = true)
    (hfull : state.users.findIdx? Option.isNone = none) :
    (state.al5CodecOpen outcomes).1 = -EAGAIN ∧
      (state.al5CodecOpen outcomes).2 =
        { (state.kzallocData outcomes.kzallocData).2 with
          next := (state.kzallocData outcomes.kzallocData).2.next + 1 } := by
  unfold Files.al5CodecOpen Files.kzallocUser Files.kzallocData Files.al5GroupBindUser
  rw [huser]
  cases outcomes.kzallocData with
  | false =>
      simp only [Bool.false_eq_true, if_false, if_true, hfull, Files.kzfreeUser,
        List.erase_cons_head, and_self]
  | true =>
      simp only [if_true, hfull, Files.kzfreeUser, List.erase_cons_head, and_self]

/-- The user is bound and there is no data: the data is dereferenced. -/
theorem open_without_data {uid : ℕ} (hdata : outcomes.kzallocData = false)
    (huser : outcomes.kzallocUser = true)
    (hfree : state.users.findIdx? Option.isNone = some uid) :
    (state.al5CodecOpen outcomes).2.stopped = true := by
  unfold Files.al5CodecOpen Files.kzallocUser Files.kzallocData Files.al5GroupBindUser
  rw [huser, hdata]
  simp only [Bool.false_eq_true, if_false, if_true, hfree]

def Files.added (state : Files) (uid : ℕ) : FilpData :=
  ⟨state.next, ⟨state.next + 1, uid⟩⟩

theorem open_complete {uid : ℕ} (hdata : outcomes.kzallocData = true)
    (huser : outcomes.kzallocUser = true)
    (hfree : state.users.findIdx? Option.isNone = some uid) :
    state.al5CodecOpen outcomes =
      (0, { state with
        users := state.users.set uid (some (state.next + 1))
        liveData := state.next :: state.liveData
        liveUsers := (state.next + 1) :: state.liveUsers
        next := state.next + 2
        files := state.added uid :: state.files }) := by
  unfold Files.al5CodecOpen Files.kzallocUser Files.kzallocData Files.al5GroupBindUser
  rw [huser, hdata]
  simp only [if_true, hfree]
  rfl

end Ends

/-! ## Open and release keep the correspondence -/

/-- The correspondence, and that later objects are new. -/
structure FilesInv (state : Files) : Prop where
  corresponds : Corresponds state
  running : state.stopped = false
  dataOld : ∀ file ∈ state.files, file.object < state.next
  usersOld : ∀ file ∈ state.files, file.user.object < state.next

theorem filesInv_init (maxUsersNb : ℕ) : FilesInv (al5GroupInit maxUsersNb) where
  corresponds := {
    data := List.Perm.refl _
    users := List.Perm.refl _
    table := by
      intro slot object
      refine iff_of_false ?_ (fun hfile => absurd hfile.choose_spec.1 List.not_mem_nil)
      intro hentry
      have hmem := List.mem_of_getElem? hentry
      exact absurd (List.eq_of_mem_replicate hmem) (Option.some_ne_none object)
    dataNodup := List.nodup_nil
    usersNodup := List.nodup_nil
    uidsNodup := List.nodup_nil }
  running := rfl
  dataOld _ hmem := absurd hmem List.not_mem_nil
  usersOld _ hmem := absurd hmem List.not_mem_nil

/-- An open that fails without having allocated data only uses up a number. -/
theorem FilesInv.of_next {state : Files} (hinv : FilesInv state) {next : ℕ}
    (hnext : state.next ≤ next) : FilesInv { state with next := next } where
  corresponds := ⟨hinv.corresponds.data, hinv.corresponds.users,
    hinv.corresponds.table, hinv.corresponds.dataNodup, hinv.corresponds.usersNodup,
    hinv.corresponds.uidsNodup⟩
  running := hinv.running
  dataOld file hmem := (hinv.dataOld file hmem).trans_le hnext
  usersOld file hmem := (hinv.usersOld file hmem).trans_le hnext

theorem FilesInv.withAdded {state : Files} (hinv : FilesInv state) {uid : ℕ}
    (hfree : state.users[uid]? = some none) :
    FilesInv { state with
      users := state.users.set uid (some (state.next + 1))
      liveData := state.next :: state.liveData
      liveUsers := (state.next + 1) :: state.liveUsers
      next := state.next + 2
      files := state.added uid :: state.files } := by
  obtain ⟨⟨hdata, husers, htable, hdataNodup, husersNodup, huidsNodup⟩, hrunning,
    hdataOld, husersOld⟩ := hinv
  have hlt : uid < state.users.length := (List.getElem?_eq_some_iff.mp hfree).1
  -- No open file has the slot which was found free.
  have huid : ∀ file ∈ state.files, file.user.uid ≠ uid := by
    intro file hmem heq
    have hentry := (htable uid file.user.object).mpr ⟨file, hmem, by rw [← heq]⟩
    rw [hfree] at hentry
    exact absurd (Option.some.inj hentry) (Option.some_ne_none _).symm
  refine ⟨⟨hdata.cons _, husers.cons _, ?_, ?_, ?_, ?_⟩, hrunning, ?_, ?_⟩
  · intro slot object
    by_cases hslot : slot = uid
    · subst hslot
      rw [List.getElem?_set_self hlt]
      constructor
      · intro hentry
        have hobject := Option.some.inj (Option.some.inj hentry)
        exact ⟨_, List.mem_cons_self, by rw [← hobject]; rfl⟩
      · rintro ⟨file, hmem, hfile⟩
        rcases List.mem_cons.mp hmem with rfl | hmem
        · rw [show object = state.next + 1 from
            (congrArg BoundUser.object hfile).symm]
        · exact absurd (congrArg BoundUser.uid hfile) (huid file hmem)
    · rw [List.getElem?_set_ne (Ne.symm hslot), htable]
      constructor
      · rintro ⟨file, hmem, hfile⟩
        exact ⟨file, List.mem_cons_of_mem _ hmem, hfile⟩
      · rintro ⟨file, hmem, hfile⟩
        rcases List.mem_cons.mp hmem with rfl | hmem
        · exact absurd (congrArg BoundUser.uid hfile).symm hslot
        · exact ⟨file, hmem, hfile⟩
  · refine List.nodup_cons.mpr ⟨?_, hdataNodup⟩
    intro hmem
    obtain ⟨file, hfile, heq⟩ := List.mem_map.mp hmem
    have hold := hdataOld file hfile
    have hnew : file.object = state.next := heq
    omega
  · refine List.nodup_cons.mpr ⟨?_, husersNodup⟩
    intro hmem
    obtain ⟨file, hfile, heq⟩ := List.mem_map.mp hmem
    have hold := husersOld file hfile
    have hnew : file.user.object = state.next + 1 := heq
    omega
  · refine List.nodup_cons.mpr ⟨?_, huidsNodup⟩
    intro hmem
    obtain ⟨file, hfile, heq⟩ := List.mem_map.mp hmem
    exact huid file hfile heq
  · intro file hmem
    rcases List.mem_cons.mp hmem with rfl | hmem
    · exact show state.next < state.next + 2 from by omega
    · exact (hdataOld file hmem).trans_le (Nat.le_add_right _ _)
  · intro file hmem
    rcases List.mem_cons.mp hmem with rfl | hmem
    · exact show state.next + 1 < state.next + 2 from by omega
    · exact (husersOld file hmem).trans_le (Nat.le_add_right _ _)

theorem FilesInv.release {state : Files} (hinv : FilesInv state)
    {privateData : FilpData} (hfile : privateData ∈ state.files) :
    FilesInv (state.al5CodecRelease privateData) := by
  obtain ⟨⟨hdata, husers, htable, hdataNodup, husersNodup, huidsNodup⟩, hrunning,
    hdataOld, husersOld⟩ := hinv
  have hsublist := List.erase_sublist (a := privateData) (l := state.files)
  have hperm := List.perm_cons_erase hfile
  have hslot := (htable privateData.user.uid privateData.user.object).mpr
    ⟨privateData, hfile, rfl⟩
  have hlt := (List.getElem?_eq_some_iff.mp hslot).1
  -- The slot belongs to this file alone.
  have huid : ∀ file ∈ state.files.erase privateData,
      file.user.uid ≠ privateData.user.uid := by
    intro file hmem heq
    have hnodup := (hperm.map fun file => file.user.uid).nodup_iff.mp huidsNodup
    rw [List.map_cons, List.nodup_cons] at hnodup
    exact hnodup.1 (List.mem_map.mpr ⟨file, hmem, heq⟩)
  refine ⟨⟨?_, ?_, ?_, ?_, ?_, ?_⟩, hrunning, ?_, ?_⟩
  · have hcons := hdata.trans (hperm.map FilpData.object)
    have herase := hcons.erase privateData.object
    rw [List.map_cons, List.erase_cons_head] at herase
    exact herase
  · have hcons := husers.trans (hperm.map fun file => file.user.object)
    have herase := hcons.erase privateData.user.object
    rw [List.map_cons, List.erase_cons_head] at herase
    exact herase
  · intro slot object
    change (state.users.set privateData.user.uid none)[slot]? = some (some object) ↔
      ∃ file ∈ state.files.erase privateData, file.user = ⟨object, slot⟩
    by_cases hsame : slot = privateData.user.uid
    · subst hsame
      rw [List.getElem?_set_self hlt]
      refine iff_of_false ?_ ?_
      · intro hentry
        exact absurd (Option.some.inj hentry) (Option.some_ne_none object).symm
      · rintro ⟨file, hmem, heq⟩
        exact huid file hmem (by rw [heq])
    · rw [List.getElem?_set_ne (Ne.symm hsame), htable]
      constructor
      · rintro ⟨file, hmem, heq⟩
        rcases List.mem_cons.mp (hperm.mem_iff.mp hmem) with rfl | hmem
        · exact absurd (congrArg BoundUser.uid heq).symm hsame
        · exact ⟨file, hmem, heq⟩
      · rintro ⟨file, hmem, heq⟩
        exact ⟨file, hsublist.subset hmem, heq⟩
  · exact hdataNodup.sublist (hsublist.map _)
  · exact husersNodup.sublist (hsublist.map _)
  · exact huidsNodup.sublist (hsublist.map _)
  · exact fun file hmem => hdataOld file (hsublist.subset hmem)
  · exact fun file hmem => husersOld file (hsublist.subset hmem)

/-! ## When an open is clean -/

section Clean

variable {state : Files} {outcomes : Outcomes}

/-- Data that was allocated stays alive after a failing open. -/
theorem not_openClean_of_leak (hdata : outcomes.kzallocData = true)
    (hfails : (state.al5CodecOpen outcomes).1 ≠ 0)
    (hkept : (state.al5CodecOpen outcomes).2.liveData =
      (state.kzallocData outcomes.kzallocData).2.liveData) :
    ¬ OpenClean state outcomes := by
  intro hclean
  have hsame := (hclean.unchanged hfails).1
  rw [hkept, hdata] at hsame
  exact absurd hsame (List.cons_ne_self _ _)

/-- An open is clean exactly when it is balanced. -/
theorem openClean_iff (hrunning : state.stopped = false) :
    OpenClean state outcomes ↔ Balanced state outcomes := by
  unfold Balanced Files.hasFreeSlot
  cases huser : outcomes.kzallocUser with
  | false =>
      obtain ⟨herr, hafter⟩ := open_without_user huser
      have hfails : (state.al5CodecOpen outcomes).1 ≠ 0 := by
        rw [herr]
        decide
      cases hdata : outcomes.kzallocData with
      | false =>
          rw [hdata] at hafter
          refine iff_of_true ⟨?_, fun _ => ?_⟩ rfl
          · rw [hafter]
            exact hrunning
          · rw [hafter]
            exact ⟨rfl, rfl, rfl⟩
      | true =>
          refine iff_of_false ?_ (by simp)
          exact not_openClean_of_leak hdata hfails (by rw [hafter])
  | true =>
      cases hfind : state.users.findIdx? Option.isNone with
      | none =>
          obtain ⟨herr, hafter⟩ := open_without_slot huser hfind
          have hfails : (state.al5CodecOpen outcomes).1 ≠ 0 := by
            rw [herr]
            decide
          cases hdata : outcomes.kzallocData with
          | false =>
              rw [hdata] at hafter
              refine iff_of_true ⟨?_, fun _ => ?_⟩ rfl
              · rw [hafter]
                exact hrunning
              · rw [hafter]
                exact ⟨rfl, rfl, rfl⟩
          | true =>
              refine iff_of_false ?_ (by simp)
              exact not_openClean_of_leak hdata hfails (by rw [hafter])
      | some uid =>
          cases hdata : outcomes.kzallocData with
          | false =>
              refine iff_of_false ?_ (by simp)
              intro hclean
              have hstopped := open_without_data hdata huser hfind
              rw [hclean.noNull] at hstopped
              exact absurd hstopped (by decide)
          | true =>
              have hopen := open_complete hdata huser hfind
              refine iff_of_true ⟨?_, fun hfails => ?_⟩ rfl
              · rw [hopen]
                exact hrunning
              · rw [hopen] at hfails
                exact absurd rfl hfails

theorem FilesInv.al5CodecOpen (hinv : FilesInv state)
    (hbalanced : Balanced state outcomes) :
    FilesInv (state.al5CodecOpen outcomes).2 := by
  unfold Balanced Files.hasFreeSlot at hbalanced
  cases huser : outcomes.kzallocUser with
  | false =>
      rw [huser, Bool.false_and] at hbalanced
      rw [(open_without_user huser).2, hbalanced]
      exact hinv
  | true =>
      cases hfind : state.users.findIdx? Option.isNone with
      | none =>
          rw [huser, hfind] at hbalanced
          rw [(open_without_slot huser hfind).2, hbalanced]
          exact hinv.of_next (Nat.le_succ _)
      | some uid =>
          rw [huser, hfind] at hbalanced
          rw [open_complete hbalanced huser hfind]
          exact hinv.withAdded (findIdx?_free hfind)

end Clean

/-- One call keeps the correspondence. -/
theorem FilesInv.next {state state' : Files} {call : FileCall} (hinv : FilesInv state)
    (hbalanced : OpensBalanced state call) (hnext : fileNext state call = some state') :
    FilesInv state' := by
  unfold fileNext at hnext
  rw [hinv.running] at hnext
  cases call with
  | openFile outcomes =>
      rw [← Option.some.inj hnext]
      exact hinv.al5CodecOpen hbalanced
  | release privateData =>
      simp only [Bool.false_eq_true, if_false] at hnext
      split at hnext
      · rename_i hfile
        rw [← Option.some.inj hnext]
        exact hinv.release hfile
      · exact absurd hnext (by simp)

/-- In every run of balanced opens and of releases, the objects correspond to the
open files, and there the clean opens are the balanced ones. -/
theorem openFiles_correspond {maxUsersNb : ℕ} {state : Files}
    (hsteps : Steps fileNext OpensBalanced (al5GroupInit maxUsersNb) state) :
    Corresponds state ∧
      ∀ outcomes, OpenClean state outcomes ↔ Balanced state outcomes := by
  have hinv : FilesInv state := Steps.invariant FilesInv (filesInv_init maxUsersNb)
    (fun _ hinv hadmits hnext => hinv.next hadmits hnext) hsteps
  exact ⟨hinv.corresponds, fun _ => openClean_iff hinv.running⟩

/-- One slot: an open, an open that finds no slot and no memory, and a release. -/
theorem openFiles_correspond_one_slot :
    Corresponds ⟨[none], [], [], 3, [], false⟩ ∧
      ∀ outcomes, OpenClean ⟨[none], [], [], 3, [], false⟩ outcomes ↔
        Balanced ⟨[none], [], [], 3, [], false⟩ outcomes := by
  have hopened : fileNext (al5GroupInit 1) (.openFile ⟨true, true⟩) =
      some ⟨[some 1], [0], [1], 2, [⟨0, ⟨1, 0⟩⟩], false⟩ := rfl
  have hrefused : fileNext ⟨[some 1], [0], [1], 2, [⟨0, ⟨1, 0⟩⟩], false⟩
      (.openFile ⟨false, true⟩) =
        some ⟨[some 1], [0], [1], 3, [⟨0, ⟨1, 0⟩⟩], false⟩ := rfl
  have hreleased : fileNext ⟨[some 1], [0], [1], 3, [⟨0, ⟨1, 0⟩⟩], false⟩
      (.release ⟨0, ⟨1, 0⟩⟩) = some ⟨[none], [], [], 3, [], false⟩ := rfl
  have hsteps : Steps fileNext OpensBalanced (al5GroupInit 1) _ :=
    ((Steps.start.next (by rfl) hopened).next (by rfl) hrefused).next
      (show OpensBalanced _ (.release _) from trivial) hreleased
  exact openFiles_correspond hsteps

/-- An open whose user cannot be allocated leaves the data of the file behind. -/
theorem not_openFiles_correspond :
    ¬ ∀ (maxUsersNb : ℕ) (state : Files),
      Steps fileNext (fun _ _ => True) (al5GroupInit maxUsersNb) state →
        Corresponds state := by
  intro hall
  have hopened : fileNext (al5GroupInit 1) (.openFile ⟨true, false⟩) =
      some ⟨[none], [0], [], 1, [], false⟩ := rfl
  have hsteps : Steps fileNext (fun _ _ => True) (al5GroupInit 1)
      ⟨[none], [0], [], 1, [], false⟩ := .next .start trivial hopened
  have hlength := (hall 1 _ hsteps).data.length_eq
  exact absurd hlength (by decide)

end VcuDriver.OpenFiles

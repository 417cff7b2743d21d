import VcuDriver.BufferPoolAccounting
import VcuDriver.Conc.Ensures
import VcuDriver.GetRec
import VcuDriver.UserMails

/-!
# Picture ids and descriptors

`al5e_user_get_rec` answers a picture id of the MCU with a descriptor, and
`al5e_user_release_rec` has to tell the MCU which picture a descriptor stands for.
In between the process duplicates descriptors, closes them and opens others.

Here each call on the pool runs in one piece.  Beside the descriptors stands where
each one came from: the id it was reserved for, or none.
-/

namespace VcuDriver

open Conc

/-! ## Calls on a pool -/

/-- An action of the call `i`, with any part of the kernel in it. -/
def PoolState.exec (i : ℕ) (action : PoolAct) (pool : PoolState) (result : action.Res)
    (pool' : PoolState) : Prop :=
  ∃ choice : PoolChoice, pool.act i action choice = some (result, pool')

/-- A descriptor with a reference of its own. -/
def PoolState.opened (pool : PoolState) (fd : ℤ) (handle : ℕ) : PoolState :=
  { pool with
    refs := Function.update pool.refs handle (pool.refs handle + 1)
    fds := (fd, handle) :: pool.fds }

def PoolState.dup (pool : PoolState) (fd : ℤ) (copy : ℕ) : Option PoolState :=
  match pool.lookup fd with
  | none => none
  | some handle => if pool.lookup copy = none then some (pool.opened copy handle) else none

/-- What the kernel promises of the descriptors while no call runs. -/
structure FdsKept (pool : PoolState) : Prop where
  idle : pool.hands = []
  distinct : (pool.fds.map Prod.fst).Nodup
  natural : ∀ entry ∈ pool.fds, 0 ≤ entry.1
  known : ∀ entry ∈ pool.fds, entry.2 < pool.exported
  counted : ∀ handle, pool.openFds handle ≤ pool.refs handle

/-! ## Where descriptors come from -/

/-- A pool, and the id for which each open descriptor was reserved, if it was. -/
structure FdTable where
  pool : PoolState
  origin : ℤ → Option ℕ

namespace FdTable

def install (table : FdTable) (pool : PoolState) (fd : ℤ) (id : ℕ) : FdTable where
  pool := pool
  origin := if 0 ≤ fd then Function.update table.origin fd (some id) else table.origin

/-- The calls on the pool, and what the process does with its descriptors. -/
inductive Step (table : FdTable) : FdTable → Prop where
  | reserveFd {i id : ℕ} {fd : ℤ} {pool : PoolState}
      (hends : (al5BufpoolReserveFd id).Ends (PoolState.exec i) table.pool fd pool) :
      Step table (table.install pool fd id)
  | getId {i : ℕ} {fd id : ℤ} {pool : PoolState}
      (hends : (al5BufpoolGetId fd).Ends (PoolState.exec i) table.pool id pool) :
      Step table { table with pool := pool }
  | dup {fd : ℤ} {copy : ℕ} {pool : PoolState}
      (hdup : table.pool.dup fd copy = some pool) :
      Step table ⟨pool, Function.update table.origin copy (table.origin fd)⟩
  | close {fd : ℤ} {pool : PoolState} (henv : table.pool.env (.close fd) = some pool) :
      Step table ⟨pool, Function.update table.origin fd none⟩
  | openForeign {fd : ℕ} {pool : PoolState}
      (henv : table.pool.env (.openForeign fd) = some pool) :
      Step table ⟨pool, Function.update table.origin fd none⟩

end FdTable

/-! ## The calls of the encoder -/

/-- A pool, the mails which a call has sent and the reply which it got. -/
structure RecDesk where
  pool : PoolState
  sent : List Al5Mail
  reported : Option Al5Mail

namespace RecDesk

def note (desk : RecDesk) : (action : UserAct) → action.Res → RecDesk
  | .send mail, err => if err = 0 then { desk with sent := desk.sent ++ [mail] } else desk
  | .listPop _, mail => { desk with reported := mail }
  | _, _ => desk

/-- The pool is asked in one piece; for everything else the user may be in any state,
as other calls run beside this one. -/
def exec (i : ℕ) : (action : UserAct) → RecDesk → action.Res → RecDesk → Prop
  | .bufpoolGetId fd, desk, id, desk' =>
      ∃ pool, (al5BufpoolGetId fd.toInt).Ends (PoolState.exec i) desk.pool id pool ∧
        desk' = { desk with pool := pool }
  | .bufpoolReserveFd id, desk, fd, desk' =>
      ∃ pool, (al5BufpoolReserveFd id.toInt.toNat).Ends (PoolState.exec i) desk.pool fd pool ∧
        desk' = { desk with pool := pool }
  | action, desk, result, desk' =>
      ∃ (user user' : UserState) (choice : Choice),
        user.act i action choice = some (result, user') ∧ desk' = desk.note action result

end RecDesk

namespace FdTable

def desk (table : FdTable) : RecDesk :=
  ⟨table.pool, [], none⟩

end FdTable

/-! ## One call on a pool -/

section

variable {i : ℕ} {pool pool' : PoolState}

theorem lookup_opened (pool : PoolState) (fd other : ℤ) (handle : ℕ) :
    (pool.opened fd handle).lookup other =
      if fd = other then some handle else pool.lookup other := by
  unfold PoolState.lookup PoolState.opened
  rw [List.find?_cons]
  by_cases heq : fd = other
  · simp [heq]
  · simp [heq]

theorem FdsKept.lookup_neg (hkept : FdsKept pool) {fd : ℤ} (hneg : fd < 0) :
    pool.lookup fd = none := by
  rw [lookup_eq_none]
  intro hmem
  obtain ⟨entry, hentry, rfl⟩ := List.mem_map.mp hmem
  have hnatural := hkept.natural entry hentry
  omega

theorem leave_take (pool : PoolState) (i : ℕ) (hand : Hand) :
    (pool.take i hand).leave i hand = pool := by
  unfold PoolState.leave PoolState.take
  rw [List.erase_cons_head]

theorem act_dmaBufGet_none {fd : ℤ} (hlookup : pool.lookup fd = none) :
    pool.act i (.dmaBufGet fd) .succeed = some (none, pool) := by
  simp only [PoolState.act, hlookup]

/-- A call gets back the reference which it lent to a descriptor. -/
theorem act_dmaBufGet_lent {fd : ℤ} {handle : ℕ} (hlookup : pool.lookup fd = some handle)
    (hlent : (i, .lent fd handle) ∈ pool.hands) :
    pool.act i (.dmaBufGet fd) .succeed =
      some (some handle,
        ({ pool with
          refs := Function.update pool.refs handle (pool.refs handle + 1) } : PoolState).leave i
            (.lent fd handle)) := by
  simp only [PoolState.act, hlookup]
  rw [if_pos hlent]

/-- A reservation reads the entry of the id and puts it behind a free descriptor, or
none is to be had. -/
theorem of_ends_reserveFd {id : ℕ} {fd : ℤ} (hkept : FdsKept pool)
    (hends : (al5BufpoolReserveFd id).Ends (PoolState.exec i) pool fd pool') :
    ∃ handle, pool.handles[id]? = some handle ∧
      -4095 ≤ fd ∧ fd < 2 ^ 31 ∧ ((fd < 0 ∧ pool' = pool) ∨
        (0 ≤ fd ∧ pool.lookup fd = none ∧ pool' = pool.opened fd handle)) := by
  unfold al5BufpoolReserveFd at hends
  simp only [Prog.bind_eq, Prog.perform_bind, Prog.pure_eq] at hends
  obtain ⟨handle, pool₁, ⟨choice₁, hget⟩, hends⟩ := hends
  obtain ⟨number, pool₂, ⟨choice₂, hfd⟩, hends⟩ := hends
  obtain ⟨found, pool₃, ⟨choice₃, hback⟩, rfl, rfl⟩ := hends
  have hhandle : pool.handles[id]? = some handle ∧
      pool₁ = pool.take i (.reading handle) := by
    cases choice₁ with
    | succeed =>
        obtain ⟨entry, hentry, heq⟩ := Option.map_eq_some_iff.mp hget
        obtain ⟨rfl, rfl⟩ := Prod.mk.inj heq
        exact ⟨hentry, rfl⟩
    | _ => exact absurd hget (by simp [PoolState.act])
  obtain ⟨hentry, rfl⟩ := hhandle
  refine ⟨handle, hentry, ?_⟩
  have hsucceed : choice₃ = .succeed := by
    cases choice₃ with
    | succeed => rfl
    | _ => exact absurd hback (by simp [PoolState.act])
  subst hsucceed
  cases choice₂ with
  | succeed => exact absurd hfd (by simp [PoolState.act])
  | fail => exact absurd hfd (by simp [PoolState.act])
  | fd outcome =>
      simp only [PoolState.act] at hfd
      rw [leave_take] at hfd
      split_ifs at hfd with hneg hfree
      · obtain ⟨rfl, rfl⟩ := Prod.mk.inj (Option.some.inj hfd)
        rw [act_dmaBufGet_none (hkept.lookup_neg hneg)] at hback
        exact ⟨outcome.property.1, outcome.property.2,
          .inl ⟨hneg, (Prod.mk.inj (Option.some.inj hback)).2.symm⟩⟩
      · obtain ⟨rfl, hpool₂⟩ := Prod.mk.inj (Option.some.inj hfd)
        have hlookup : pool₂.lookup outcome.val = some handle := by
          rw [← hpool₂]
          unfold PoolState.lookup
          simp
        have hlent : (i, .lent outcome.val handle) ∈ pool₂.hands := by
          rw [← hpool₂]
          exact List.mem_cons_self
        rw [act_dmaBufGet_lent hlookup hlent] at hback
        obtain ⟨-, rfl⟩ := Prod.mk.inj (Option.some.inj hback)
        refine ⟨outcome.property.1, outcome.property.2,
          .inr ⟨by omega, hfree, ?_⟩⟩
        rw [← hpool₂]
        simp only [PoolState.leave, PoolState.take, PoolState.opened,
          List.erase_cons_head]

/-- An action in which the kernel has no part. -/
theorem exec_iff_of_plain {action : PoolAct} {result : action.Res}
    (hplain : ∀ choice, choice ≠ .succeed → pool.act i action choice = none) :
    PoolState.exec i action pool result pool' ↔
      pool.act i action .succeed = some (result, pool') := by
  constructor
  · rintro ⟨choice, hact⟩
    by_cases hsucceed : choice = .succeed
    · rwa [hsucceed] at hact
    · rw [hplain choice hsucceed] at hact
      exact absurd hact (by simp)
  · exact fun hact => ⟨.succeed, hact⟩

theorem exec_dmaBufGet_iff {fd : ℤ} {result : Option ℕ} :
    PoolState.exec i (.dmaBufGet fd) pool result pool' ↔
      pool.act i (.dmaBufGet fd) .succeed = some (result, pool') :=
  exec_iff_of_plain fun choice hne => by
    cases choice with
    | succeed => exact absurd rfl hne
    | _ => rfl

theorem exec_dmaBufPut_iff {handle : ℕ} {result : Unit} :
    PoolState.exec i (.dmaBufPut handle) pool result pool' ↔
      pool.act i (.dmaBufPut handle) .succeed = some (result, pool') :=
  exec_iff_of_plain fun choice hne => by
    cases choice with
    | succeed => exact absurd rfl hne
    | _ => rfl

theorem exec_getHandles_iff {result : List ℕ} :
    PoolState.exec i .getHandles pool result pool' ↔ result = pool.handles ∧ pool' = pool := by
  rw [exec_iff_of_plain]
  · constructor
    · intro hact
      obtain ⟨rfl, rfl⟩ := Prod.mk.inj (Option.some.inj hact)
      exact ⟨rfl, rfl⟩
    · rintro ⟨rfl, rfl⟩
      rfl
  · intro choice hne
    cases choice with
    | succeed => exact absurd rfl hne
    | _ => rfl

/-- While `al5_bufpool_get_id` compares handles, it holds a reference. -/
def PoolState.borrowed (pool : PoolState) (i handle : ℕ) : PoolState :=
  ({ pool with
    refs := Function.update pool.refs handle (pool.refs handle + 1) } : PoolState).take i
      (.borrowed handle)

theorem FdsKept.act_dmaBufGet_some (hkept : FdsKept pool) {fd : ℤ} {handle : ℕ}
    (hlookup : pool.lookup fd = some handle) :
    pool.act i (.dmaBufGet fd) .succeed = some (some handle, pool.borrowed i handle) := by
  simp only [PoolState.act, hlookup]
  rw [if_neg (by rw [hkept.idle]; exact List.not_mem_nil)]
  rfl

/-- The reference of an open descriptor keeps the dma-buf. -/
theorem FdsKept.refs_pos (hkept : FdsKept pool) {fd : ℤ} {handle : ℕ}
    (hlookup : pool.lookup fd = some handle) : 0 < pool.refs handle := by
  have hmem := (lookup_eq_some hkept.distinct).mp hlookup
  have hopen : 0 < pool.openFds handle :=
    List.countP_pos_iff.mpr ⟨_, hmem, decide_eq_true rfl⟩
  exact hopen.trans_le (hkept.counted handle)

theorem act_dmaBufPut_borrowed {handle : ℕ} (hrefs : 0 < pool.refs handle) :
    (pool.borrowed i handle).act i (.dmaBufPut handle) .succeed = some ((), pool) := by
  have hmany : ¬ pool.refs handle + 1 ≤ 1 := by omega
  have hmem : (i, Hand.borrowed handle) ∈ (pool.borrowed i handle).hands :=
    List.mem_cons_self
  simp only [PoolState.act]
  rw [if_pos hmem]
  unfold PoolState.borrowed PoolState.put PoolState.take PoolState.leave
  simp [hmany]

/-- The id of a descriptor: the place of its dma-buf among the handles, or -1. -/
def PoolState.idOf (pool : PoolState) (fd : ℤ) : ℤ :=
  match pool.lookup fd with
  | none => -1
  | some handle => indexOfHandle handle pool.handles

/-- A call of `al5_bufpool_get_id` finds the id, and nothing has changed at its end. -/
theorem FdsKept.ends_getId_iff (hkept : FdsKept pool) {fd value : ℤ} :
    (al5BufpoolGetId fd).Ends (PoolState.exec i) pool value pool' ↔
      value = pool.idOf fd ∧ pool' = pool := by
  unfold al5BufpoolGetId PoolState.idOf
  simp only [Prog.bind_eq, Prog.perform_bind, Prog.pure_eq, Prog.ends_act, exec_dmaBufGet_iff]
  cases hlookup : pool.lookup fd with
  | none =>
      rw [act_dmaBufGet_none hlookup]
      constructor
      · rintro ⟨found, mid, hget, hends⟩
        obtain ⟨rfl, rfl⟩ := Prod.mk.inj (Option.some.inj hget)
        exact hends
      · exact fun hvalue => ⟨none, pool, rfl, hvalue⟩
  | some handle =>
      rw [hkept.act_dmaBufGet_some hlookup]
      constructor
      · rintro ⟨found, mid, hget, hends⟩
        obtain ⟨rfl, rfl⟩ := Prod.mk.inj (Option.some.inj hget)
        obtain ⟨handles, mid₂, hhandles, hends⟩ := hends
        obtain ⟨rfl, rfl⟩ := exec_getHandles_iff.mp hhandles
        obtain ⟨_, mid₃, hput, rfl, rfl⟩ := hends
        rw [exec_dmaBufPut_iff, act_dmaBufPut_borrowed (hkept.refs_pos hlookup)] at hput
        exact ⟨rfl, (Prod.mk.inj (Option.some.inj hput)).2.symm⟩
      · rintro ⟨rfl, rfl⟩
        exact ⟨_, _, rfl, _, _, exec_getHandles_iff.mpr ⟨rfl, rfl⟩, (), _,
          exec_dmaBufPut_iff.mpr (act_dmaBufPut_borrowed (hkept.refs_pos hlookup)), rfl, rfl⟩

end

/-! ## A filled pool -/

structure Stocked (pool : PoolState) : Prop extends FdsKept pool where
  nodup : pool.handles.Nodup
  exported : ∀ handle ∈ pool.handles, handle < pool.exported

def Unlent (pool : PoolState) : Prop :=
  ∀ entry ∈ pool.fds, entry.2 ∉ pool.handles

section

variable {i : ℕ} {pool pool' : PoolState}

def PoolState.wrapped (pool : PoolState) : PoolState :=
  { pool.dmaBufExport with handles := pool.handles ++ [pool.exported] }

theorem FdsKept.openFds_exported (hkept : FdsKept pool) : pool.openFds pool.exported = 0 := by
  refine List.countP_eq_zero.mpr fun entry hentry => ?_
  have hknown := hkept.known entry hentry
  simp only [decide_eq_true_eq]
  omega

theorem FdsKept.dmaBufExport (hkept : FdsKept pool) : FdsKept pool.dmaBufExport where
  idle := hkept.idle
  distinct := hkept.distinct
  natural := hkept.natural
  known entry hentry := (hkept.known entry hentry).trans (Nat.lt_succ_self _)
  counted handle := by
    have hcounted := hkept.counted handle
    change pool.openFds handle ≤ Function.update pool.refs pool.exported 1 handle
    by_cases heq : handle = pool.exported
    · rw [heq, hkept.openFds_exported]
      exact Nat.zero_le _
    · rwa [Function.update_of_ne heq]

theorem Stocked.wrapped (hstocked : Stocked pool) : Stocked pool.wrapped where
  toFdsKept :=
    have hkept := hstocked.toFdsKept.dmaBufExport
    ⟨hkept.idle, hkept.distinct, hkept.natural, hkept.known, hkept.counted⟩
  nodup := by
    refine List.Nodup.append hstocked.nodup (List.nodup_singleton _) ?_
    intro handle hhandle hnew
    have hknown := hstocked.exported handle hhandle
    rw [List.mem_singleton.mp hnew] at hknown
    exact Nat.lt_irrefl _ hknown
  exported handle hhandle := by
    change handle < pool.exported + 1
    rcases List.mem_append.mp hhandle with hold | hnew
    · exact (hstocked.exported handle hold).trans (Nat.lt_succ_self _)
    · rw [List.mem_singleton.mp hnew]
      exact Nat.lt_succ_self _

theorem Unlent.wrapped (hunlent : Unlent pool) (hkept : FdsKept pool) :
    Unlent pool.wrapped := by
  intro entry hentry hmem
  rcases List.mem_append.mp hmem with hold | hnew
  · exact hunlent entry hentry hold
  · have hknown := hkept.known entry hentry
    rw [List.mem_singleton.mp hnew] at hknown
    exact Nat.lt_irrefl _ hknown

end

/-! ## Descriptors come and go -/

section

variable {pool pool' : PoolState}

theorem openFds_cons (pool : PoolState) (refs : ℕ → ℕ) (fd : ℤ) (own handle : ℕ) :
    ({ pool with refs := refs, fds := (fd, own) :: pool.fds } : PoolState).openFds handle =
      pool.openFds handle + if own = handle then 1 else 0 := by
  unfold PoolState.openFds
  rw [List.countP_cons]
  simp

theorem nodup_cons_of_free {fd : ℤ} {handle : ℕ}
    (hdistinct : (pool.fds.map Prod.fst).Nodup) (hfree : pool.lookup fd = none) :
    (((fd, handle) :: pool.fds).map Prod.fst).Nodup :=
  List.nodup_cons.mpr ⟨lookup_eq_none.mp hfree, hdistinct⟩

theorem Stocked.opened (hstocked : Stocked pool) {fd : ℤ} {handle : ℕ} (hfd : 0 ≤ fd)
    (hfree : pool.lookup fd = none) (hknown : handle < pool.exported) :
    Stocked (pool.opened fd handle) where
  idle := hstocked.idle
  distinct := nodup_cons_of_free hstocked.distinct hfree
  natural := List.forall_mem_cons.mpr ⟨hfd, hstocked.natural⟩
  known := List.forall_mem_cons.mpr ⟨hknown, hstocked.known⟩
  counted other := by
    have hcounted := hstocked.counted other
    unfold PoolState.opened
    rw [openFds_cons]
    by_cases heq : handle = other
    · subst heq
      simpa using hcounted
    · simpa [heq, Function.update_of_ne (Ne.symm heq)] using hcounted
  nodup := hstocked.nodup
  exported := hstocked.exported

/-- A descriptor on a new dma-buf of another exporter. -/
def PoolState.openedForeign (pool : PoolState) (fd : ℤ) : PoolState :=
  { pool.dmaBufExport with fds := (fd, pool.exported) :: pool.fds }

theorem Stocked.openedForeign (hstocked : Stocked pool) {fd : ℤ} (hfd : 0 ≤ fd)
    (hfree : pool.lookup fd = none) : Stocked (pool.openedForeign fd) where
  idle := hstocked.idle
  distinct := nodup_cons_of_free hstocked.distinct hfree
  natural := List.forall_mem_cons.mpr ⟨hfd, hstocked.natural⟩
  known := List.forall_mem_cons.mpr
    ⟨Nat.lt_succ_self _, hstocked.toFdsKept.dmaBufExport.known⟩
  counted other := by
    have hcounted := hstocked.toFdsKept.dmaBufExport.counted other
    change ({ pool.dmaBufExport with
      refs := pool.dmaBufExport.refs
      fds := (fd, pool.exported) :: pool.dmaBufExport.fds } : PoolState).openFds other ≤
        pool.dmaBufExport.refs other
    rw [openFds_cons]
    by_cases heq : pool.exported = other
    · subst heq
      have hnone : pool.dmaBufExport.openFds pool.exported = 0 :=
        hstocked.toFdsKept.openFds_exported
      rw [hnone, if_pos rfl]
      exact le_of_eq (Function.update_self pool.exported 1 pool.refs).symm
    · simpa [heq] using hcounted
  nodup := hstocked.nodup
  exported handle hhandle := (hstocked.exported handle hhandle).trans (Nat.lt_succ_self _)

theorem lookup_openedForeign (pool : PoolState) (fd other : ℤ) :
    (pool.openedForeign fd).lookup other =
      if fd = other then some pool.exported else pool.lookup other := by
  unfold PoolState.openedForeign PoolState.lookup
  rw [List.find?_cons]
  by_cases heq : fd = other
  · simp [heq]
  · simp [heq]

def PoolState.closed (pool : PoolState) (fd : ℤ) (handle : ℕ) : PoolState :=
  { pool.put handle with fds := pool.fds.erase (fd, handle) }

theorem FdsKept.nodup_fds (hkept : FdsKept pool) : pool.fds.Nodup :=
  List.Nodup.of_map _ hkept.distinct

theorem Stocked.closed (hstocked : Stocked pool) {fd : ℤ} {handle : ℕ}
    (hlookup : pool.lookup fd = some handle) : Stocked (pool.closed fd handle) where
  idle := hstocked.idle
  distinct := hstocked.distinct.sublist (List.erase_sublist.map _)
  natural entry hentry := hstocked.natural entry (List.mem_of_mem_erase hentry)
  known entry hentry := hstocked.known entry (List.mem_of_mem_erase hentry)
  counted other := by
    have hmem := (lookup_eq_some hstocked.distinct).mp hlookup
    have hcounted := hstocked.counted other
    have hopen : pool.openFds other =
        (pool.closed fd handle).openFds other + if handle = other then 1 else 0 := by
      unfold PoolState.closed PoolState.openFds
      rw [(List.perm_cons_erase hmem).countP_eq, List.countP_cons]
      simp
    change _ ≤ Function.update pool.refs handle (pool.refs handle - 1) other
    by_cases heq : handle = other
    · subst heq
      rw [if_pos rfl] at hopen
      rw [Function.update_self]
      omega
    · rw [if_neg heq] at hopen
      rw [Function.update_of_ne (Ne.symm heq)]
      omega
  nodup := hstocked.nodup
  exported := hstocked.exported

theorem lookup_closed (hstocked : Stocked pool) {fd other : ℤ} {handle : ℕ}
    (hlookup : pool.lookup fd = some handle) :
    (pool.closed fd handle).lookup other = if fd = other then none else pool.lookup other := by
  have hmem := (lookup_eq_some hstocked.distinct).mp hlookup
  ext found
  rw [lookup_eq_some (hstocked.closed hlookup).distinct]
  change (other, found) ∈ pool.fds.erase (fd, handle) ↔ _
  rw [hstocked.nodup_fds.mem_erase_iff]
  split_ifs with heq
  · subst heq
    refine iff_of_false ?_ (by simp)
    rintro ⟨hne, hfound⟩
    have hfound' := (lookup_eq_some hstocked.distinct).mpr hfound
    rw [hlookup] at hfound'
    exact hne (by rw [Option.some.inj hfound'])
  · rw [lookup_eq_some hstocked.distinct]
    exact and_iff_right fun hsame => heq (Prod.mk.inj hsame).1.symm

end

/-! ## The record is right -/

namespace FdTable

structure Recorded (count : ℕ) (table : FdTable) : Prop where
  stocked : Stocked table.pool
  length : table.pool.handles.length = count
  origin : ∀ fd id, table.origin fd = some id ↔
    ∃ handle, table.pool.handles[id]? = some handle ∧ table.pool.lookup fd = some handle

section

variable {count : ℕ} {table table' : FdTable} {pool : PoolState}

/-- A descriptor is replaced, together with its record. -/
theorem Recorded.update (hrecorded : table.Recorded count) {fd : ℤ} {found : Option ℕ}
    {id : Option ℕ} (hstocked : Stocked pool) (hhandles : pool.handles = table.pool.handles)
    (hlookup : ∀ other, pool.lookup other =
      if fd = other then found else table.pool.lookup other)
    (hid : ∀ place, id = some place ↔
      ∃ handle, table.pool.handles[place]? = some handle ∧ found = some handle) :
    Recorded count ⟨pool, Function.update table.origin fd id⟩ where
  stocked := hstocked
  length := by
    change pool.handles.length = count
    rw [hhandles]
    exact hrecorded.length
  origin other place := by
    change Function.update table.origin fd id other = some place ↔
      ∃ handle, pool.handles[place]? = some handle ∧ pool.lookup other = some handle
    rw [hlookup, hhandles]
    by_cases heq : fd = other
    · subst heq
      rw [Function.update_self, if_pos rfl]
      exact hid place
    · rw [Function.update_of_ne (Ne.symm heq), if_neg heq]
      exact hrecorded.origin other place

/-- The handles are distinct, so a dma-buf has one place. -/
theorem Recorded.place_unique (hrecorded : table.Recorded count) {id place handle : ℕ}
    (hid : table.pool.handles[id]? = some handle)
    (hplace : table.pool.handles[place]? = some handle) : id = place := by
  obtain ⟨hlt, hget⟩ := List.getElem?_eq_some_iff.mp hid
  obtain ⟨hlt', hget'⟩ := List.getElem?_eq_some_iff.mp hplace
  exact (hrecorded.stocked.nodup.getElem_inj_iff).mp (hget.trans hget'.symm)

theorem Recorded.reserveFd (hrecorded : table.Recorded count) {i id : ℕ} {fd : ℤ}
    (hends : (al5BufpoolReserveFd id).Ends (PoolState.exec i) table.pool fd pool) :
    (table.install pool fd id).Recorded count := by
  obtain ⟨handle, hhandle, -, -, hcases⟩ :=
    of_ends_reserveFd hrecorded.stocked.toFdsKept hends
  rcases hcases with ⟨hneg, rfl⟩ | ⟨hfd, hfree, rfl⟩
  · unfold install
    rw [if_neg (by omega)]
    exact hrecorded
  · unfold install
    rw [if_pos hfd]
    have hknown := hrecorded.stocked.exported handle (List.mem_of_getElem? hhandle)
    refine hrecorded.update (hrecorded.stocked.opened hfd hfree hknown) rfl
      (lookup_opened table.pool fd · handle) fun place => ?_
    constructor
    · intro heq
      obtain rfl := Option.some.inj heq
      exact ⟨handle, hhandle, rfl⟩
    · rintro ⟨other, hother, heq⟩
      obtain rfl := Option.some.inj heq
      rw [hrecorded.place_unique hhandle hother]

theorem Recorded.dup (hrecorded : table.Recorded count) {fd : ℤ} {copy : ℕ}
    (hdup : table.pool.dup fd copy = some pool) :
    Recorded count ⟨pool, Function.update table.origin copy (table.origin fd)⟩ := by
  unfold PoolState.dup at hdup
  cases hlookup : table.pool.lookup fd with
  | none => rw [hlookup] at hdup; exact absurd hdup (by simp)
  | some handle =>
      rw [hlookup] at hdup
      dsimp only at hdup
      split_ifs at hdup with hfree
      obtain rfl := Option.some.inj hdup
      have hmem := (lookup_eq_some hrecorded.stocked.distinct).mp hlookup
      have hknown := hrecorded.stocked.known _ hmem
      refine hrecorded.update
        (hrecorded.stocked.opened (Int.natCast_nonneg copy) hfree hknown) rfl
        (lookup_opened table.pool copy · handle) fun place => ?_
      rw [hrecorded.origin, hlookup]

theorem Recorded.close (hrecorded : table.Recorded count) {fd : ℤ}
    (henv : table.pool.env (.close fd) = some pool) :
    Recorded count ⟨pool, Function.update table.origin fd none⟩ := by
  obtain ⟨handle, hlookup, rfl⟩ := Option.map_eq_some_iff.mp henv
  exact hrecorded.update (hrecorded.stocked.closed hlookup) rfl
    (fun other => lookup_closed hrecorded.stocked hlookup) (by simp)

theorem Recorded.openForeign (hrecorded : table.Recorded count) {fd : ℕ}
    (henv : table.pool.env (.openForeign fd) = some pool) :
    Recorded count ⟨pool, Function.update table.origin fd none⟩ := by
  simp only [PoolState.env] at henv
  split_ifs at henv with hfree
  obtain rfl := Option.some.inj henv
  refine hrecorded.update
    (hrecorded.stocked.openedForeign (Int.natCast_nonneg fd) hfree) rfl
    (lookup_openedForeign table.pool fd) fun place => ?_
  refine iff_of_false (by simp) ?_
  rintro ⟨handle, hhandle, heq⟩
  obtain rfl := Option.some.inj heq
  exact Nat.lt_irrefl _ (hrecorded.stocked.exported _ (List.mem_of_getElem? hhandle))

theorem Recorded.step (hrecorded : table.Recorded count) (hstep : table.Step table') :
    table'.Recorded count := by
  cases hstep with
  | reserveFd hends => exact hrecorded.reserveFd hends
  | getId hends =>
      obtain ⟨-, rfl⟩ := hrecorded.stocked.toFdsKept.ends_getId_iff.mp hends
      exact hrecorded
  | dup hdup => exact hrecorded.dup hdup
  | close henv => exact hrecorded.close henv
  | openForeign henv => exact hrecorded.openForeign henv

end

end FdTable

/-! ## The mails of the encoder -/

/-- The actions of which the desk takes note. -/
def UserAct.isNoted : UserAct → Bool
  | .send _ | .listPop _ | .bufpoolGetId _ | .bufpoolReserveFd _ => true
  | _ => false

section

variable {i : ℕ} {desk desk' : RecDesk}

theorem desk_of_exec {action : UserAct} {result : action.Res}
    (hnoted : action.isNoted = false) (hexec : RecDesk.exec i action desk result desk') :
    desk' = desk := by
  cases action with
  | send mail => exact absurd hnoted Bool.true_eq_false.mp
  | listPop which => exact absurd hnoted Bool.true_eq_false.mp
  | bufpoolGetId fd => exact absurd hnoted Bool.true_eq_false.mp
  | bufpoolReserveFd id => exact absurd hnoted Bool.true_eq_false.mp
  | _ =>
      obtain ⟨_, _, _, -, rfl⟩ := hexec
      rfl

/-- A mail is sent and accepted, or the desk is as before. -/
theorem of_ends_sendBuilt {constructor : Bool → MailResult} {err : ℤ}
    (hends : (sendBuilt constructor).Ends (RecDesk.exec i) desk err desk') :
    (err < 0 ∧ desk' = desk) ∨
      (err = 0 ∧ ∃ kmalloc mail, constructor kmalloc = .ok (some mail) ∧
        desk' = { desk with sent := desk.sent ++ [mail] }) := by
  unfold sendBuilt buildMail at hends
  simp only [Prog.bind_eq, Prog.perform_bind, Prog.act_bind, Prog.pure_eq] at hends
  obtain ⟨kmalloc, desk₁, hkmalloc, hends⟩ := hends
  obtain rfl := desk_of_exec rfl hkmalloc
  dsimp only at hends
  cases hmail : constructor kmalloc with
  | error fault =>
      rw [hmail] at hends
      obtain ⟨_, _, ⟨_, _, choice, hoops, -⟩, -⟩ := hends
      exact absurd hoops (by cases choice <;> simp [UserState.act])
  | ok mail =>
      rw [hmail] at hends
      cases mail with
      | none =>
          obtain ⟨rfl, rfl⟩ := hends
          exact .inl ⟨by decide, rfl⟩
      | some mail =>
          obtain ⟨result, desk₂, ⟨user, user', choice, hact, rfl⟩, rfl, rfl⟩ := hends
          cases choice with
          | succeed =>
              obtain ⟨rfl, -⟩ := Prod.mk.inj (Option.some.inj hact)
              exact .inr ⟨rfl, kmalloc, mail, hmail, rfl⟩
          | fail =>
              obtain ⟨rfl, -⟩ := Prod.mk.inj (Option.some.inj hact)
              exact .inl ⟨by decide, rfl⟩
          | _ => exact absurd hact (by simp [UserState.act])

/-- A popped reply is noted. -/
theorem of_ends_al5QueuePop {which : UserMail} {mail : Option Al5Mail}
    (hends : (al5QueuePop which).Ends (RecDesk.exec i) desk mail desk') :
    desk' = { desk with reported := mail } := by
  unfold al5QueuePop at hends
  simp only [Prog.bind_eq, Prog.perform_bind] at hends
  obtain ⟨_, desk₁, hwait, hends⟩ := hends
  obtain rfl := desk_of_exec rfl hwait
  obtain ⟨popped, desk₂, ⟨_, _, _, -, rfl⟩, rfl, rfl⟩ := hends
  rfl

/-- The buffer of the picture is reserved unless the number is out of range. -/
theorem of_ends_getUserRecBuffer {id : Word} {fd : ℤ}
    (hends : (getUserRecBuffer id).Ends (RecDesk.exec i) desk fd desk') :
    (fd = -1 ∧ desk' = desk) ∨
      (0 ≤ id.toInt ∧ ∃ pool,
        (al5BufpoolReserveFd id.toInt.toNat).Ends (PoolState.exec i) desk.pool fd pool ∧
          desk' = { desk with pool := pool }) := by
  unfold getUserRecBuffer at hends
  simp only [Prog.bind_eq, Prog.perform_bind, Prog.pure_eq] at hends
  obtain ⟨bufpool, desk₁, hpool, hends⟩ := hends
  obtain rfl := desk_of_exec rfl hpool
  dsimp only at hends
  by_cases hrange : id.toInt > bufpool.length ∨ id.toInt < 0
  · rw [if_pos hrange] at hends
    obtain ⟨rfl, rfl⟩ := hends
    exact .inl ⟨rfl, rfl⟩
  · rw [if_neg hrange] at hends
    obtain ⟨result, desk₂, ⟨pool, hreserve, rfl⟩, rfl, rfl⟩ := hends
    exact .inr ⟨by omega, pool, hreserve, rfl⟩

/-- A get that succeeds has reserved a descriptor for the picture of its reply. -/
theorem of_ends_getRec {info : Al5ReconstructedInfo}
    (hends : al5eUserGetRec.Ends (RecDesk.exec i) desk (0, some info) desk') :
    ∃ mail, desk'.reported = some mail ∧ 0 ≤ pictureId mail ∧
      ∃ fd, (al5BufpoolReserveFd (pictureId mail).toNat).Ends (PoolState.exec i) desk.pool fd
          desk'.pool ∧
        info.fd = BitVec.ofInt 32 fd := by
  unfold al5eUserGetRec at hends
  simp only [Prog.bind_eq, Prog.perform_bind, Prog.pure_eq] at hends
  obtain ⟨locked, desk₁, hlock, hends⟩ := hends
  obtain rfl := desk_of_exec rfl hlock
  cases locked with
  | false => exact absurd (Prod.mk.inj hends.1).1 (by decide)
  | true =>
      obtain ⟨chanUid, desk₂, hchan, hends⟩ := hends
      obtain rfl := desk_of_exec rfl hchan
      dsimp only at hends
      by_cases hbad : chanUid = badChan
      · rw [if_pos hbad] at hends
        obtain ⟨_, desk₃, -, heq, -⟩ := hends
        exact absurd (Prod.mk.inj heq).1 (by decide)
      · rw [if_neg hbad] at hends
        obtain ⟨uid, desk₃, hchan, hends⟩ := hends
        obtain rfl := desk_of_exec rfl hchan
        obtain ⟨err, desk₄, hsend, hends⟩ := Prog.ends_bind.mp hends
        by_cases herr : err = 0
        · rw [if_neg (by simpa using herr)] at hends
          obtain ⟨feedback, desk₅, hpop, hends⟩ := Prog.ends_bind.mp hends
          obtain rfl := of_ends_al5QueuePop hpop
          cases feedback with
          | none =>
              obtain ⟨_, desk₆, -, heq, -⟩ := hends
              exact absurd (Prod.mk.inj heq).1 (by decide)
          | some mail =>
              obtain ⟨fd, desk₆, hreserve, hends⟩ := Prog.ends_bind.mp hends
              obtain ⟨_, desk₇, hfree, hends⟩ := hends
              obtain rfl := desk_of_exec rfl hfree
              obtain ⟨_, desk₈, hunlock, hends⟩ := hends
              obtain rfl := desk_of_exec rfl hunlock
              by_cases hfd : BitVec.ofInt 32 fd = (-1 : Word)
              · rw [if_pos hfd] at hends
                exact absurd (Prod.mk.inj hends.1).1 (by decide)
              · rw [if_neg hfd] at hends
                obtain ⟨heq, rfl⟩ := hends
                have hinfo := Option.some.inj (Prod.mk.inj heq).2
                rcases of_ends_getUserRecBuffer hreserve with
                  ⟨rfl, -⟩ | ⟨hrange, pool, hpool, rfl⟩
                · exact absurd rfl hfd
                · have hsame : desk₄.pool = desk₃.pool := by
                    rcases of_ends_sendBuilt hsend with ⟨-, rfl⟩ | ⟨-, _, _, -, rfl⟩
                    · rfl
                    · rfl
                  rw [hinfo, ← hsame]
                  exact ⟨mail, rfl, hrange, fd, hpool, rfl⟩
        · rw [if_pos herr] at hends
          obtain ⟨_, desk₅, -, heq, -⟩ := hends
          exact absurd (Prod.mk.inj heq).1.symm herr

end

/-! ## The round trip -/

namespace FdTable

variable {count : ℕ} {table : FdTable}

theorem Recorded.getRec (hrecorded : table.Recorded count) {i : ℕ}
    {info : Al5ReconstructedInfo} {desk : RecDesk}
    (hends : al5eUserGetRec.Ends (RecDesk.exec i) table.desk (0, some info) desk) :
    ∃ mail, desk.reported = some mail ∧
      ∃ id : ℕ, pictureId mail = id ∧
        Step table (table.install desk.pool info.fd.toInt id) ∧
        (info.fd.toInt < 0 → desk.pool = table.pool) := by
  obtain ⟨mail, hreported, hid, fd, hreserve, hfd⟩ := of_ends_getRec hends
  refine ⟨mail, hreported, (pictureId mail).toNat, (Int.toNat_of_nonneg hid).symm, ?_⟩
  obtain ⟨handle, -, hlow, hhigh, hcases⟩ :=
    of_ends_reserveFd hrecorded.stocked.toFdsKept hreserve
  have hint : info.fd.toInt = fd := by
    rw [hfd, BitVec.toInt_ofInt, Int.bmod_eq_of_le (by omega) (by omega)]
  rw [hint]
  refine ⟨.reserveFd hreserve, fun hneg => ?_⟩
  rcases hcases with ⟨-, hpool⟩ | ⟨hnatural, -, -⟩
  · exact hpool
  · omega

end FdTable

end VcuDriver

import VcuDriver.BufferPool
import VcuDriver.Conc.Outline
import Mathlib.Data.List.Perm.Subperm

/-!
# Accounting for the references of a pool

A reference of a dma-buf is held by the pool, by a descriptor, or by a call that
exported it or looked it up.  A descriptor of `al5_bufpool_reserve_fd` owes one
reference until the call has looked it up; as long as it stays open until then,
and the pool keeps the buffer, the counts are right whenever no call runs.
-/

namespace VcuDriver

open Conc

/-! ## Who holds references -/

namespace Hand

def handle : Hand → ℕ
  | .exported handle | .borrowed handle | .reading handle | .lent _ handle => handle

def owns (handle : ℕ) : Hand → Bool
  | .exported own | .borrowed own => own = handle
  | .reading _ | .lent .. => false

/-- The call is between reading a handle from the pool and the end of
`al5_bufpool_reserve_fd`. -/
def uses (handle : ℕ) : Hand → Bool
  | .reading own | .lent _ own => own = handle
  | .exported _ | .borrowed _ => false

def lent? : Hand → Option (ℤ × ℕ)
  | .lent fd handle => some (fd, handle)
  | _ => none

end Hand

namespace PoolState

def pooled (state : PoolState) : List ℕ :=
  state.handles.drop state.dropped

def openFds (state : PoolState) (handle : ℕ) : ℕ :=
  state.fds.countP fun entry => entry.2 = handle

def lents (state : PoolState) : List (ℤ × ℕ) :=
  state.hands.filterMap fun entry => entry.2.lent?

def owed (state : PoolState) (handle : ℕ) : ℕ :=
  state.lents.countP fun entry => entry.2 = handle

def owned (state : PoolState) (handle : ℕ) : ℕ :=
  state.hands.countP fun entry => entry.2.owns handle

def pending (state : PoolState) (handle : ℕ) : ℕ :=
  state.hands.countP fun entry => entry.2 = .exported handle

end PoolState

structure PoolInv (state : PoolState) : Prop where
  accounts : ∀ handle,
    state.refs handle + state.owed handle =
      state.pooled.count handle + state.openFds handle + state.owned handle
  distinct : (state.fds.map Prod.fst).Nodup
  natural : ∀ entry ∈ state.fds, 0 ≤ entry.1
  lentsOpen : state.lents.Subperm state.fds
  kept : ∀ i hand handle, (i, hand) ∈ state.hands → hand.uses handle = true →
    handle ∈ state.pooled
  once : ∀ handle, state.handles.count handle + state.pending handle ≤ 1
  handlesKnown : ∀ handle ∈ state.handles, handle < state.exported
  fdsKnown : ∀ entry ∈ state.fds, entry.2 < state.exported
  handsKnown : ∀ entry ∈ state.hands, entry.2.handle < state.exported
  releases : ∀ handle, state.released.count handle =
    if handle < state.exported ∧ state.refs handle = 0 then 1 else 0
  idle : state.owner = none → state.dropped = 0

theorem poolInv_init : PoolInv al5BufpoolInit where
  accounts _ := rfl
  distinct := List.nodup_nil
  natural := by simp [al5BufpoolInit]
  lentsOpen := List.nil_subperm
  kept := by simp [al5BufpoolInit]
  once _ := by simp [al5BufpoolInit, PoolState.pending]
  handlesKnown := by simp [al5BufpoolInit]
  fdsKnown := by simp [al5BufpoolInit]
  handsKnown := by simp [al5BufpoolInit]
  releases _ := by simp [al5BufpoolInit]
  idle _ := rfl

section

variable {state : PoolState} {i : ℕ} {hand : Hand}

theorem perm_leave (hmem : (i, hand) ∈ state.hands) :
    state.hands.Perm ((i, hand) :: (state.leave i hand).hands) :=
  List.perm_cons_erase hmem

theorem owned_take (state : PoolState) (i : ℕ) (hand : Hand) (handle : ℕ) :
    (state.take i hand).owned handle =
      state.owned handle + (hand.owns handle).toNat := by
  unfold PoolState.owned PoolState.take
  rw [List.countP_cons]
  cases hand.owns handle <;> rfl

theorem owned_leave (hmem : (i, hand) ∈ state.hands) (handle : ℕ) :
    (state.leave i hand).owned handle + (hand.owns handle).toNat =
      state.owned handle := by
  unfold PoolState.owned
  rw [(perm_leave hmem).countP_eq, List.countP_cons]
  cases hand.owns handle <;> rfl

theorem pending_take (state : PoolState) (i : ℕ) (hand : Hand) (handle : ℕ) :
    (state.take i hand).pending handle =
      state.pending handle + if hand = .exported handle then 1 else 0 := by
  unfold PoolState.pending PoolState.take
  rw [List.countP_cons]
  simp

theorem pending_leave (hmem : (i, hand) ∈ state.hands) (handle : ℕ) :
    ((state.leave i hand).pending handle +
        if hand = .exported handle then 1 else 0) =
      state.pending handle := by
  unfold PoolState.pending
  rw [(perm_leave hmem).countP_eq, List.countP_cons]
  simp

theorem lents_take (state : PoolState) (i : ℕ) (hand : Hand) :
    (state.take i hand).lents = hand.lent?.toList ++ state.lents := by
  unfold PoolState.lents PoolState.take
  rw [List.filterMap_cons]
  cases hand.lent? <;> rfl

theorem perm_lents_leave (hmem : (i, hand) ∈ state.hands) :
    state.lents.Perm (hand.lent?.toList ++ (state.leave i hand).lents) := by
  unfold PoolState.lents
  refine ((perm_leave hmem).filterMap _).trans ?_
  rw [List.filterMap_cons]
  cases hand.lent? <;> rfl

theorem owed_take (state : PoolState) (i : ℕ) (hand : Hand) (handle : ℕ) :
    (state.take i hand).owed handle =
      hand.lent?.toList.countP (fun entry => entry.2 = handle) +
        state.owed handle := by
  unfold PoolState.owed
  rw [lents_take, List.countP_append]

theorem owed_leave (hmem : (i, hand) ∈ state.hands) (handle : ℕ) :
    state.owed handle =
      hand.lent?.toList.countP (fun entry => entry.2 = handle) +
        (state.leave i hand).owed handle := by
  unfold PoolState.owed
  rw [(perm_lents_leave hmem).countP_eq, List.countP_append]

theorem mem_of_mem_leave {entry : ℕ × Hand}
    (hmem : entry ∈ (state.leave i hand).hands) : entry ∈ state.hands :=
  List.mem_of_mem_erase hmem

theorem PoolInv.owed_le (hinv : PoolInv state) (handle : ℕ) :
    state.owed handle ≤ state.openFds handle :=
  hinv.lentsOpen.countP_le _

/-- Nothing refers to a dma-buf which does not exist yet. -/
theorem PoolInv.unknown (hinv : PoolInv state) {handle : ℕ}
    (hunknown : state.exported ≤ handle) :
    state.handles.count handle = 0 ∧ state.pooled.count handle = 0 ∧
      state.openFds handle = 0 ∧ state.owned handle = 0 ∧
        state.pending handle = 0 ∧ state.owed handle = 0 ∧
          state.refs handle = 0 := by
  have hhandles : handle ∉ state.handles := fun hmem =>
    absurd (hinv.handlesKnown handle hmem) (by omega)
  have hpooled : handle ∉ state.pooled := fun hmem =>
    hhandles (List.mem_of_mem_drop hmem)
  have hfds : state.openFds handle = 0 := by
    refine List.countP_eq_zero.mpr ?_
    intro entry hmem hentry
    have hknown := hinv.fdsKnown entry hmem
    simp only [decide_eq_true_eq] at hentry
    omega
  have howned : state.owned handle = 0 := by
    refine List.countP_eq_zero.mpr ?_
    rintro ⟨j, hand⟩ hmem hentry
    have hknown := hinv.handsKnown _ hmem
    cases hand <;> simp [Hand.owns, Hand.handle] at hentry hknown <;> omega
  have hpending : state.pending handle = 0 := by
    refine List.countP_eq_zero.mpr ?_
    rintro ⟨j, hand⟩ hmem hentry
    have hknown := hinv.handsKnown _ hmem
    simp only [decide_eq_true_eq] at hentry
    simp only [hentry, Hand.handle] at hknown
    omega
  have howed := hinv.owed_le handle
  have haccounts := hinv.accounts handle
  have hcount : state.pooled.count handle = 0 := List.count_eq_zero_of_not_mem hpooled
  exact ⟨List.count_eq_zero_of_not_mem hhandles, hcount, hfds, howned, hpending,
    by omega, by omega⟩

theorem lookup_eq_some (hdistinct : (state.fds.map Prod.fst).Nodup)
    {fd : ℤ} {handle : ℕ} :
    state.lookup fd = some handle ↔ (fd, handle) ∈ state.fds := by
  unfold PoolState.lookup
  constructor
  · intro hlookup
    obtain ⟨entry, hfind, rfl⟩ := Option.map_eq_some_iff.mp hlookup
    have hfd := List.find?_some hfind
    simp only [decide_eq_true_eq] at hfd
    rw [← hfd]
    exact List.mem_of_find?_eq_some hfind
  · intro hmem
    cases hfind : state.fds.find? fun entry => entry.1 = fd with
    | none =>
        have hnone := List.find?_eq_none.mp hfind _ hmem
        simp at hnone
    | some entry =>
        have hfd := List.find?_some hfind
        simp only [decide_eq_true_eq] at hfd
        have hentry := List.mem_of_find?_eq_some hfind
        have hsame : entry = (fd, handle) :=
          List.inj_on_of_nodup_map hdistinct hentry hmem hfd
        rw [hsame]
        rfl

theorem lookup_eq_none {fd : ℤ} :
    state.lookup fd = none ↔ fd ∉ state.fds.map Prod.fst := by
  unfold PoolState.lookup
  rw [Option.map_eq_none_iff, List.find?_eq_none]
  simp only [List.mem_map, not_exists, not_and, decide_eq_true_eq]

end

/-! ## What keeps the accounts -/

section

variable {state : PoolState} {i : ℕ}

theorem PoolInv.uses_of_owed (hinv : PoolInv state) {handle : ℕ}
    (howed : 0 < state.owed handle) : handle ∈ state.pooled := by
  obtain ⟨entry, hmem, hentry⟩ := List.countP_pos_iff.mp howed
  obtain ⟨⟨j, hand⟩, hhand, hlent⟩ := List.mem_filterMap.mp hmem
  simp only [decide_eq_true_eq] at hentry
  refine hinv.kept j hand handle hhand ?_
  cases hand with
  | lent fd own =>
      simp only [Hand.lent?, Option.some.injEq] at hlent
      subst hlent
      simpa [Hand.uses] using hentry
  | exported own => exact absurd hlent (by simp [Hand.lent?])
  | borrowed own => exact absurd hlent (by simp [Hand.lent?])
  | reading own => exact absurd hlent (by simp [Hand.lent?])

theorem PoolInv.refs_pos_of_fd (hinv : PoolInv state) {fd : ℤ} {handle : ℕ}
    (hopen : (fd, handle) ∈ state.fds) : 1 ≤ state.refs handle := by
  have haccounts := hinv.accounts handle
  have howed := hinv.owed_le handle
  have hfds : 0 < state.openFds handle :=
    List.countP_pos_iff.mpr ⟨_, hopen, by simp⟩
  rcases Nat.eq_zero_or_pos (state.owed handle) with hzero | hpos
  · omega
  · have hpooled := List.count_pos_iff.mpr (hinv.uses_of_owed hpos)
    omega

theorem PoolInv.refs_pos_of_hand (hinv : PoolInv state) {hand : Hand} {handle : ℕ}
    (hmem : (i, hand) ∈ state.hands) (howns : hand.owns handle = true) :
    1 ≤ state.refs handle := by
  have haccounts := hinv.accounts handle
  have howed := hinv.owed_le handle
  have howned : 0 < state.owned handle :=
    List.countP_pos_iff.mpr ⟨_, hmem, howns⟩
  omega

theorem PoolInv.known_of_refs (hinv : PoolInv state) {handle : ℕ}
    (hrefs : 1 ≤ state.refs handle) : handle < state.exported := by
  by_contra hunknown
  have hzero := (hinv.unknown (Nat.not_lt.mp hunknown)).2.2.2.2.2.2
  omega

/-- Dropping a reference releases a dma-buf exactly when it was the last. -/
theorem PoolInv.releases_put (hinv : PoolInv state) {handle : ℕ}
    (hrefs : 1 ≤ state.refs handle) (other : ℕ) :
    (state.put handle).released.count other =
      if other < state.exported ∧ (state.put handle).refs other = 0 then 1
      else 0 := by
  have hknown := hinv.known_of_refs hrefs
  have hreleases := hinv.releases other
  unfold PoolState.put
  by_cases hother : other = handle
  · subst hother
    simp only [Function.update_self]
    rw [if_neg (by omega)] at hreleases
    by_cases hlast : state.refs other ≤ 1
    · rw [if_pos hlast, if_pos ⟨hknown, by omega⟩, List.count_cons_self, hreleases]
    · rw [if_neg hlast, if_neg (by omega), hreleases]
  · simp only [Function.update_of_ne hother]
    rw [← hreleases]
    split
    · exact List.count_cons_of_ne (Ne.symm hother)
    · rfl

theorem PoolInv.releases_get (hinv : PoolInv state) {handle : ℕ}
    (hrefs : 1 ≤ state.refs handle) (other : ℕ) :
    state.released.count other =
      if other < state.exported ∧
          Function.update state.refs handle (state.refs handle + 1) other = 0 then 1
      else 0 := by
  rw [hinv.releases other]
  by_cases hother : other = handle
  · subst hother
    rw [Function.update_self, if_neg (by omega), if_neg (by omega)]
  · rw [Function.update_of_ne hother]

theorem PoolInv.releases_export (hinv : PoolInv state) (other : ℕ) :
    state.released.count other =
      if other < state.exported + 1 ∧
          Function.update state.refs state.exported 1 other = 0 then 1
      else 0 := by
  rw [hinv.releases other]
  by_cases hother : other = state.exported
  · subst hother
    rw [Function.update_self, if_neg (by omega), if_neg (by omega)]
  · rw [Function.update_of_ne hother]
    have hsame : other < state.exported + 1 ↔ other < state.exported := by omega
    simp only [hsame]

theorem PoolInv.setOwner (hinv : PoolInv state) {owner : Option ℕ}
    (hidle : owner = none → state.dropped = 0) :
    PoolInv { state with owner := owner } :=
  { hinv with idle := hidle }

theorem PoolInv.wrap (hinv : PoolInv state) :
    PoolInv (state.dmaBufExport.take i (.exported state.exported)) where
  accounts handle := by
    have haccounts := hinv.accounts handle
    have hunknown := hinv.unknown (Nat.le_refl state.exported)
    have howned := owned_take state.dmaBufExport i (.exported state.exported) handle
    have howed := owed_take state.dmaBufExport i (.exported state.exported) handle
    rw [howned, howed]
    change Function.update state.refs state.exported 1 handle +
        (0 + state.owed handle) =
      state.pooled.count handle + state.openFds handle +
        (state.owned handle + _)
    by_cases hhandle : handle = state.exported
    · subst hhandle
      simp only [Function.update_self, Hand.owns, decide_true, Bool.toNat_true]
      omega
    · have hne : decide (state.exported = handle) = false := by
        simpa using Ne.symm hhandle
      simp only [Function.update_of_ne hhandle, Hand.owns, hne, Bool.toNat_false]
      omega
  distinct := hinv.distinct
  natural := hinv.natural
  lentsOpen := by
    rw [lents_take]
    exact hinv.lentsOpen
  kept j hand handle hmem huses := by
    rcases List.mem_cons.mp hmem with heq | hmem
    · obtain ⟨rfl, rfl⟩ := Prod.mk.inj heq
      exact absurd huses (by simp [Hand.uses])
    · exact hinv.kept j hand handle hmem huses
  once handle := by
    have honce := hinv.once handle
    rw [pending_take]
    change state.handles.count handle + (state.pending handle + _) ≤ 1
    split
    · rename_i heq
      have hunknown := hinv.unknown (Nat.le_refl state.exported)
      rw [Hand.exported.inj heq] at hunknown
      omega
    · exact honce
  handlesKnown handle hmem := Nat.lt_succ_of_lt (hinv.handlesKnown handle hmem)
  fdsKnown entry hmem := Nat.lt_succ_of_lt (hinv.fdsKnown entry hmem)
  handsKnown entry hmem := by
    rcases List.mem_cons.mp hmem with rfl | hmem
    · exact Nat.lt_succ_self _
    · exact Nat.lt_succ_of_lt (hinv.handsKnown entry hmem)
  releases := hinv.releases_export
  idle := hinv.idle

theorem PoolInv.setHandle (hinv : PoolInv state) {handle : ℕ}
    (hmem : (i, .exported handle) ∈ state.hands) (hdropped : state.dropped = 0) :
    PoolInv { state.leave i (.exported handle) with
      handles := state.handles ++ [handle] } where
  accounts other := by
    have haccounts := hinv.accounts other
    have howned := owned_leave hmem other
    have howed := owed_leave hmem other
    have hpooled : ((state.handles ++ [handle]).drop state.dropped).count other =
        state.pooled.count other + if handle = other then 1 else 0 := by
      unfold PoolState.pooled
      rw [hdropped, List.drop_zero, List.drop_zero, List.count_append,
        List.count_singleton]
      simp
    change state.refs other + (state.leave i (.exported handle)).owed other =
      ((state.handles ++ [handle]).drop state.dropped).count other +
        state.openFds other + (state.leave i (.exported handle)).owned other
    rw [hpooled]
    simp only [Hand.owns, Hand.lent?, Option.toList_none, List.countP_nil] at *
    by_cases hother : handle = other
    · subst hother
      simp only [decide_true, Bool.toNat_true, if_true] at howned ⊢
      omega
    · simp only [hother, decide_false, Bool.toNat_false, if_false] at howned ⊢
      omega
  distinct := hinv.distinct
  natural := hinv.natural
  lentsOpen := by
    have hperm := perm_lents_leave hmem
    exact hperm.symm.subperm.trans hinv.lentsOpen
  kept j hand other hhand huses := by
    have hpooled := hinv.kept j hand other (mem_of_mem_leave hhand) huses
    unfold PoolState.pooled at hpooled ⊢
    rw [hdropped, List.drop_zero] at hpooled
    change other ∈ (state.handles ++ [handle]).drop state.dropped
    rw [hdropped, List.drop_zero]
    exact List.mem_append_left _ hpooled
  once other := by
    have honce := hinv.once other
    have hpending := pending_leave hmem other
    change (state.handles ++ [handle]).count other +
      (state.leave i (.exported handle)).pending other ≤ 1
    rw [List.count_append, List.count_singleton]
    by_cases hother : handle = other
    · subst hother
      simp only [if_true, beq_self_eq_true] at hpending ⊢
      omega
    · simp [hother] at hpending ⊢
      omega
  handlesKnown other hother := by
    rcases List.mem_append.mp hother with hother | hother
    · exact hinv.handlesKnown other hother
    · rw [List.mem_singleton.mp hother]
      exact hinv.handsKnown _ hmem
  fdsKnown := hinv.fdsKnown
  handsKnown entry hentry := hinv.handsKnown entry (mem_of_mem_leave hentry)
  releases := hinv.releases
  idle := hinv.idle

theorem PoolInv.getHandle (hinv : PoolInv state) {handle : ℕ}
    (hpooled : handle ∈ state.pooled) :
    PoolInv (state.take i (.reading handle)) where
  accounts other := by
    have haccounts := hinv.accounts other
    rw [owned_take, owed_take]
    exact (congrArg _ (Nat.zero_add _)).trans haccounts
  distinct := hinv.distinct
  natural := hinv.natural
  lentsOpen := by
    rw [lents_take]
    exact hinv.lentsOpen
  kept j hand other hmem huses := by
    rcases List.mem_cons.mp hmem with heq | hmem
    · obtain ⟨rfl, rfl⟩ := Prod.mk.inj heq
      simp only [Hand.uses, decide_eq_true_eq] at huses
      rw [← huses]
      exact hpooled
    · exact hinv.kept j hand other hmem huses
  once other := by
    rw [pending_take, if_neg (by simp)]
    exact hinv.once other
  handlesKnown := hinv.handlesKnown
  fdsKnown := hinv.fdsKnown
  handsKnown entry hmem := by
    rcases List.mem_cons.mp hmem with rfl | hmem
    · exact hinv.handlesKnown handle (List.mem_of_mem_drop hpooled)
    · exact hinv.handsKnown entry hmem
  releases := hinv.releases
  idle := hinv.idle

/-- A call may forget a handle it has only read. -/
theorem PoolInv.leaveReading (hinv : PoolInv state) {handle : ℕ}
    (hmem : (i, .reading handle) ∈ state.hands) :
    PoolInv (state.leave i (.reading handle)) where
  accounts other := by
    have haccounts := hinv.accounts other
    have howned := owned_leave hmem other
    have howed := owed_leave hmem other
    simp only [Hand.owns, Bool.toNat_false, Hand.lent?, Option.toList_none,
      List.countP_nil] at howned howed
    change state.refs other + (state.leave i (.reading handle)).owed other =
      state.pooled.count other + state.openFds other +
        (state.leave i (.reading handle)).owned other
    omega
  distinct := hinv.distinct
  natural := hinv.natural
  lentsOpen := (perm_lents_leave hmem).symm.subperm.trans hinv.lentsOpen
  kept j hand other hhand huses :=
    hinv.kept j hand other (mem_of_mem_leave hhand) huses
  once other := by
    have honce := hinv.once other
    have hpending := pending_leave hmem other
    rw [if_neg (by simp), Nat.add_zero] at hpending
    rw [hpending]
    exact honce
  handlesKnown := hinv.handlesKnown
  fdsKnown := hinv.fdsKnown
  handsKnown entry hentry := hinv.handsKnown entry (mem_of_mem_leave hentry)
  releases := hinv.releases
  idle := hinv.idle

/-- The reference of the pool goes to a new descriptor. -/
theorem PoolInv.lend (hinv : PoolInv state) {handle : ℕ} {fd : ℤ}
    (hpooled : handle ∈ state.pooled) (hfree : state.lookup fd = none)
    (hnatural : 0 ≤ fd) :
    PoolInv { state.take i (.lent fd handle) with
      fds := (fd, handle) :: state.fds } where
  accounts other := by
    have haccounts := hinv.accounts other
    have howned := owned_take state i (.lent fd handle) other
    have howed := owed_take state i (.lent fd handle) other
    have hfds : ((fd, handle) :: state.fds).countP (fun entry => entry.2 = other) =
        state.openFds other + if handle = other then 1 else 0 := by
      rw [List.countP_cons]
      simp [PoolState.openFds]
    change state.refs other + (state.take i (.lent fd handle)).owed other =
      state.pooled.count other +
        ((fd, handle) :: state.fds).countP (fun entry => entry.2 = other) +
          (state.take i (.lent fd handle)).owned other
    rw [howned, howed, hfds]
    simp only [Hand.owns, Bool.toNat_false, Hand.lent?, Option.toList_some,
      List.countP_singleton, decide_eq_true_eq]
    omega
  distinct := by
    refine List.nodup_cons.mpr ⟨?_, hinv.distinct⟩
    exact lookup_eq_none.mp hfree
  natural entry hmem := by
    rcases List.mem_cons.mp hmem with rfl | hmem
    · exact hnatural
    · exact hinv.natural entry hmem
  lentsOpen := by
    have htake := lents_take state i (.lent fd handle)
    change (state.take i (.lent fd handle)).lents.Subperm ((fd, handle) :: state.fds)
    rw [htake]
    exact (List.subperm_cons _).mpr hinv.lentsOpen
  kept j hand other hmem huses := by
    rcases List.mem_cons.mp hmem with heq | hmem
    · obtain ⟨rfl, rfl⟩ := Prod.mk.inj heq
      simp only [Hand.uses, decide_eq_true_eq] at huses
      rw [← huses]
      exact hpooled
    · exact hinv.kept j hand other hmem huses
  once other := by
    have honce := hinv.once other
    have hpending := pending_take state i (.lent fd handle) other
    rw [if_neg (by simp), Nat.add_zero] at hpending
    exact hpending ▸ honce
  handlesKnown := hinv.handlesKnown
  fdsKnown entry hmem := by
    rcases List.mem_cons.mp hmem with rfl | hmem
    · exact hinv.handlesKnown handle (List.mem_of_mem_drop hpooled)
    · exact hinv.fdsKnown entry hmem
  handsKnown entry hmem := by
    rcases List.mem_cons.mp hmem with rfl | hmem
    · exact hinv.handlesKnown handle (List.mem_of_mem_drop hpooled)
    · exact hinv.handsKnown entry hmem
  releases := hinv.releases
  idle := hinv.idle

/-- The call gets the reference back which it lent to a descriptor. -/
theorem PoolInv.getBack (hinv : PoolInv state) {handle : ℕ} {fd : ℤ}
    (hmem : (i, .lent fd handle) ∈ state.hands) :
    PoolInv { state.leave i (.lent fd handle) with
      refs := Function.update state.refs handle (state.refs handle + 1) } where
  accounts other := by
    have haccounts := hinv.accounts other
    have howned := owned_leave hmem other
    have howed := owed_leave hmem other
    simp only [Hand.owns, Bool.toNat_false, Hand.lent?, Option.toList_some,
      List.countP_singleton, decide_eq_true_eq] at howned howed
    change Function.update state.refs handle (state.refs handle + 1) other +
        (state.leave i (.lent fd handle)).owed other =
      state.pooled.count other + state.openFds other +
        (state.leave i (.lent fd handle)).owned other
    by_cases hother : other = handle
    · subst hother
      rw [if_pos rfl] at howed
      rw [Function.update_self]
      omega
    · rw [if_neg (Ne.symm hother)] at howed
      rw [Function.update_of_ne hother]
      omega
  distinct := hinv.distinct
  natural := hinv.natural
  lentsOpen := by
    have hperm := perm_lents_leave hmem
    have hsub := hperm.symm.subperm.trans hinv.lentsOpen
    exact (List.sublist_cons_self _ _).subperm.trans hsub
  kept j hand other hhand huses :=
    hinv.kept j hand other (mem_of_mem_leave hhand) huses
  once other := by
    have honce := hinv.once other
    have hpending := pending_leave hmem other
    rw [if_neg (by simp), Nat.add_zero] at hpending
    exact hpending.symm ▸ honce
  handlesKnown := hinv.handlesKnown
  fdsKnown := hinv.fdsKnown
  handsKnown entry hentry := hinv.handsKnown entry (mem_of_mem_leave hentry)
  releases := by
    have hopen : (fd, handle) ∈ state.fds := by
      refine hinv.lentsOpen.subset ?_
      exact List.mem_filterMap.mpr ⟨_, hmem, rfl⟩
    exact hinv.releases_get (hinv.refs_pos_of_fd hopen)
  idle := hinv.idle

/-- Looking up a descriptor adds a reference. -/
theorem PoolInv.borrow (hinv : PoolInv state) {handle : ℕ} {fd : ℤ}
    (hopen : (fd, handle) ∈ state.fds) :
    PoolInv { state.take i (.borrowed handle) with
      refs := Function.update state.refs handle (state.refs handle + 1) } where
  accounts other := by
    have haccounts := hinv.accounts other
    have howned := owned_take state i (.borrowed handle) other
    have howed := owed_take state i (.borrowed handle) other
    simp only [Hand.owns, Hand.lent?, Option.toList_none, List.countP_nil]
      at howned howed
    change Function.update state.refs handle (state.refs handle + 1) other +
        (state.take i (.borrowed handle)).owed other =
      state.pooled.count other + state.openFds other +
        (state.take i (.borrowed handle)).owned other
    rw [howned, howed]
    by_cases hother : other = handle
    · subst hother
      rw [Function.update_self, decide_eq_true rfl, Bool.toNat_true]
      omega
    · have hne : decide (handle = other) = false := by simpa using Ne.symm hother
      rw [Function.update_of_ne hother, hne, Bool.toNat_false]
      omega
  distinct := hinv.distinct
  natural := hinv.natural
  lentsOpen := by
    have htake := lents_take state i (.borrowed handle)
    change (state.take i (.borrowed handle)).lents.Subperm state.fds
    rw [htake]
    exact hinv.lentsOpen
  kept j hand other hhand huses := by
    rcases List.mem_cons.mp hhand with heq | hhand
    · obtain ⟨rfl, rfl⟩ := Prod.mk.inj heq
      exact absurd huses (by simp [Hand.uses])
    · exact hinv.kept j hand other hhand huses
  once other := by
    have honce := hinv.once other
    have hpending := pending_take state i (.borrowed handle) other
    rw [if_neg (by simp), Nat.add_zero] at hpending
    exact hpending ▸ honce
  handlesKnown := hinv.handlesKnown
  fdsKnown := hinv.fdsKnown
  handsKnown entry hentry := by
    rcases List.mem_cons.mp hentry with rfl | hentry
    · exact hinv.known_of_refs (hinv.refs_pos_of_fd hopen)
    · exact hinv.handsKnown entry hentry
  releases := hinv.releases_get (hinv.refs_pos_of_fd hopen)
  idle := hinv.idle

theorem PoolInv.giveBack (hinv : PoolInv state) {handle : ℕ}
    (hmem : (i, .borrowed handle) ∈ state.hands) :
    PoolInv ((state.put handle).leave i (.borrowed handle)) where
  accounts other := by
    have haccounts := hinv.accounts other
    have howned := owned_leave hmem other
    have howed := owed_leave hmem other
    have hrefs : 1 ≤ state.refs handle :=
      hinv.refs_pos_of_hand hmem (by simp [Hand.owns])
    simp only [Hand.owns, Hand.lent?, Option.toList_none, List.countP_nil]
      at howned howed
    change Function.update state.refs handle (state.refs handle - 1) other +
        (state.leave i (.borrowed handle)).owed other =
      state.pooled.count other + state.openFds other +
        (state.leave i (.borrowed handle)).owned other
    by_cases hother : other = handle
    · subst hother
      rw [decide_eq_true rfl, Bool.toNat_true] at howned
      rw [Function.update_self]
      omega
    · have hne : decide (handle = other) = false := by simpa using Ne.symm hother
      rw [hne, Bool.toNat_false] at howned
      rw [Function.update_of_ne hother]
      omega
  distinct := hinv.distinct
  natural := hinv.natural
  lentsOpen := (perm_lents_leave hmem).symm.subperm.trans hinv.lentsOpen
  kept j hand other hhand huses :=
    hinv.kept j hand other (List.mem_of_mem_erase hhand) huses
  once other := by
    have honce := hinv.once other
    have hpending := pending_leave hmem other
    rw [if_neg (by simp), Nat.add_zero] at hpending
    exact hpending.symm ▸ honce
  handlesKnown := hinv.handlesKnown
  fdsKnown := hinv.fdsKnown
  handsKnown entry hentry :=
    hinv.handsKnown entry (List.mem_of_mem_erase hentry)
  releases := by
    have hrefs : 1 ≤ state.refs handle :=
      hinv.refs_pos_of_hand hmem (by simp [Hand.owns])
    exact hinv.releases_put hrefs
  idle := hinv.idle

/-- The pool drops its reference of a buffer which no `al5_bufpool_reserve_fd`
uses. -/
theorem PoolInv.drop (hinv : PoolInv state) {handle : ℕ}
    (hnext : state.handles[state.dropped]? = some handle)
    (howner : state.owner ≠ none)
    (hunused : ∀ j hand, (j, hand) ∈ state.hands → hand.uses handle = false) :
    PoolInv { state.put handle with dropped := state.dropped + 1 } := by
  have hsplit : state.pooled = handle :: state.handles.drop (state.dropped + 1) := by
    obtain ⟨hlt, hget⟩ := List.getElem?_eq_some_iff.mp hnext
    unfold PoolState.pooled
    rw [List.drop_eq_getElem_cons hlt, hget]
  have howed : state.owed handle = 0 := by
    by_contra howed
    obtain ⟨entry, hmem, hentry⟩ :=
      List.countP_pos_iff.mp (Nat.pos_of_ne_zero howed)
    obtain ⟨⟨j, hand⟩, hhand, hlent⟩ := List.mem_filterMap.mp hmem
    have hnot := hunused j hand hhand
    cases hand with
    | lent fd own =>
        simp only [Hand.lent?, Option.some.injEq] at hlent
        subst hlent
        simp only [decide_eq_true_eq] at hentry
        simp [Hand.uses, hentry] at hnot
    | exported own => exact absurd hlent (by simp [Hand.lent?])
    | borrowed own => exact absurd hlent (by simp [Hand.lent?])
    | reading own => exact absurd hlent (by simp [Hand.lent?])
  have hrefs : 1 ≤ state.refs handle := by
    have haccounts := hinv.accounts handle
    rw [hsplit, List.count_cons_self] at haccounts
    omega
  constructor
  · intro other
    have haccounts := hinv.accounts other
    change Function.update state.refs handle (state.refs handle - 1) other +
        state.owed other =
      (state.handles.drop (state.dropped + 1)).count other + state.openFds other +
        state.owned other
    rw [hsplit] at haccounts
    by_cases hother : other = handle
    · subst hother
      rw [List.count_cons_self] at haccounts
      rw [Function.update_self]
      omega
    · rw [List.count_cons_of_ne (Ne.symm hother)] at haccounts
      rw [Function.update_of_ne hother]
      exact haccounts
  · exact hinv.distinct
  · exact hinv.natural
  · exact hinv.lentsOpen
  · intro j hand other hmem huses
    have hpooled := hinv.kept j hand other hmem huses
    rw [hsplit] at hpooled
    rcases List.mem_cons.mp hpooled with rfl | hpooled
    · exact absurd huses (by simp [hunused j hand hmem])
    · exact hpooled
  · exact hinv.once
  · exact hinv.handlesKnown
  · exact hinv.fdsKnown
  · exact hinv.handsKnown
  · exact hinv.releases_put hrefs
  · exact fun hnone => absurd hnone howner

theorem PoolInv.clear (hinv : PoolInv state) (hdropped : state.pooled = []) :
    PoolInv { state with handles := [], dropped := 0 } where
  accounts handle := by
    have haccounts := hinv.accounts handle
    rw [hdropped] at haccounts
    exact haccounts
  distinct := hinv.distinct
  natural := hinv.natural
  lentsOpen := hinv.lentsOpen
  kept j hand handle hmem huses := by
    have hpooled := hinv.kept j hand handle hmem huses
    rw [hdropped] at hpooled
    exact absurd hpooled List.not_mem_nil
  once handle := by
    have honce := hinv.once handle
    change 0 + state.pending handle ≤ 1
    omega
  handlesKnown := by simp
  fdsKnown := hinv.fdsKnown
  handsKnown := hinv.handsKnown
  releases := hinv.releases
  idle _ := rfl

theorem PoolInv.close (hinv : PoolInv state) {fd : ℤ} {handle : ℕ}
    (hopen : (fd, handle) ∈ state.fds) (hkept : (fd, handle) ∉ state.lents) :
    PoolInv { state.put handle with fds := state.fds.erase (fd, handle) } := by
  have hperm := List.perm_cons_erase hopen
  have hrefs := hinv.refs_pos_of_fd hopen
  constructor
  · intro other
    have haccounts := hinv.accounts other
    have hfds := hperm.countP_eq fun entry => entry.2 = other
    rw [List.countP_cons] at hfds
    change Function.update state.refs handle (state.refs handle - 1) other +
        state.owed other =
      state.pooled.count other +
        (state.fds.erase (fd, handle)).countP (fun entry => entry.2 = other) +
          state.owned other
    unfold PoolState.openFds at haccounts
    by_cases hother : other = handle
    · subst hother
      rw [if_pos (by simp)] at hfds
      rw [Function.update_self]
      omega
    · rw [if_neg (by simpa using Ne.symm hother)] at hfds
      rw [Function.update_of_ne hother]
      omega
  · exact hinv.distinct.sublist (List.erase_sublist.map _)
  · exact fun entry hmem => hinv.natural entry (List.mem_of_mem_erase hmem)
  · have hsub := hinv.lentsOpen.erase (fd, handle)
    rw [List.erase_of_not_mem hkept] at hsub
    exact hsub
  · exact hinv.kept
  · exact hinv.once
  · exact hinv.handlesKnown
  · exact fun entry hmem => hinv.fdsKnown entry (List.mem_of_mem_erase hmem)
  · exact hinv.handsKnown
  · exact hinv.releases_put hrefs
  · exact hinv.idle

theorem PoolInv.openForeign (hinv : PoolInv state) {fd : ℤ}
    (hfree : state.lookup fd = none) (hnatural : 0 ≤ fd) :
    PoolInv { state.dmaBufExport with fds := (fd, state.exported) :: state.fds } where
  accounts other := by
    have haccounts := hinv.accounts other
    have hunknown := hinv.unknown (Nat.le_refl state.exported)
    have hfds : ((fd, state.exported) :: state.fds).countP
          (fun entry => entry.2 = other) =
        state.openFds other + if state.exported = other then 1 else 0 := by
      rw [List.countP_cons]
      simp [PoolState.openFds]
    change Function.update state.refs state.exported 1 other + state.owed other =
      state.pooled.count other +
        ((fd, state.exported) :: state.fds).countP (fun entry => entry.2 = other) +
          state.owned other
    rw [hfds]
    by_cases hother : other = state.exported
    · subst hother
      rw [Function.update_self, if_pos rfl]
      omega
    · rw [Function.update_of_ne hother, if_neg (Ne.symm hother)]
      omega
  distinct := List.nodup_cons.mpr ⟨lookup_eq_none.mp hfree, hinv.distinct⟩
  natural entry hmem := by
    rcases List.mem_cons.mp hmem with rfl | hmem
    · exact hnatural
    · exact hinv.natural entry hmem
  lentsOpen := hinv.lentsOpen.trans (List.sublist_cons_self _ _).subperm
  kept := hinv.kept
  once := hinv.once
  handlesKnown handle hmem := Nat.lt_succ_of_lt (hinv.handlesKnown handle hmem)
  fdsKnown entry hmem := by
    rcases List.mem_cons.mp hmem with rfl | hmem
    · exact Nat.lt_succ_self _
    · exact Nat.lt_succ_of_lt (hinv.fdsKnown entry hmem)
  handsKnown entry hmem := Nat.lt_succ_of_lt (hinv.handsKnown entry hmem)
  releases := hinv.releases_export
  idle := hinv.idle

end

/-! ## The calls -/

/-- What a call can rely on: what it has in hand, and the pool while it has the
mutex. -/
structure PoolView where
  hands : List (ℕ × Hand)
  pool : Option (List ℕ × ℕ)

def PoolState.view (state : PoolState) (i : ℕ) : PoolView where
  hands := state.hands.filter fun entry => entry.1 = i
  pool :=
    if state.owner = some i then some (state.handles, state.dropped) else none

def PoolView.empty : PoolView :=
  ⟨[], none⟩

abbrev PoolRegime : Type :=
  Regime PoolState PoolAct PoolChoice PoolOp PoolEnv

/-- The callers allocate in an empty pool only, and reserve an id that the pool has. -/
def callersPromise : PoolRegime where
  enter _ _ := True
  step state _ _ action _ :=
    (action = .kcalloc → state.handles = []) ∧
      ∀ id, action = .getHandle id → id < state.handles.length
  env _ _ := True

/-- Moreover no buffer is dropped by `al5_bufpool_free` while an
`al5_bufpool_reserve_fd` uses it, and a new descriptor is not closed before
`al5_bufpool_reserve_fd` has looked it up. -/
def undisturbed : PoolRegime where
  enter _ _ := True
  step state i _ action _ :=
    ((action = .kcalloc → state.handles = []) ∧
        ∀ id, action = .getHandle id → id < state.handles.length) ∧
      (∀ id, action = .getHandle id → state.dropped ≤ id) ∧
      ∀ handle, action = .dmaBufPut handle → (i, .borrowed handle) ∉ state.hands →
        ∀ j hand, (j, hand) ∈ state.hands → hand.uses handle = false
  env state event := ∀ fd, event = .close fd → ∀ handle, (fd, handle) ∉ state.lents

def poolOutline : Outline poolMachine undisturbed where
  inv := PoolInv
  rely i state state' := state.view i = state'.view i
  fresh i state := state.view i = .empty
  post i _ _ state := state.view i = .empty
  rely_refl _ _ := rfl
  rely_trans h₁ h₂ := h₁.trans h₂
  fresh_rely hrely hfresh := hrely.symm.trans hfresh
  post_rely hrely hpost := hrely.symm.trans hpost

section

variable {state : PoolState} {i : ℕ} {op : PoolOp}

theorem view_take_self (state : PoolState) (i : ℕ) (hand : Hand) :
    (state.take i hand).view i =
      ⟨(i, hand) :: (state.view i).hands, (state.view i).pool⟩ := by
  simp [PoolState.view, PoolState.take]
  rfl

theorem view_take_of_ne (state : PoolState) {i j : ℕ} (hji : j ≠ i) (hand : Hand) :
    (state.take i hand).view j = state.view j := by
  simp [PoolState.view, PoolState.take, Ne.symm hji]
  rfl

theorem view_leave_self (state : PoolState) (i : ℕ) (hand : Hand) :
    (state.leave i hand).view i =
      ⟨(state.view i).hands.erase (i, hand), (state.view i).pool⟩ := by
  simp [PoolState.view, PoolState.leave, List.erase_filter]
  rfl

theorem view_leave_of_ne (state : PoolState) {i j : ℕ} (hji : j ≠ i) (hand : Hand) :
    (state.leave i hand).view j = state.view j := by
  have hhands : (state.hands.erase (i, hand)).filter (fun entry => entry.1 = j) =
      state.hands.filter fun entry => entry.1 = j := by
    rw [← List.erase_filter]
    refine List.erase_of_not_mem ?_
    simp [Ne.symm hji]
  unfold PoolState.view PoolState.leave
  rw [hhands]

theorem mem_hands_of_view {hands : List (ℕ × Hand)} {pool : Option (List ℕ × ℕ)}
    {hand : Hand} (hview : state.view i = ⟨hands, pool⟩)
    (hmem : (i, hand) ∈ hands) : (i, hand) ∈ state.hands := by
  have hhands : state.hands.filter (fun entry => entry.1 = i) = hands :=
    congrArg PoolView.hands hview
  rw [← hhands] at hmem
  exact List.mem_of_mem_filter hmem

theorem not_mem_hands_of_view {hands : List (ℕ × Hand)}
    {pool : Option (List ℕ × ℕ)} {hand : Hand} (hview : state.view i = ⟨hands, pool⟩)
    (hmem : (i, hand) ∉ hands) : (i, hand) ∉ state.hands := by
  have hhands : state.hands.filter (fun entry => entry.1 = i) = hands :=
    congrArg PoolView.hands hview
  rw [← hhands] at hmem
  exact fun hin => hmem (List.mem_filter.mpr ⟨hin, by simp⟩)

/-- A call that sees the pool has the mutex. -/
theorem owner_of_view {hands : List (ℕ × Hand)} {handles : List ℕ} {dropped : ℕ}
    (hview : state.view i = ⟨hands, some (handles, dropped)⟩) :
    state.owner = some i ∧ state.handles = handles ∧ state.dropped = dropped := by
  have hpool : (if state.owner = some i then some (state.handles, state.dropped)
      else none) = some (handles, dropped) := congrArg PoolView.pool hview
  split at hpool
  · rename_i howner
    obtain ⟨hhandles, hdropped⟩ := Prod.mk.inj (Option.some.inj hpool)
    exact ⟨howner, hhandles, hdropped⟩
  · exact absurd hpool (by simp)

/-- The rule of an action: a call relies on its view. -/
theorem wp_pool
    {α : Type} {action : PoolAct} {next : action.Res → PoolProg α}
    {post : α → PoolState → Prop} {view : PoolView}
    (hview : state.view i = view)
    (hstep : ∀ state₁ choice result state₂, PoolInv state₁ → state₁.view i = view →
      state₁.act i action choice = some (result, state₂) →
      undisturbed.step state₁ i op action choice →
        PoolInv state₂ ∧ (∀ j, j ≠ i → state₁.view j = state₂.view j) ∧
          poolOutline.wp i op (next result) post state₂) :
    poolOutline.wp i op (.act action next) post state := by
  have hstable : poolOutline.Stable i fun state => state.view i = view :=
    fun state state' hassert hrely _ => hrely.symm.trans hassert
  exact Outline.wp_act hview hstable hstep

/-! ### One action -/

variable {α : Type} {post : α → PoolState → Prop}

theorem wp_mutexLock {next : Unit → PoolProg α}
    (hview : state.view i = .empty)
    (hrest : ∀ state₁ handles, state₁.view i = ⟨[], some (handles, 0)⟩ →
      poolOutline.wp i op (next ()) post state₁) :
    poolOutline.wp i op (.act .mutexLock next) post state := by
  refine wp_pool hview ?_
  intro state₁ choice result state₂ hinv hview₁ hexec _
  cases choice with
  | succeed =>
      simp only [PoolState.act] at hexec
      split at hexec
      · rename_i hfree
        obtain ⟨rfl, rfl⟩ := Prod.mk.inj (Option.some.inj hexec)
        have hidle := hinv.idle hfree
        refine ⟨hinv.setOwner fun _ => hidle, ?_, ?_⟩
        · intro j hji
          simp [PoolState.view, hfree, Ne.symm hji]
        · refine hrest _ state₁.handles ?_
          have hhands := congrArg PoolView.hands hview₁
          simp only [PoolState.view, PoolView.empty] at hhands ⊢
          rw [hhands, if_pos trivial, hidle]
      · exact absurd hexec (by simp)
  | fail => exact absurd hexec (by simp [PoolState.act])
  | fd outcome => exact absurd (exists_dmaBufFd_of_fd hexec) (by simp)

theorem wp_mutexUnlock {next : Unit → PoolProg α} {handles : List ℕ}
    (hview : state.view i = ⟨[], some (handles, 0)⟩)
    (hrest : ∀ state₁, state₁.view i = .empty →
      poolOutline.wp i op (next ()) post state₁) :
    poolOutline.wp i op (.act .mutexUnlock next) post state := by
  refine wp_pool hview ?_
  intro state₁ choice result state₂ hinv hview₁ hexec _
  obtain ⟨howner, -, hdropped⟩ := owner_of_view hview₁
  cases choice with
  | succeed =>
      obtain ⟨rfl, rfl⟩ := Prod.mk.inj (Option.some.inj hexec)
      refine ⟨hinv.setOwner fun _ => hdropped, ?_, ?_⟩
      · intro j hji
        simp [PoolState.view, howner, Ne.symm hji]
      · refine hrest _ ?_
        have hhands := congrArg PoolView.hands hview₁
        simp only [PoolState.view, PoolView.empty] at hhands ⊢
        rw [hhands, if_neg (by simp)]
  | fail => exact absurd hexec (by simp [PoolState.act])
  | fd outcome => exact absurd (exists_dmaBufFd_of_fd hexec) (by simp)

/-- The rule of an action that only reads. -/
theorem wp_observe_pool {action : PoolAct} {next : action.Res → PoolProg α}
    {view : PoolView} (hview : state.view i = view)
    (hpure : ∀ (state₁ : PoolState) choice result state₂,
      state₁.act i action choice = some (result, state₂) → state₂ = state₁)
    (hrest : ∀ (state₁ : PoolState) choice result, state₁.view i = view →
      state₁.act i action choice = some (result, state₁) →
        poolOutline.wp i op (next result) post state₁) :
    poolOutline.wp i op (.act action next) post state := by
  refine wp_pool hview ?_
  intro state₁ choice result state₂ hinv hview₁ hexec _
  obtain rfl := hpure _ _ _ _ hexec
  exact ⟨hinv, fun _ _ => rfl, hrest _ _ _ hview₁ hexec⟩

theorem wp_al5AllocDma {next : Bool → PoolProg α} {view : PoolView}
    (hview : state.view i = view)
    (hrest : ∀ state₁ buffer, state₁.view i = view →
      poolOutline.wp i op (next buffer) post state₁) :
    poolOutline.wp i op (.act .al5AllocDma next) post state := by
  refine wp_observe_pool hview ?_ fun state₁ _ buffer hview₁ _ =>
    hrest state₁ buffer hview₁
  intro state₁ choice result state₂ hexec
  cases choice <;> simp [PoolState.act] at hexec <;> exact hexec.2.symm

theorem wp_getHandles {next : List ℕ → PoolProg α} {view : PoolView}
    (hview : state.view i = view)
    (hrest : ∀ state₁, state₁.view i = view →
      poolOutline.wp i op (next state₁.handles) post state₁) :
    poolOutline.wp i op (.act .getHandles next) post state := by
  refine wp_observe_pool hview ?_ ?_
  · intro state₁ choice result state₂ hexec
    cases choice <;> simp [PoolState.act] at hexec
    exact hexec.2.symm
  · intro state₁ choice result hview₁ hexec
    have hresult : result = state₁.handles := by
      cases choice <;> simp [PoolState.act] at hexec
      exact hexec.symm
    rw [hresult]
    exact hrest state₁ hview₁

theorem wp_kcalloc {next : Bool → PoolProg α} {handles : List ℕ}
    (hview : state.view i = ⟨[], some (handles, 0)⟩)
    (hrest : ∀ state₁ buffers, state₁.view i = ⟨[], some ([], 0)⟩ →
      poolOutline.wp i op (next buffers) post state₁) :
    poolOutline.wp i op (.act .kcalloc next) post state := by
  refine wp_pool hview ?_
  intro state₁ choice result state₂ hinv hview₁ hexec hallowed
  obtain ⟨howner, hhandles, hdropped⟩ := owner_of_view hview₁
  have hempty : state₁.handles = [] := hallowed.1.1 rfl
  have hsame : { state₁ with handles := [], dropped := 0 } = state₁ := by
    cases state₁
    simp_all
  have hstate : state₂ = state₁ := by
    cases choice <;> simp only [PoolState.act, hsame] at hexec
    · exact (Prod.mk.inj (Option.some.inj hexec)).2.symm
    · exact (Prod.mk.inj (Option.some.inj hexec)).2.symm
    · exact absurd hexec (by simp)
  rw [hstate]
  refine ⟨hinv, fun _ _ => rfl, hrest _ _ ?_⟩
  rw [hview₁, ← hhandles, hempty]

theorem wp_al5DmabufWrap {next : Option ℕ → PoolProg α}
    {pool : Option (List ℕ × ℕ)} (hview : state.view i = ⟨[], pool⟩)
    (hnone : ∀ state₁, state₁.view i = ⟨[], pool⟩ →
      poolOutline.wp i op (next none) post state₁)
    (hsome : ∀ state₁ handle, state₁.view i = ⟨[(i, .exported handle)], pool⟩ →
      poolOutline.wp i op (next (some handle)) post state₁) :
    poolOutline.wp i op (.act .al5DmabufWrap next) post state := by
  refine wp_pool hview ?_
  intro state₁ choice result state₂ hinv hview₁ hexec _
  cases choice with
  | succeed =>
      obtain ⟨rfl, rfl⟩ := Prod.mk.inj (Option.some.inj hexec)
      refine ⟨hinv.wrap, ?_, ?_⟩
      · intro j hji
        exact (view_take_of_ne state₁.dmaBufExport hji _).symm
      · refine hsome _ _ ?_
        have hexport : state₁.dmaBufExport.view i = ⟨[], pool⟩ := hview₁
        rw [view_take_self, hexport]
  | fail =>
      obtain ⟨rfl, rfl⟩ := Prod.mk.inj (Option.some.inj hexec)
      exact ⟨hinv, fun _ _ => rfl, hnone _ hview₁⟩
  | fd outcome => exact absurd (exists_dmaBufFd_of_fd hexec) (by simp)

theorem view_of_owner {hands : List (ℕ × Hand)}
    (howner : state.owner = some i)
    (hhands : state.hands.filter (fun entry => entry.1 = i) = hands) :
    state.view i = ⟨hands, some (state.handles, state.dropped)⟩ := by
  unfold PoolState.view
  rw [hhands, if_pos howner]

/-- Only its owner sees the pool change. -/
theorem view_of_not_owner {j : ℕ} {state' : PoolState}
    (howner : state.owner = some i) (hji : j ≠ i)
    (howner' : state'.owner = state.owner)
    (hhands : state'.hands.filter (fun entry => entry.1 = j) =
      state.hands.filter fun entry => entry.1 = j) :
    state.view j = state'.view j := by
  unfold PoolState.view
  rw [hhands, howner', howner, if_neg (by simpa using Ne.symm hji),
    if_neg (by simpa using Ne.symm hji)]

theorem wp_setHandle {next : Unit → PoolProg α} {handles : List ℕ} {handle : ℕ}
    (hview : state.view i = ⟨[(i, .exported handle)], some (handles, 0)⟩)
    (hrest : ∀ state₁, state₁.view i = ⟨[], some (handles ++ [handle], 0)⟩ →
      poolOutline.wp i op (next ()) post state₁) :
    poolOutline.wp i op (.act (.setHandle handle) next) post state := by
  refine wp_pool hview ?_
  intro state₁ choice result state₂ hinv hview₁ hexec _
  obtain ⟨howner, hhandles, hdropped⟩ := owner_of_view hview₁
  have hmem := mem_hands_of_view hview₁ List.mem_cons_self
  cases choice with
  | succeed =>
      obtain ⟨rfl, rfl⟩ := Prod.mk.inj (Option.some.inj hexec)
      refine ⟨hinv.setHandle hmem hdropped, ?_, ?_⟩
      · intro j hji
        have hleave := view_leave_of_ne state₁ hji
          (.exported handle)
        exact view_of_not_owner howner hji rfl (congrArg PoolView.hands hleave)
      · refine hrest _ ?_
        have hleave := view_leave_self state₁ i (.exported handle)
        rw [hview₁] at hleave
        have hhands := congrArg PoolView.hands hleave
        rw [List.erase_cons_head] at hhands
        rw [← hhandles, ← hdropped]
        exact view_of_owner howner hhands
  | fail => exact absurd hexec (by simp [PoolState.act])
  | fd outcome => exact absurd (exists_dmaBufFd_of_fd hexec) (by simp)

theorem wp_getHandle {id : ℕ} {next : ℕ → PoolProg α}
    (hview : state.view i = .empty)
    (hrest : ∀ state₁ handle, state₁.view i = ⟨[(i, .reading handle)], none⟩ →
      poolOutline.wp i op (next handle) post state₁) :
    poolOutline.wp i op (.act (.getHandle id) next) post state := by
  refine wp_pool hview ?_
  intro state₁ choice result state₂ hinv hview₁ hexec hallowed
  have hdropped : state₁.dropped ≤ id := hallowed.2.1 id rfl
  cases choice with
  | succeed =>
      obtain ⟨handle, hget, hstate⟩ := Option.map_eq_some_iff.mp hexec
      obtain ⟨rfl, rfl⟩ := Prod.mk.inj hstate
      have hpooled : handle ∈ state₁.pooled := by
        refine List.mem_of_getElem? (i := id - state₁.dropped) ?_
        unfold PoolState.pooled
        rw [List.getElem?_drop, Nat.add_sub_cancel' hdropped, hget]
      refine ⟨hinv.getHandle hpooled, ?_, ?_⟩
      · exact fun j hji => (view_take_of_ne state₁ hji _).symm
      · refine hrest _ _ ?_
        rw [view_take_self, hview₁]
        rfl
  | fail => exact absurd hexec (by simp [PoolState.act])
  | fd outcome => exact absurd (exists_dmaBufFd_of_fd hexec) (by simp)

theorem wp_dmaBufFd {handle : ℕ} {next : ℤ → PoolProg α}
    (hview : state.view i = ⟨[(i, .reading handle)], none⟩)
    (hfd : ∀ state₁ fd, state₁.view i = ⟨[(i, .lent fd handle)], none⟩ →
      poolOutline.wp i op (next fd) post state₁)
    (hfail : ∀ state₁ fd, fd < 0 → state₁.view i = .empty →
      poolOutline.wp i op (next fd) post state₁) :
    poolOutline.wp i op (.act (.dmaBufFd handle) next) post state := by
  refine wp_pool hview ?_
  intro state₁ choice result state₂ hinv hview₁ hexec _
  have hmem := mem_hands_of_view hview₁ List.mem_cons_self
  have hleft : (state₁.leave i (.reading handle)).view i = .empty := by
    rw [view_leave_self, hview₁, List.erase_cons_head]
    rfl
  cases choice with
  | fd outcome =>
      simp only [PoolState.act] at hexec
      split_ifs at hexec with hneg hfree
      · obtain ⟨rfl, rfl⟩ := Prod.mk.inj (Option.some.inj hexec)
        exact ⟨hinv.leaveReading hmem,
          fun j hji => (view_leave_of_ne state₁ hji _).symm, hfail _ _ hneg hleft⟩
      · obtain ⟨rfl, rfl⟩ := Prod.mk.inj (Option.some.inj hexec)
        have hpooled := hinv.kept i _ handle hmem (by simp [Hand.uses])
        refine ⟨(hinv.leaveReading hmem).lend hpooled hfree (by omega), ?_, ?_⟩
        · intro j hji
          have hleave := view_leave_of_ne state₁ hji
            (.reading handle)
          exact hleave.symm.trans (view_take_of_ne _ hji _).symm
        · refine hfd _ _ ?_
          have htake := view_take_self (state₁.leave i (.reading handle)) i
            (.lent outcome.val handle)
          rw [hleft] at htake
          exact htake
  | fail => exact absurd hexec (by simp [PoolState.act])
  | succeed => exact absurd hexec (by simp [PoolState.act])

/-- A descriptor that was not closed since gives the reference back. -/
theorem wp_dmaBufGet_lent {fd : ℤ} {handle : ℕ} {next : Option ℕ → PoolProg α}
    (hview : state.view i = ⟨[(i, .lent fd handle)], none⟩)
    (hrest : ∀ state₁ dbuf, state₁.view i = .empty →
      poolOutline.wp i op (next dbuf) post state₁) :
    poolOutline.wp i op (.act (.dmaBufGet fd) next) post state := by
  refine wp_pool hview ?_
  intro state₁ choice result state₂ hinv hview₁ hexec _
  have hmem := mem_hands_of_view hview₁ List.mem_cons_self
  have hopen : (fd, handle) ∈ state₁.fds :=
    hinv.lentsOpen.subset (List.mem_filterMap.mpr ⟨_, hmem, rfl⟩)
  have hlookup := (lookup_eq_some hinv.distinct).mpr hopen
  cases choice with
  | succeed =>
      simp only [PoolState.act, hlookup, if_pos hmem] at hexec
      obtain ⟨rfl, rfl⟩ := Prod.mk.inj (Option.some.inj hexec)
      refine ⟨hinv.getBack hmem, ?_, ?_⟩
      · intro j hji
        exact (view_leave_of_ne state₁ hji _).symm
      · refine hrest _ _ ?_
        have hleave := view_leave_self state₁ i (.lent fd handle)
        rw [hview₁, List.erase_cons_head] at hleave
        exact hleave
  | fail => exact absurd hexec (by simp [PoolState.act])
  | fd outcome => exact absurd (exists_dmaBufFd_of_fd hexec) (by simp)

theorem wp_dmaBufGet {fd : ℤ} {next : Option ℕ → PoolProg α}
    (hview : state.view i = .empty)
    (hnone : ∀ state₁, state₁.view i = .empty →
      poolOutline.wp i op (next none) post state₁)
    (hsome : 0 ≤ fd → ∀ state₁ handle, state₁.view i = ⟨[(i, .borrowed handle)], none⟩ →
      poolOutline.wp i op (next (some handle)) post state₁) :
    poolOutline.wp i op (.act (.dmaBufGet fd) next) post state := by
  refine wp_pool hview ?_
  intro state₁ choice result state₂ hinv hview₁ hexec _
  cases choice with
  | succeed =>
      simp only [PoolState.act] at hexec
      split at hexec
      · obtain ⟨rfl, rfl⟩ := Prod.mk.inj (Option.some.inj hexec)
        exact ⟨hinv, fun _ _ => rfl, hnone _ hview₁⟩
      · rename_i handle hlookup
        have hopen := (lookup_eq_some hinv.distinct).mp hlookup
        have hnot : (i, Hand.lent fd handle) ∉ state₁.hands :=
          not_mem_hands_of_view hview₁ List.not_mem_nil
        rw [if_neg hnot] at hexec
        obtain ⟨rfl, rfl⟩ := Prod.mk.inj (Option.some.inj hexec)
        refine ⟨hinv.borrow hopen, ?_, ?_⟩
        · intro j hji
          exact (view_take_of_ne state₁ hji _).symm
        · refine hsome (hinv.natural _ hopen) _ _ ?_
          have htake := view_take_self state₁ i (.borrowed handle)
          rw [hview₁] at htake
          exact htake
  | fail => exact absurd hexec (by simp [PoolState.act])
  | fd outcome => exact absurd (exists_dmaBufFd_of_fd hexec) (by simp)

theorem wp_dmaBufPut_borrowed {handle : ℕ} {next : Unit → PoolProg α}
    (hview : state.view i = ⟨[(i, .borrowed handle)], none⟩)
    (hrest : ∀ state₁, state₁.view i = .empty →
      poolOutline.wp i op (next ()) post state₁) :
    poolOutline.wp i op (.act (.dmaBufPut handle) next) post state := by
  refine wp_pool hview ?_
  intro state₁ choice result state₂ hinv hview₁ hexec _
  have hmem := mem_hands_of_view hview₁ List.mem_cons_self
  cases choice with
  | succeed =>
      simp only [PoolState.act, if_pos hmem] at hexec
      obtain ⟨rfl, rfl⟩ := Prod.mk.inj (Option.some.inj hexec)
      refine ⟨hinv.giveBack hmem, ?_, ?_⟩
      · intro j hji
        exact (view_leave_of_ne state₁ hji _).symm
      · refine hrest _ ?_
        have hleave := view_leave_self state₁ i (.borrowed handle)
        rw [hview₁, List.erase_cons_head] at hleave
        exact hleave
  | fail => exact absurd hexec (by simp [PoolState.act])
  | fd outcome => exact absurd (exists_dmaBufFd_of_fd hexec) (by simp)

theorem wp_dmaBufPut_pooled {handle dropped : ℕ} {handles : List ℕ}
    {next : Unit → PoolProg α}
    (hview : state.view i = ⟨[], some (handles, dropped)⟩)
    (hnext : handles[dropped]? = some handle)
    (hrest : ∀ state₁, state₁.view i = ⟨[], some (handles, dropped + 1)⟩ →
      poolOutline.wp i op (next ()) post state₁) :
    poolOutline.wp i op (.act (.dmaBufPut handle) next) post state := by
  refine wp_pool hview ?_
  intro state₁ choice result state₂ hinv hview₁ hexec hallowed
  obtain ⟨howner, rfl, rfl⟩ := owner_of_view hview₁
  have hnot : (i, Hand.borrowed handle) ∉ state₁.hands :=
    not_mem_hands_of_view hview₁ List.not_mem_nil
  have hunused := hallowed.2.2 handle rfl hnot
  have hhands := congrArg PoolView.hands hview₁
  cases choice with
  | succeed =>
      simp only [PoolState.act, if_neg hnot] at hexec
      obtain ⟨rfl, rfl⟩ := Prod.mk.inj (Option.some.inj hexec)
      refine ⟨hinv.drop hnext (by simp [howner]) hunused, ?_, ?_⟩
      · exact fun j hji => view_of_not_owner howner hji rfl rfl
      · exact hrest _ (view_of_owner howner hhands)
  | fail => exact absurd hexec (by simp [PoolState.act])
  | fd outcome => exact absurd (exists_dmaBufFd_of_fd hexec) (by simp)

theorem wp_clear {handles : List ℕ} {next : Unit → PoolProg α}
    (hview : state.view i = ⟨[], some (handles, handles.length)⟩)
    (hrest : ∀ state₁, state₁.view i = ⟨[], some ([], 0)⟩ →
      poolOutline.wp i op (next ()) post state₁) :
    poolOutline.wp i op (.act .clear next) post state := by
  refine wp_pool hview ?_
  intro state₁ choice result state₂ hinv hview₁ hexec _
  obtain ⟨howner, rfl, hdropped⟩ := owner_of_view hview₁
  have hhands := congrArg PoolView.hands hview₁
  cases choice with
  | succeed =>
      obtain ⟨rfl, rfl⟩ := Prod.mk.inj (Option.some.inj hexec)
      have hpooled : state₁.pooled = [] := by
        unfold PoolState.pooled
        rw [hdropped]
        exact List.drop_length
      refine ⟨hinv.clear hpooled, ?_, ?_⟩
      · exact fun j hji => view_of_not_owner howner hji rfl rfl
      · exact hrest _ (view_of_owner howner hhands)
  | fail => exact absurd hexec (by simp [PoolState.act])
  | fd outcome => exact absurd (exists_dmaBufFd_of_fd hexec) (by simp)

/-! ### Whole calls -/

theorem putAll_wp {handles : List ℕ} (rest : List ℕ) {dropped : ℕ}
    (hview : state.view i = ⟨[], some (handles, dropped)⟩)
    (hle : dropped ≤ handles.length) (hrest : handles.drop dropped = rest) :
    poolOutline.wp i op (putAll rest)
      (fun _ state' => state'.view i = ⟨[], some (handles, handles.length)⟩)
      state := by
  induction rest generalizing dropped state with
  | nil =>
      have hlength := List.drop_eq_nil_iff.mp hrest
      rw [Nat.le_antisymm hle hlength] at hview
      exact hview
  | cons handle rest ih =>
      have hnext : handles[dropped]? = some handle := by
        rw [← List.head?_drop, hrest]
        rfl
      refine wp_dmaBufPut_pooled hview hnext ?_
      intro state₁ hview₁
      have hlt : dropped < handles.length := (List.getElem?_eq_some_iff.mp hnext).1
      refine ih hview₁ hlt ?_
      rw [← List.tail_drop, hrest]
      rfl

theorem al5BufpoolFree_wp {handles : List ℕ}
    (hview : state.view i = ⟨[], some (handles, 0)⟩) :
    poolOutline.wp i op al5BufpoolFree
      (fun _ state' => state'.view i = ⟨[], some ([], 0)⟩) state := by
  unfold al5BufpoolFree
  simp only [Prog.bind_eq, Prog.perform_bind]
  refine wp_getHandles hview ?_
  intro state₁ hview₁
  obtain ⟨-, hhandles, -⟩ := owner_of_view hview₁
  rw [hhandles]
  refine Outline.wp_seq (putAll_wp handles hview₁ (Nat.zero_le _) rfl) ?_
  intro _ state₂ hview₂
  exact wp_clear hview₂ fun _ hview₃ => hview₃

theorem failDmaAllocation_wp {handles : List ℕ}
    (hview : state.view i = ⟨[], some (handles, 0)⟩) :
    poolOutline.wp i op failDmaAllocation
      (fun _ state' => ∃ kept, state'.view i = ⟨[], some (kept, 0)⟩) state := by
  refine Outline.wp_seq (al5BufpoolFree_wp hview) ?_
  exact fun _ _ hview₁ => ⟨[], hview₁⟩

theorem allocateBuffers_wp (count : ℕ) {handles : List ℕ}
    (hview : state.view i = ⟨[], some (handles, 0)⟩) :
    poolOutline.wp i op (allocateBuffers count)
      (fun _ state' => ∃ kept, state'.view i = ⟨[], some (kept, 0)⟩) state := by
  induction count generalizing handles state with
  | zero => exact ⟨handles, hview⟩
  | succ count ih =>
      refine wp_al5AllocDma hview ?_
      intro state₁ buffer hview₁
      cases buffer with
      | false => exact failDmaAllocation_wp hview₁
      | true =>
          refine wp_al5DmabufWrap hview₁ ?_ ?_
          · exact fun state₂ hview₂ => failDmaAllocation_wp hview₂
          · intro state₂ handle hview₂
            exact wp_setHandle hview₂ fun state₃ hview₃ => ih hview₃

theorem al5BufpoolAllocate_wp (count : ℕ) {handles : List ℕ}
    (hview : state.view i = ⟨[], some (handles, 0)⟩) :
    poolOutline.wp i op (al5BufpoolAllocate count)
      (fun _ state' => ∃ kept, state'.view i = ⟨[], some (kept, 0)⟩) state := by
  refine wp_kcalloc hview ?_
  intro state₁ buffers hview₁
  cases buffers with
  | true => exact allocateBuffers_wp count hview₁
  | false => exact ⟨[], hview₁⟩

theorem al5BufpoolReserveFd_wp (id : ℕ) (hview : state.view i = .empty) :
    poolOutline.wp i op (al5BufpoolReserveFd id)
      (fun _ state' => state'.view i = .empty) state := by
  refine wp_getHandle hview ?_
  intro state₁ handle hview₁
  refine wp_dmaBufFd hview₁ ?_ ?_
  · intro state₂ fd hview₂
    exact wp_dmaBufGet_lent hview₂ fun state₃ dbuf hview₃ => hview₃
  · -- No descriptor has the negative number of the error.
    intro state₂ fd hneg hview₂
    refine wp_dmaBufGet hview₂ (fun state₃ hview₃ => hview₃) ?_
    exact fun hnatural => absurd hnatural (by omega)

theorem al5BufpoolGetId_wp (fd : ℤ) (hview : state.view i = .empty) :
    poolOutline.wp i op (al5BufpoolGetId fd)
      (fun _ state' => state'.view i = .empty) state := by
  refine wp_dmaBufGet hview (fun state₁ hview₁ => hview₁) ?_
  intro _ state₁ handle hview₁
  refine wp_getHandles hview₁ ?_
  intro state₂ hview₂
  exact wp_dmaBufPut_borrowed hview₂ fun state₃ hview₃ => hview₃

theorem poolBody_wp (hview : state.view i = .empty) :
    poolOutline.wp i op (poolBody op) (poolOutline.post i op) state := by
  unfold poolBody
  simp only [Prog.bind_eq, Prog.perform_bind]
  cases op with
  | allocate count =>
      refine wp_mutexLock hview ?_
      intro state₁ handles hview₁
      refine Outline.wp_seq (al5BufpoolAllocate_wp count hview₁) ?_
      rintro err state₂ ⟨kept, hview₂⟩
      exact wp_mutexUnlock hview₂ fun state₃ hview₃ => hview₃
  | reserveFd id => exact al5BufpoolReserveFd_wp id hview
  | getId fd => exact al5BufpoolGetId_wp fd hview
  | free =>
      refine wp_mutexLock hview ?_
      intro state₁ handles hview₁
      refine Outline.wp_seq (al5BufpoolFree_wp hview₁) ?_
      intro _ state₂ hview₂
      exact wp_mutexUnlock hview₂ fun state₃ hview₃ => hview₃

end

theorem poolOutline_valid : poolOutline.Valid al5BufpoolInit where
  init := poolInv_init
  init_fresh i := by
    unfold poolOutline PoolState.view al5BufpoolInit
    simp [PoolView.empty]
  env := by
    intro event state state' hinv henv hallowed
    change PoolInv state at hinv
    cases event with
    | close fd =>
        obtain ⟨handle, hlookup, rfl⟩ := Option.map_eq_some_iff.mp henv
        have hopen := (lookup_eq_some hinv.distinct).mp hlookup
        exact ⟨hinv.close hopen (hallowed fd rfl handle), fun _ => rfl⟩
    | openForeign fd =>
        simp only [poolMachine, PoolState.env] at henv
        split at henv
        · rename_i hfree
          obtain rfl := Option.some.inj henv
          exact ⟨hinv.openForeign hfree (by omega), fun _ => rfl⟩
        · exact absurd henv (by simp)
  enter := by
    intro calls op state state' hinv henter _ hcovered hfresh
    obtain rfl := Option.some.inj henter
    refine ⟨hinv, hcovered, fun i hi => hfresh i (by omega), ?_⟩
    exact poolBody_wp (hfresh _ (Nat.le_refl _))

/-! ## What a pool accounts for -/

def PoolConfig.Quiet (config : PoolConfig) : Prop :=
  ∀ call ∈ config.calls, ∃ op out, call = ⟨op, .ret out⟩

/-- A buffer for which the pool holds a reference is not released, none is
released twice, and whenever no call runs, a buffer in the pool has one
reference and one for each open descriptor, and the others were released exactly
when no descriptor is open on them. -/
structure PoolAccounted (config : PoolConfig) : Prop where
  keeps : ∀ handle ∈ config.state.pooled, handle ∉ config.state.released
  releasedOnce : ∀ handle, config.state.released.count handle ≤ 1
  counts : PoolConfig.Quiet config → ∀ handle ∈ config.state.handles,
    config.state.refs handle = 1 + config.state.openFds handle
  releases : PoolConfig.Quiet config → ∀ handle < config.state.exported,
    config.state.released.count handle =
      if handle ∈ config.state.handles ∨ 0 < config.state.openFds handle then 0
      else 1

/-- Between calls nobody has a dma-buf in hand. -/
theorem hands_of_quiet {config : PoolConfig} (hholds : poolOutline.Holds config)
    (hquiet : PoolConfig.Quiet config) :
    config.state.hands = [] ∧ config.state.owner = none := by
  have hview : ∀ i, config.state.view i = .empty := by
    intro i
    by_cases hi : i < config.calls.length
    · have hcall := List.getElem?_eq_getElem hi
      obtain ⟨op, out, hout⟩ := hquiet _ (List.getElem_mem hi)
      rw [hout] at hcall
      exact hholds.covered i _ hcall
    · exact hholds.fresh i (Nat.not_lt.mp hi)
  constructor
  · rw [List.eq_nil_iff_forall_not_mem]
    rintro ⟨i, hand⟩ hmem
    exact not_mem_hands_of_view (hview i) List.not_mem_nil hmem
  · by_contra howner
    obtain ⟨i, hi⟩ := Option.ne_none_iff_exists'.mp howner
    have hpool := congrArg PoolView.pool (hview i)
    unfold PoolState.view PoolView.empty at hpool
    rw [if_pos hi] at hpool
    exact absurd hpool (by simp)

/-- In every run in which no pool buffer is dropped while a descriptor is being
reserved on it, and no new descriptor is closed before it was looked up, the
references are accounted for. -/
theorem pool_accounted
    (config : PoolConfig) (hreach : poolMachine.Reach undisturbed poolStart config) :
    PoolAccounted config := by
  have hholds := poolOutline_valid.sound hreach
  have hinv : PoolInv config.state := hholds.inv
  constructor
  · intro handle hmem hreleased
    have hreleases := hinv.releases handle
    have haccounts := hinv.accounts handle
    have howed := hinv.owed_le handle
    have hpooled := List.count_pos_iff.mpr hmem
    have hcount := List.count_pos_iff.mpr hreleased
    rw [if_neg (by omega)] at hreleases
    omega
  · intro handle
    rw [hinv.releases handle]
    split <;> omega
  · intro hquiet handle hmem
    obtain ⟨hhands, howner⟩ := hands_of_quiet hholds hquiet
    have haccounts := hinv.accounts handle
    have honce := hinv.once handle
    have hcount := List.count_pos_iff.mpr hmem
    simp only [PoolState.pooled, hinv.idle howner, List.drop_zero, PoolState.owed,
      PoolState.lents, PoolState.owned, hhands, List.filterMap_nil,
      List.countP_nil] at haccounts
    omega
  · intro hquiet handle hknown
    obtain ⟨hhands, howner⟩ := hands_of_quiet hholds hquiet
    have haccounts := hinv.accounts handle
    simp only [PoolState.pooled, hinv.idle howner, List.drop_zero, PoolState.owed,
      PoolState.lents, PoolState.owned, hhands, List.filterMap_nil,
      List.countP_nil] at haccounts
    have hmem : handle ∈ config.state.handles ↔
        0 < config.state.handles.count handle := List.count_pos_iff.symm
    rw [hinv.releases handle]
    simp only [hmem]
    split <;> split <;> omega

/-! ## Runs -/

abbrev PoolMove : Type :=
  Move PoolChoice PoolOp PoolEnv

def passesPromise (config : PoolConfig) : PoolMove → Bool
  | .step i _ =>
      match config.calls[i]? with
      | some ⟨_, .act .kcalloc _⟩ => config.state.handles = []
      | some ⟨_, .act (.getHandle id) _⟩ => id < config.state.handles.length
      | _ => true
  | _ => true

theorem allows_of_passesPromise
    (config : PoolConfig) (move : PoolMove)
    (hpass : passesPromise config move = true) :
    callersPromise.Allows config move := by
  cases move with
  | enter op => trivial
  | env event => trivial
  | step i choice =>
      intro op action next hcall
      simp only [passesPromise, hcall] at hpass
      refine ⟨?_, ?_⟩
      · rintro rfl
        exact of_decide_eq_true hpass
      · rintro id rfl
        exact of_decide_eq_true hpass

def passesUndisturbed (config : PoolConfig) : PoolMove → Bool
  | .step i choice =>
      passesPromise config (.step i choice) &&
        match config.calls[i]? with
        | some ⟨_, .act (.getHandle id) _⟩ => config.state.dropped ≤ id
        | some ⟨_, .act (.dmaBufPut handle) _⟩ =>
            config.state.hands.contains (i, .borrowed handle) ||
              config.state.hands.all fun entry => !entry.2.uses handle
        | _ => true
  | .env (.close fd) => config.state.lents.all fun entry => entry.1 ≠ fd
  | _ => true

theorem allows_of_passesUndisturbed
    (config : PoolConfig) (move : PoolMove)
    (hpass : passesUndisturbed config move = true) :
    undisturbed.Allows config move := by
  cases move with
  | enter op => trivial
  | env event =>
      rintro fd rfl handle hmem
      simp only [passesUndisturbed, List.all_eq_true] at hpass
      exact absurd rfl (of_decide_eq_true (hpass _ hmem))
  | step i choice =>
      intro op action next hcall
      simp only [passesUndisturbed, Bool.and_eq_true, hcall] at hpass
      obtain ⟨hpromise, hpass⟩ := hpass
      refine ⟨allows_of_passesPromise config _ hpromise op action next hcall, ?_, ?_⟩
      · rintro id rfl
        exact of_decide_eq_true hpass
      · rintro handle rfl hnot j hand hmem
        simp only [Bool.or_eq_true, List.contains_iff_mem, List.all_eq_true] at hpass
        rcases hpass with hborrowed | hunused
        · exact absurd hborrowed hnot
        · exact Bool.not_eq_true' _ ▸ hunused _ hmem

/-- One buffer is allocated and a descriptor is reserved on it. -/
def reserveMoves : List PoolMove :=
  .enter (.allocate 1) :: List.replicate 6 (.step 0 .succeed) ++
    [.enter (.reserveFd 0), .step 1 .succeed, .step 1 (.fd ⟨3, by decide⟩), .step 1 .succeed]

theorem run_reserveMoves :
    ∃ config out out',
      poolMachine.runWhere passesUndisturbed reserveMoves poolStart = some config ∧
        config.state.handles = [0] ∧
        config.calls = [⟨.allocate 1, .ret out⟩, ⟨.reserveFd 0, .ret out'⟩] :=
  ⟨_, _, _, rfl, rfl, rfl⟩

theorem pool_accounted_of_reserve :
    ∃ config, poolMachine.runWhere passesUndisturbed reserveMoves poolStart =
        some config ∧
      config.state.refs 0 = 1 + config.state.openFds 0 := by
  obtain ⟨config, out, out', hrun, hhandles, hcalls⟩ := run_reserveMoves
  have hreach := Machine.reach_of_runWhere allows_of_passesUndisturbed hrun
  have hquiet : PoolConfig.Quiet config := by
    intro call hcall
    rw [hcalls] at hcall
    rcases List.mem_pair.mp hcall with rfl | rfl
    · exact ⟨_, _, rfl⟩
    · exact ⟨_, _, rfl⟩
  have hmem : 0 ∈ config.state.handles := by
    rw [hhandles]
    exact List.mem_cons_self
  exact ⟨config, hrun, (pool_accounted config hreach).counts hquiet 0 hmem⟩

/-- The descriptor is closed before `al5_bufpool_reserve_fd` looks it up. -/
def closeMoves : List PoolMove :=
  .enter (.allocate 1) :: List.replicate 6 (.step 0 .succeed) ++
    [.enter (.reserveFd 0), .step 1 .succeed, .step 1 (.fd ⟨3, by decide⟩), .env (.close 3)]

theorem run_closeMoves :
    ∃ config, poolMachine.runWhere passesPromise closeMoves poolStart = some config ∧
      config.state.pooled = [0] ∧ config.state.released = [0] :=
  ⟨_, rfl, rfl, rfl⟩

/-- A buffer of the pool is released when the new descriptor is closed before
it was looked up. -/
theorem not_pool_accounted :
    ¬ ∀ config, poolMachine.Reach callersPromise poolStart config →
      PoolAccounted config := by
  intro hall
  obtain ⟨config, hrun, hpooled, hreleased⟩ := run_closeMoves
  have haccounted := hall config
    (Machine.reach_of_runWhere allows_of_passesPromise hrun)
  refine haccounted.keeps 0 ?_ ?_
  · rw [hpooled]
    exact List.mem_cons_self
  · rw [hreleased]
    exact List.mem_cons_self

end VcuDriver

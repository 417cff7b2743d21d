import VcuDriver.DmabufCreation
import VcuDriver.Conc.Alone

/-!
# The mapping of an attachment

`al5_dmabuf_map` keeps the mapping of an attachment until it is asked for another
direction, and `al5_dmabuf_unmap` does nothing: the last mapping goes away when
the attachment is detached.

The functions are programs over single accesses, because a mapping is exchanged in
several of them: between `dma_unmap_sg` and `dma_map_sg` the list is not mapped,
and `dma_map_sg` can fail.  The mutex of the dma-buf keeps other calls away from
these moments.
-/

namespace VcuDriver.DmabufMapping

open Conc

inductive DmaDataDirection where
  | bidirectional
  | toDevice
  | fromDevice
  | none
  deriving DecidableEq

structure Scatterlist where
  page : ℕ
  length : ℕ
  offset : ℕ
  deriving DecidableEq

structure SgTable where
  sgl : List Scatterlist
  nents : ℕ
  origNents : ℕ
  deriving DecidableEq

structure Attachment where
  sgt : SgTable
  dmaDir : DmaDataDirection
  deriving DecidableEq

/-! ## Attaching -/

/-- `sg_alloc_table`: entries that are not set yet. -/
def sgAllocTable (origNents : ℕ) : SgTable where
  sgl := List.replicate origNents ⟨0, 0, 0⟩
  nents := origNents
  origNents := origNents

/-- The loop of `al5_dmabuf_attach`: set the entries of `wr` to those of `rd`. -/
def copyEntries : List Scatterlist → List Scatterlist → List Scatterlist
  | rd :: rds, wr :: wrs =>
      { wr with page := rd.page, length := rd.length, offset := rd.offset } ::
        copyEntries rds wrs
  | _, wrs => wrs

/-- `al5_dmabuf_attach`: the error, and what it leaves in `priv`. -/
def al5DmabufAttach (sgtBase : SgTable) (kzalloc sgAlloc : Bool) :
    ℤ × Option Attachment :=
  if kzalloc then
    if sgAlloc then
      let sgt := sgAllocTable sgtBase.origNents
      (0, some {
        sgt := { sgt with sgl := copyEntries sgtBase.sgl sgt.sgl }
        dmaDir := .none })
    else
      (-ENOMEM, none)
  else
    (-ENOMEM, none)

/-! ## Accesses -/

/-- The attachment, whether the mutex of the dma-buf is held, and the mappings of
the list.  `unmapped` lists the calls of `dma_unmap_sg`, latest first, each with
its direction and the mappings which it found. -/
structure State where
  priv : Option Attachment
  locked : Bool
  mappings : List DmaDataDirection
  unmapped : List (DmaDataDirection × List DmaDataDirection)
  faulted : Bool
  deriving DecidableEq

def attached (attach : Attachment) : State where
  priv := some attach
  locked := false
  mappings := []
  unmapped := []
  faulted := false

/-- `dmaMapSg` carries what the kernel answers: the number of entries it mapped, or
zero. -/
inductive Act where
  | mutexLock
  | mutexUnlock
  | getPriv
  | getDmaDir
  | setDmaDir (dir : DmaDataDirection)
  | setNents (nents : ℕ)
  | dmaMapSg (dir : DmaDataDirection) (mapped : ℕ)
  | dmaUnmapSg (dir : DmaDataDirection)
  | freeAttach
  deriving DecidableEq

abbrev Act.Res : Act → Type
  | .getPriv => Bool
  | .getDmaDir => DmaDataDirection
  | .dmaMapSg .. => ℕ
  | _ => Unit

abbrev DmaProg (α : Type) : Type :=
  Prog Act Act.Res α

namespace State

/-- An access through `priv`. -/
def withAttach (state : State) (change : Attachment → Attachment) : State :=
  match state.priv with
  | some attach => { state with priv := some (change attach) }
  | none => { state with faulted := true }

def access (action : Act) (state : State) : action.Res × State :=
  match action with
  | .mutexLock => ((), { state with locked := true })
  | .mutexUnlock => ((), { state with locked := false })
  | .getPriv => (state.priv.isSome, state)
  | .getDmaDir =>
      ((state.priv.map Attachment.dmaDir).getD .none, state.withAttach id)
  | .setDmaDir dir => ((), state.withAttach fun attach => { attach with dmaDir := dir })
  | .setNents nents =>
      ((), state.withAttach fun attach =>
        { attach with sgt := { attach.sgt with nents := nents } })
  | .dmaMapSg dir mapped =>
      (mapped,
        if mapped = 0 then state else { state with mappings := dir :: state.mappings })
  | .dmaUnmapSg dir =>
      ((), { state with
        mappings := state.mappings.erase dir
        unmapped := (dir, state.mappings) :: state.unmapped })
  | .freeAttach => ((), { state with priv := none })

end State

/-! ## Operations -/

/-- What `al5_dmabuf_map` returns: its list or an error pointer. -/
inductive MapResult where
  | sgt
  | errPtr (err : ℤ)
  deriving DecidableEq

/-- `al5_dmabuf_map` from `dma_map_sg` on, with a list that is not mapped. -/
def mapAfresh (dmaDir : DmaDataDirection) (mapped : ℕ) : DmaProg MapResult := do
  let nents ← Prog.perform (Act.dmaMapSg dmaDir mapped)
  Prog.perform (Act.setNents nents)
  if nents = 0 then
    Prog.perform Act.mutexUnlock
    pure (.errPtr (- DmabufCreation.EIO))
  else
    Prog.perform (Act.setDmaDir dmaDir)
    Prog.perform Act.mutexUnlock
    pure .sgt

/-- `al5_dmabuf_map`, when `dma_map_sg` maps so many entries. -/
def al5DmabufMap (dmaDir : DmaDataDirection) (mapped : ℕ) : DmaProg MapResult := do
  Prog.perform Act.mutexLock
  let current ← Prog.perform Act.getDmaDir
  if current = dmaDir then
    Prog.perform Act.mutexUnlock
    pure .sgt
  else if current = .none then
    mapAfresh dmaDir mapped
  else
    Prog.perform (Act.dmaUnmapSg current)
    Prog.perform (Act.setDmaDir .none)
    mapAfresh dmaDir mapped

def al5DmabufUnmap (_dir : DmaDataDirection) : DmaProg Unit :=
  pure ()

def al5DmabufDetach : DmaProg Unit := do
  let attach ← Prog.perform Act.getPriv
  if attach then
    let dmaDir ← Prog.perform Act.getDmaDir
    if dmaDir = .none then
      Prog.perform Act.freeAttach
    else
      Prog.perform (Act.dmaUnmapSg dmaDir)
      Prog.perform Act.freeAttach
  else
    pure ()

/-- A call on an attachment; `map` carries the answer of `dma_map_sg`. -/
inductive MapCall where
  | map (dmaDir : DmaDataDirection) (mapped : ℕ)
  | unmap (dmaDir : DmaDataDirection)
  deriving DecidableEq

/-- The direction a map call asks for, which the kernel never leaves out. -/
def MapCall.Directed : MapCall → Prop
  | .map dmaDir _ => dmaDir ≠ .none
  | .unmap _ => True

def MapCall.body : MapCall → DmaProg (Option MapResult)
  | .map dmaDir mapped => do
      let result ← al5DmabufMap dmaDir mapped
      pure (some result)
  | .unmap dmaDir => do
      al5DmabufUnmap dmaDir
      pure none

def callAll : List MapCall → DmaProg Unit
  | [] => pure ()
  | call :: calls => do
      let _ ← call.body
      callAll calls

def after (attach : Attachment) (calls : List MapCall) : State :=
  ((callAll calls).run State.access (attached attach)).2

/-! ## Balance -/

namespace State

/-- The list is mapped in the direction which the attachment records, and not at all
when it records none. -/
def Cached (state : State) : Prop :=
  ∃ attach, state.priv = some attach ∧
    state.mappings = if attach.dmaDir = .none then [] else [attach.dmaDir]

/-- Every `dma_unmap_sg` found one mapping, in its own direction. -/
def UnmapsFit (state : State) : Prop :=
  ∀ entry ∈ state.unmapped, entry.2 = [entry.1]

/-- What holds at every moment: one mapping at most.  That it is the one recorded in
`dma_dir` holds only at moments at which no call holds the mutex and no detach is under
way: between a call to the kernel and the store that records it they differ. -/
structure Moment (state : State) : Prop where
  atMostOne : state.mappings.length ≤ 1
  unmapsFit : state.UnmapsFit
  sound : state.faulted = false
  cached : state.locked = false → state.Cached

/-- What holds at every moment of a detach.  A detach takes no mutex, and the record is
not looked at while it is under way. -/
structure Detaching (state : State) : Prop where
  atMostOne : state.mappings.length ≤ 1
  unmapsFit : state.UnmapsFit
  sound : state.faulted = false

end State

/-- The mappings of an attachment are in balance over calls and a detach. -/
structure Balanced (attach : Attachment) (calls : List MapCall) : Prop where
  moments : (callAll calls).Always State.access State.Moment (attached attach)
  lists : ∀ before dmaDir mapped after', calls = before ++ .map dmaDir mapped :: after' →
    ((al5DmabufMap dmaDir mapped).run State.access (after attach before)).1 = .sgt →
      (after attach (before ++ [.map dmaDir mapped])).mappings = [dmaDir]
  detaching : al5DmabufDetach.Always State.access State.Detaching (after attach calls)
  detached : (al5DmabufDetach.run State.access (after attach calls)).2.mappings = []

/-! ## A call -/

/-- Between two calls: the mutex is free. -/
structure State.AtRest (state : State) : Prop extends State.Moment state where
  unlocked : state.locked = false

/-- Where a map call ends: at rest, and with a list only when it is mapped in the
direction asked for. -/
def Mapped (dmaDir : DmaDataDirection) (result : MapResult) (state : State) : Prop :=
  state.AtRest ∧ (result = .sgt → state.mappings = [dmaDir])

/-- A map call from its start or from one of its later statements on. -/
abbrev Maps (dmaDir : DmaDataDirection) (program : DmaProg MapResult) (state : State) :
    Prop :=
  Prog.Passes State.access State.Moment program (Mapped dmaDir) state

section

variable {attach : Attachment} {dmaDir : DmaDataDirection}
variable {unmapped : List (DmaDataDirection × List DmaDataDirection)}

/-- While a call has the mutex, only the number of mappings matters. -/
theorem moment_of_locked {mappings : List DmaDataDirection}
    (hone : mappings.length ≤ 1)
    (hunmapped : ∀ entry ∈ unmapped, entry.2 = [entry.1]) :
    State.Moment ⟨some attach, true, mappings, unmapped, false⟩ where
  atMostOne := hone
  unmapsFit := hunmapped
  sound := rfl
  cached h := absurd h (by simp)

theorem atRest_of_mapped
    (hunmapped : ∀ entry ∈ unmapped, entry.2 = [entry.1])
    (hdir : attach.dmaDir = dmaDir) (hne : dmaDir ≠ .none) :
    State.AtRest ⟨some attach, false, [dmaDir], unmapped, false⟩ where
  atMostOne := le_rfl
  unmapsFit := hunmapped
  sound := rfl
  cached _ := ⟨attach, rfl, by rw [hdir, if_neg hne]⟩
  unlocked := rfl

theorem atRest_of_unmapped
    (hunmapped : ∀ entry ∈ unmapped, entry.2 = [entry.1])
    (hdir : attach.dmaDir = .none) :
    State.AtRest ⟨some attach, false, [], unmapped, false⟩ where
  atMostOne := Nat.zero_le 1
  unmapsFit := hunmapped
  sound := rfl
  cached _ := ⟨attach, rfl, by rw [if_pos hdir]⟩
  unlocked := rfl

theorem unmapsFit_cons (dir : DmaDataDirection)
    (hunmapped : ∀ entry ∈ unmapped, entry.2 = [entry.1]) :
    ∀ entry ∈ (dir, [dir]) :: unmapped, entry.2 = [entry.1] := by
  intro entry hmem
  rcases List.mem_cons.mp hmem with rfl | hmem
  · rfl
  · exact hunmapped entry hmem

theorem access_getDmaDir (attach : Attachment) (locked : Bool)
    (mappings : List DmaDataDirection)
    (unmapped : List (DmaDataDirection × List DmaDataDirection)) :
    State.access .getDmaDir ⟨some attach, locked, mappings, unmapped, false⟩ =
      (attach.dmaDir, ⟨some attach, locked, mappings, unmapped, false⟩) := rfl

/-- The recorded mapping goes. -/
theorem access_dmaUnmapSg (attach : Attachment) (locked : Bool)
    (unmapped : List (DmaDataDirection × List DmaDataDirection)) :
    State.access (.dmaUnmapSg attach.dmaDir)
        ⟨some attach, locked, [attach.dmaDir], unmapped, false⟩ =
      ((), ⟨some attach, locked, [], (attach.dmaDir, [attach.dmaDir]) :: unmapped,
        false⟩) := by
  simp [State.access]

theorem maps_ret {result : MapResult} {state : State} (hrest : state.AtRest)
    (hmapped : result = .sgt → state.mappings = [dmaDir]) :
    Maps dmaDir (.ret result) state :=
  .ret hrest.toMoment ⟨hrest, hmapped⟩

/-- Whether or not `dma_map_sg` succeeds, the record agrees with it at the unlock. -/
theorem mapAfresh_maps
    (hunmapped : ∀ entry ∈ unmapped, entry.2 = [entry.1])
    (hdir : attach.dmaDir = .none) (hne : dmaDir ≠ .none) (mapped : ℕ) :
    Maps dmaDir (mapAfresh dmaDir mapped) ⟨some attach, true, [], unmapped, false⟩ := by
  have hnone : State.Moment ⟨some attach, true, [], unmapped, false⟩ :=
    moment_of_locked (Nat.zero_le 1) hunmapped
  unfold mapAfresh
  by_cases hfail : mapped = 0
  · subst hfail
    have hend : State.AtRest ⟨some { attach with sgt := { attach.sgt with nents := 0 } },
        false, [], unmapped, false⟩ := atRest_of_unmapped hunmapped hdir
    refine .act hnone (.act hnone (.act ?_ (maps_ret hend fun hsgt => ?_)))
    · exact moment_of_locked (Nat.zero_le 1) hunmapped
    · exact absurd hsgt (by simp)
  · have hone : ∀ attach, State.Moment ⟨some attach, true, [dmaDir], unmapped, false⟩ :=
      fun _ => moment_of_locked le_rfl hunmapped
    have hend : State.AtRest ⟨some { attach with
        sgt := { attach.sgt with nents := mapped }
        dmaDir := dmaDir }, false, [dmaDir], unmapped, false⟩ :=
      atRest_of_mapped hunmapped rfl hne
    simp only [Prog.bind_eq, Prog.pure_eq, Prog.perform_bind]
    refine .act hnone ?_
    simp only [State.access, if_neg hfail]
    exact .act (hone _) (.act (hone _) (.act (hone _) (maps_ret hend fun _ => rfl)))

end

section

variable {state : State} {dmaDir : DmaDataDirection}

theorem al5DmabufMap_maps (hrest : state.AtRest) (hne : dmaDir ≠ .none) (mapped : ℕ) :
    Maps dmaDir (al5DmabufMap dmaDir mapped) state := by
  obtain ⟨attach, hpriv, hmappings⟩ := hrest.cached hrest.unlocked
  have hfits := hrest.unmapsFit
  have hsound := hrest.sound
  have hmoment := hrest.toMoment
  obtain ⟨priv, locked, mappings, unmapped, faulted⟩ := state
  obtain rfl : priv = some attach := hpriv
  obtain rfl : faulted = false := hsound
  have hunmapped : ∀ entry ∈ unmapped, entry.2 = [entry.1] := hfits
  have hlocked : State.Moment ⟨some attach, true, mappings, unmapped, false⟩ :=
    moment_of_locked hmoment.atMostOne hunmapped
  unfold al5DmabufMap
  simp only [Prog.bind_eq, Prog.pure_eq, Prog.perform_bind]
  refine .act hmoment (.act_eq (access_getDmaDir attach true mappings unmapped) hlocked ?_)
  by_cases hsame : attach.dmaDir = dmaDir
  · rw [if_pos hsame]
    obtain rfl : mappings = [dmaDir] := by
      rw [hsame, if_neg hne] at hmappings
      exact hmappings
    have hend := atRest_of_mapped hunmapped hsame hne
    exact .act hlocked (maps_ret hend fun _ => rfl)
  · rw [if_neg hsame]
    by_cases hnone : attach.dmaDir = .none
    · rw [if_pos hnone]
      obtain rfl : mappings = [] := by
        rw [if_pos hnone] at hmappings
        exact hmappings
      exact mapAfresh_maps hunmapped hnone hne mapped
    · rw [if_neg hnone]
      -- The old mapping goes first: its direction is the recorded one.
      obtain rfl : mappings = [attach.dmaDir] := by
        rw [if_neg hnone] at hmappings
        exact hmappings
      have hadded := unmapsFit_cons attach.dmaDir hunmapped
      refine .act_eq (access_dmaUnmapSg attach true unmapped) hlocked ?_
      refine .act (moment_of_locked (Nat.zero_le 1) hadded) ?_
      have hdir : ({ attach with dmaDir := .none } : Attachment).dmaDir = .none := rfl
      exact mapAfresh_maps hadded hdir hne mapped

/-- A call on the attachment goes from rest to rest. -/
theorem body_always (hrest : state.AtRest) {call : MapCall} (hdirected : call.Directed) :
    call.body.Always State.access State.Moment state ∧
      (call.body.run State.access state).2.AtRest := by
  cases call with
  | map dmaDir mapped =>
      have hmaps := al5DmabufMap_maps hrest hdirected mapped
      refine ⟨hmaps.always.bind hmaps.stop.1.toMoment, ?_⟩
      simp only [MapCall.body, Prog.bind_eq, Prog.run_bind]
      exact hmaps.stop.1
  | unmap dmaDir => exact ⟨hrest.toMoment, hrest⟩

theorem callAll_always {calls : List MapCall} (hrest : state.AtRest)
    (hdirected : ∀ call ∈ calls, call.Directed) :
    (callAll calls).Always State.access State.Moment state ∧
      ((callAll calls).run State.access state).2.AtRest := by
  induction calls generalizing state with
  | nil => exact ⟨hrest.toMoment, hrest⟩
  | cons call calls ih =>
      obtain ⟨hfirst, hmid⟩ := body_always hrest (hdirected call List.mem_cons_self)
      obtain ⟨hlater, hend⟩ :=
        ih hmid fun other hmem => hdirected other (List.mem_cons_of_mem _ hmem)
      refine ⟨hfirst.bind hlater, ?_⟩
      simp only [callAll, Prog.bind_eq, Prog.run_bind]
      exact hend

end

/-! ## Balance over a life -/

theorem callAll_append (calls later : List MapCall) :
    callAll (calls ++ later) = (callAll calls).bind fun _ => callAll later := by
  induction calls with
  | nil => rfl
  | cons call calls ih =>
      simp only [List.cons_append, callAll, ih, Prog.bind_eq, Prog.bind_assoc]

theorem atRest_attached {attach : Attachment} (hdir : attach.dmaDir = .none) :
    (attached attach).AtRest where
  atMostOne := Nat.zero_le 1
  unmapsFit entry hmem := absurd hmem List.not_mem_nil
  sound := rfl
  cached _ := ⟨attach, rfl, by rw [if_pos hdir]; rfl⟩
  unlocked := rfl

/-- A detach gives back the mapping which is left. -/
theorem al5DmabufDetach_always {state : State} (hrest : state.AtRest) :
    al5DmabufDetach.Always State.access State.Detaching state ∧
      (al5DmabufDetach.run State.access state).2.mappings = [] := by
  obtain ⟨attach, hpriv, hmappings⟩ := hrest.cached hrest.unlocked
  have hstart : State.Detaching state :=
    ⟨hrest.atMostOne, hrest.unmapsFit, hrest.sound⟩
  obtain ⟨priv, locked, mappings, unmapped, faulted⟩ := state
  obtain rfl : priv = some attach := hpriv
  obtain rfl : faulted = false := hrest.sound
  have hend : ∀ (priv : Option Attachment)
      (unmapped : List (DmaDataDirection × List DmaDataDirection)),
      (∀ entry ∈ unmapped, entry.2 = [entry.1]) →
        State.Detaching ⟨priv, locked, [], unmapped, false⟩ :=
    fun _ _ hunmapped => ⟨Nat.zero_le 1, hunmapped, rfl⟩
  unfold al5DmabufDetach
  simp only [Prog.bind_eq, Prog.pure_eq, Prog.perform_bind, Prog.always_act, Prog.run_act]
  rw [show State.access .getPriv ⟨some attach, locked, mappings, unmapped, false⟩ =
    (true, ⟨some attach, locked, mappings, unmapped, false⟩) from rfl]
  simp only [if_true, Prog.always_act, Prog.run_act]
  rw [access_getDmaDir]
  by_cases hnone : attach.dmaDir = .none
  · obtain rfl : mappings = [] := by
      rw [if_pos hnone] at hmappings
      exact hmappings
    simp only [if_pos hnone]
    exact ⟨⟨hstart, hstart, hstart, hend _ _ hrest.unmapsFit⟩, rfl⟩
  · obtain rfl : mappings = [attach.dmaDir] := by
      rw [if_neg hnone] at hmappings
      exact hmappings
    have hadded := unmapsFit_cons attach.dmaDir hrest.unmapsFit
    simp only [if_neg hnone, Prog.always_act, Prog.run_act]
    rw [access_dmaUnmapSg]
    exact ⟨⟨hstart, hstart, hstart, hend _ _ hadded, hend _ _ hadded⟩, rfl⟩

/-- In every sequence of map and unmap calls on a new attachment, and in the detach at
its end, the list is mapped once at most and every unmap of the kernel fits; whenever no
call holds the mutex it is mapped exactly if a direction is recorded, and in this one. -/
theorem mappings_balance
    (sgtBase : SgTable) (attach : Attachment) (calls : List MapCall)
    (hattach : al5DmabufAttach sgtBase true true = (0, some attach))
    (hdirected : ∀ call ∈ calls, call.Directed) : Balanced attach calls := by
  have hdir : attach.dmaDir = .none := by
    simp only [al5DmabufAttach, if_true, Prod.mk.injEq, true_and, Option.some.injEq] at hattach
    rw [← hattach]
  have hrest := atRest_attached hdir
  obtain ⟨hmoments, hend⟩ := callAll_always hrest hdirected
  obtain ⟨hdetaching, hdetached⟩ := al5DmabufDetach_always hend
  refine ⟨hmoments, ?_, hdetaching, hdetached⟩
  intro before dmaDir mapped later hcalls hsgt
  subst hcalls
  have hbefore := (callAll_always hrest fun call hmem =>
    hdirected call (List.mem_append_left _ hmem)).2
  have hne : dmaDir ≠ .none := hdirected (.map dmaDir mapped) (by simp)
  have hmaps := al5DmabufMap_maps hbefore hne mapped
  rw [after, callAll_append, Prog.run_bind]
  simp only [callAll, MapCall.body, Prog.bind_eq, Prog.run_bind]
  exact hmaps.stop.2 hsgt

/-- The list is mapped, mapped again in another direction without success, and mapped in
a third one. -/
theorem mappings_balance_of_three_maps :
    Balanced ⟨⟨[⟨7, 4096, 0⟩], 1, 1⟩, .none⟩
      [.map .toDevice 1, .unmap .toDevice, .map .fromDevice 0, .map .bidirectional 1] :=
  mappings_balance ⟨[⟨7, 4096, 0⟩], 1, 1⟩ _ _ rfl (by simp [MapCall.Directed])

end VcuDriver.DmabufMapping

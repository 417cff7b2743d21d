import VcuDriver.DmabufWrap
import VcuDriver.Conc.Ledger

/-!
# The memory of a pool

`al5_bufpool_allocate` obtains two arrays, and for each buffer a structure, its
memory and a dma-buf around it; any of them can fail.  `al5_bufpool_free` puts the
dma-bufs, each of which releases its buffer, and frees the arrays.

A call that fails frees its buffers, dma-bufs and arrays, unless the second array is
the one that fails: the pointer to the first stays in the pool, and the next
`al5_bufpool_free` frees it again.  What a wrap keeps beside the dma-buf is freed with
the dma-buf, and lost when the wrap fails.
-/

namespace VcuDriver.PoolMemory

open Conc

/-- The buffers, dma-bufs and arrays, and beside them what the wraps hold: records,
references of the device and scatter tables. -/
structure Memory where
  objects : Ledger
  parts : Ledger

/-- `struct al5_dma_buffer`: the structure and the memory it describes. -/
structure DmaObject where
  record : ℕ
  memory : ℕ
  size : ℤ

/-- A dma-buf with its one reference, and what its wrap holds. -/
structure DmaBuf where
  file : ℕ
  parts : List ℕ
  buffer : DmaObject

structure PoolArray (α : Type) where
  object : ℕ
  entries : List α

structure BuffersPool where
  count : ℕ
  buffers : Option (PoolArray DmaObject)
  handles : Option (PoolArray DmaBuf)

def al5BufpoolInit : BuffersPool where
  count := 0
  buffers := none
  handles := none

/-- Which allocations succeed; those of the loop go by the index of the buffer. -/
structure Outcomes where
  kcallocBuffers : Bool
  kcallocHandles : Bool
  kmalloc : ℕ → Bool
  dmaAllocCoherent : ℕ → Bool
  wrap : ℕ → DmabufCreation.WrapOutcomes

/-! ## Operations -/

def Memory.obtain (memory : Memory) : Memory :=
  { memory with objects := memory.objects.obtain }

def Memory.free (memory : Memory) (object : ℕ) : Memory :=
  { memory with objects := memory.objects.free object }

def kfree {α : Type} (array : Option (PoolArray α)) (memory : Memory) : Memory :=
  match array with
  | none => memory
  | some array => memory.free array.object

def al5AllocDma (outcomes : Outcomes) (i : ℕ) (size : ℤ) (memory : Memory) :
    Option DmaObject × Memory :=
  if outcomes.kmalloc i then
    let record := memory.objects.next
    let memory := memory.obtain
    if outcomes.dmaAllocCoherent i then
      (some ⟨record, memory.objects.next, size⟩, memory.obtain)
    else
      (none, memory.free record)
  else
    (none, memory)

def al5FreeDma (buffer : DmaObject) (memory : Memory) : Memory :=
  (memory.free buffer.memory).free buffer.record

/-- The parts a wrap takes, numbered. -/
def Memory.takeParts (memory : Memory) (count : ℕ) : List ℕ × Memory :=
  (List.range' memory.parts.next count,
    { memory with parts := memory.parts.obtainMany count })

/-- `al5_dmabuf_wrap`: it keeps its parts whether it succeeds or not. -/
def al5DmabufWrap (outcomes : Outcomes) (i : ℕ) (buffer : DmaObject)
    (memory : Memory) : Option DmaBuf × Memory :=
  let (dbuf, held) := (DmabufCreation.al5DmabufWrap (outcomes.wrap i)).run []
  let (parts, memory) := memory.takeParts (held.filter (· ≠ .dmaBuf)).length
  if dbuf.isErrOrNull then (none, memory)
  else (some ⟨memory.objects.next, parts, buffer⟩, memory.obtain)

/-- `dma_buf_put` of the last reference: `al5_dmabuf_release` frees the buffer and
what the wrap holds. -/
def dmaBufPut (memory : Memory) (handle : DmaBuf) : Memory :=
  let memory := (al5FreeDma handle.buffer memory).free handle.file
  { memory with parts := memory.parts.freeAll handle.parts }

/-- `al5_bufpool_free`: the first `count` handles, and both arrays. -/
def al5BufpoolFree (bufpool : BuffersPool) (memory : Memory) :
    BuffersPool × Memory :=
  let handles := (bufpool.handles.map PoolArray.entries).getD []
  let memory := (handles.take bufpool.count).foldl dmaBufPut memory
  (al5BufpoolInit, kfree bufpool.handles (kfree bufpool.buffers memory))

/-- The `int` which a call returns, the pool and the memory. -/
abbrev Result : Type :=
  ℤ × BuffersPool × Memory

def failDmaAllocation (bufpool : BuffersPool) (memory : Memory) : Result :=
  (-ENOMEM, al5BufpoolFree bufpool memory)

def BuffersPool.push (bufpool : BuffersPool) (handle : DmaBuf) : BuffersPool where
  count := bufpool.count + 1
  buffers := bufpool.buffers.map fun array =>
    { array with entries := array.entries ++ [handle.buffer] }
  handles := bufpool.handles.map fun array =>
    { array with entries := array.entries ++ [handle] }

/-- The loop of `al5_bufpool_allocate`; `i` is the index, then comes what is left. -/
def allocateLoop (outcomes : Outcomes) (size : ℤ) :
    ℕ → ℕ → BuffersPool → Memory → Result
  | _, 0, bufpool, memory => (0, bufpool, memory)
  | i, left + 1, bufpool, memory =>
      match al5AllocDma outcomes i size memory with
      | (none, memory) => failDmaAllocation bufpool memory
      | (some buffer, memory) =>
          match al5DmabufWrap outcomes i buffer memory with
          | (none, memory) =>
              failDmaAllocation bufpool (al5FreeDma buffer memory)
          | (some handle, memory) =>
              allocateLoop outcomes size (i + 1) left (bufpool.push handle) memory

def al5BufpoolAllocate (outcomes : Outcomes) (count size : ℤ)
    (bufpool : BuffersPool) (memory : Memory) : Result :=
  let bufpool := { bufpool with count := 0 }
  if outcomes.kcallocBuffers then
    let bufpool := { bufpool with buffers := some ⟨memory.objects.next, []⟩ }
    let memory := memory.obtain
    if outcomes.kcallocHandles then
      let bufpool := { bufpool with handles := some ⟨memory.objects.next, []⟩ }
      let memory := memory.obtain
      allocateLoop outcomes size 0 count.toNat bufpool memory
    else
      let bufpool := { bufpool with handles := none }
      (-ENOMEM, bufpool, kfree bufpool.buffers memory)
  else
    (-ENOMEM, { bufpool with buffers := none }, memory)

def freeTimes : ℕ → BuffersPool → Memory → BuffersPool × Memory
  | 0, bufpool, memory => (bufpool, memory)
  | times + 1, bufpool, memory =>
      let (bufpool, memory) := al5BufpoolFree bufpool memory
      freeTimes times bufpool memory

/-! ## What a call that fails leaves -/

/-- The pool is as `al5_bufpool_init` leaves it, each buffer, dma-buf and array which
the call obtained was freed exactly once, and no later free frees anything twice. -/
structure FailsClean (start : Memory) (result : Result) : Prop where
  initial : result.2.1 = al5BufpoolInit
  freedOnce : Ledger.FreedSince start.objects result.2.2.objects
  laterFrees : ∀ times object,
    (freeTimes times result.2.1 result.2.2).2.objects.freed.count object ≤ 1 ∧
      (freeTimes times result.2.1 result.2.2).2.parts.freed.count object ≤ 1

/-- The wraps of the call keep nothing. -/
def WrapsFreed (start : Memory) (result : Result) : Prop :=
  Ledger.FreedSince start.parts result.2.2.parts

namespace Outcomes

def allocates (outcomes : Outcomes) (i : ℕ) : Bool :=
  outcomes.kmalloc i && outcomes.dmaAllocCoherent i

def completes (outcomes : Outcomes) (i : ℕ) : Bool :=
  outcomes.allocates i && (outcomes.wrap i).wraps

def loses (outcomes : Outcomes) (i : ℕ) : Bool :=
  outcomes.allocates i && ((outcomes.wrap i).kzallocPriv && !(outcomes.wrap i).wraps)

theorem not_completes_of_loses {outcomes : Outcomes} {i : ℕ}
    (hloses : outcomes.loses i = true) : outcomes.completes i = false := by
  unfold loses at hloses
  unfold completes
  simp only [Bool.and_eq_true, Bool.not_eq_true'] at hloses
  rw [hloses.2.2, Bool.and_false]

end Outcomes

/-! ## The accounts -/

def DmaObject.objects (buffer : DmaObject) : List ℕ :=
  [buffer.memory, buffer.record]

def DmaBuf.objects (handle : DmaBuf) : List ℕ :=
  handle.buffer.objects ++ [handle.file]

def filled (buffers handles : ℕ) (entries : List DmaBuf) : BuffersPool where
  count := entries.length
  buffers := some ⟨buffers, entries.map DmaBuf.buffer⟩
  handles := some ⟨handles, entries⟩

def heldBy (buffers handles : ℕ) (entries : List DmaBuf) : List ℕ :=
  entries.flatMap DmaBuf.objects ++ [buffers, handles]

theorem filled_push (buffers handles : ℕ) (entries : List DmaBuf) (handle : DmaBuf) :
    (filled buffers handles entries).push handle =
      filled buffers handles (entries ++ [handle]) := by
  unfold filled BuffersPool.push
  simp

theorem foldl_dmaBufPut (entries : List DmaBuf) (memory : Memory) :
    entries.foldl dmaBufPut memory =
      ⟨memory.objects.freeAll (entries.flatMap DmaBuf.objects),
        memory.parts.freeAll (entries.flatMap DmaBuf.parts)⟩ := by
  induction entries generalizing memory with
  | nil => rfl
  | cons handle entries ih =>
      rw [List.foldl_cons, ih, List.flatMap_cons, List.flatMap_cons]
      unfold Ledger.freeAll
      rw [List.foldl_append, List.foldl_append]
      rfl

theorem al5BufpoolFree_filled (buffers handles : ℕ) (entries : List DmaBuf)
    (memory : Memory) :
    al5BufpoolFree (filled buffers handles entries) memory =
      (al5BufpoolInit, ⟨memory.objects.freeAll (heldBy buffers handles entries),
        memory.parts.freeAll (entries.flatMap DmaBuf.parts)⟩) := by
  have htake : entries.take entries.length = entries := List.take_length
  unfold al5BufpoolFree filled heldBy
  simp only [Option.map_some, Option.getD_some, htake, foldl_dmaBufPut, kfree]
  unfold Ledger.freeAll
  rw [List.foldl_append]
  rfl

theorem al5BufpoolFree_initial (memory : Memory) :
    al5BufpoolFree al5BufpoolInit memory = (al5BufpoolInit, memory) := by
  rfl

/-- Later frees of an empty pool free nothing. -/
theorem freeTimes_initial (times : ℕ) (memory : Memory) :
    freeTimes times al5BufpoolInit memory = (al5BufpoolInit, memory) := by
  induction times with
  | zero => rfl
  | succ times ih =>
      rw [freeTimes, al5BufpoolFree_initial]
      exact ih

/-- Since `start`, these objects and these parts of wraps are held. -/
structure Accounts (start : Memory) (held parts : List ℕ) (memory : Memory) : Prop where
  objects : start.objects.Holds held memory.objects
  parts : start.parts.Holds parts memory.parts

section Accounts

variable {start memory : Memory} {held parts lost : List ℕ} {buffers handles : ℕ}
  {entries : List DmaBuf}

theorem failDmaAllocation_filled
    (haccounts : Accounts start (heldBy buffers handles entries)
      (entries.flatMap DmaBuf.parts ++ lost) memory) :
    ∃ after, failDmaAllocation (filled buffers handles entries) memory =
        (-ENOMEM, al5BufpoolInit, after) ∧ Accounts start [] lost after := by
  unfold failDmaAllocation
  rw [al5BufpoolFree_filled]
  refine ⟨_, rfl, Ledger.Holds.freeAll ?_, haccounts.parts.freeAll⟩
  rw [List.append_nil]
  exact haccounts.objects

theorem al5AllocDma_accounts (outcomes : Outcomes) (i : ℕ) (size : ℤ)
    (haccounts : Accounts start held parts memory) :
    (outcomes.allocates i = false ∧ ∃ after,
      al5AllocDma outcomes i size memory = (none, after) ∧
      Accounts start held parts after) ∨
    (outcomes.allocates i = true ∧ ∃ buffer after,
      al5AllocDma outcomes i size memory = (some buffer, after) ∧
      Accounts start (buffer.objects ++ held) parts after) := by
  obtain ⟨hobjects, hparts⟩ := haccounts
  unfold al5AllocDma Outcomes.allocates
  cases outcomes.kmalloc i with
  | true =>
      rw [if_pos rfl]
      cases outcomes.dmaAllocCoherent i with
      | true => exact .inr ⟨rfl, _, _, rfl, hobjects.obtain.obtain, hparts⟩
      | false => exact .inl ⟨rfl, _, rfl, hobjects.obtain.free, hparts⟩
  | false => exact .inl ⟨rfl, memory, rfl, hobjects, hparts⟩

def partCount (outcomes : Outcomes) (i : ℕ) : ℕ :=
  ((outcomes.wrap i).wrapParts []).length

theorem partCount_eq_zero_iff (outcomes : Outcomes) (i : ℕ) :
    partCount outcomes i = 0 ↔ (outcomes.wrap i).kzallocPriv = false := by
  unfold partCount DmabufCreation.WrapOutcomes.wrapParts
  cases (outcomes.wrap i).kzallocPriv with
  | false => exact iff_of_true rfl rfl
  | true => simp

theorem filter_wrapParts (outcomes : DmabufCreation.WrapOutcomes) :
    (outcomes.wrapParts []).filter (· ≠ .dmaBuf) = outcomes.wrapParts [] := by
  unfold DmabufCreation.WrapOutcomes.wrapParts DmabufCreation.WrapOutcomes.tables
  split
  · split <;> rfl
  · rfl

theorem al5DmabufWrap_accounts (outcomes : Outcomes) (i : ℕ) (buffer : DmaObject)
    (haccounts : Accounts start held parts memory) :
    ((outcomes.wrap i).wraps = false ∧ ∃ after,
      al5DmabufWrap outcomes i buffer memory = (none, after) ∧
      Accounts start held
        (List.range' memory.parts.next (partCount outcomes i) ++ parts) after) ∨
    ((outcomes.wrap i).wraps = true ∧ ∃ handle after,
      handle.buffer = buffer ∧
      al5DmabufWrap outcomes i buffer memory = (some handle, after) ∧
      Accounts start (handle.file :: held) (handle.parts ++ parts) after) := by
  have hrun := DmabufCreation.run_al5DmabufWrap (outcomes.wrap i) []
  have hfilter := filter_wrapParts (outcomes.wrap i)
  have hparts := haccounts.parts.obtainMany (partCount outcomes i)
  unfold al5DmabufWrap
  cases hwraps : (outcomes.wrap i).wraps with
  | false =>
      rw [hwraps] at hrun
      simp only [hrun, Bool.false_eq_true, if_false, hfilter]
      exact .inl ⟨trivial, _, rfl, haccounts.objects, hparts⟩
  | true =>
      rw [hwraps] at hrun
      have hdropped : (DmabufCreation.Resource.dmaBuf ::
          (outcomes.wrap i).wrapParts []).filter (· ≠ .dmaBuf) =
            (outcomes.wrap i).wrapParts [] := hfilter
      simp only [hrun, if_true, hdropped]
      exact .inr ⟨trivial, _, _, rfl, rfl, haccounts.objects.obtain, hparts⟩

/-- The loop fails at the first round that is not complete; what it has put into the
pool is freed, and what is lost was taken by the wrap of that round. -/
structure FailsAt (outcomes : Outcomes) (start : Memory) (i left : ℕ) (result : Result) :
    Prop where
  failed : ∃ k < left, (∀ j < k, outcomes.completes (i + j) = true) ∧
    outcomes.completes (i + k) = false ∧
    ∃ lost after, result = (-ENOMEM, al5BufpoolInit, after) ∧
      Accounts start [] lost after ∧ (∀ part ∈ lost, start.parts.next ≤ part) ∧
      (lost = [] ↔ outcomes.loses (i + k) = false)

theorem completes_succ {outcomes : Outcomes} {i k : ℕ}
    (hcompletes : outcomes.completes i = true)
    (hrest : ∀ j < k, outcomes.completes (i + 1 + j) = true) :
    ∀ j < k + 1, outcomes.completes (i + j) = true := by
  intro j hj
  cases j with
  | zero => exact hcompletes
  | succ j =>
      have hround := hrest j (Nat.lt_of_succ_lt_succ hj)
      rwa [Nat.add_assoc, Nat.add_comm 1 j] at hround

/-- A complete round before a loop that fails. -/
theorem FailsAt.succ {outcomes : Outcomes} {i left : ℕ} {result : Result}
    (hcompletes : outcomes.completes i = true)
    (hfails : FailsAt outcomes start (i + 1) left result) :
    FailsAt outcomes start i (left + 1) result := by
  obtain ⟨k, hk, hbefore, hrest⟩ := hfails
  rw [Nat.add_assoc, Nat.add_comm 1 k] at hrest
  exact ⟨k + 1, Nat.succ_lt_succ hk, completes_succ hcompletes hbefore, hrest⟩

/-- The first round fails without a buffer. -/
theorem failsAt_of_not_allocates {outcomes : Outcomes} {i left : ℕ}
    (hallocates : outcomes.allocates i = false)
    (haccounts : Accounts start (heldBy buffers handles entries)
      (entries.flatMap DmaBuf.parts) memory) :
    FailsAt outcomes start i (left + 1)
      (failDmaAllocation (filled buffers handles entries) memory) := by
  rw [← List.append_nil (entries.flatMap DmaBuf.parts)] at haccounts
  obtain ⟨freed, hfails, hfreed⟩ := failDmaAllocation_filled haccounts
  refine ⟨0, Nat.succ_pos left, fun j hj => absurd hj (Nat.not_lt_zero j), ?_, [], freed,
    hfails, hfreed, fun _ hmem => absurd hmem List.not_mem_nil, ?_⟩
  · unfold Outcomes.completes
    rw [Nat.add_zero, hallocates, Bool.false_and]
  · unfold Outcomes.loses
    rw [Nat.add_zero, hallocates, Bool.false_and]
    exact iff_of_true rfl rfl

/-- The first round fails at the wrap, whose parts are lost. -/
theorem failsAt_of_not_wraps {outcomes : Outcomes} {i left first : ℕ} {buffer : DmaObject}
    (hallocates : outcomes.allocates i = true)
    (hwraps : (outcomes.wrap i).wraps = false) (hfirst : start.parts.next ≤ first)
    (haccounts : Accounts start (buffer.objects ++ heldBy buffers handles entries)
      (List.range' first (partCount outcomes i) ++ entries.flatMap DmaBuf.parts) memory) :
    FailsAt outcomes start i (left + 1)
      (failDmaAllocation (filled buffers handles entries) (al5FreeDma buffer memory)) := by
  have hheld : Accounts start (heldBy buffers handles entries)
      (entries.flatMap DmaBuf.parts ++ List.range' first (partCount outcomes i))
      (al5FreeDma buffer memory) :=
    ⟨haccounts.objects.free.free, haccounts.parts.perm List.perm_append_comm⟩
  obtain ⟨freed, hfails, hfreed⟩ := failDmaAllocation_filled hheld
  refine ⟨0, Nat.succ_pos left, fun j hj => absurd hj (Nat.not_lt_zero j), ?_, _, freed,
    hfails, hfreed, fun part hmem => hfirst.trans (List.mem_range'_1.mp hmem).1, ?_⟩
  · unfold Outcomes.completes
    rw [Nat.add_zero, hwraps, Bool.and_false]
  · unfold Outcomes.loses
    rw [Nat.add_zero, hallocates, hwraps, List.range'_eq_nil_iff, partCount_eq_zero_iff]
    simp

/-- A complete round puts its dma-buf into the pool. -/
theorem accounts_push {handle : DmaBuf}
    (haccounts : Accounts start
      (handle.file :: (handle.buffer.objects ++ heldBy buffers handles entries))
      (handle.parts ++ entries.flatMap DmaBuf.parts) memory) :
    Accounts start (heldBy buffers handles (entries ++ [handle]))
      ((entries ++ [handle]).flatMap DmaBuf.parts) memory := by
  refine ⟨haccounts.objects.perm ?_, haccounts.parts.perm ?_⟩
  · rw [List.perm_iff_count]
    intro object
    simp only [heldBy, List.flatMap_append, List.flatMap_cons, List.flatMap_nil,
      DmaBuf.objects, List.count_append, List.count_cons, List.count_nil]
    omega
  · rw [List.flatMap_append, List.flatMap_cons, List.flatMap_nil, List.append_nil]
    exact List.perm_append_comm

/-- Round by round, what was obtained is in the pool. -/
theorem allocateLoop_accounts (outcomes : Outcomes) (size : ℤ) (i left : ℕ)
    (haccounts : Accounts start (heldBy buffers handles entries)
      (entries.flatMap DmaBuf.parts) memory) :
    ((allocateLoop outcomes size i left (filled buffers handles entries) memory).1 = 0 ∧
      ∀ j < left, outcomes.completes (i + j) = true) ∨
    FailsAt outcomes start i left
      (allocateLoop outcomes size i left (filled buffers handles entries) memory) := by
  induction left generalizing i entries memory with
  | zero => exact .inl ⟨rfl, fun j hj => absurd hj (by omega)⟩
  | succ left ih =>
      rw [allocateLoop]
      rcases al5AllocDma_accounts outcomes i size haccounts with
        ⟨hallocates, after, halloc, hafter⟩ | ⟨hallocates, buffer, after, halloc, hafter⟩
      · rw [halloc]
        exact .inr (failsAt_of_not_allocates hallocates hafter)
      · rw [halloc]
        dsimp only
        rcases al5DmabufWrap_accounts outcomes i buffer hafter with
          ⟨hwraps, wrapped, hwrap, hwrapped⟩ |
            ⟨hwraps, handle, wrapped, hbuffer, hwrap, hwrapped⟩
        · rw [hwrap]
          exact .inr (failsAt_of_not_wraps hallocates hwraps hafter.parts.le hwrapped)
        · rw [hwrap]
          dsimp only
          rw [filled_push]
          have hcompletes : outcomes.completes i = true := by
            unfold Outcomes.completes
            rw [hallocates, hwraps]
            rfl
          rw [← hbuffer] at hwrapped
          rcases ih (i + 1) (accounts_push hwrapped) with ⟨hzero, hall⟩ | hfails
          · exact .inl ⟨hzero, completes_succ hcompletes hall⟩
          · exact .inr (hfails.succ hcompletes)

end Accounts

theorem failsClean_of_accounts {start memory : Memory} {lost : List ℕ}
    (hobjects : start.objects.Sound) (hparts : start.parts.Sound)
    (haccounts : Accounts start [] lost memory) :
    FailsClean start (-ENOMEM, al5BufpoolInit, memory) where
  initial := rfl
  freedOnce _ hlow hhigh := haccounts.objects.freed_once hobjects hlow hhigh
  laterFrees times object := by
    dsimp only
    rw [freeTimes_initial]
    exact ⟨(haccounts.objects.sound hobjects).once object,
      (haccounts.parts.sound hparts).once object⟩

/-- The first round that is not complete loses the parts of its wrap. -/
def Outcomes.LosesPart (outcomes : Outcomes) (count : ℕ) : Prop :=
  ∃ i < count, (∀ j < i, outcomes.completes j = true) ∧ outcomes.loses i = true

theorem losesPart_iff {outcomes : Outcomes} {count k : ℕ} (hk : k < count)
    (hbefore : ∀ j < k, outcomes.completes j = true)
    (hfails : outcomes.completes k = false) :
    outcomes.LosesPart count ↔ outcomes.loses k = true := by
  constructor
  · rintro ⟨i, _, hall, hloses⟩
    have hnot := Outcomes.not_completes_of_loses hloses
    rcases Nat.lt_trichotomy i k with hlt | rfl | hlt
    · exact absurd ((hbefore i hlt).symm.trans hnot) (by decide)
    · exact hloses
    · exact absurd ((hall k hlt).symm.trans hfails) (by decide)
  · exact fun hloses => ⟨k, hk, hbefore, hloses⟩

section Allocate

variable {outcomes : Outcomes} (count size : ℤ) (start : Memory)

theorem al5BufpoolAllocate_noBuffers (hbuffers : outcomes.kcallocBuffers = false) :
    al5BufpoolAllocate outcomes count size al5BufpoolInit start =
      (-ENOMEM, al5BufpoolInit, start) := by
  unfold al5BufpoolAllocate
  rw [hbuffers]
  rfl

/-- The array of the buffers is freed, and the pool still points to it. -/
theorem al5BufpoolAllocate_noHandles (hbuffers : outcomes.kcallocBuffers = true)
    (hhandles : outcomes.kcallocHandles = false) :
    al5BufpoolAllocate outcomes count size al5BufpoolInit start =
      (-ENOMEM, ⟨0, some ⟨start.objects.next, []⟩, none⟩,
        start.obtain.free start.objects.next) := by
  unfold al5BufpoolAllocate
  simp only [hbuffers, hhandles, if_true, Bool.false_eq_true, if_false]
  rfl

/-- With both arrays the call is its loop, from an empty pool. -/
theorem al5BufpoolAllocate_arrays (hbuffers : outcomes.kcallocBuffers = true)
    (hhandles : outcomes.kcallocHandles = true) :
    (∃ after, al5BufpoolAllocate outcomes count size al5BufpoolInit start =
        (0, after) ∧ ∀ j < count.toNat, outcomes.completes j = true) ∨
      FailsAt outcomes start 0 count.toNat
        (al5BufpoolAllocate outcomes count size al5BufpoolInit start) := by
  have hresult : al5BufpoolAllocate outcomes count size al5BufpoolInit start =
      allocateLoop outcomes size 0 count.toNat
        (filled start.objects.next start.obtain.objects.next []) start.obtain.obtain := by
    unfold al5BufpoolAllocate
    simp only [hbuffers, hhandles, if_true]
    rfl
  have haccounts : Accounts start
      (heldBy start.objects.next start.obtain.objects.next []) [] start.obtain.obtain :=
    ⟨(Ledger.Holds.refl start.objects).obtain.obtain.perm (List.Perm.swap _ _ _),
      Ledger.Holds.refl start.parts⟩
  rw [hresult]
  rcases allocateLoop_accounts outcomes size 0 count.toNat haccounts with
    ⟨hzero, hall⟩ | hfails
  · simp only [Nat.zero_add] at hall
    exact .inl ⟨_, Prod.ext hzero rfl, hall⟩
  · exact .inr hfails

end Allocate

/-- A call that fails leaves an empty pool, and nothing of its buffers and arrays to
free, exactly when it does not fail at the second array; its wraps leave nothing exactly
when none of them fails after the allocation of its record. -/
theorem allocate_failsClean_iff (outcomes : Outcomes) (count size : ℤ)
    {start : Memory} (hobjects : start.objects.Sound) (hparts : start.parts.Sound) :
    (((al5BufpoolAllocate outcomes count size al5BufpoolInit start).1 ≠ 0 →
        FailsClean start
          (al5BufpoolAllocate outcomes count size al5BufpoolInit start)) ↔
      ¬ (outcomes.kcallocBuffers = true ∧ outcomes.kcallocHandles = false)) ∧
    (((al5BufpoolAllocate outcomes count size al5BufpoolInit start).1 ≠ 0 →
        WrapsFreed start
          (al5BufpoolAllocate outcomes count size al5BufpoolInit start)) ↔
      ¬ (outcomes.kcallocBuffers = true ∧ outcomes.kcallocHandles = true ∧
        outcomes.LosesPart count.toNat)) := by
  have herror : (-ENOMEM : ℤ) ≠ 0 := by decide
  have hnone : start.parts.FreedSince start.parts :=
    fun object hlow hhigh => absurd hhigh (Nat.not_lt.mpr hlow)
  cases hbuffers : outcomes.kcallocBuffers with
  | false =>
      rw [al5BufpoolAllocate_noBuffers count size start hbuffers]
      have hrefl : Accounts start [] [] start :=
        ⟨Ledger.Holds.refl start.objects, Ledger.Holds.refl start.parts⟩
      exact ⟨iff_of_true (fun _ => failsClean_of_accounts hobjects hparts hrefl) (by simp),
        iff_of_true (fun _ => hnone) (by simp)⟩
  | true =>
      cases hhandles : outcomes.kcallocHandles with
      | false =>
          rw [al5BufpoolAllocate_noHandles count size start hbuffers hhandles]
          refine ⟨iff_of_false (fun hclean => ?_) (by simp),
            iff_of_true (fun _ => hnone) (by simp)⟩
          have hinitial := congrArg BuffersPool.buffers (hclean herror).initial
          exact absurd hinitial (Option.some_ne_none _)
      | true =>
          rcases al5BufpoolAllocate_arrays count size start hbuffers hhandles with
            ⟨after, hzero, hall⟩ | ⟨k, hk, hbefore, hfails, lost, after, hloop, hafter,
              hnew, hlost⟩
          · rw [hzero]
            refine ⟨iff_of_true (fun hne => absurd rfl hne) (by simp),
              iff_of_true (fun hne => absurd rfl hne) ?_⟩
            rintro ⟨-, -, i, hi, -, hloses⟩
            have hcomplete := hall i hi
            rw [Outcomes.not_completes_of_loses hloses] at hcomplete
            cases hcomplete
          · simp only [Nat.zero_add] at hbefore hfails hlost
            rw [hloop]
            refine ⟨iff_of_true
              (fun _ => failsClean_of_accounts hobjects hparts hafter) (by simp), ?_⟩
            have hfreed := hafter.parts.freedSince_iff hparts hnew
            rw [losesPart_iff hk hbefore hfails]
            change (_ → start.parts.FreedSince after.parts) ↔ _
            rw [hfreed, hlost]
            simp [herror]

theorem sound_empty : Ledger.Sound ⟨0, []⟩ where
  once object := by
    rw [List.count_nil]
    omega
  obtained _ hmem := absurd hmem List.not_mem_nil

def wrapped : DmabufCreation.WrapOutcomes where
  kzallocPriv := true
  kzallocSgt _ := true
  dmaGetSgtable _ := true
  dmaBufExport := true

/-- The third wrap has no memory for its record, when two buffers are complete. -/
def thirdWrapFails : Outcomes where
  kcallocBuffers := true
  kcallocHandles := true
  kmalloc _ := true
  dmaAllocCoherent _ := true
  wrap i := { wrapped with kzallocPriv := i ≠ 2 }

theorem failsClean_third_wrap :
    (al5BufpoolAllocate thirdWrapFails 5 4096 al5BufpoolInit ⟨⟨0, []⟩, ⟨0, []⟩⟩).1 =
        -ENOMEM ∧
      FailsClean ⟨⟨0, []⟩, ⟨0, []⟩⟩
        (al5BufpoolAllocate thirdWrapFails 5 4096 al5BufpoolInit
          ⟨⟨0, []⟩, ⟨0, []⟩⟩) :=
  ⟨by decide, (allocate_failsClean_iff thirdWrapFails 5 4096 sound_empty
    sound_empty).1.mpr (by decide) (by decide)⟩

/-- When the second array fails, the next free frees the first array again. -/
theorem not_failsClean_second_array :
    ¬ ∀ (outcomes : Outcomes) (count size : ℤ),
      (al5BufpoolAllocate outcomes count size al5BufpoolInit ⟨⟨0, []⟩, ⟨0, []⟩⟩).1 ≠ 0 →
        FailsClean ⟨⟨0, []⟩, ⟨0, []⟩⟩
          (al5BufpoolAllocate outcomes count size al5BufpoolInit
            ⟨⟨0, []⟩, ⟨0, []⟩⟩) := by
  intro hall
  have hclean := hall ⟨true, false, fun _ => true, fun _ => true, fun _ => wrapped⟩ 1 4096
    (by decide)
  have htwice : (freeTimes 1 ⟨0, some ⟨0, []⟩, none⟩
      ⟨⟨1, [0]⟩, ⟨0, []⟩⟩).2.objects.freed.count 0 = 2 := by decide
  have honce := (hclean.laterFrees 1 0).1
  exact absurd (htwice.symm.trans_le honce) (by decide)

end VcuDriver.PoolMemory

import VcuDriver.DmabufWrap
import VcuDriver.Conc.Machine

/-!
# Buffer pools

`al_buffers_pool.c` over the kernel's dma-bufs: every dma-buf has a reference
count, and a table maps the descriptors of the process to dma-bufs.  A new
descriptor takes over a reference of its caller, so `al5_bufpool_reserve_fd`
looks the descriptor up again to get one back.

Calls of any number of threads interleave, action by action, with the process
closing descriptors.  The callers hold a mutex around `al5_bufpool_allocate` and
`al5_bufpool_free`; it is part of the model.  What a call has in hand between
two of its actions is kept beside the counts.
-/

namespace VcuDriver

open Conc

/-- What a call has to do with a dma-buf: it was exported and is not in the pool
yet, it was looked up, it was read from the pool, or the reference of the pool
went to a descriptor. -/
inductive Hand where
  | exported (handle : ℕ)
  | borrowed (handle : ℕ)
  | reading (handle : ℕ)
  | lent (fd : ℤ) (handle : ℕ)
  deriving DecidableEq

/-- A pool, the dma-bufs and the descriptors.  `dropped` counts the handles of
the pool which `al5_bufpool_free` has put already. -/
structure PoolState where
  handles : List ℕ
  dropped : ℕ
  refs : ℕ → ℕ
  exported : ℕ
  released : List ℕ
  fds : List (ℤ × ℕ)
  hands : List (ℕ × Hand)
  owner : Option ℕ

def al5BufpoolInit : PoolState where
  handles := []
  dropped := 0
  refs _ := 0
  exported := 0
  released := []
  fds := []
  hands := []
  owner := none

inductive PoolAct where
  | mutexLock
  | mutexUnlock
  | kcalloc
  | al5AllocDma
  | al5DmabufWrap
  | setHandle (handle : ℕ)
  | getHandles
  | getHandle (id : ℕ)
  | dmaBufFd (handle : ℕ)
  | dmaBufGet (fd : ℤ)
  | dmaBufPut (handle : ℕ)
  | clear
  deriving DecidableEq

abbrev PoolAct.Res : PoolAct → Type
  | .kcalloc | .al5AllocDma => Bool
  | .al5DmabufWrap | .dmaBufGet _ => Option ℕ
  | .getHandles => List ℕ
  | .getHandle _ => ℕ
  | .dmaBufFd _ => ℤ
  | _ => Unit

abbrev PoolProg (α : Type) : Type :=
  Prog PoolAct PoolAct.Res α

/-! ## Operations -/

def putAll : List ℕ → PoolProg Unit
  | [] => pure ()
  | handle :: handles => do
      Prog.perform (PoolAct.dmaBufPut handle)
      putAll handles

def al5BufpoolFree : PoolProg Unit := do
  let handles ← Prog.perform PoolAct.getHandles
  putAll handles
  Prog.perform PoolAct.clear

def failDmaAllocation : PoolProg ℤ := do
  al5BufpoolFree
  pure (-ENOMEM)

/-- The loop of `al5_bufpool_allocate`. -/
def allocateBuffers : ℕ → PoolProg ℤ
  | 0 => pure 0
  | count + 1 => do
      let buffer ← Prog.perform PoolAct.al5AllocDma
      if buffer then
        let handle ← Prog.perform PoolAct.al5DmabufWrap
        match handle with
        | some handle => do
            Prog.perform (PoolAct.setHandle handle)
            allocateBuffers count
        | none => failDmaAllocation
      else
        failDmaAllocation

def al5BufpoolAllocate (count : ℕ) : PoolProg ℤ := do
  let buffers ← Prog.perform PoolAct.kcalloc
  if buffers then
    allocateBuffers count
  else
    pure (-ENOMEM)

def indexOfHandle (handle : ℕ) (handles : List ℕ) : ℤ :=
  match handles.idxOf? handle with
  | some i => i
  | none => -1

def al5BufpoolGetId (fd : ℤ) : PoolProg ℤ := do
  let handle ← Prog.perform (PoolAct.dmaBufGet fd)
  match handle with
  | none => pure (-1)
  | some handle => do
      let handles ← Prog.perform PoolAct.getHandles
      Prog.perform (PoolAct.dmaBufPut handle)
      pure (indexOfHandle handle handles)

def al5BufpoolReserveFd (id : ℕ) : PoolProg ℤ := do
  let dbuf ← Prog.perform (PoolAct.getHandle id)
  let fd ← Prog.perform (PoolAct.dmaBufFd dbuf)
  let _ ← Prog.perform (PoolAct.dmaBufGet fd)
  pure fd

inductive PoolOp where
  | allocate (count : ℕ)
  | reserveFd (id : ℕ)
  | getId (fd : ℤ)
  | free
  deriving DecidableEq

/-- The operations as their callers run them. -/
def poolBody : PoolOp → PoolProg ℤ
  | .allocate count => do
      Prog.perform PoolAct.mutexLock
      let err ← al5BufpoolAllocate count
      Prog.perform PoolAct.mutexUnlock
      pure err
  | .reserveFd id => al5BufpoolReserveFd id
  | .getId fd => al5BufpoolGetId fd
  | .free => do
      Prog.perform PoolAct.mutexLock
      al5BufpoolFree
      Prog.perform PoolAct.mutexUnlock
      pure 0

/-! ## The kernel -/

/-- The kernel's part in an action. -/
inductive PoolChoice where
  | succeed
  | fail
  | fd (outcome : FdOutcome)
  deriving DecidableEq

namespace PoolState

def lookup (state : PoolState) (fd : ℤ) : Option ℕ :=
  (state.fds.find? fun entry => entry.1 = fd).map Prod.snd

/-- A new dma-buf with one reference. -/
def dmaBufExport (state : PoolState) : PoolState :=
  { state with
    refs := Function.update state.refs state.exported 1
    exported := state.exported + 1 }

/-- Drop a reference; `al5_dmabuf_release` runs when it was the last. -/
def put (state : PoolState) (handle : ℕ) : PoolState :=
  { state with
    refs := Function.update state.refs handle (state.refs handle - 1)
    released :=
      if state.refs handle ≤ 1 then handle :: state.released
      else state.released }

def take (state : PoolState) (i : ℕ) (hand : Hand) : PoolState :=
  { state with hands := (i, hand) :: state.hands }

def leave (state : PoolState) (i : ℕ) (hand : Hand) : PoolState :=
  { state with hands := state.hands.erase (i, hand) }

/-- The effect of an action by a call.  Reading a handle which the pool does not
have stops the call for good. -/
def act (state : PoolState) (i : ℕ) :
    (action : PoolAct) → PoolChoice → Option (action.Res × PoolState)
  | .mutexLock, .succeed =>
      if state.owner = none then some ((), { state with owner := some i })
      else none
  | .mutexUnlock, .succeed => some ((), { state with owner := none })
  | .kcalloc, .succeed => some (true, { state with handles := [], dropped := 0 })
  | .kcalloc, .fail => some (false, { state with handles := [], dropped := 0 })
  | .al5AllocDma, .succeed => some (true, state)
  | .al5AllocDma, .fail => some (false, state)
  | .al5DmabufWrap, .succeed =>
      some (some state.exported, state.dmaBufExport.take i (.exported state.exported))
  | .al5DmabufWrap, .fail => some (none, state)
  | .setHandle handle, .succeed =>
      some ((), { state.leave i (.exported handle) with
        handles := state.handles ++ [handle] })
  | .getHandles, .succeed => some (state.handles, state)
  | .getHandle id, .succeed =>
      (state.handles[id]?).map fun handle =>
        (handle, state.take i (.reading handle))
  | .dmaBufFd handle, .fd outcome =>
      if outcome.val < 0 then
        some (outcome.val, state.leave i (.reading handle))
      else if state.lookup outcome.val = none then
        some (outcome.val,
          { (state.leave i (.reading handle)).take i (.lent outcome.val handle) with
            fds := (outcome.val, handle) :: state.fds })
      else
        none
  | .dmaBufGet fd, .succeed =>
      match state.lookup fd with
      | none => some (none, state)
      | some handle =>
          let counted := { state with
            refs := Function.update state.refs handle (state.refs handle + 1) }
          some (some handle,
            if (i, .lent fd handle) ∈ state.hands then
              counted.leave i (.lent fd handle)
            else
              counted.take i (.borrowed handle))
  | .dmaBufPut handle, .succeed =>
      some ((),
        if (i, .borrowed handle) ∈ state.hands then
          (state.put handle).leave i (.borrowed handle)
        else
          { state.put handle with dropped := state.dropped + 1 })
  | .clear, .succeed => some ((), { state with handles := [], dropped := 0 })
  | _, _ => none

end PoolState

/-- Only `dma_buf_fd` is given a descriptor. -/
theorem exists_dmaBufFd_of_fd {state state' : PoolState} {i : ℕ} {outcome : FdOutcome}
    {action : PoolAct} {result : action.Res}
    (hact : state.act i action (.fd outcome) = some (result, state')) :
    ∃ handle, action = .dmaBufFd handle := by
  cases action <;> simp [PoolState.act] at hact ⊢

/-- What the process does beside its calls: it closes a descriptor, or opens one
on a dma-buf of another exporter. -/
inductive PoolEnv where
  | close (fd : ℤ)
  | openForeign (fd : ℕ)
  deriving DecidableEq

namespace PoolState

def env (state : PoolState) : PoolEnv → Option PoolState
  | .close fd =>
      (state.lookup fd).map fun handle =>
        { state.put handle with fds := state.fds.erase (fd, handle) }
  | .openForeign fd =>
      if state.lookup fd = none then
        some { state.dmaBufExport with fds := (fd, state.exported) :: state.fds }
      else
        none

end PoolState

def poolMachine :
    Machine PoolState PoolAct PoolAct.Res PoolChoice PoolOp ℤ PoolEnv where
  body := poolBody
  enter _ _ state := some state
  exec i _ action choice state := state.act i action choice
  env event state := state.env event

abbrev PoolConfig : Type :=
  Config PoolState PoolAct PoolAct.Res PoolOp ℤ

def poolStart : PoolConfig :=
  ⟨al5BufpoolInit, []⟩

end VcuDriver

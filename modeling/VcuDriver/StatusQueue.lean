import VcuDriver.UserOps
import VcuDriver.Conc.Chain

/-!
# The status queue in memory

`al_queue.c` and `al_list.c` under the statements of a delivery and of a wait
for a status: a linked list whose head pointer is moved while a mail is
appended, a spinlock around the list, a flag that lets waiters through, and the
mutex that keeps waiters apart.  The wait looks at the head pointer without the
spinlock.

Deliveries and waits of any number of threads interleave statement by statement.
A wait that finds its condition false and no signal goes to sleep again; only
its last look at the condition is an action.
-/

namespace VcuDriver.StatusQueue

open Conc

/-! ## State -/

/-- The list of the queue, the mails delivered, and those which a call took out,
in order. -/
structure Memory where
  head : Option ℕ
  nodes : Nodes Al5Mail
  delivered : List Al5Mail
  consumed : List (ℕ × Al5Mail)

inductive Holder where
  | call (i : ℕ)
  | destroyer
  deriving DecidableEq

/-- The queue with its locks, the channel uid of the user, the calls which a
signal is pending for, and the calls that took the mutex, took a signal in their
wait, and saw the queue unlocked in their wait. -/
structure State where
  memory : Memory
  locked : Bool
  spin : Option ℕ
  mutex : Option Holder
  chanUid : Word
  pending : List ℕ
  took : List ℕ
  signalled : List ℕ
  sawUnlocked : List ℕ
  faulted : Bool

def al5QueueInit : State where
  memory := ⟨none, fun _ => none, [], []⟩
  locked := true
  spin := none
  mutex := none
  chanUid := badChan
  pending := []
  took := []
  signalled := []
  sawUnlocked := []
  faulted := false

/-- What a critical section of the spinlock has done. -/
inductive Effect where
  | nothing
  | pushed (mail : Al5Mail)
  | popped (mail : Al5Mail)

inductive Act where
  | mutexTrylock
  | mutexUnlock
  | getChanUid
  | spinLock
  | spinUnlock (effect : Effect)
  | getHead
  | setHead (link : Option ℕ)
  | kmalloc
  | getMail (node : ℕ)
  | getNext (node : ℕ)
  | setMail (node : ℕ) (mail : Al5Mail)
  | setNext (node : ℕ) (link : Option ℕ)
  | kfree (node : ℕ)
  | getLocked
  | takeSignal
  | oops

abbrev Act.Res : Act → Type
  | .mutexTrylock | .getLocked => Bool
  | .getChanUid => Word
  | .spinLock | .kmalloc => ℕ
  | .getHead | .getNext _ => Option ℕ
  | .getMail _ => Option Al5Mail
  | _ => Unit

abbrev StatusProg (α : Type) : Type :=
  Prog Act Act.Res α

/-! ## Operations -/

/-- The loop of `al5_list_push`: move the head to the last node.  The fuel, the
number of mails delivered so far, is enough for every list. -/
def walkToLast : ℕ → StatusProg (Option ℕ)
  | 0 => do
      Prog.perform Act.oops
      pure none
  | fuel + 1 => do
      let l ← Prog.perform Act.getHead
      match l with
      | none => do
          Prog.perform Act.oops
          pure none
      | some node => do
          let next ← Prog.perform (Act.getNext node)
          match next with
          | none => pure (some node)
          | some following => do
              Prog.perform (Act.setHead (some following))
              walkToLast fuel

def al5ListPush (fuel : ℕ) (mail : Al5Mail) : StatusProg Unit := do
  let firstPos ← Prog.perform Act.getHead
  match firstPos with
  | none => do
      let node ← Prog.perform Act.kmalloc
      Prog.perform (Act.setHead (some node))
      Prog.perform (Act.setMail node mail)
      Prog.perform (Act.setNext node none)
  | some first => do
      let last ← walkToLast fuel
      match last with
      | none => pure ()
      | some last => do
          let node ← Prog.perform Act.kmalloc
          Prog.perform (Act.setNext last (some node))
          Prog.perform (Act.setMail node mail)
          Prog.perform (Act.setNext node none)
          Prog.perform (Act.setHead (some first))

def al5ListPop : StatusProg (Option Al5Mail) := do
  let l ← Prog.perform Act.getHead
  match l with
  | none => pure none
  | some node => do
      let mail ← Prog.perform (Act.getMail node)
      let next ← Prog.perform (Act.getNext node)
      Prog.perform (Act.kfree node)
      Prog.perform (Act.setHead next)
      pure mail

/-- `al5_queue_push`, the whole of `al5_user_deliver`. -/
def al5QueuePush (mail : Al5Mail) : StatusProg Unit := do
  let fuel ← Prog.perform Act.spinLock
  al5ListPush fuel mail
  Prog.perform (Act.spinUnlock (.pushed mail))

/-- `wait_event_interruptible` on `mail_is_available`: the evaluation that ends
the wait. -/
def waitEventInterruptible : StatusProg Unit := do
  let list ← Prog.perform Act.getHead
  match list with
  | some _ => pure ()
  | none => do
      let locked ← Prog.perform Act.getLocked
      if locked then
        Prog.perform Act.takeSignal
      else
        pure ()

def poppedEffect : Option Al5Mail → Effect
  | some mail => .popped mail
  | none => .nothing

def al5QueuePop : StatusProg (Option Al5Mail) := do
  waitEventInterruptible
  let _ ← Prog.perform Act.spinLock
  let mail ← al5ListPop
  Prog.perform (Act.spinUnlock (poppedEffect mail))
  pure mail

/-- The wait for a status, the same in the encoder and in the decoder. -/
def waitForStatus : StatusProg (ℤ × Option (Word × List Byte)) := do
  let locked ← Prog.perform Act.mutexTrylock
  if locked then
    let chanUid ← Prog.perform Act.getChanUid
    if chanUid = badChan then
      Prog.perform Act.mutexUnlock
      pure (-EPERM, none)
    else
      let feedback ← al5QueuePop
      Prog.perform Act.mutexUnlock
      match feedback with
      | some mail => pure (0, some (mailGetStatus mail))
      | none => pure (-EINTR, none)
  else
    pure (-EINTR, none)

def al5eUserWaitForStatus : StatusProg (ℤ × Option (Word × List Byte)) :=
  waitForStatus

def al5dUserWaitForStatus : StatusProg (ℤ × Option (Word × List Byte)) :=
  waitForStatus

inductive Op where
  | deliver (mail : Al5Mail)
  | encoderWait
  | decoderWait

def Op.waits : Op → Bool
  | .deliver _ => false
  | .encoderWait | .decoderWait => true

abbrev Out : Type :=
  ℤ × Option (Word × List Byte)

def body : Op → StatusProg Out
  | .deliver mail => do
      al5QueuePush mail
      pure (0, none)
  | .encoderWait => al5eUserWaitForStatus
  | .decoderWait => al5dUserWaitForStatus

/-! ## Steps -/

/-- The kernel's part in an action: what `kmalloc` returns, and what is in that
memory. -/
inductive Choice where
  | run
  | memory (node : ℕ) (garbage : Node Al5Mail)

namespace State

def setMemory (state : State) (memory : Memory) : State :=
  { state with memory := memory }

def setHead (state : State) (link : Option ℕ) : State :=
  state.setMemory { state.memory with head := link }

def setNode (state : State) (node : ℕ) (content : Option (Node Al5Mail)) : State :=
  state.setMemory
    { state.memory with nodes := Function.update state.memory.nodes node content }

def fault (state : State) : State :=
  { state with faulted := true }

def commit (state : State) (i : ℕ) : Effect → State
  | .nothing => state
  | .pushed mail =>
      state.setMemory
        { state.memory with delivered := state.memory.delivered ++ [mail] }
  | .popped mail =>
      state.setMemory
        { state.memory with consumed := state.memory.consumed ++ [(i, mail)] }

def act (state : State) (i : ℕ) : (action : Act) → Choice → Option (action.Res × State)
  | .mutexTrylock, .run =>
      if state.mutex = none then
        some (true, { state with mutex := some (.call i), took := i :: state.took })
      else
        some (false, state)
  | .mutexUnlock, .run => some ((), { state with mutex := none })
  | .getChanUid, .run => some (state.chanUid, state)
  | .spinLock, .run =>
      if state.spin = none then
        some (state.memory.delivered.length, { state with spin := some i })
      else
        none
  | .spinUnlock effect, .run => some ((), { state.commit i effect with spin := none })
  | .getHead, .run => some (state.memory.head, state)
  | .setHead link, .run => some ((), state.setHead link)
  | .kmalloc, .memory node garbage =>
      if (state.memory.nodes node).isNone then
        some (node, state.setNode node (some garbage))
      else
        none
  | .getMail node, .run =>
      match state.memory.nodes node with
      | some content => some (some content.value, state)
      | none => some (none, state.fault)
  | .getNext node, .run =>
      match state.memory.nodes node with
      | some content => some (content.next, state)
      | none => some (none, state.fault)
  | .setMail node mail, .run =>
      match state.memory.nodes node with
      | some content => some ((), state.setNode node (some ⟨mail, content.next⟩))
      | none => some ((), state.fault)
  | .setNext node link, .run =>
      match state.memory.nodes node with
      | some content => some ((), state.setNode node (some ⟨content.value, link⟩))
      | none => some ((), state.fault)
  | .kfree node, .run =>
      match state.memory.nodes node with
      | some _ => some ((), state.setNode node none)
      | none => some ((), state.fault)
  | .getLocked, .run =>
      some (state.locked,
        if state.locked then state
        else { state with sawUnlocked := i :: state.sawUnlocked })
  | .takeSignal, .run =>
      if i ∈ state.pending then
        some ((), { state with
          pending := state.pending.erase i
          signalled := i :: state.signalled })
      else
        none
  | .oops, .run => some ((), state.fault)
  | _, _ => none

end State

/-- Only `kmalloc` is given memory. -/
theorem eq_kmalloc_of_memory {state state' : State} {i : ℕ} {action : Act} {node : ℕ}
    {garbage : Node Al5Mail} {result : action.Res}
    (hact : state.act i action (.memory node garbage) = some (result, state')) :
    action = .kmalloc := by
  cases action <;> simp [State.act] at hact ⊢

/-- Signals, and what a destroy does to the queue, the mutex and the channel. -/
inductive Env where
  | signal (i : ℕ)
  | queueUnlock
  | queueLock
  | mutexTake
  | mutexGive
  | setChanUid (value : Word)

namespace State

def env (state : State) : Env → Option State
  | .signal i => some { state with pending := i :: state.pending }
  | .queueUnlock => some { state with locked := false }
  | .queueLock => some { state with locked := true }
  | .mutexTake =>
      if state.mutex = none then some { state with mutex := some .destroyer }
      else none
  | .mutexGive =>
      if state.mutex = some .destroyer then some { state with mutex := none }
      else none
  | .setChanUid value => some { state with chanUid := value }

end State

def machine : Machine State Act Act.Res Choice Op Out Env where
  body := body
  enter _ _ state := some state
  exec i _ action choice state := state.act i action choice
  env event state := state.env event

abbrev StatusConfig : Type :=
  Config State Act Act.Res Op Out

def start : StatusConfig :=
  ⟨al5QueueInit, []⟩

end VcuDriver.StatusQueue

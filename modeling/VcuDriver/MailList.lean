import VcuDriver.StatusQueue
import VcuDriver.Conc.Alone
import VcuDriver.Conc.Refinement

/-!
# The list of a queue

`al5_list_push` walks to the last node by moving the head pointer of the list, and
puts it back at the end.  Calls run one at a time, under the spinlock of the queue,
but `mail_is_available` reads the head pointer without it: what the pointer is
between two accesses of a push matters as well.
-/

namespace VcuDriver.MailList

open Conc StatusQueue

/-! ## The memory of a list -/

/-- The list in memory, and what `kmalloc` and `kfree` were called for, in order. -/
structure ListState where
  head : Option ℕ
  nodes : Nodes Al5Mail
  allocated : List ℕ
  freed : List ℕ
  faulted : Bool

def al5ListInit : ListState where
  head := none
  nodes _ := none
  allocated := []
  freed := []
  faulted := false

def al5ListEmpty (l : Option ℕ) : Bool :=
  l.isNone

/-- What `kmalloc` returns, and what is in that memory. -/
structure Kmalloc where
  node : ℕ
  garbage : Node Al5Mail

namespace ListState

def setNode (state : ListState) (node : ℕ) (content : Option (Node Al5Mail)) :
    ListState :=
  { state with nodes := Function.update state.nodes node content }

def fault (state : ListState) : ListState :=
  { state with faulted := true }

/-- An access of a list function; the accesses to the queue around the list do not
occur in one. -/
def access (kmalloc : Kmalloc) (action : Act) (state : ListState) :
    action.Res × ListState :=
  match action with
  | .getHead => (state.head, state)
  | .setHead link => ((), { state with head := link })
  | .kmalloc =>
      (kmalloc.node,
        { state.setNode kmalloc.node (some kmalloc.garbage) with
          allocated := state.allocated ++ [kmalloc.node] })
  | .getMail node =>
      match state.nodes node with
      | some content => (some content.value, state)
      | none => (none, state.fault)
  | .getNext node =>
      match state.nodes node with
      | some content => (content.next, state)
      | none => (none, state.fault)
  | .setMail node mail =>
      match state.nodes node with
      | some content => ((), state.setNode node (some ⟨mail, content.next⟩))
      | none => ((), state.fault)
  | .setNext node link =>
      match state.nodes node with
      | some content => ((), state.setNode node (some ⟨content.value, link⟩))
      | none => ((), state.fault)
  | .kfree node =>
      match state.nodes node with
      | some _ => ((), { state.setNode node none with freed := state.freed ++ [node] })
      | none => ((), state.fault)
  | .oops => ((), state.fault)
  | .mutexTrylock => (false, state)
  | .getLocked => (false, state)
  | .getChanUid => (0, state)
  | .spinLock => (0, state)
  | .mutexUnlock | .spinUnlock _ | .takeSignal => ((), state)

end ListState

/-- A call on the list; a push carries the answer of `kmalloc`. -/
inductive ListCall where
  | push (mail : Al5Mail) (kmalloc : Kmalloc)
  | pop

/-- `al5_list_push`; the walk is never longer than the list has been. -/
def push (mail : Al5Mail) (kmalloc : Kmalloc) (state : ListState) : ListState :=
  ((al5ListPush state.allocated.length mail).run (ListState.access kmalloc) state).2

/-- `al5_list_pop`, which does not allocate. -/
def pop (state : ListState) : Option Al5Mail × ListState :=
  al5ListPop.run (ListState.access ⟨0, ⟨⟨0, 0, 0, []⟩, none⟩⟩) state

/-- A call: what it returns, and the state after it.  `kmalloc` does not return memory
which is in use. -/
def call (state : ListState) : ListCall → Option (Option Al5Mail × ListState)
  | .push mail kmalloc =>
      if (state.nodes kmalloc.node).isNone then some (none, push mail kmalloc state)
      else none
  | .pop => some (pop state)

/-! ## The queue it stands for -/

def fifo (mails : List Al5Mail) : ListCall → Option Al5Mail × List Al5Mail
  | .push mail _ => (none, mails ++ [mail])
  | .pop => (mails.head?, mails.tail)

/-- The list in memory: the nodes in use are those of the cells, and an address was
freed each time it was allocated, unless the list still has it. -/
structure Holds (state : ListState) (cells : List (ℕ × Al5Mail)) : Prop where
  chain : Chain state.nodes state.head cells none
  distinct : (cells.map Prod.fst).Nodup
  used : ∀ node, state.nodes node ≠ none → node ∈ cells.map Prod.fst
  balance : ∀ node,
    state.allocated.count node = state.freed.count node + (cells.map Prod.fst).count node
  short : cells.length ≤ state.allocated.length
  sound : state.faulted = false

def Represents (state : ListState) (mails : List Al5Mail) : Prop :=
  ∃ cells, Holds state cells ∧ cells.map Prod.snd = mails

theorem holds_init : Holds al5ListInit [] where
  chain := rfl
  distinct := List.nodup_nil
  used _ hnode := absurd rfl hnode
  balance _ := rfl
  short := le_rfl
  sound := rfl

/-! ## The accesses of a list -/

section

variable {state : ListState} {kmalloc : Kmalloc} {node : ℕ} {content : Node Al5Mail}

theorem access_getNext (hnode : state.nodes node = some content) :
    state.access kmalloc (.getNext node) = (content.next, state) := by
  simp [ListState.access, hnode]

theorem access_setMail (hnode : state.nodes node = some content) (mail : Al5Mail) :
    state.access kmalloc (.setMail node mail) =
      ((), state.setNode node (some ⟨mail, content.next⟩)) := by
  simp [ListState.access, hnode]

theorem access_setNext (hnode : state.nodes node = some content) (link : Option ℕ) :
    state.access kmalloc (.setNext node link) =
      ((), state.setNode node (some ⟨content.value, link⟩)) := by
  simp [ListState.access, hnode]

end

/-- What a reader of the head pointer sees of a list that is not empty. -/
def SeenFull (state : ListState) : Prop :=
  al5ListEmpty state.head = false

theorem seenFull_some {state : ListState} {node : ℕ} (hhead : state.head = some node) :
    SeenFull state := by
  rw [SeenFull, hhead]
  rfl

/-! ## Appending -/

/-- The walk of a push ends at the last node, and only moves the head pointer. -/
theorem walkToLast_passes {kmalloc : Kmalloc} {cells : List (ℕ × Al5Mail)} (fuel : ℕ)
    {state : ListState} (hchain : Chain state.nodes state.head cells none)
    (hcells : cells ≠ []) (hfuel : cells.length ≤ fuel) :
    Prog.Passes (ListState.access kmalloc) SeenFull (walkToLast fuel)
      (fun last state' => ∃ before node mail, cells = before ++ [(node, mail)] ∧
        last = some node ∧ state' = { state with head := some node }) state := by
  induction fuel generalizing cells state with
  | zero => exact absurd (List.length_eq_zero_iff.mp (Nat.le_zero.mp hfuel)) hcells
  | succ fuel ih =>
      obtain ⟨⟨node, mail⟩, rest, rfl⟩ := List.exists_cons_of_ne_nil hcells
      obtain ⟨hhead, link, hnode, hrest⟩ := hchain
      have hseen := seenFull_some hhead
      refine .act hseen ?_
      simp only [ListState.access, hhead]
      refine .act_eq (access_getNext hnode) hseen ?_
      cases link with
      | none =>
          have hlast := hrest.start_eq_none_iff.mp rfl
          subst hlast
          refine .ret hseen ⟨[], node, mail, rfl, rfl, ?_⟩
          rw [← hhead]
      | some following =>
          have hmore : rest ≠ [] := by
            intro hnil
            exact Option.some_ne_none _ (hrest.start_eq_none_iff.mpr hnil)
          refine .act hseen ?_
          have hrest' : Chain ({ state with head := some following } : ListState).nodes
              (some following) rest none := hrest
          refine (ih hrest' hmore (Nat.le_of_succ_le_succ hfuel)).mono ?_
          rintro last state' ⟨before, lastNode, lastMail, rfl, rfl, rfl⟩
          exact ⟨(node, mail) :: before, lastNode, lastMail, rfl, rfl, rfl⟩

/-- The list after an append of a mail at a node that was not in use. -/
structure Appended (state : ListState) (cells : List (ℕ × Al5Mail)) (mail : Al5Mail)
    (kmalloc : Kmalloc) (state' : ListState) : Prop where
  holds : Holds state' (cells ++ [(kmalloc.node, mail)])
  freed : state'.freed = state.freed
  head : cells ≠ [] → state'.head = state.head

section

variable {state : ListState} {kmalloc : Kmalloc} {cells : List (ℕ × Al5Mail)}

/-- The new node is not one of the list. -/
theorem Holds.fresh (hholds : Holds state cells)
    (hfree : state.nodes kmalloc.node = none) : kmalloc.node ∉ cells.map Prod.fst := by
  intro hmem
  obtain ⟨cell, hcell, hnode⟩ := List.mem_map.mp hmem
  exact hholds.chain.mem_nodes hcell (hnode ▸ hfree)

/-- The account of an append, once its nodes are linked. -/
theorem Holds.append {state' : ListState} {mail : Al5Mail} (hholds : Holds state cells)
    (hfree : state.nodes kmalloc.node = none)
    (hchain : Chain state'.nodes state'.head (cells ++ [(kmalloc.node, mail)]) none)
    (hothers : ∀ node, node ≠ kmalloc.node → state'.nodes node ≠ none →
      state.nodes node ≠ none)
    (hallocated : state'.allocated = state.allocated ++ [kmalloc.node])
    (hfreed : state'.freed = state.freed) (hfaulted : state'.faulted = state.faulted) :
    Holds state' (cells ++ [(kmalloc.node, mail)]) := by
  have hfresh := hholds.fresh hfree
  have hmap : (cells ++ [(kmalloc.node, mail)]).map Prod.fst =
      cells.map Prod.fst ++ [kmalloc.node] := List.map_append
  refine ⟨hchain, ?_, ?_, ?_, ?_, ?_⟩
  · rw [hmap]
    refine hholds.distinct.append (List.nodup_singleton _) ?_
    simpa using hfresh
  · intro node hnode
    rw [hmap, List.mem_append, List.mem_singleton]
    by_cases hnew : node = kmalloc.node
    · exact .inr hnew
    · exact .inl (hholds.used node (hothers node hnew hnode))
  · intro node
    have hbalance := hholds.balance node
    rw [hmap, hallocated, hfreed, List.count_append, List.count_append]
    omega
  · have hshort := hholds.short
    rw [hallocated, List.length_append, List.length_append]
    simpa using hshort
  · rw [hfaulted, hholds.sound]

theorem al5ListPush_of_empty (hholds : Holds state []) (fuel : ℕ) (mail : Al5Mail)
    (hfree : state.nodes kmalloc.node = none) :
    Prog.Passes (ListState.access kmalloc) (fun _ => True) (al5ListPush fuel mail)
      (fun _ state' => Appended state [] mail kmalloc state') state := by
  have hhead : state.head = none := hholds.chain
  unfold al5ListPush
  simp only [Prog.bind_eq, Prog.perform_bind]
  refine .act trivial ?_
  simp only [ListState.access, hhead]
  refine .act trivial (.act trivial ?_)
  refine .act_eq (access_setMail (Function.update_self ..) mail) trivial ?_
  refine .act_eq (access_setNext (Function.update_self ..) none) trivial ?_
  refine .ret trivial ⟨?_, rfl, fun hne => absurd rfl hne⟩
  refine hholds.append hfree ⟨rfl, none, Function.update_self .., rfl⟩ ?_ rfl rfl rfl
  intro node hne hnode
  simpa [ListState.setNode, ListState.access, hne] using hnode

/-- A push on a list that is not empty moves the head pointer, but not to null, and
brings it back. -/
theorem al5ListPush_of_nonempty (hholds : Holds state cells) (hcells : cells ≠ [])
    {fuel : ℕ} (hfuel : cells.length ≤ fuel) (mail : Al5Mail)
    (hfree : state.nodes kmalloc.node = none) :
    Prog.Passes (ListState.access kmalloc) SeenFull (al5ListPush fuel mail)
      (fun _ state' => Appended state cells mail kmalloc state') state := by
  obtain ⟨first, hhead⟩ : ∃ first, state.head = some first := by
    have hne : state.head ≠ none := fun hnone =>
      hcells (hholds.chain.start_eq_none_iff.mp hnone)
    exact Option.ne_none_iff_exists'.mp hne
  have hfresh := hholds.fresh hfree
  unfold al5ListPush
  simp only [Prog.bind_eq, Prog.perform_bind]
  refine .act (seenFull_some hhead) ?_
  simp only [ListState.access, hhead]
  refine .bind ((walkToLast_passes fuel hholds.chain hcells hfuel).mono ?_)
  rintro _ _ ⟨before, last, lastMail, rfl, rfl, rfl⟩
  have hlast : state.nodes last = some ⟨lastMail, none⟩ := by
    obtain ⟨mid, -, -, next, hnode, hnext⟩ := chain_append.mp hholds.chain
    rw [hnode, chain_nil.mp hnext]
  have hne : last ≠ kmalloc.node := by
    rintro rfl
    rw [hlast] at hfree
    exact absurd hfree (by simp)
  have hmoved : SeenFull { state with head := some last } := seenFull_some rfl
  have hkept : Function.update state.nodes kmalloc.node (some kmalloc.garbage) last =
      some ⟨lastMail, none⟩ := by
    rw [Function.update_of_ne hne, hlast]
  have hlinked : Function.update (Function.update state.nodes kmalloc.node
      (some kmalloc.garbage)) last (some ⟨lastMail, some kmalloc.node⟩) kmalloc.node =
        some kmalloc.garbage := by
    rw [Function.update_of_ne hne.symm, Function.update_self]
  refine .act hmoved ?_
  refine .act_eq (access_setNext hkept (some kmalloc.node)) hmoved ?_
  refine .act_eq (access_setMail hlinked mail) hmoved ?_
  refine .act_eq (access_setNext (Function.update_self ..) none) hmoved ?_
  refine .act hmoved (.ret (seenFull_some rfl) ⟨?_, rfl, fun _ => hhead.symm⟩)
  refine hholds.append hfree ?_ ?_ rfl rfl rfl
  · -- Only the link of the last node and the new node were written.
    dsimp only [ListState.access, ListState.setNode]
    rw [Function.update_idem, Function.update_comm hne, Function.update_idem, ← hhead]
    refine hholds.chain.snoc ?_ (Function.update_self ..) ?_
    · intro cell hmem
      have hcell : cell.1 ≠ kmalloc.node := fun heq =>
        hfresh (heq ▸ List.mem_map_of_mem (List.mem_append_left _ hmem))
      have hother : cell.1 ≠ last := by
        have hdistinct := hholds.distinct
        rw [List.map_append, List.nodup_append] at hdistinct
        exact hdistinct.2.2 _ (List.mem_map_of_mem hmem) _ (by simp)
      rw [Function.update_of_ne hother, Function.update_of_ne hcell]
    · rw [Function.update_of_ne hne.symm, Function.update_self]
  · intro node hnew hnode
    by_cases hlastNode : node = last
    · rw [hlastNode, hlast]
      exact Option.some_ne_none _
    · simpa [ListState.setNode, ListState.access, hnew, hlastNode] using hnode

end

/-! ## Removing -/

/-- A pop frees the first node once, if there is one. -/
structure Removed (state : ListState) (cells : List (ℕ × Al5Mail))
    (mail : Option Al5Mail) (state' : ListState) : Prop where
  holds : Holds state' cells.tail
  mail : mail = (cells.map Prod.snd).head?
  freed : state'.freed = state.freed ++ (cells.map Prod.fst).head?.toList

theorem pop_removed {state : ListState} {cells : List (ℕ × Al5Mail)}
    (hholds : Holds state cells) : Removed state cells (pop state).1 (pop state).2 := by
  cases cells with
  | nil =>
      have hhead : state.head = none := hholds.chain
      have hpop : pop state = (none, state) := by
        unfold pop al5ListPop
        simp only [Prog.bind_eq, Prog.perform_bind, Prog.run_act, ListState.access, hhead]
        rfl
      rw [hpop]
      exact ⟨hholds, rfl, (List.append_nil _).symm⟩
  | cons cell cells =>
      obtain ⟨node, mail⟩ := cell
      obtain ⟨hhead, next, hnode, hrest⟩ := hholds.chain
      have hpop : pop state = (some mail,
          { state with
            head := next
            nodes := Function.update state.nodes node none
            freed := state.freed ++ [node] }) := by
        unfold pop al5ListPop
        simp only [Prog.bind_eq, Prog.perform_bind, Prog.run_act, ListState.access, hhead,
          hnode, Prog.run_ret, Prog.pure_eq]
        rfl
      rw [hpop]
      have hdistinct := hholds.distinct
      rw [List.map_cons, List.nodup_cons] at hdistinct
      refine ⟨⟨hrest.update hdistinct.1 none, hdistinct.2, ?_, ?_, ?_, hholds.sound⟩,
        rfl, rfl⟩
      · intro other hother
        have hne : other ≠ node := by
          rintro rfl
          exact hother (Function.update_self ..)
        have hkept : Function.update state.nodes node none other = state.nodes other :=
          Function.update_of_ne hne _ _
        have hused := hholds.used other (hkept ▸ hother)
        rw [List.map_cons, List.mem_cons] at hused
        exact hused.resolve_left hne
      · intro other
        have hbalance := hholds.balance other
        rw [List.map_cons, List.count_cons] at hbalance
        dsimp only [List.tail_cons] at hbalance ⊢
        rw [List.count_append, List.count_singleton, hbalance]
        omega
      · exact Nat.le_of_succ_le hholds.short

/-! ## The list is a queue -/

theorem push_appended {state : ListState} {cells : List (ℕ × Al5Mail)}
    {kmalloc : Kmalloc} (hholds : Holds state cells) (mail : Al5Mail)
    (hfree : state.nodes kmalloc.node = none) :
    Appended state cells mail kmalloc (push mail kmalloc state) := by
  by_cases hcells : cells = []
  · subst hcells
    exact (al5ListPush_of_empty hholds _ mail hfree).stop
  · exact (al5ListPush_of_nonempty hholds hcells hholds.short mail hfree).stop

theorem call_refines : Refines call fifo Represents := by
  rintro state mails listCall out state' ⟨cells, hholds, rfl⟩ hcall
  cases listCall with
  | push mail kmalloc =>
      rw [call] at hcall
      split at hcall
      · rename_i hfree
        obtain ⟨rfl, rfl⟩ := Prod.mk.inj (Option.some.inj hcall)
        have happended := push_appended hholds mail (Option.isNone_iff_eq_none.mp hfree)
        exact ⟨rfl, _, happended.holds, by simp [fifo]⟩
      · exact absurd hcall (by simp)
  | pop =>
      have hremoved := pop_removed hholds
      rw [call, Option.some.injEq] at hcall
      rw [hcall] at hremoved
      exact ⟨hremoved.mail, _, hremoved.holds, List.map_tail⟩

/-- What a push does to a list in memory that is not empty. -/
structure PushSafe (state : ListState) : Prop where
  headKept : ∀ mail kmalloc, state.nodes kmalloc.node = none → state.head ≠ none →
    (push mail kmalloc state).head = state.head
  seenFull : ∀ mail kmalloc, state.nodes kmalloc.node = none → state.head ≠ none →
    (al5ListPush state.allocated.length mail).Always (ListState.access kmalloc)
      SeenFull state

theorem Holds.pushSafe {state : ListState} {cells : List (ℕ × Al5Mail)}
    (hholds : Holds state cells) : PushSafe state := by
  have hcells : state.head ≠ none → cells ≠ [] := fun hhead hnil =>
    hhead (hholds.chain.start_eq_none_iff.mpr hnil)
  constructor
  · intro mail kmalloc hfree hhead
    exact (push_appended hholds mail hfree).head (hcells hhead)
  · intro mail kmalloc hfree hhead
    exact (al5ListPush_of_nonempty hholds (hcells hhead) hholds.short mail hfree).always

/-- Every address was freed as often as it was allocated, once less for a node that is
still in the list. -/
def FreedOnce (state : ListState) (cells : List (ℕ × Al5Mail)) : Prop :=
  ∀ node, state.allocated.count node =
    state.freed.count node + if node ∈ cells.map Prod.fst then 1 else 0

/-- In every sequence of pushes and pops, the list in memory is a finite chain of
different nodes which holds the mails of a queue; a push on a list that is not empty
hides it at no moment; and each node is freed once, by its pop. -/
theorem list_is_fifo
    (calls : List ListCall) (outs : List (Option Al5Mail)) (state : ListState)
    (hrun : runOut call calls al5ListInit = some (outs, state)) :
    outs = (specOut fifo calls []).1 ∧
      (∃ cells, Chain state.nodes state.head cells none ∧
        (cells.map Prod.fst).Nodup ∧ cells.map Prod.snd = (specOut fifo calls []).2 ∧
        FreedOnce state cells ∧
        ∀ mail out state', pop state = (out, state') → out = some mail →
          ∃ node, state.head = some node ∧ state'.freed = state.freed ++ [node]) ∧
      PushSafe state ∧ state.faulted = false := by
  have hstart : Represents al5ListInit [] := ⟨[], holds_init, rfl⟩
  obtain ⟨houts, cells, hholds, hmails⟩ := call_refines.run hstart hrun
  refine ⟨houts, ⟨cells, hholds.chain, hholds.distinct, hmails, ?_, ?_⟩,
    hholds.pushSafe, hholds.sound⟩
  · intro node
    rw [hholds.balance node, hholds.distinct.count]
  · intro mail out state' hpop hout
    have hremoved := pop_removed hholds
    rw [hpop] at hremoved
    obtain ⟨hafter, hmail, hfreed⟩ := hremoved
    cases cells with
    | nil =>
        rw [hout] at hmail
        exact absurd hmail (by simp)
    | cons cell cells => exact ⟨cell.1, hholds.chain.1, hfreed⟩

def wordMail (word : Word) : Al5Mail :=
  ⟨8, 4, 4, wordBytes word⟩

/-- Two pushes and a pop; `kmalloc` finds other mails in the memory it returns. -/
def twoPushes : List ListCall :=
  [.push (wordMail 1) ⟨3, ⟨wordMail 9, some 3⟩⟩, .push (wordMail 2) ⟨5, ⟨wordMail 9, some 3⟩⟩,
    .pop]

theorem list_is_fifo_of_two_pushes :
    ∃ state, runOut call twoPushes al5ListInit =
        some ([none, none, some (wordMail 1)], state) ∧
      state.head = some 5 ∧ PushSafe state ∧ state.faulted = false := by
  have hrun : ∃ state, runOut call twoPushes al5ListInit =
      some ([none, none, some (wordMail 1)], state) ∧ state.head = some 5 :=
    ⟨_, rfl, rfl⟩
  obtain ⟨state, hrun, hhead⟩ := hrun
  have hfifo := list_is_fifo twoPushes _ state hrun
  exact ⟨state, hrun, hhead, hfifo.2.2.1, hfifo.2.2.2⟩

end VcuDriver.MailList

import VcuDriver.StatusQueue
import VcuDriver.Conc.Outline

/-!
# The status queue is a queue

While the spinlock is free the nodes form a list, and the mails delivered are
the mails consumed followed by this list.  A waiter that saw a head pointer
finds a mail when it gets the spinlock, because only the holder of the mutex
empties the list: an append moves the head pointer, but never to null.
-/

namespace VcuDriver.StatusQueue

open Conc

/-- The cells are the list of the queue, and continue the consumed mails to the
delivered ones. -/
structure Holds (memory : Memory) (cells : List (ℕ × Al5Mail)) : Prop where
  chain : Chain memory.nodes memory.head cells none
  distinct : (cells.map Prod.fst).Nodup
  order : memory.delivered =
    memory.consumed.map Prod.snd ++ cells.map Prod.snd

structure StatusInv (state : State) : Prop where
  settled : state.spin = none → ∃ cells, Holds state.memory cells
  order : state.memory.consumed.map Prod.snd <+: state.memory.delivered
  sound : state.faulted = false

/-- What a call can rely on: the memory while it has the spinlock, whether it
has the mutex, the mails it consumed, and what it saw in its wait. -/
structure View where
  spin : Option Memory
  mutex : Bool
  mine : List Al5Mail
  took : Bool
  signalled : Bool
  sawUnlocked : Bool

def consumedBy (i : ℕ) (memory : Memory) : List Al5Mail :=
  (memory.consumed.filter fun entry => entry.1 = i).map Prod.snd

def State.view (state : State) (i : ℕ) : View where
  spin := if state.spin = some i then some state.memory else none
  mutex := state.mutex = some (.call i)
  mine := consumedBy i state.memory
  took := i ∈ state.took
  signalled := i ∈ state.signalled
  sawUnlocked := i ∈ state.sawUnlocked

def View.withMemory (view : View) (memory : Memory) : View :=
  { view with spin := some memory }

def View.empty : View :=
  ⟨none, false, [], false, false, false⟩

/-- The holder of the mutex relies on the others not to empty the list. -/
def StatusRely (i : ℕ) (state state' : State) : Prop :=
  state.view i = state'.view i ∧
    ((state.view i).mutex = true → state.memory.head ≠ none →
      state'.memory.head ≠ none)

structure StatusPost (op : Op) (out : Out) (view : View) : Prop where
  outcome : out.1 = 0 ∨ out.1 = -EINTR ∨ out.1 = -EPERM
  delivers : op.waits = false → view.mine = []
  refused : out.1 = -EINTR ∨ out.1 = -EPERM → view.mine = []
  interrupted : out.1 = -EINTR → view.took = true →
    view.signalled = true ∨ view.sawUnlocked = true
  answered : op.waits = true → out.1 = 0 →
    ∃ mail, view.mine = [mail] ∧ out.2 = some (mailGetStatus mail)

def statusOutline : Outline machine .free where
  inv := StatusInv
  rely := StatusRely
  fresh i state := state.view i = .empty
  post i op out state := StatusPost op out (state.view i)
  rely_refl _ _ := ⟨rfl, fun _ h => h⟩
  rely_trans h₁ h₂ := ⟨h₁.1.trans h₂.1, fun hmutex hhead =>
    h₂.2 (h₁.1 ▸ hmutex) (h₁.2 hmutex hhead)⟩
  fresh_rely hrely hfresh := hrely.1.symm.trans hfresh
  post_rely hrely hpost := hrely.1 ▸ hpost

section

variable {state : State} {i : ℕ} {op : Op} {view : View} {seen : Prop}
variable {α : Type} {post : α → State → Prop}

/-- The call has this view, and knows that the list is not empty if it saw
that while it had the mutex. -/
def At (i : ℕ) (view : View) (seen : Prop) (state : State) : Prop :=
  state.view i = view ∧ (seen → view.mutex = true ∧ state.memory.head ≠ none)

theorem at_stable : statusOutline.Stable i (At i view seen) := by
  rintro state state' ⟨hview, hseen⟩ hrely _
  refine ⟨hrely.1.symm.trans hview, ?_⟩
  intro h
  obtain ⟨hmutex, hhead⟩ := hseen h
  refine ⟨hmutex, hrely.2 ?_ hhead⟩
  rw [hview]
  exact hmutex

theorem wp_at
    {action : Act} {next : action.Res → StatusProg α} (hat : At i view seen state)
    (hstep : ∀ state₁ choice result state₂, StatusInv state₁ → At i view seen state₁ →
      state₁.act i action choice = some (result, state₂) →
        StatusInv state₂ ∧ (∀ j, j ≠ i → StatusRely j state₁ state₂) ∧
          statusOutline.wp i op (next result) post state₂) :
    statusOutline.wp i op (.act action next) post state := by
  refine Outline.wp_act hat at_stable ?_
  intro state₁ choice result state₂ hinv hat₁ hexec _
  exact hstep state₁ choice result state₂ hinv hat₁ hexec

theorem at_view (hview : state.view i = view) : At i view False state :=
  ⟨hview, False.elim⟩

/-! ### Memory under the spinlock -/

theorem spin_of_view {memory : Memory}
    (hview : state.view i = view.withMemory memory) :
    state.spin = some i ∧ state.memory = memory := by
  have hspin := congrArg View.spin hview
  simp only [State.view, View.withMemory] at hspin
  split at hspin
  · rename_i howner
    exact ⟨howner, Option.some.inj hspin⟩
  · exact absurd hspin (by simp)

theorem view_setMemory {memory memory' : Memory}
    (hview : state.view i = view.withMemory memory)
    (hspin : state.spin = some i)
    (hconsumed : memory'.consumed = state.memory.consumed) :
    (state.setMemory memory').view i = view.withMemory memory' := by
  have hsame : (state.setMemory memory').view i =
      (state.view i).withMemory memory' := by
    simp [State.view, State.setMemory, View.withMemory, hspin, consumedBy, hconsumed]
  rw [hsame, hview]
  rfl

/-- The others do not see what the holder of the spinlock stores, as long as it
keeps the list from being empty or has the mutex itself. -/
theorem rely_setMemory {memory : Memory} (hspin : state.spin = some i)
    (hconsumed : memory.consumed = state.memory.consumed)
    (hhead : state.mutex = some (.call i) ∨
      (state.memory.head ≠ none → memory.head ≠ none))
    {j : ℕ} (hji : j ≠ i) : StatusRely j state (state.setMemory memory) := by
  constructor
  · simp [State.view, State.setMemory, hspin, consumedBy, hconsumed, Ne.symm hji]
  · intro hmutex
    rcases hhead with hown | hhead
    · simp [State.view, hown, Ne.symm hji] at hmutex
    · exact hhead

/-- The rule of an access to the list under the spinlock. -/
theorem wp_private
    {action : Act} {next : action.Res → StatusProg α} {memory : Memory}
    (hview : state.view i = view.withMemory memory)
    (hstep : ∀ (state₁ : State) choice result state₂, state₁.memory = memory →
      state₁.act i action choice = some (result, state₂) →
        ∃ memory', state₂ = state₁.setMemory memory' ∧
          memory'.consumed = memory.consumed ∧
          memory'.delivered = memory.delivered ∧
          (view.mutex = true ∨ (memory.head ≠ none → memory'.head ≠ none)) ∧
          ∀ state', state'.view i = view.withMemory memory' →
            statusOutline.wp i op (next result) post state') :
    statusOutline.wp i op (.act action next) post state := by
  refine wp_at (at_view hview) ?_
  intro state₁ choice result state₂ hinv hat hexec
  obtain ⟨howner, hmemory⟩ := spin_of_view hat.1
  obtain ⟨memory', rfl, hconsumed, hdelivered, hhead, hrest⟩ :=
    hstep state₁ choice result state₂ hmemory hexec
  rw [← hmemory] at hconsumed hdelivered hhead
  refine ⟨⟨?_, ?_, hinv.sound⟩, ?_, ?_⟩
  · exact fun hfree => absurd (howner.symm.trans hfree) (Option.some_ne_none _)
  · have horder := hinv.order
    rw [← hconsumed, ← hdelivered] at horder
    exact horder
  · intro j hji
    refine rely_setMemory howner hconsumed ?_ hji
    rcases hhead with hmutex | hhead
    · left
      have hown := (congrArg View.mutex hat.1).trans hmutex
      exact of_decide_eq_true hown
    · exact .inr hhead
  · exact hrest _ (view_setMemory hat.1 howner hconsumed)

/-- The rule of a read under the spinlock. -/
theorem wp_read
    {action : Act} {next : action.Res → StatusProg α} {memory : Memory}
    {result : action.Res}
    (hview : state.view i = view.withMemory memory)
    (hread : ∀ (state₁ : State) choice result' state₂, state₁.memory = memory →
      state₁.act i action choice = some (result', state₂) →
        result' = result ∧ state₂ = state₁)
    (hrest : ∀ state', state'.view i = view.withMemory memory →
      statusOutline.wp i op (next result) post state') :
    statusOutline.wp i op (.act action next) post state := by
  refine wp_private hview ?_
  intro state₁ choice result' state₂ hmemory hexec
  obtain ⟨rfl, rfl⟩ := hread state₁ choice result' state₂ hmemory hexec
  refine ⟨memory, ?_, rfl, rfl, .inr id, hrest⟩
  rw [← hmemory]
  rfl

theorem wp_getHead {next : Option ℕ → StatusProg α} {memory : Memory}
    (hview : state.view i = view.withMemory memory)
    (hrest : ∀ state', state'.view i = view.withMemory memory →
      statusOutline.wp i op (next memory.head) post state') :
    statusOutline.wp i op (.act .getHead next) post state := by
  refine wp_read hview ?_ hrest
  rintro state₁ choice result state₂ rfl hexec
  cases choice with
  | run =>
      obtain ⟨rfl, rfl⟩ := Prod.mk.inj (Option.some.inj hexec)
      exact ⟨rfl, rfl⟩
  | memory node garbage => exact absurd (eq_kmalloc_of_memory hexec) (by simp)

theorem wp_getNext {node : ℕ} {content : Node Al5Mail}
    {next : Option ℕ → StatusProg α} {memory : Memory}
    (hview : state.view i = view.withMemory memory)
    (hnode : memory.nodes node = some content)
    (hrest : ∀ state', state'.view i = view.withMemory memory →
      statusOutline.wp i op (next content.next) post state') :
    statusOutline.wp i op (.act (.getNext node) next) post state := by
  refine wp_read hview ?_ hrest
  rintro state₁ choice result state₂ rfl hexec
  cases choice with
  | run =>
      simp only [State.act, hnode, Option.some.injEq, Prod.mk.injEq] at hexec
      exact ⟨hexec.1.symm, hexec.2.symm⟩
  | memory node garbage => exact absurd (eq_kmalloc_of_memory hexec) (by simp)

theorem wp_getMail {node : ℕ} {content : Node Al5Mail}
    {next : Option Al5Mail → StatusProg α} {memory : Memory}
    (hview : state.view i = view.withMemory memory)
    (hnode : memory.nodes node = some content)
    (hrest : ∀ state', state'.view i = view.withMemory memory →
      statusOutline.wp i op (next (some content.value)) post state') :
    statusOutline.wp i op (.act (.getMail node) next) post state := by
  refine wp_read hview ?_ hrest
  rintro state₁ choice result state₂ rfl hexec
  cases choice with
  | run =>
      simp only [State.act, hnode, Option.some.injEq, Prod.mk.injEq] at hexec
      exact ⟨hexec.1.symm, hexec.2.symm⟩
  | memory node garbage => exact absurd (eq_kmalloc_of_memory hexec) (by simp)

theorem wp_setHead {link : Option ℕ} {next : Unit → StatusProg α} {memory : Memory}
    (hview : state.view i = view.withMemory memory)
    (hlink : view.mutex = true ∨ (memory.head ≠ none → link ≠ none))
    (hrest : ∀ state',
      state'.view i = view.withMemory { memory with head := link } →
        statusOutline.wp i op (next ()) post state') :
    statusOutline.wp i op (.act (.setHead link) next) post state := by
  refine wp_private hview ?_
  rintro state₁ choice result state₂ rfl hexec
  cases choice with
  | run =>
      obtain ⟨rfl, rfl⟩ := Prod.mk.inj (Option.some.inj hexec)
      exact ⟨_, rfl, rfl, rfl, hlink, hrest⟩
  | memory node garbage => exact absurd (eq_kmalloc_of_memory hexec) (by simp)

def Memory.setNode (memory : Memory) (node : ℕ) (content : Option (Node Al5Mail)) :
    Memory :=
  { memory with nodes := Function.update memory.nodes node content }

theorem wp_kmalloc {next : ℕ → StatusProg α} {memory : Memory}
    (hview : state.view i = view.withMemory memory)
    (hrest : ∀ state' node garbage, memory.nodes node = none →
      state'.view i =
          view.withMemory (memory.setNode node (some garbage)) →
        statusOutline.wp i op (next node) post state') :
    statusOutline.wp i op (.act .kmalloc next) post state := by
  refine wp_private hview ?_
  rintro state₁ choice result state₂ rfl hexec
  cases choice with
  | run => exact absurd hexec (by simp [State.act])
  | memory node garbage =>
      simp only [State.act] at hexec
      split at hexec
      · rename_i hfresh
        obtain ⟨rfl, rfl⟩ := Prod.mk.inj (Option.some.inj hexec)
        exact ⟨_, rfl, rfl, rfl, .inr id, fun state' hview' =>
          hrest state' node garbage (Option.isNone_iff_eq_none.mp hfresh) hview'⟩
      · exact absurd hexec (by simp)

/-- The rule of a store into a node. -/
theorem wp_store {action : Act} {node : ℕ} {content : Option (Node Al5Mail)}
    {next : action.Res → StatusProg α} {memory : Memory} {result : action.Res}
    (hview : state.view i = view.withMemory memory)
    (hstore : ∀ (state₁ : State) choice result' state₂, state₁.memory = memory →
      state₁.act i action choice = some (result', state₂) →
        result' = result ∧ state₂ = state₁.setNode node content)
    (hrest : ∀ state', state'.view i =
        view.withMemory (memory.setNode node content) →
      statusOutline.wp i op (next result) post state') :
    statusOutline.wp i op (.act action next) post state := by
  refine wp_private hview ?_
  intro state₁ choice result' state₂ hmemory hexec
  obtain ⟨rfl, rfl⟩ := hstore state₁ choice result' state₂ hmemory hexec
  refine ⟨memory.setNode node content, ?_, rfl, rfl, .inr id, hrest⟩
  rw [← hmemory]
  rfl

theorem wp_setMail {node : ℕ} {mail : Al5Mail} {content : Node Al5Mail}
    {next : Unit → StatusProg α} {memory : Memory}
    (hview : state.view i = view.withMemory memory)
    (hnode : memory.nodes node = some content)
    (hrest : ∀ state', state'.view i =
        view.withMemory (memory.setNode node (some ⟨mail, content.next⟩)) →
      statusOutline.wp i op (next ()) post state') :
    statusOutline.wp i op (.act (.setMail node mail) next) post state := by
  refine wp_store hview ?_ hrest
  rintro state₁ choice result state₂ rfl hexec
  cases choice with
  | run =>
      simp only [State.act, hnode, Option.some.injEq, Prod.mk.injEq] at hexec
      exact ⟨rfl, hexec.2.symm⟩
  | memory node garbage => exact absurd (eq_kmalloc_of_memory hexec) (by simp)

theorem wp_setNext {node : ℕ} {link : Option ℕ} {content : Node Al5Mail}
    {next : Unit → StatusProg α} {memory : Memory}
    (hview : state.view i = view.withMemory memory)
    (hnode : memory.nodes node = some content)
    (hrest : ∀ state', state'.view i =
        view.withMemory (memory.setNode node (some ⟨content.value, link⟩)) →
      statusOutline.wp i op (next ()) post state') :
    statusOutline.wp i op (.act (.setNext node link) next) post state := by
  refine wp_store hview ?_ hrest
  rintro state₁ choice result state₂ rfl hexec
  cases choice with
  | run =>
      simp only [State.act, hnode, Option.some.injEq, Prod.mk.injEq] at hexec
      exact ⟨rfl, hexec.2.symm⟩
  | memory node garbage => exact absurd (eq_kmalloc_of_memory hexec) (by simp)

theorem wp_kfree {node : ℕ} {content : Node Al5Mail}
    {next : Unit → StatusProg α} {memory : Memory}
    (hview : state.view i = view.withMemory memory)
    (hnode : memory.nodes node = some content)
    (hrest : ∀ state', state'.view i =
        view.withMemory (memory.setNode node none) →
      statusOutline.wp i op (next ()) post state') :
    statusOutline.wp i op (.act (.kfree node) next) post state := by
  refine wp_store hview ?_ hrest
  rintro state₁ choice result state₂ rfl hexec
  cases choice with
  | run =>
      simp only [State.act, hnode, Option.some.injEq, Prod.mk.injEq] at hexec
      exact ⟨rfl, hexec.2.symm⟩
  | memory node garbage => exact absurd (eq_kmalloc_of_memory hexec) (by simp)

/-! ### Lists -/

/-- The walk ends at the last cell, and leaves the head there. -/
theorem walkToLast_wp {cells : List (ℕ × Al5Mail)} (fuel : ℕ) {memory : Memory}
    (hview : state.view i = view.withMemory memory)
    (hchain : Chain memory.nodes memory.head cells none)
    (hcells : cells ≠ []) (hfuel : cells.length ≤ fuel) :
    statusOutline.wp i op (walkToLast fuel)
      (fun last state' => ∃ before node mail, cells = before ++ [(node, mail)] ∧
        last = some node ∧
        state'.view i = view.withMemory { memory with head := some node }) state := by
  induction fuel generalizing cells memory state with
  | zero => exact absurd (List.length_eq_zero_iff.mp (Nat.le_zero.mp hfuel)) hcells
  | succ fuel ih =>
      obtain ⟨⟨node, mail⟩, rest, rfl⟩ := List.exists_cons_of_ne_nil hcells
      obtain ⟨hhead, link, hnode, hrest⟩ := hchain
      refine wp_getHead hview ?_
      intro state₁ hview₁
      rw [hhead]
      refine wp_getNext hview₁ hnode ?_
      intro state₂ hview₂
      cases link with
      | none =>
          have hlast := hrest.start_eq_none_iff.mp rfl
          subst hlast
          refine ⟨[], node, mail, rfl, rfl, ?_⟩
          rw [hview₂, ← hhead]
      | some following =>
          have hmore : rest ≠ [] := by
            intro hnil
            exact Option.some_ne_none _ (hrest.start_eq_none_iff.mpr hnil)
          refine wp_setHead hview₂ (.inr fun _ => Option.some_ne_none _) ?_
          intro state₃ hview₃
          refine Outline.wp_mono ?_
            (ih hview₃ hrest hmore (Nat.le_of_succ_le_succ hfuel))
          rintro last state₄ ⟨before, lastNode, lastMail, rfl, rfl, hview₄⟩
          exact ⟨(node, mail) :: before, lastNode, lastMail, rfl, rfl, hview₄⟩

def Pushed (memory : Memory) (cells : List (ℕ × Al5Mail)) (mail : Al5Mail)
    (memory' : Memory) : Prop :=
  memory'.delivered = memory.delivered ∧ memory'.consumed = memory.consumed ∧
    ∃ node, Chain memory'.nodes memory'.head (cells ++ [(node, mail)]) none ∧
      ((cells ++ [(node, mail)]).map Prod.fst).Nodup

theorem nodup_snoc {cells : List (ℕ × Al5Mail)} {node : ℕ} {mail : Al5Mail}
    (hdistinct : (cells.map Prod.fst).Nodup) (hfresh : node ∉ cells.map Prod.fst) :
    ((cells ++ [(node, mail)]).map Prod.fst).Nodup := by
  rw [List.map_append]
  refine hdistinct.append (List.nodup_singleton _) ?_
  simpa using hfresh

/-- The stores of an append after the last cell. -/
theorem pushed_of_snoc {memory : Memory} {before : List (ℕ × Al5Mail)}
    {last node : ℕ} {lastMail mail : Al5Mail} {garbage content : Node Al5Mail}
    (hholds : Holds memory (before ++ [(last, lastMail)]))
    (hfresh : memory.nodes node = none) (hcontent : memory.nodes last = some content) :
    Pushed memory (before ++ [(last, lastMail)]) mail
      { ((((memory.setNode node (some garbage)).setNode last
          (some ⟨content.value, some node⟩)).setNode node
            (some ⟨mail, garbage.next⟩)).setNode node (some ⟨mail, none⟩)) with
        head := memory.head } := by
  have hne : last ≠ node := by
    rintro rfl
    exact Option.some_ne_none content (hcontent.symm.trans hfresh)
  have hnew : node ∉ (before ++ [(last, lastMail)]).map Prod.fst := by
    intro hmem
    obtain ⟨cell, hcell, rfl⟩ := List.mem_map.mp hmem
    exact hholds.chain.mem_nodes hcell hfresh
  have hvalue : content.value = lastMail := by
    obtain ⟨mid, -, -, next, hnode, -⟩ := chain_append.mp hholds.chain
    rw [hcontent] at hnode
    exact congrArg Node.value (Option.some.inj hnode)
  have hdistinct := hholds.distinct
  refine ⟨rfl, rfl, node, ?_, nodup_snoc hdistinct hnew⟩
  refine hholds.chain.snoc ?_ ?_ (Function.update_self _ _ _)
  · intro cell hcell
    have hcellNode : cell.1 ≠ node := by
      rintro rfl
      refine hnew (List.mem_map_of_mem (List.mem_append_left _ hcell))
    have hcellLast : cell.1 ≠ last := by
      rw [List.map_append, List.nodup_append] at hdistinct
      exact hdistinct.2.2 _ (List.mem_map_of_mem hcell) _ (by simp)
    simp [Memory.setNode, hcellNode, hcellLast]
  · simp [Memory.setNode, hne, hvalue]

theorem al5ListPush_wp {cells : List (ℕ × Al5Mail)} {fuel : ℕ} {mail : Al5Mail}
    {memory : Memory} (hview : state.view i = view.withMemory memory)
    (hholds : Holds memory cells) (hfuel : cells.length ≤ fuel) :
    statusOutline.wp i op (al5ListPush fuel mail)
      (fun _ state' => ∃ memory', Pushed memory cells mail memory' ∧
        state'.view i = view.withMemory memory') state := by
  unfold al5ListPush
  simp only [Prog.bind_eq, Prog.perform_bind]
  refine wp_getHead hview ?_
  intro state₁ hview₁
  have hchain := hholds.chain
  cases hhead : memory.head with
  | none =>
      rw [hhead] at hchain
      obtain rfl := hchain.start_eq_none_iff.mp rfl
      refine wp_kmalloc hview₁ ?_
      intro state₂ node garbage hfresh hview₂
      refine wp_setHead hview₂ (.inr fun _ => Option.some_ne_none _) ?_
      intro state₃ hview₃
      refine wp_setMail hview₃ (Function.update_self _ _ _) ?_
      intro state₄ hview₄
      refine wp_setNext hview₄ (Function.update_self _ _ _) ?_
      intro state₅ hview₅
      refine ⟨_, ?_, hview₅⟩
      refine ⟨rfl, rfl, node, ?_, List.nodup_singleton _⟩
      exact ⟨rfl, none, Function.update_self _ _ _, rfl⟩
  | some first =>
      have hcells : cells ≠ [] := by
        rintro rfl
        exact Option.some_ne_none first (hhead.symm.trans hchain)
      refine Outline.wp_seq (walkToLast_wp fuel hview₁ hchain hcells hfuel) ?_
      rintro _ state₂ ⟨before, last, lastMail, rfl, rfl, hview₂⟩
      have hlast : memory.nodes last ≠ none := by
        obtain ⟨mid, -, -, next, hnode, -⟩ := chain_append.mp hchain
        rw [hnode]
        exact Option.some_ne_none _
      obtain ⟨content, hcontent⟩ := Option.ne_none_iff_exists'.mp hlast
      refine wp_kmalloc hview₂ ?_
      intro state₃ node garbage hfresh hview₃
      have hne : last ≠ node := fun heq => hlast (heq ▸ hfresh)
      have hlastKept := (Function.update_of_ne hne (some garbage) memory.nodes).trans
        hcontent
      refine wp_setNext hview₃ hlastKept ?_
      intro state₄ hview₄
      have hnodeKept := (Function.update_of_ne (Ne.symm hne)
        (some (⟨content.value, some node⟩ : Node Al5Mail)) _).trans
          (Function.update_self node (some garbage) memory.nodes)
      refine wp_setMail hview₄ hnodeKept ?_
      intro state₅ hview₅
      refine wp_setNext hview₅ (Function.update_self _ _ _) ?_
      intro state₆ hview₆
      refine wp_setHead hview₆ (.inr fun _ => Option.some_ne_none _) ?_
      intro state₇ hview₇
      rw [← hhead] at hview₇
      exact ⟨_, pushed_of_snoc hholds hfresh hcontent, hview₇⟩

/-- What a removal leaves: nothing to remove, or the cells without the first. -/
def Popped (memory : Memory) (cells : List (ℕ × Al5Mail)) (memory' : Memory) :
    Option Al5Mail → Prop
  | none => cells = [] ∧ memory' = memory
  | some mail => ∃ node rest, cells = (node, mail) :: rest ∧
      memory'.delivered = memory.delivered ∧ memory'.consumed = memory.consumed ∧
        Chain memory'.nodes memory'.head rest none

theorem al5ListPop_wp {cells : List (ℕ × Al5Mail)} {memory : Memory}
    (hview : state.view i = view.withMemory memory) (hmutex : view.mutex = true)
    (hholds : Holds memory cells) :
    statusOutline.wp i op al5ListPop
      (fun mail state' => ∃ memory', Popped memory cells memory' mail ∧
        state'.view i = view.withMemory memory') state := by
  unfold al5ListPop
  simp only [Prog.bind_eq, Prog.perform_bind]
  refine wp_getHead hview ?_
  intro state₁ hview₁
  have hchain := hholds.chain
  cases hhead : memory.head with
  | none =>
      rw [hhead] at hchain
      exact ⟨memory, ⟨hchain.start_eq_none_iff.mp rfl, rfl⟩, hview₁⟩
  | some node =>
      rw [hhead] at hchain
      obtain ⟨mail, next, rest, rfl, hnode, hrest⟩ := hchain.uncons
      refine wp_getMail hview₁ hnode ?_
      intro state₂ hview₂
      refine wp_getNext hview₂ hnode ?_
      intro state₃ hview₃
      refine wp_kfree hview₃ hnode ?_
      intro state₄ hview₄
      refine wp_setHead hview₄ (.inl hmutex) ?_
      intro state₅ hview₅
      refine ⟨_, ?_, hview₅⟩
      refine ⟨node, rest, rfl, rfl, rfl, ?_⟩
      refine hrest.update ?_ none
      exact (List.nodup_cons.mp hholds.distinct).1

/-! ### Locks -/

/-- A call that has not the spinlock does not change the memory. -/
theorem statusRely_of_same {state' : State} {j : ℕ}
    (hview : state.view j = state'.view j)
    (hmemory : state'.memory = state.memory) : StatusRely j state state' := by
  refine ⟨hview, fun _ hhead => ?_⟩
  rw [hmemory]
  exact hhead

theorem wp_spinLock {next : ℕ → StatusProg α}
    (hat : At i view seen state)
    (hrest : ∀ state' memory cells, Holds memory cells →
      (seen → cells ≠ []) → state'.view i = view.withMemory memory →
        statusOutline.wp i op (next memory.delivered.length) post state') :
    statusOutline.wp i op (.act .spinLock next) post state := by
  refine wp_at hat ?_
  intro state₁ choice result state₂ hinv hat₁ hexec
  cases choice with
  | memory node garbage => exact absurd (eq_kmalloc_of_memory hexec) (by simp)
  | run =>
      simp only [State.act] at hexec
      split at hexec
      · rename_i hfree
        obtain ⟨rfl, rfl⟩ := Prod.mk.inj (Option.some.inj hexec)
        obtain ⟨cells, hholds⟩ := hinv.settled hfree
        refine ⟨⟨?_, hinv.order, hinv.sound⟩, ?_, ?_⟩
        · exact fun hnone => absurd hnone (Option.some_ne_none i)
        · intro j hji
          refine statusRely_of_same ?_ rfl
          simp [State.view, hfree, Ne.symm hji]
        · refine hrest _ state₁.memory cells hholds ?_ ?_
          · intro h hnil
            have hhead := (hat₁.2 h).2
            exact hhead (hholds.chain.start_eq_none_iff.mpr hnil)
          · rw [← hat₁.1]
            simp [State.view, View.withMemory]
      · exact absurd hexec (by simp)

/-- The mails which a critical section adds to those its call consumed. -/
def Effect.taken : Effect → List Al5Mail
  | .popped mail => [mail]
  | .nothing | .pushed _ => []

/-- The others see nothing of a critical section but what it adds to the log of
its own call. -/
theorem wp_spinUnlock {effect : Effect} {next : Unit → StatusProg α}
    {memory : Memory} (hview : state.view i = view.withMemory memory)
    (hspin : view.spin = none)
    (hsettled : ∀ state₁ : State, state₁.memory = memory →
      ∃ cells, Holds (state₁.commit i effect).memory cells)
    (hrest : ∀ state',
      state'.view i = { view with mine := view.mine ++ effect.taken } →
        statusOutline.wp i op (next ()) post state') :
    statusOutline.wp i op (.act (.spinUnlock effect) next) post state := by
  refine wp_at (at_view hview) ?_
  intro state₁ choice result state₂ hinv hat hexec
  obtain ⟨howner, hmemory⟩ := spin_of_view hat.1
  cases choice with
  | memory node garbage => exact absurd (eq_kmalloc_of_memory hexec) (by simp)
  | run =>
      obtain ⟨rfl, rfl⟩ := Prod.mk.inj (Option.some.inj hexec)
      obtain ⟨cells, hholds⟩ := hsettled state₁ hmemory
      refine ⟨⟨fun _ => ⟨cells, hholds⟩, ?_, ?_⟩, ?_, ?_⟩
      · exact ⟨_, hholds.order.symm⟩
      · cases effect <;> exact hinv.sound
      · intro j hji
        cases effect with
        | nothing =>
            refine statusRely_of_same ?_ rfl
            simp [State.view, State.commit, howner, Ne.symm hji]
            exact ⟨rfl, rfl, rfl, rfl⟩
        | pushed mail =>
            refine ⟨?_, fun _ hhead => hhead⟩
            simp [State.view, State.commit, State.setMemory, consumedBy, howner,
              Ne.symm hji]
        | popped mail =>
            refine ⟨?_, fun _ hhead => hhead⟩
            simp [State.view, State.commit, State.setMemory, consumedBy, howner,
              Ne.symm hji]
      · refine hrest _ ?_
        have hold := hat.1
        obtain ⟨spin, mutex, mine, took, signalled, sawUnlocked⟩ := view
        simp only at hspin
        subst hspin
        simp only [State.view, View.withMemory, View.mk.injEq] at hold
        obtain ⟨-, rfl, rfl, rfl, rfl, rfl⟩ := hold
        cases effect <;>
          simp [State.view, State.commit, State.setMemory, consumedBy, Effect.taken] <;>
          exact ⟨rfl, rfl, rfl, rfl⟩

/-- The rule of an action outside the spinlock that leaves the memory. -/
theorem wp_outside
    {action : Act} {next : action.Res → StatusProg α}
    (hat : At i view seen state)
    (hstep : ∀ (state₁ : State) choice result state₂, At i view seen state₁ →
      state₁.act i action choice = some (result, state₂) →
        state₂.memory = state₁.memory ∧ state₂.spin = state₁.spin ∧
          state₂.faulted = state₁.faulted ∧
          (∀ j, j ≠ i → state₁.view j = state₂.view j) ∧
          statusOutline.wp i op (next result) post state₂) :
    statusOutline.wp i op (.act action next) post state := by
  refine wp_at hat ?_
  intro state₁ choice result state₂ hinv hat₁ hexec
  obtain ⟨hmemory, hspin, hfaulted, hothers, hrest⟩ :=
    hstep state₁ choice result state₂ hat₁ hexec
  refine ⟨⟨?_, ?_, ?_⟩, ?_, hrest⟩
  · rw [hspin, hmemory]
    exact hinv.settled
  · rw [hmemory]
    exact hinv.order
  · rw [hfaulted]
    exact hinv.sound
  · exact fun j hji => statusRely_of_same (hothers j hji) hmemory

theorem wp_mutexTrylock {next : Bool → StatusProg α}
    (hview : state.view i = view)
    (hfail : ∀ state', state'.view i = view →
      statusOutline.wp i op (next false) post state')
    (hlocked : ∀ state', state'.view i = { view with mutex := true, took := true } →
      statusOutline.wp i op (next true) post state') :
    statusOutline.wp i op (.act .mutexTrylock next) post state := by
  refine wp_outside (at_view hview) ?_
  intro state₁ choice result state₂ hat hexec
  have hview₁ := hat.1
  cases choice with
  | memory node garbage => exact absurd (eq_kmalloc_of_memory hexec) (by simp)
  | run =>
      simp only [State.act] at hexec
      split at hexec
      · rename_i hfree
        obtain ⟨rfl, rfl⟩ := Prod.mk.inj (Option.some.inj hexec)
        refine ⟨rfl, rfl, rfl, ?_, hlocked _ ?_⟩
        · intro j hji
          simp [State.view, hfree, hji, Ne.symm hji]
        · rw [← hview₁]
          simp [State.view]
      · obtain ⟨rfl, rfl⟩ := Prod.mk.inj (Option.some.inj hexec)
        exact ⟨rfl, rfl, rfl, fun _ _ => rfl, hfail _ hview₁⟩

theorem wp_mutexUnlock {next : Unit → StatusProg α}
    (hview : state.view i = view) (hmutex : view.mutex = true)
    (hrest : ∀ state', state'.view i = { view with mutex := false } →
      statusOutline.wp i op (next ()) post state') :
    statusOutline.wp i op (.act .mutexUnlock next) post state := by
  refine wp_outside (at_view hview) ?_
  intro state₁ choice result state₂ hat hexec
  have hview₁ := hat.1
  have howner : state₁.mutex = some (.call i) := by
    have hown := (congrArg View.mutex hview₁).trans hmutex
    exact of_decide_eq_true hown
  cases choice with
  | memory node garbage => exact absurd (eq_kmalloc_of_memory hexec) (by simp)
  | run =>
      obtain ⟨rfl, rfl⟩ := Prod.mk.inj (Option.some.inj hexec)
      refine ⟨rfl, rfl, rfl, ?_, hrest _ ?_⟩
      · intro j hji
        simp [State.view, howner, Ne.symm hji]
      · rw [← hview₁]
        simp [State.view]

theorem wp_getChanUid {next : Word → StatusProg α}
    (hview : state.view i = view)
    (hrest : ∀ state' chanUid, state'.view i = view →
      statusOutline.wp i op (next chanUid) post state') :
    statusOutline.wp i op (.act .getChanUid next) post state := by
  refine wp_outside (at_view hview) ?_
  intro state₁ choice result state₂ hat hexec
  cases choice with
  | memory node garbage => exact absurd (eq_kmalloc_of_memory hexec) (by simp)
  | run =>
      obtain ⟨rfl, rfl⟩ := Prod.mk.inj (Option.some.inj hexec)
      exact ⟨rfl, rfl, rfl, fun _ _ => rfl, hrest _ _ hat.1⟩

/-- A look at the head by the holder of the mutex: what it sees stays true. -/
theorem wp_lookAtHead {next : Option ℕ → StatusProg α}
    (hview : state.view i = view) (hmutex : view.mutex = true)
    (hrest : ∀ state' head, At i view (head ≠ none) state' →
      statusOutline.wp i op (next head) post state') :
    statusOutline.wp i op (.act .getHead next) post state := by
  refine wp_outside (at_view hview) ?_
  intro state₁ choice result state₂ hat hexec
  cases choice with
  | memory node garbage => exact absurd (eq_kmalloc_of_memory hexec) (by simp)
  | run =>
      obtain ⟨rfl, rfl⟩ := Prod.mk.inj (Option.some.inj hexec)
      exact ⟨rfl, rfl, rfl, fun _ _ => rfl,
        hrest _ _ ⟨hat.1, fun hhead => ⟨hmutex, hhead⟩⟩⟩

theorem wp_getLocked {next : Bool → StatusProg α}
    (hview : state.view i = view)
    (hlocked : ∀ state', state'.view i = view →
      statusOutline.wp i op (next true) post state')
    (hunlocked : ∀ state', state'.view i = { view with sawUnlocked := true } →
      statusOutline.wp i op (next false) post state') :
    statusOutline.wp i op (.act .getLocked next) post state := by
  refine wp_outside (at_view hview) ?_
  intro state₁ choice result state₂ hat hexec
  have hview₁ := hat.1
  cases choice with
  | memory node garbage => exact absurd (eq_kmalloc_of_memory hexec) (by simp)
  | run =>
      simp only [State.act] at hexec
      obtain ⟨rfl, rfl⟩ := Prod.mk.inj (Option.some.inj hexec)
      cases hlock : state₁.locked with
      | true => exact ⟨rfl, rfl, rfl, fun _ _ => rfl, hlocked _ hview₁⟩
      | false =>
          refine ⟨rfl, rfl, rfl, ?_, hunlocked _ ?_⟩
          · intro j hji
            simp [State.view, hji]
          · rw [← hview₁]
            simp [State.view]

theorem wp_takeSignal {next : Unit → StatusProg α}
    (hview : state.view i = view)
    (hrest : ∀ state', state'.view i = { view with signalled := true } →
      statusOutline.wp i op (next ()) post state') :
    statusOutline.wp i op (.act .takeSignal next) post state := by
  refine wp_outside (at_view hview) ?_
  intro state₁ choice result state₂ hat hexec
  have hview₁ := hat.1
  cases choice with
  | memory node garbage => exact absurd (eq_kmalloc_of_memory hexec) (by simp)
  | run =>
      simp only [State.act] at hexec
      split at hexec
      · obtain ⟨rfl, rfl⟩ := Prod.mk.inj (Option.some.inj hexec)
        refine ⟨rfl, rfl, rfl, ?_, hrest _ ?_⟩
        · intro j hji
          simp [State.view, hji]
        · rw [← hview₁]
          simp [State.view]
      · exact absurd hexec (by simp)

/-! ### Whole calls -/

/-- The wait ends with a list that is not empty, or for one of the two other
reasons. -/
theorem waitEventInterruptible_wp
    (hview : state.view i = view) (hmutex : view.mutex = true) :
    statusOutline.wp i op waitEventInterruptible
      (fun _ state' => At i view True state' ∨
        state'.view i = { view with sawUnlocked := true } ∨
        state'.view i = { view with signalled := true }) state := by
  unfold waitEventInterruptible
  simp only [Prog.bind_eq, Prog.perform_bind]
  refine wp_lookAtHead hview hmutex ?_
  intro state₁ head hat₁
  cases head with
  | some node =>
      have hseen : At i view True state₁ :=
        ⟨hat₁.1, fun _ => hat₁.2 (Option.some_ne_none node)⟩
      exact Or.inl hseen
  | none =>
      refine wp_getLocked hat₁.1 ?_ ?_
      · intro state₂ hview₂
        rw [if_pos rfl]
        refine wp_takeSignal hview₂ ?_
        intro state₃ hview₃
        exact Or.inr (Or.inr hview₃)
      · intro state₂ hview₂
        rw [if_neg (by simp)]
        exact Or.inr (Or.inl hview₂)

/-- What `al5_queue_pop` of the holder of the mutex leaves. -/
structure Waited (view : View) (mail : Option Al5Mail) (view' : View) : Prop where
  mutex : view'.mutex = true
  took : view'.took = view.took
  mine : view'.mine = view.mine ++ mail.toList
  reason : mail = none → view'.signalled = true ∨ view'.sawUnlocked = true

theorem al5QueuePop_wp
    (hview : state.view i = view) (hspin : view.spin = none)
    (hmutex : view.mutex = true) :
    statusOutline.wp i op al5QueuePop
      (fun mail state' => Waited view mail (state'.view i)) state := by
  unfold al5QueuePop
  simp only [Prog.bind_eq, Prog.perform_bind]
  refine Outline.wp_seq (waitEventInterruptible_wp hview hmutex) ?_
  intro _ state₁ hwaited
  have hpop : ∀ (seen : Prop) (view₁ : View), At i view₁ seen state₁ →
      view₁.spin = none → view₁.mutex = true → view₁.took = view.took →
      view₁.mine = view.mine →
      (¬ seen → view₁.signalled = true ∨ view₁.sawUnlocked = true) →
      statusOutline.wp i op
        (.act .spinLock fun _ => al5ListPop.bind fun mail =>
          .act (.spinUnlock (poppedEffect mail)) fun _ => .ret mail)
        (fun mail state' => Waited view mail (state'.view i)) state₁ := by
    intro seen view₁ hat hspin₁ hmutex₁ htook hmine hreason
    refine wp_spinLock hat ?_
    intro state₂ memory cells hholds hseen hview₂
    refine Outline.wp_seq (al5ListPop_wp hview₂ hmutex₁ hholds) ?_
    rintro mail state₃ ⟨memory', hpopped, hview₃⟩
    refine wp_spinUnlock hview₃ hspin₁ ?_ ?_
    · rintro state₄ rfl
      cases mail with
      | none =>
          obtain ⟨-, hmemory⟩ := hpopped
          exact ⟨cells, hmemory ▸ hholds⟩
      | some mail =>
          obtain ⟨node, rest, rfl, hdelivered, hconsumed, hchain⟩ := hpopped
          refine ⟨rest, hchain, (List.nodup_cons.mp hholds.distinct).2, ?_⟩
          change state₄.memory.delivered =
            (state₄.memory.consumed ++ [(i, mail)]).map Prod.snd ++ rest.map Prod.snd
          rw [hdelivered, hconsumed, hholds.order]
          simp
    · intro state₄ hview₄
      rw [Outline.wp_ret, hview₄]
      refine ⟨hmutex₁, htook, ?_, ?_⟩
      · cases mail <;> simp [poppedEffect, Effect.taken, hmine]
      · rintro rfl
        exact hreason fun hseen' => hseen hseen' hpopped.1
  rcases hwaited with hat | hunlocked | hsignalled
  · exact hpop True view hat hspin hmutex rfl rfl (absurd trivial)
  · exact hpop False _ (at_view hunlocked) hspin hmutex rfl rfl fun _ => .inr rfl
  · exact hpop False _ (at_view hsignalled) hspin hmutex rfl rfl fun _ => .inl rfl

theorem waitForStatus_wp (hview : state.view i = .empty) (hwaits : op.waits = true) :
    statusOutline.wp i op waitForStatus
      (fun out state' => StatusPost op out (state'.view i)) state := by
  unfold waitForStatus
  simp only [Prog.bind_eq, Prog.perform_bind]
  refine wp_mutexTrylock hview ?_ ?_
  · intro state₁ hview₁
    rw [if_neg (by simp), Prog.pure_eq, Outline.wp_ret, hview₁]
    exact ⟨.inr (.inl rfl), fun _ => rfl, fun _ => rfl,
      fun _ htook => absurd htook (by simp [View.empty]),
      fun _ hanswered => absurd hanswered (by decide)⟩
  · intro state₁ hview₁
    rw [if_pos rfl]
    refine wp_getChanUid hview₁ ?_
    intro state₂ chanUid hview₂
    split
    · refine wp_mutexUnlock hview₂ rfl ?_
      intro state₃ hview₃
      rw [Prog.pure_eq, Outline.wp_ret, hview₃]
      exact ⟨.inr (.inr rfl), fun _ => rfl, fun _ => rfl,
        fun hinterrupted => absurd hinterrupted (by decide),
        fun _ hanswered => absurd hanswered (by decide)⟩
    · refine Outline.wp_seq (al5QueuePop_wp hview₂ rfl rfl) ?_
      intro mail state₃ hwaited
      refine wp_mutexUnlock rfl hwaited.mutex ?_
      intro state₄ hview₄
      have hmine := hwaited.mine
      cases mail with
      | none =>
          change StatusPost op (-EINTR, none) (state₄.view i)
          rw [hview₄]
          exact ⟨.inr (.inl rfl), fun _ => hmine, fun _ => hmine,
            fun _ _ => hwaited.reason rfl,
            fun _ hanswered => absurd hanswered (by decide)⟩
      | some mail =>
          change StatusPost op (0, some (mailGetStatus mail)) (state₄.view i)
          rw [hview₄]
          exact ⟨.inl rfl, fun hdelivers => absurd (hwaits.symm.trans hdelivers) (by simp),
            fun hrefused => absurd hrefused (by simp [EINTR, EPERM]),
            fun hinterrupted => absurd hinterrupted (by simp [EINTR]),
            fun _ _ => ⟨mail, hmine, rfl⟩⟩

theorem al5QueuePush_wp {mail : Al5Mail} (hview : state.view i = .empty) :
    statusOutline.wp i op (al5QueuePush mail)
      (fun _ state' => state'.view i = .empty) state := by
  unfold al5QueuePush
  simp only [Prog.bind_eq, Prog.perform_bind]
  refine wp_spinLock (at_view hview) ?_
  intro state₁ memory cells hholds _ hview₁
  have hfuel : cells.length ≤ memory.delivered.length := by
    rw [hholds.order, List.length_append, List.length_map, List.length_map]
    omega
  refine Outline.wp_seq (al5ListPush_wp hview₁ hholds hfuel) ?_
  rintro _ state₂ ⟨memory', ⟨hdelivered, hconsumed, node, hchain, hdistinct⟩, hview₂⟩
  refine wp_spinUnlock hview₂ rfl ?_ fun state₃ hview₃ => hview₃
  rintro state₃ rfl
  refine ⟨_, hchain, hdistinct, ?_⟩
  change state₃.memory.delivered ++ [mail] = state₃.memory.consumed.map Prod.snd ++ _
  rw [hdelivered, hconsumed, hholds.order]
  simp

theorem body_wp (hview : state.view i = .empty) :
    statusOutline.wp i op (body op) (statusOutline.post i op) state := by
  cases op with
  | deliver mail =>
      refine Outline.wp_seq (al5QueuePush_wp hview) ?_
      intro _ state₁ hview₁
      change StatusPost (.deliver mail) (0, none) (state₁.view i)
      rw [hview₁]
      exact ⟨.inl rfl, fun _ => rfl, fun _ => rfl,
        fun hinterrupted => absurd hinterrupted (by decide),
        fun hwaits => absurd hwaits (by simp [Op.waits])⟩
  | encoderWait => exact waitForStatus_wp hview rfl
  | decoderWait => exact waitForStatus_wp hview rfl

end

theorem statusOutline_valid : statusOutline.Valid al5QueueInit where
  init := by
    refine ⟨fun _ => ⟨[], rfl, List.nodup_nil, rfl⟩, List.prefix_rfl, rfl⟩
  init_fresh i := by
    unfold statusOutline State.view al5QueueInit
    simp [View.empty, consumedBy]
  env := by
    intro event state state' hinv henv _
    change StatusInv state at hinv
    have hsame : ∀ state' : State, state'.memory = state.memory →
        state'.spin = state.spin → state'.faulted = state.faulted →
        (∀ i, state.view i = state'.view i) →
        StatusInv state' ∧ ∀ i, StatusRely i state state' := by
      intro state' hmemory hspin hfaulted hview
      refine ⟨⟨?_, ?_, ?_⟩, fun i => statusRely_of_same (hview i) hmemory⟩
      · rw [hspin, hmemory]
        exact hinv.settled
      · rw [hmemory]
        exact hinv.order
      · rw [hfaulted]
        exact hinv.sound
    cases event with
    | signal i => obtain rfl := Option.some.inj henv; exact hsame _ rfl rfl rfl fun _ => rfl
    | queueUnlock => obtain rfl := Option.some.inj henv; exact hsame _ rfl rfl rfl fun _ => rfl
    | queueLock => obtain rfl := Option.some.inj henv; exact hsame _ rfl rfl rfl fun _ => rfl
    | setChanUid value =>
        obtain rfl := Option.some.inj henv
        exact hsame _ rfl rfl rfl fun _ => rfl
    | mutexTake =>
        simp only [machine, State.env] at henv
        split at henv
        · rename_i hfree
          obtain rfl := Option.some.inj henv
          refine hsame _ rfl rfl rfl fun i => ?_
          simp [State.view, hfree]
        · exact absurd henv (by simp)
    | mutexGive =>
        simp only [machine, State.env] at henv
        split at henv
        · rename_i hheld
          obtain rfl := Option.some.inj henv
          refine hsame _ rfl rfl rfl fun i => ?_
          simp [State.view, hheld]
        · exact absurd henv (by simp)
  enter := by
    intro calls op state state' hinv henter _ hcovered hfresh
    obtain rfl := Option.some.inj henter
    refine ⟨hinv, hcovered, fun i hi => hfresh i (by omega), ?_⟩
    exact body_wp (hfresh _ (Nat.le_refl _))

/-- In every run of deliveries and waits, with signals and with what destroys do
beside, the mails delivered are those consumed followed by a queue, which is the
list in memory whenever no one is at work on it; no access is invalid; a wait
that is refused or interrupted consumes nothing, one that succeeds consumes the
mail it reports, and one that gives up after it took the mutex got a signal or
saw the queue unlocked. -/
theorem status_is_fifo
    (config : StatusConfig) (hreach : machine.Reach .free start config) :
    (∃ queue, config.state.memory.delivered =
        config.state.memory.consumed.map Prod.snd ++ queue ∧
      (config.state.spin = none → ∃ cells,
        Chain config.state.memory.nodes config.state.memory.head cells none ∧
          cells.map Prod.snd = queue)) ∧
    config.state.faulted = false ∧
    ∀ (i : ℕ) op out, config.calls[i]? = some ⟨op, .ret out⟩ →
      (consumedBy i config.state.memory ≠ [] → op.waits = true ∧ out.1 = 0) ∧
      (out.1 = -EINTR ∨ out.1 = -EPERM → consumedBy i config.state.memory = []) ∧
      (op.waits = true → out.1 = 0 →
        ∃ mail, consumedBy i config.state.memory = [mail] ∧
          out.2 = some (mailGetStatus mail)) ∧
      (out.1 = -EINTR → i ∈ config.state.took →
        i ∈ config.state.signalled ∨ i ∈ config.state.sawUnlocked) := by
  have hholds := statusOutline_valid.sound hreach
  have hinv : StatusInv config.state := hholds.inv
  refine ⟨?_, hinv.sound, ?_⟩
  · obtain ⟨queue, hqueue⟩ := hinv.order
    refine ⟨queue, hqueue.symm, ?_⟩
    intro hfree
    obtain ⟨cells, hcells⟩ := hinv.settled hfree
    refine ⟨cells, hcells.chain, ?_⟩
    exact List.append_cancel_left (hcells.order.symm.trans hqueue.symm)
  · intro i op out hcall
    have hpost : StatusPost op out (config.state.view i) := hholds.covered i _ hcall
    refine ⟨?_, hpost.refused, hpost.answered, ?_⟩
    · intro hconsumed
      constructor
      · by_contra hwaits
        exact hconsumed (hpost.delivers (Bool.not_eq_true _ ▸ hwaits))
      · rcases hpost.outcome with hzero | hrefused
        · exact hzero
        · exact absurd (hpost.refused hrefused) hconsumed
    · intro hinterrupted htook
      have hreason := hpost.interrupted hinterrupted (decide_eq_true htook)
      exact hreason.imp of_decide_eq_true of_decide_eq_true

/-- A status is delivered, and one wait gets it while another is refused. -/
def waitMoves : List (Move Choice Op Env) :=
  [.env (.setChanUid 5), .enter .encoderWait, .step 0 .run, .step 0 .run,
    .enter .encoderWait, .step 1 .run,
    .enter (.deliver ⟨7, 4, 4, wordBytes 5⟩), .step 2 .run, .step 2 .run,
    .step 2 (.memory 9 ⟨⟨0, 0, 0, []⟩, none⟩), .step 2 .run, .step 0 .run,
    .step 2 .run, .step 2 .run, .step 2 .run, .step 0 .run, .step 0 .run,
    .step 0 .run, .step 0 .run, .step 0 .run, .step 0 .run, .step 0 .run,
    .step 0 .run]

theorem run_waitMoves :
    ∃ config out, machine.run waitMoves start = some config ∧
      config.calls[0]? = some ⟨.encoderWait, .ret (0, out)⟩ ∧
        config.calls[1]? = some ⟨.encoderWait, .ret (-EINTR, none)⟩ :=
  ⟨_, _, rfl, rfl, rfl⟩

theorem status_is_fifo_of_one_mail :
    ∃ config, machine.run waitMoves start = some config ∧
      (∃ mail, consumedBy 0 config.state.memory = [mail]) ∧
        consumedBy 1 config.state.memory = [] := by
  obtain ⟨config, out, hrun, hfirst, hsecond⟩ := run_waitMoves
  obtain ⟨-, -, hcalls⟩ := status_is_fifo config (Machine.reach_of_run hrun)
  obtain ⟨mail, hmail, -⟩ := (hcalls 0 _ _ hfirst).2.2.1 rfl rfl
  exact ⟨config, hrun, ⟨mail, hmail⟩, (hcalls 1 _ _ hsecond).2.1 (.inl rfl)⟩

end VcuDriver.StatusQueue

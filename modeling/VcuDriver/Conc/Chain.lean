import Mathlib.Data.List.Basic
import Mathlib.Data.Nat.Notation
import Mathlib.Logic.Function.Basic

/-!
# Chains of nodes in a memory

A memory maps addresses to nodes, each with a value and a link.  A chain leads
along given cells from one link to another; a linked list is a chain that ends
at the null link.  Chains over distinct addresses can be read, cut and extended
without looking at the rest of the memory.
-/

namespace VcuDriver.Conc

variable {α : Type}

structure Node (α : Type) where
  value : α
  next : Option ℕ

abbrev Nodes (α : Type) : Type :=
  ℕ → Option (Node α)

/-- The links lead along the cells, each an address with its value. -/
def Chain (nodes : Nodes α) : Option ℕ → List (ℕ × α) → Option ℕ → Prop
  | start, [], stop => start = stop
  | start, (address, value) :: cells, stop =>
      start = some address ∧
        ∃ next, nodes address = some ⟨value, next⟩ ∧ Chain nodes next cells stop

section

variable {nodes nodes' : Nodes α} {start stop : Option ℕ}
variable {cells rest : List (ℕ × α)}

@[simp] theorem chain_nil : Chain nodes start [] stop ↔ start = stop :=
  Iff.rfl

theorem chain_append :
    Chain nodes start (cells ++ rest) stop ↔
      ∃ mid, Chain nodes start cells mid ∧ Chain nodes mid rest stop := by
  induction cells generalizing start with
  | nil => simp [Chain]
  | cons cell cells ih =>
      simp only [List.cons_append, Chain, ih]
      constructor
      · rintro ⟨hstart, next, hnode, mid, hfirst, hrest⟩
        exact ⟨mid, ⟨hstart, next, hnode, hfirst⟩, hrest⟩
      · rintro ⟨mid, ⟨hstart, next, hnode, hfirst⟩, hrest⟩
        exact ⟨hstart, next, hnode, mid, hfirst, hrest⟩

/-- A chain only depends on the nodes of its cells. -/
theorem Chain.frame (hchain : Chain nodes start cells stop)
    (hsame : ∀ cell ∈ cells, nodes' cell.1 = nodes cell.1) :
    Chain nodes' start cells stop := by
  induction cells generalizing start with
  | nil => exact hchain
  | cons cell cells ih =>
      obtain ⟨hstart, next, hnode, hrest⟩ := hchain
      refine ⟨hstart, next, ?_, ?_⟩
      · rw [hsame cell List.mem_cons_self, hnode]
      · exact ih hrest fun other hmem => hsame other (List.mem_cons_of_mem _ hmem)

theorem Chain.mem_nodes (hchain : Chain nodes start cells stop)
    {cell : ℕ × α} (hmem : cell ∈ cells) : nodes cell.1 ≠ none := by
  induction cells generalizing start with
  | nil => exact absurd hmem List.not_mem_nil
  | cons first cells ih =>
      obtain ⟨hstart, next, hnode, hrest⟩ := hchain
      rcases List.mem_cons.mp hmem with rfl | hmem
      · rw [hnode]
        exact Option.some_ne_none _
      · exact ih hrest hmem

/-- A store outside the cells leaves the chain. -/
theorem Chain.update (hchain : Chain nodes start cells stop) {address : ℕ}
    (hfresh : address ∉ cells.map Prod.fst) (node : Option (Node α)) :
    Chain (Function.update nodes address node) start cells stop := by
  refine hchain.frame ?_
  intro cell hmem
  have hne : cell.1 ≠ address := fun heq =>
    hfresh (heq ▸ List.mem_map_of_mem hmem)
  exact Function.update_of_ne hne _ _

/-- The list is empty exactly when its first link is null. -/
theorem Chain.start_eq_none_iff (hchain : Chain nodes start cells none) :
    start = none ↔ cells = [] := by
  cases cells with
  | nil => exact ⟨fun _ => rfl, fun _ => hchain⟩
  | cons cell cells =>
      obtain ⟨rfl, -⟩ := hchain
      simp

/-- The first node of a nonempty list and the list after it. -/
theorem Chain.uncons {address : ℕ} (hchain : Chain nodes (some address) cells none) :
    ∃ value next rest, cells = (address, value) :: rest ∧
      nodes address = some ⟨value, next⟩ ∧ Chain nodes next rest none := by
  cases cells with
  | nil => exact absurd hchain (by simp)
  | cons cell cells =>
      obtain ⟨hstart, next, hnode, hrest⟩ := hchain
      obtain rfl := Option.some.inj hstart
      exact ⟨cell.2, next, cells, rfl, hnode, hrest⟩

/-- A list is extended by a node at a new address, linked from its last one. -/
theorem Chain.snoc {last address : ℕ} {value added : α}
    (hchain : Chain nodes start (cells ++ [(last, value)]) none)
    (hsame : ∀ cell ∈ cells, nodes' cell.1 = nodes cell.1)
    (hlast : nodes' last = some ⟨value, some address⟩)
    (hadded : nodes' address = some ⟨added, none⟩) :
    Chain nodes' start ((cells ++ [(last, value)]) ++ [(address, added)]) none := by
  obtain ⟨mid, hfirst, hmid, -⟩ := chain_append.mp hchain
  refine chain_append.mpr ⟨some address, ?_, ?_⟩
  · refine chain_append.mpr ⟨mid, hfirst.frame hsame, hmid, some address, hlast, ?_⟩
    exact chain_nil.mpr rfl
  · exact ⟨rfl, none, hadded, chain_nil.mpr rfl⟩

end

end VcuDriver.Conc

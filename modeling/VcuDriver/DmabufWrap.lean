import VcuDriver.Mail

/-!
# The wrap of a buffer

`al5_dmabuf_wrap` makes a dma-buf of a buffer: it allocates a record, takes a
reference of the device, asks twice for a scatter table and exports.  It gives
nothing back when one of these steps fails.

The state lists what a call holds.
-/

namespace VcuDriver

/-- What `dma_buf_fd` can return: a descriptor or a negative error. -/
abbrev FdOutcome : Type :=
  { outcome : ℤ // -4095 ≤ outcome ∧ outcome < 2 ^ 31 }

namespace DmabufCreation

inductive Resource where
  | dmaRecord
  | dmaMemory
  | priv
  | deviceReference
  | sgRecord
  | sgEntries
  | dmaBuf
  | fd (value : ℤ)
  | dmaBufReference
  | attachment
  | attachPriv
  | attachEntries
  | mapping
  deriving DecidableEq

/-- The outcomes of the kernel calls of a wrap.  The scatter table is tried twice. -/
structure WrapOutcomes where
  kzallocPriv : Bool
  kzallocSgt : ℕ → Bool
  dmaGetSgtable : ℕ → Bool
  dmaBufExport : Bool

abbrev Creation (α : Type) : Type :=
  StateM (List Resource) α

def acquire (resource : Resource) : Creation Unit :=
  modify (resource :: ·)

def release (resource : Resource) : Creation Unit :=
  modify (·.erase resource)

/-- A pointer as the kernel returns it. -/
inductive Pointer where
  | null
  | err (error : ℤ)
  | valid
  deriving DecidableEq

def Pointer.isErrOrNull : Pointer → Bool
  | .valid => false
  | _ => true

variable (outcomes : WrapOutcomes)

/-- `al5_get_base_sgt`: whether it returned a table. -/
def al5GetBaseSgt (attempt : ℕ) : Creation Bool := do
  if outcomes.kzallocSgt attempt then
    acquire .sgRecord
    if outcomes.dmaGetSgtable attempt then
      acquire .sgEntries
      pure true
    else
      release .sgRecord
      pure false
  else
    pure false

/-- `al5_get_dmabuf`.  Its test after the export looks at the buffer, which is no
error pointer, and not at the dma-buf. -/
def al5GetDmabuf (sgtBase : Bool) : Creation Pointer := do
  let sgtBase ← if sgtBase then pure true else al5GetBaseSgt outcomes 1
  if sgtBase then
    if outcomes.dmaBufExport then
      acquire .dmaBuf
      pure .valid
    else
      pure (.err (-ENOMEM))
  else
    pure .null

def al5DmabufWrap : Creation Pointer := do
  if outcomes.kzallocPriv then
    acquire .priv
    acquire .deviceReference
    let sgtBase ← al5GetBaseSgt outcomes 0
    let dbuf ← al5GetDmabuf outcomes sgtBase
    if dbuf.isErrOrNull then
      pure (.err (-EINVAL))
    else
      pure dbuf
  else
    pure (.err (-ENOMEM))

/-- An attempt at the scatter table succeeds. -/
def WrapOutcomes.tableAt (attempt : ℕ) : Bool :=
  outcomes.kzallocSgt attempt && outcomes.dmaGetSgtable attempt

def WrapOutcomes.table : Bool :=
  outcomes.tableAt 0 || outcomes.tableAt 1

def WrapOutcomes.wraps : Bool :=
  outcomes.kzallocPriv && (outcomes.table && outcomes.dmaBufExport)

/-! ## Runs -/

theorem run_bind {α β : Type} (program : Creation α) (next : α → Creation β)
    (held : List Resource) :
    (program >>= next).run held =
      (next (program.run held).1).run (program.run held).2 := by rfl

theorem run_acquire (resource : Resource) (held : List Resource) :
    (acquire resource).run held = ((), resource :: held) := by rfl

theorem run_release (resource : Resource) (held : List Resource) :
    (release resource).run held = ((), held.erase resource) := by rfl

theorem run_al5GetBaseSgt (attempt : ℕ) (held : List Resource) :
    (al5GetBaseSgt outcomes attempt).run held =
      if outcomes.tableAt attempt then
        (true, .sgEntries :: .sgRecord :: held)
      else
        (false, held) := by
  unfold al5GetBaseSgt WrapOutcomes.tableAt
  cases outcomes.kzallocSgt attempt
  · rfl
  · cases outcomes.dmaGetSgtable attempt
    · exact congrArg (Prod.mk false) (List.erase_cons_head _ _)
    · rfl

/-- The scatter table, when there is one. -/
def WrapOutcomes.tables : List Resource :=
  if outcomes.table then [.sgEntries, .sgRecord] else []

/-- The second attempt is made when the first has failed. -/
theorem run_al5GetDmabuf (sgtBase : Bool) (held : List Resource) :
    (al5GetDmabuf outcomes sgtBase).run held =
      match sgtBase, outcomes.tableAt 1, outcomes.dmaBufExport with
      | false, false, _ => (.null, held)
      | false, true, true => (.valid, .dmaBuf :: .sgEntries :: .sgRecord :: held)
      | false, true, false => (.err (-ENOMEM), .sgEntries :: .sgRecord :: held)
      | true, _, true => (.valid, .dmaBuf :: held)
      | true, _, false => (.err (-ENOMEM), held) := by
  unfold al5GetDmabuf
  cases sgtBase with
  | true =>
      cases outcomes.dmaBufExport
      · rfl
      · rfl
  | false =>
      simp only [Bool.false_eq_true, if_false, run_bind, run_al5GetBaseSgt]
      cases outcomes.tableAt 1
      · rfl
      · cases outcomes.dmaBufExport
        · rfl
        · rfl

/-- What a wrap holds at its end beside the dma-buf. -/
def WrapOutcomes.wrapParts (held : List Resource) : List Resource :=
  if outcomes.kzallocPriv then outcomes.tables ++ .deviceReference :: .priv :: held
  else held

def WrapOutcomes.wrapError : ℤ :=
  if outcomes.kzallocPriv then -EINVAL else -ENOMEM

/-- A wrap keeps what it has taken, whether it succeeds or not. -/
theorem run_al5DmabufWrap (held : List Resource) :
    (al5DmabufWrap outcomes).run held =
      if outcomes.wraps then (.valid, .dmaBuf :: outcomes.wrapParts held)
      else (.err outcomes.wrapError, outcomes.wrapParts held) := by
  unfold al5DmabufWrap WrapOutcomes.wraps WrapOutcomes.wrapParts WrapOutcomes.wrapError WrapOutcomes.tables
    WrapOutcomes.table
  cases outcomes.kzallocPriv with
  | false => rfl
  | true =>
      simp only [if_true, run_bind, run_acquire, run_al5GetBaseSgt]
      cases outcomes.tableAt 0 with
      | true =>
          simp only [if_true, run_al5GetDmabuf]
          cases outcomes.dmaBufExport
          · rfl
          · rfl
      | false =>
          simp only [Bool.false_eq_true, if_false, run_al5GetDmabuf]
          cases outcomes.tableAt 1
          · rfl
          · cases outcomes.dmaBufExport
            · rfl
            · rfl

theorem mem_wrapParts (resource : Resource) (held : List Resource) :
    resource ∈ outcomes.wrapParts held →
      resource ∈ held ∨ resource ∈ outcomes.tables ∨ resource = .deviceReference ∨
        resource = .priv := by
  unfold WrapOutcomes.wrapParts
  split
  · simp only [List.mem_append, List.mem_cons]
    rintro (htables | rfl | rfl | hheld)
    · exact .inr (.inl htables)
    · exact .inr (.inr (.inl rfl))
    · exact .inr (.inr (.inr rfl))
    · exact .inl hheld
  · exact .inl

theorem subset_wrapParts (held : List Resource) : held ⊆ outcomes.wrapParts held := by
  intro resource hmem
  unfold WrapOutcomes.wrapParts
  split
  · simp only [List.mem_append, List.mem_cons]
    exact .inr (.inr (.inr hmem))
  · exact hmem

end DmabufCreation

end VcuDriver

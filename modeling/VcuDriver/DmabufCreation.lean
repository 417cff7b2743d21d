import VcuDriver.DmabufWrap

/-!
# Creating a dma-buf

`al5_ioctl_get_dma_fd` allocates a buffer, wraps it into a dma-buf, installs a
descriptor, and looks the bus address up through an attachment.  Six functions pass
errors on as `NULL`, as an error pointer, and as a negative number in a field for a
descriptor.

Every kernel call can fail on its own.  The state lists what the call holds;
`al5_dmabuf_wrap` and the functions above it keep it on every failure that comes
after their first allocation.
-/

namespace VcuDriver

namespace DmabufCreation

def EIO : ℤ := 5

structure Al5DmaInfo where
  fd : Word
  size : Word
  phyAddr : Word

structure World extends WrapOutcomes where
  copyFromUser : Option Al5DmaInfo
  kmallocBuffer : Bool
  dmaAllocCoherent : Bool
  dmaBufFd : FdOutcome
  kzallocAttachment : Bool
  kzallocAttachPriv : Bool
  sgAllocTable : Bool
  dmaMapSg : Bool
  busAddress : Word
  copyToUser : Bool

variable (world : World)

/-! ## The dma-buf -/

def al5AllocDma : Creation Bool := do
  if world.kmallocBuffer then
    acquire .dmaRecord
    if world.dmaAllocCoherent then
      acquire .dmaMemory
      pure true
    else
      release .dmaRecord
      pure false
  else
    pure false

/-! ## The descriptor -/

def al5CreateDmabufFd : Creation ℤ := do
  match ← al5DmabufWrap world.toWrapOutcomes with
  | .err error => pure error
  | _ =>
      if 0 ≤ world.dmaBufFd.val then
        acquire (.fd world.dmaBufFd.val)
      pure world.dmaBufFd.val

/-- `al5_allocate_dmabuf`: the error and the descriptor field. -/
def al5AllocateDmabuf (fd : Word) : Creation (ℤ × Word) := do
  if ← al5AllocDma world then
    let fd ← al5CreateDmabufFd world
    pure (0, BitVec.ofInt 32 fd)
  else
    pure (-ENOMEM, fd)

/-! ## The bus address -/

def dmaBufGet (fd : Word) : Creation Pointer := do
  let held ← get
  if .fd fd.toInt ∈ held then
    acquire .dmaBufReference
    pure .valid
  else
    pure (.err (-EINVAL))

def al5DmabufAttach : Creation ℤ := do
  if world.kzallocAttachPriv then
    acquire .attachPriv
    if world.sgAllocTable then
      acquire .attachEntries
      pure 0
    else
      release .attachPriv
      pure (-ENOMEM)
  else
    pure (-ENOMEM)

def dmaBufAttach : Creation Pointer := do
  if world.kzallocAttachment then
    acquire .attachment
    let ret ← al5DmabufAttach world
    if ret ≠ 0 then
      release .attachment
      pure (.err ret)
    else
      pure .valid
  else
    pure (.err (-ENOMEM))

/-- `al5_dmabuf_map`, on a fresh attachment. -/
def al5DmabufMap : Creation Pointer := do
  if world.dmaMapSg then
    acquire .mapping
    pure .valid
  else
    pure (.err (- EIO))

/-- `dma_buf_detach`, with `al5_dmabuf_detach`: a mapping is undone here. -/
def dmaBufDetach (mapped : Bool) : Creation Unit := do
  if mapped then
    release .mapping
  release .attachEntries
  release .attachPriv
  release .attachment

/-- `al5_dmabuf_get_address`, from the attachment to `fail_attach`. -/
def attachAndMap (phyAddr : Word) : Creation (ℤ × Word) := do
  let attach ← dmaBufAttach world
  if attach = .valid then
    let sgt ← al5DmabufMap world
    dmaBufDetach (sgt = .valid)
    pure (if sgt = .valid then (0, world.busAddress) else (-EINVAL, phyAddr))
  else
    pure (-EINVAL, phyAddr)

def al5DmabufGetAddress (fd phyAddr : Word) : Creation (ℤ × Word) := do
  let dbuf ← dmaBufGet fd
  if dbuf = .valid then
    let result ← attachAndMap world phyAddr
    release .dmaBufReference
    pure result
  else
    pure (-EINVAL, phyAddr)

/-! ## The request -/

/-- `al5_ioctl_get_dma_fd`: the error, and what reaches the caller. -/
def al5IoctlGetDmaFd : Creation (ℤ × Option Al5DmaInfo) := do
  match world.copyFromUser with
  | none => pure (-EFAULT, none)
  | some info => do
      let (err, fd) ← al5AllocateDmabuf world info.fd
      if err ≠ 0 then
        pure (err, none)
      else
        let (err, phyAddr) ← al5DmabufGetAddress world fd info.phyAddr
        if err ≠ 0 then
          pure (err, none)
        else if world.copyToUser then
          pure (0, some { info with fd := fd, phyAddr := phyAddr })
        else
          pure (-EFAULT, none)

/-! ## Atomicity -/

def WrapAtomic : Prop :=
  ∀ held error, ((al5DmabufWrap world.toWrapOutcomes).run held).1 = .err error →
    ((al5DmabufWrap world.toWrapOutcomes).run held).2 = held

/-- A buffer, a dma-buf or a descriptor. -/
def Resource.Created : Resource → Prop
  | .dmaRecord | .dmaMemory | .dmaBuf | .fd _ => True
  | _ => False

/-- The request gives the caller a descriptor that exists. -/
def Delivers (result : ℤ × Option Al5DmaInfo) (held : List Resource) : Prop :=
  result.1 = 0 ∧ ∃ info, result.2 = some info ∧ .fd info.fd.toInt ∈ held

/-- A request that does not deliver leaves no buffer, no dma-buf and no
descriptor. -/
def GetDmaFdAtomic : Prop :=
  ¬ Delivers ((al5IoctlGetDmaFd world).run []).1 ((al5IoctlGetDmaFd world).run []).2 →
    ∀ resource ∈ ((al5IoctlGetDmaFd world).run []).2, ¬ resource.Created

def World.allocates : Bool :=
  world.kmallocBuffer && world.dmaAllocCoherent

def World.attaches : Bool :=
  (world.kzallocAttachment && (world.kzallocAttachPriv && world.sgAllocTable)) &&
    world.dmaMapSg

/-! ## Runs -/

theorem run_al5AllocDma (held : List Resource) :
    (al5AllocDma world).run held =
      if world.allocates then
        (true, .dmaMemory :: .dmaRecord :: held)
      else
        (false, held) := by
  unfold al5AllocDma World.allocates
  cases world.kmallocBuffer
  · rfl
  · cases world.dmaAllocCoherent
    · exact congrArg (Prod.mk false) (List.erase_cons_head _ _)
    · rfl

theorem run_al5CreateDmabufFd (held : List Resource) :
    (al5CreateDmabufFd world).run held =
      if world.wraps then
        if 0 ≤ world.dmaBufFd.val then
          (world.dmaBufFd.val,
            .fd world.dmaBufFd.val :: .dmaBuf :: world.wrapParts held)
        else
          (world.dmaBufFd.val, .dmaBuf :: world.wrapParts held)
      else
        (world.wrapError, world.wrapParts held) := by
  unfold al5CreateDmabufFd
  rw [run_bind, run_al5DmabufWrap]
  cases world.wraps with
  | false => rfl
  | true =>
      by_cases hfd : 0 ≤ world.dmaBufFd.val
      · rw [if_pos rfl, if_pos rfl, if_pos hfd]
        simp only [if_pos hfd]
        rfl
      · rw [if_pos rfl, if_pos rfl, if_neg hfd]
        simp only [if_neg hfd]
        rfl

/-- The descriptor field after an allocation of the buffer. -/
def World.fdField : ℤ :=
  if world.wraps then world.dmaBufFd.val else world.wrapError

theorem run_al5AllocateDmabuf (fd : Word) (held : List Resource) :
    (al5AllocateDmabuf world fd).run held =
      if world.allocates then
        ((0, BitVec.ofInt 32 world.fdField),
          ((al5CreateDmabufFd world).run (.dmaMemory :: .dmaRecord :: held)).2)
      else
        ((-ENOMEM, fd), held) := by
  unfold al5AllocateDmabuf World.fdField
  rw [run_bind, run_al5AllocDma]
  cases world.allocates with
  | false => rfl
  | true =>
      simp only [if_true, run_bind, run_al5CreateDmabufFd]
      cases world.wraps with
      | false => rfl
      | true =>
          by_cases hfd : 0 ≤ world.dmaBufFd.val
          · simp only [if_true, if_pos hfd]
            rfl
          · simp only [if_true, if_neg hfd]
            rfl

def attached : List Resource :=
  [.attachEntries, .attachPriv, .attachment]

theorem run_dmaBufAttach (held : List Resource) :
    (dmaBufAttach world).run held =
      if world.kzallocAttachment && (world.kzallocAttachPriv && world.sgAllocTable)
      then (.valid, attached ++ held)
      else (.err (-ENOMEM), held) := by
  unfold dmaBufAttach al5DmabufAttach
  cases world.kzallocAttachment with
  | false => rfl
  | true =>
      cases world.kzallocAttachPriv with
      | false => exact congrArg (Prod.mk _) (List.erase_cons_head _ _)
      | true =>
          cases world.sgAllocTable with
          | false =>
              refine congrArg (Prod.mk _) ?_
              have hpriv := List.erase_cons_head Resource.attachPriv
                (.attachment :: held)
              change ((Resource.attachPriv :: .attachment :: held).erase _).erase _ = _
              rw [hpriv, List.erase_cons_head]
          | true => rfl

theorem run_dmaBufDetach (mapped : Bool) (held : List Resource) :
    (dmaBufDetach mapped).run
        ((if mapped then [.mapping] else []) ++ attached ++ held) = ((), held) := by
  have hdetach : (((attached ++ held).erase Resource.attachEntries).erase
      Resource.attachPriv).erase Resource.attachment = held := by
    unfold attached
    simp only [List.cons_append, List.nil_append, List.erase_cons_head]
  cases mapped with
  | false => exact congrArg (Prod.mk ()) hdetach
  | true =>
      refine congrArg (Prod.mk ()) ?_
      have hmapping := List.erase_cons_head Resource.mapping (attached ++ held)
      rw [← hmapping] at hdetach
      exact hdetach

theorem run_al5DmabufMap (held : List Resource) :
    (al5DmabufMap world).run held =
      (if world.dmaMapSg then .valid else .err (- EIO),
        (if world.dmaMapSg then [.mapping] else []) ++ held) := by
  unfold al5DmabufMap
  cases world.dmaMapSg
  · rfl
  · rfl

theorem run_attachAndMap (phyAddr : Word) (held : List Resource) :
    (attachAndMap world phyAddr).run held =
      (if world.attaches then (0, world.busAddress) else (-EINVAL, phyAddr), held) := by
  unfold attachAndMap World.attaches
  rw [run_bind, run_dmaBufAttach]
  cases hattach : world.kzallocAttachment &&
      (world.kzallocAttachPriv && world.sgAllocTable) with
  | false => rfl
  | true =>
      simp only [if_true, run_bind, run_al5DmabufMap]
      cases world.dmaMapSg with
      | false => exact congrArg (Prod.mk _) (congrArg Prod.snd (run_dmaBufDetach false held))
      | true => exact congrArg (Prod.mk _) (congrArg Prod.snd (run_dmaBufDetach true held))

theorem run_dmaBufGet (fd : Word) (held : List Resource) :
    (dmaBufGet fd).run held =
      if .fd fd.toInt ∈ held then (.valid, .dmaBufReference :: held)
      else (.err (-EINVAL), held) := by
  have hrun : (dmaBufGet fd).run held =
      (if .fd fd.toInt ∈ held then do
        acquire .dmaBufReference
        pure Pointer.valid
      else pure (.err (-EINVAL)) : Creation Pointer).run held := rfl
  rw [hrun]
  split
  · rfl
  · rfl

/-- The look-up of the address gives back all it takes. -/
theorem run_al5DmabufGetAddress (fd phyAddr : Word) (held : List Resource) :
    (al5DmabufGetAddress world fd phyAddr).run held =
      (if .fd fd.toInt ∈ held ∧ world.attaches = true then (0, world.busAddress)
        else (-EINVAL, phyAddr), held) := by
  unfold al5DmabufGetAddress
  rw [run_bind, run_dmaBufGet]
  by_cases hfd : .fd fd.toInt ∈ held
  · simp only [if_true, run_bind, run_attachAndMap, run_release,
      List.erase_cons_head, hfd, true_and]
    rfl
  · simp only [hfd, false_and, if_false]
    rfl

/-! ## When a creation is atomic -/

/-- What the buffer leads to when it was allocated. -/
def World.kept : List Resource :=
  ((al5CreateDmabufFd world).run [.dmaMemory, .dmaRecord]).2

theorem kept_eq :
    world.kept =
      (if world.wraps then
        (if 0 ≤ world.dmaBufFd.val then [.fd world.dmaBufFd.val] else []) ++ [.dmaBuf]
      else []) ++ world.wrapParts [.dmaMemory, .dmaRecord] := by
  unfold World.kept
  rw [run_al5CreateDmabufFd]
  split
  · split
    · rfl
    · rfl
  · rfl

theorem fd_not_mem_wrapParts (value : ℤ) :
    .fd value ∉ world.wrapParts [.dmaMemory, .dmaRecord] := by
  intro hmem
  rcases mem_wrapParts world.toWrapOutcomes _ _ hmem with hheld | htables | hdevice | hpriv
  · simp at hheld
  · unfold WrapOutcomes.tables at htables
    split at htables
    · simp at htables
    · exact absurd htables List.not_mem_nil
  · exact Resource.noConfusion hdevice
  · exact Resource.noConfusion hpriv

/-- A descriptor stands in the field exactly when one was installed. -/
theorem fd_mem_kept_iff :
    .fd (BitVec.ofInt 32 world.fdField).toInt ∈ world.kept ↔
      world.wraps = true ∧ 0 ≤ world.dmaBufFd.val := by
  have hlow := world.dmaBufFd.property.1
  have hhigh := world.dmaBufFd.property.2
  have hnone := fd_not_mem_wrapParts world
  rw [kept_eq]
  unfold World.fdField
  cases world.wraps with
  | false =>
      refine iff_of_false ?_ (by simp)
      exact hnone _
  | true =>
      rw [if_pos rfl, if_pos rfl, BitVec.toInt_ofInt,
        Int.bmod_eq_of_le (by omega) (by omega)]
      by_cases hfd : 0 ≤ world.dmaBufFd.val
      · rw [if_pos hfd]
        exact iff_of_true List.mem_cons_self ⟨rfl, hfd⟩
      · rw [if_neg hfd]
        refine iff_of_false ?_ (fun hboth => hfd hboth.2)
        intro hmem
        rcases List.mem_cons.mp hmem with heq | hmem
        · exact Resource.noConfusion heq
        · exact hnone _ hmem

theorem dmaRecord_mem_kept : Resource.dmaRecord ∈ world.kept := by
  rw [kept_eq]
  apply List.mem_append_right
  exact subset_wrapParts world.toWrapOutcomes _ (by simp)

/-- Everything a request needs is given. -/
def World.completes : Prop :=
  world.wraps = true ∧ 0 ≤ world.dmaBufFd.val ∧ world.attaches = true ∧
    world.copyToUser = true

/-- Once the buffer is allocated, a request gives nothing back. -/
theorem run_al5IoctlGetDmaFd {info : Al5DmaInfo}
    (hinfo : world.copyFromUser = some info) (hallocates : world.allocates = true) :
    (al5IoctlGetDmaFd world).run [] =
      (if (world.wraps = true ∧ 0 ≤ world.dmaBufFd.val) ∧ world.attaches = true then
        if world.copyToUser then
          (0, some {
            info with
              fd := BitVec.ofInt 32 world.fdField
              phyAddr := world.busAddress })
        else (-EFAULT, none)
      else (-EINVAL, none), world.kept) := by
  have hmem := fd_mem_kept_iff world
  unfold al5IoctlGetDmaFd
  rw [hinfo]
  dsimp only
  rw [run_bind, run_al5AllocateDmabuf, hallocates, if_pos rfl]
  dsimp only
  rw [if_neg (by decide), run_bind, run_al5DmabufGetAddress]
  change _ = (_, world.kept)
  by_cases hgood : (world.wraps = true ∧ 0 ≤ world.dmaBufFd.val) ∧
      world.attaches = true
  · have hin : .fd (BitVec.ofInt 32 world.fdField).toInt ∈ world.kept ∧
        world.attaches = true := ⟨hmem.mpr hgood.1, hgood.2⟩
    rw [if_pos hgood]
    unfold World.kept at hin ⊢
    rw [if_pos hin]
    dsimp only
    rw [if_neg (by decide)]
    cases world.copyToUser
    · rfl
    · rfl
  · have hout : ¬ (.fd (BitVec.ofInt 32 world.fdField).toInt ∈ world.kept ∧
        world.attaches = true) := fun hin => hgood ⟨hmem.mp hin.1, hin.2⟩
    rw [if_neg hgood]
    unfold World.kept at hout ⊢
    rw [if_neg hout]
    rfl

theorem wrapAtomic_iff :
    WrapAtomic world ↔ world.kzallocPriv = false ∨ world.wraps = true := by
  unfold WrapAtomic
  cases hwraps : world.wraps with
  | true =>
      refine iff_of_true ?_ (.inr rfl)
      intro held error herror
      rw [run_al5DmabufWrap, hwraps] at herror
      exact Pointer.noConfusion herror
  | false =>
      have hrun := run_al5DmabufWrap world.toWrapOutcomes
      rw [hwraps] at hrun
      cases hpriv : world.kzallocPriv with
      | false =>
          refine iff_of_true ?_ (.inl rfl)
          intro held error _
          rw [hrun held]
          unfold WrapOutcomes.wrapParts
          rw [hpriv]
          rfl
      | true =>
          refine iff_of_false ?_ (by simp)
          intro hatomic
          have hsame := hatomic [] world.wrapError (by rw [hrun []]; rfl)
          rw [hrun []] at hsame
          unfold WrapOutcomes.wrapParts at hsame
          rw [hpriv] at hsame
          simp at hsame

theorem getDmaFdAtomic_iff :
    GetDmaFdAtomic world ↔
      world.copyFromUser = none ∨ world.allocates = false ∨ world.completes := by
  cases hinfo : world.copyFromUser with
  | none =>
      refine iff_of_true ?_ (.inl rfl)
      intro _ resource hmem
      unfold al5IoctlGetDmaFd at hmem
      rw [hinfo] at hmem
      exact absurd hmem List.not_mem_nil
  | some info =>
      cases hallocates : world.allocates with
      | false =>
          refine iff_of_true ?_ (.inr (.inl rfl))
          intro _ resource hmem
          unfold al5IoctlGetDmaFd at hmem
          rw [hinfo] at hmem
          dsimp only at hmem
          rw [run_bind, run_al5AllocateDmabuf, hallocates] at hmem
          exact absurd hmem List.not_mem_nil
      | true =>
          have hrun := run_al5IoctlGetDmaFd world hinfo hallocates
          unfold GetDmaFdAtomic World.completes
          rw [hrun]
          by_cases hall : (world.wraps = true ∧ 0 ≤ world.dmaBufFd.val) ∧
              world.attaches = true ∧ world.copyToUser = true
          · obtain ⟨hfd, hattaches, hcopy⟩ := hall
            refine iff_of_true ?_ (.inr (.inr ⟨hfd.1, hfd.2, hattaches, hcopy⟩))
            intro hnot
            refine absurd ?_ hnot
            rw [if_pos ⟨hfd, hattaches⟩, hcopy]
            exact ⟨rfl, _, rfl, (fd_mem_kept_iff world).mpr hfd⟩
          · refine iff_of_false ?_ ?_
            · intro hatomic
              refine hatomic ?_ .dmaRecord (dmaRecord_mem_kept world) trivial
              rintro ⟨hzero, _⟩
              dsimp only at hzero
              split at hzero
              · rename_i hgood
                split at hzero
                · rename_i hcopy
                  exact hall ⟨hgood.1, hgood.2, hcopy⟩
                · exact absurd hzero (by decide)
              · exact absurd hzero (by decide)
            · rintro (hnone | hfalse | ⟨hwraps, hfd, hattaches, hcopy⟩)
              · exact absurd hnone (Option.some_ne_none info)
              · exact absurd hfalse (by decide)
              · exact hall ⟨⟨hwraps, hfd⟩, hattaches, hcopy⟩

/-- A wrap is atomic exactly when it does not start or succeeds, and a request
exactly when it allocates nothing or succeeds. -/
theorem creation_atomic_iff :
    (WrapAtomic world ↔ world.kzallocPriv = false ∨ world.wraps = true) ∧
      (GetDmaFdAtomic world ↔
        world.copyFromUser = none ∨ world.allocates = false ∨ world.completes) :=
  ⟨wrapAtomic_iff world, getDmaFdAtomic_iff world⟩

theorem isFd_three : -4095 ≤ (3 : ℤ) ∧ (3 : ℤ) < 2 ^ 31 := by
  omega

def exportRefused : World where
  copyFromUser := some ⟨0, 4096, 0⟩
  kmallocBuffer := true
  dmaAllocCoherent := true
  kzallocPriv := true
  kzallocSgt _ := true
  dmaGetSgtable _ := true
  dmaBufExport := false
  dmaBufFd := ⟨3, isFd_three⟩
  kzallocAttachment := true
  kzallocAttachPriv := true
  sgAllocTable := true
  dmaMapSg := true
  busAddress := 0
  copyToUser := true

theorem not_atomic_exportRefused :
    ¬ ∀ world : World, WrapAtomic world ∧ GetDmaFdAtomic world := by
  intro hall
  rcases (wrapAtomic_iff exportRefused).mp (hall exportRefused).1 with hpriv | hwraps
  · exact absurd hpriv (by decide)
  · exact absurd hwraps (by decide)

end DmabufCreation

end VcuDriver

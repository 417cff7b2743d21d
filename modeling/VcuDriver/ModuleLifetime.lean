import VcuDriver.Conc.Outline
import VcuDriver.Mail

/-!
# The life of a module

`al5e_init` and `al5e_exit` load and unload the encoder's module, `al5e_probe` and
`al5e_remove` bind and unbind one platform device; the decoder's module is the same.
The kernel makes these calls one after the other (the probes of the devices it has when
the driver is registered come last in `al5e_init`, and here after it), and between any
two of their steps files are opened, used and closed.

Every kernel function called may fail, and so may the bring-up of a codec, of which only
the end is seen here: what a bring-up that fails leaves of its own allocations, such as
the table of users, is not followed.  Two names are given once for all: that of the class and that of
the node of a device, so that the kernel refuses the second of either.
-/

namespace VcuDriver.ModuleLife

open Conc

/-! ## The state -/

/-- A `struct al5_codec_desc`: set up and not torn down, firmware booted, `minor`. -/
structure Codec where
  setUp : Bool
  booted : Bool
  minor : ℕ
  deriving DecidableEq

inductive InitEnd where
  | noRegion
  | noClass
  | noDriver
  | loaded
  deriving DecidableEq

/-- The module and what it holds in the kernel.  `codecs` is the memory of the probed
devices, `cdevs` says which device answers for a minor, `withdrawing` is the device which
is being removed, or whose node could not be created; `inits` and `probed` list the
calls of `al5e_init` and count the successful probes since the module was loaded. -/
structure Module where
  loaded : Bool
  major : ℕ
  currentMinor : ℕ
  regions : List ℕ
  moduleClass : Bool
  driver : Bool
  codecs : ℕ → Option Codec
  cdevs : List (ℕ × ℕ)
  nodes : List ℕ
  bound : List ℕ
  withdrawing : Option ℕ
  inits : List InitEnd
  probed : ℕ

def unloaded : Module where
  loaded := false
  major := 0
  currentMinor := 0
  regions := []
  moduleClass := false
  driver := false
  codecs _ := none
  cdevs := []
  nodes := []
  bound := []
  withdrawing := none
  inits := []
  probed := 0

/-! ## Actions -/

inductive KernelCall where
  | allocChrdevRegion
  | classCreate
  | platformDriverRegister
  | devmKzalloc (pdev : ℕ)
  | al5CodecSetUp (pdev : ℕ)
  | al5CodecSetFirmware (pdev : ℕ)
  | cdevAdd (pdev minor : ℕ)
  | deviceCreate (pdev minor : ℕ)

/-- The functions that do not fail, the writes of the module's variables, and what the
kernel does around the calls of the module. -/
inductive KernelStep where
  | classDestroy
  | unregisterChrdevRegion
  | driverUnregister
  | al5CodecTearDown (pdev : ℕ)
  | cdevDel (pdev : ℕ)
  | deviceDestroy (minor : ℕ)
  | setCodecMinor (pdev minor : ℕ)
  | incCurrentMinor
  | load
  | initReturned (ret : ℤ)
  | unload
  | probeReturned (pdev : ℕ) (ret : ℤ)
  | beginRemove (pdev : ℕ)
  | devresRelease (pdev : ℕ)

inductive ModuleAct where
  | call (call : KernelCall)
  | step (step : KernelStep)
  | getMajor
  | getCurrentMinor
  | getCodecMinor (pdev : ℕ)
  | boundDevices

abbrev ModuleAct.Res : ModuleAct → Type
  | .call _ => ℤ
  | .step _ => Unit
  | .getMajor | .getCurrentMinor | .getCodecMinor _ => ℕ
  | .boundDevices => List ℕ

abbrev ModuleProg (α : Type) : Type :=
  Prog ModuleAct ModuleAct.Res α

/-- The kernel's part in an action; a success may give a new major. -/
inductive Outcome where
  | succeed (major : ℕ)
  | fail (err : ℤ)

namespace Module

variable (m : Module)

def canSucceed (major : ℕ) : KernelCall → Bool
  | .allocChrdevRegion => major ≠ 0 && !m.regions.contains major
  | .classCreate => !m.moduleClass
  | .deviceCreate .. => m.nodes.isEmpty
  | _ => true

def changeCodec (pdev : ℕ) (change : Codec → Codec) : Module :=
  { m with codecs := Function.update m.codecs pdev ((m.codecs pdev).map change) }

def succeeded (major : ℕ) : KernelCall → Module
  | .allocChrdevRegion => { m with major, regions := major :: m.regions }
  | .classCreate => { m with moduleClass := true }
  | .platformDriverRegister => { m with driver := true }
  | .devmKzalloc pdev =>
      { m with codecs := Function.update m.codecs pdev (some ⟨false, false, 0⟩) }
  | .al5CodecSetUp pdev => m.changeCodec pdev fun codec => { codec with setUp := true }
  | .al5CodecSetFirmware pdev => m.changeCodec pdev fun codec => { codec with booted := true }
  | .cdevAdd pdev minor => { m with cdevs := (minor, pdev) :: m.cdevs }
  | .deviceCreate _ minor => { m with nodes := minor :: m.nodes }

def failed : KernelCall → Module
  | .allocChrdevRegion => { m with major := 0, inits := .noRegion :: m.inits }
  | .classCreate => { m with inits := .noClass :: m.inits }
  | .platformDriverRegister => { m with inits := .noDriver :: m.inits }
  | .deviceCreate pdev _ => { m with withdrawing := some pdev }
  | _ => m

def after : KernelStep → Module
  | .classDestroy => { m with moduleClass := false }
  | .unregisterChrdevRegion => { m with regions := m.regions.erase m.major }
  | .driverUnregister => { m with driver := false }
  | .al5CodecTearDown pdev =>
      m.changeCodec pdev fun codec => { codec with setUp := false, booted := false }
  | .cdevDel pdev => { m with cdevs := m.cdevs.filter fun entry => entry.2 ≠ pdev }
  | .deviceDestroy minor => { m with nodes := m.nodes.erase minor }
  | .setCodecMinor pdev minor => m.changeCodec pdev fun codec => { codec with minor }
  | .incCurrentMinor => { m with currentMinor := m.currentMinor + 1 }
  | .load => { m with major := 0, currentMinor := 0, probed := 0 }
  | .initReturned ret =>
      if ret = 0 then { m with loaded := true, inits := .loaded :: m.inits } else m
  | .unload => { m with loaded := false }
  | .probeReturned pdev ret =>
      if ret = 0 then { m with bound := pdev :: m.bound, probed := m.probed + 1 }
      else
        { m with
          codecs := Function.update m.codecs pdev none
          withdrawing := none }
  | .beginRemove pdev => { m with withdrawing := some pdev }
  | .devresRelease pdev =>
      { m with
        codecs := Function.update m.codecs pdev none
        bound := m.bound.erase pdev
        withdrawing := none }

def act : (action : ModuleAct) → Outcome → Option (action.Res × Module)
  | .call call, .succeed major =>
      if m.canSucceed major call then some (0, m.succeeded major call) else none
  | .call call, .fail err => if err < 0 then some (err, m.failed call) else none
  | .step step, .succeed _ => some ((), m.after step)
  | .getMajor, .succeed _ => some (m.major, m)
  | .getCurrentMinor, .succeed _ => some (m.currentMinor, m)
  | .getCodecMinor pdev, .succeed _ => some (((m.codecs pdev).map Codec.minor).getD 0, m)
  | .boundDevices, .succeed _ => some (m.bound, m)
  | _, .fail _ => none

def running (pdev : ℕ) : Bool :=
  (m.codecs pdev).any fun codec => codec.setUp && codec.booted

end Module

/-! ## The module -/

def al5SetupChrdevRegion : ModuleProg ℤ := do
  let major ← Prog.perform ModuleAct.getMajor
  if major = 0 then
    let err ← Prog.perform (ModuleAct.call .allocChrdevRegion)
    if err ≠ 0 then pure err else pure 0
  else
    pure 0

def al5eInit : ModuleProg ℤ := do
  let err ← al5SetupChrdevRegion
  if err ≠ 0 then
    pure err
  else
    let err ← Prog.perform (ModuleAct.call .classCreate)
    if err ≠ 0 then
      pure err
    else
      Prog.perform (ModuleAct.call .platformDriverRegister)

def al5eSetupCodecCdev (pdev minor : ℕ) : ModuleProg ℤ := do
  let err ← Prog.perform (ModuleAct.call (.cdevAdd pdev minor))
  if err ≠ 0 then
    pure err
  else
    let err ← Prog.perform (ModuleAct.call (.deviceCreate pdev minor))
    if err ≠ 0 then
      Prog.perform (ModuleAct.step (.cdevDel pdev))
      pure err
    else
      pure 0

def al5eProbe (pdev : ℕ) : ModuleProg ℤ := do
  let err ← Prog.perform (ModuleAct.call (.devmKzalloc pdev))
  if err ≠ 0 then
    pure (-ENOMEM)
  else
    let err ← Prog.perform (ModuleAct.call (.al5CodecSetUp pdev))
    if err ≠ 0 then
      pure err
    else
      let err ← Prog.perform (ModuleAct.call (.al5CodecSetFirmware pdev))
      if err ≠ 0 then
        Prog.perform (ModuleAct.step (.al5CodecTearDown pdev))
        pure err
      else
        let minor ← Prog.perform ModuleAct.getCurrentMinor
        let err ← al5eSetupCodecCdev pdev minor
        if err ≠ 0 then
          Prog.perform (ModuleAct.step (.al5CodecTearDown pdev))
          pure err
        else
          let minor ← Prog.perform ModuleAct.getCurrentMinor
          Prog.perform (ModuleAct.step (.setCodecMinor pdev minor))
          Prog.perform (ModuleAct.step .incCurrentMinor)
          pure 0

def al5eRemove (pdev : ℕ) : ModuleProg ℤ := do
  let minor ← Prog.perform (ModuleAct.getCodecMinor pdev)
  Prog.perform (ModuleAct.step (.al5CodecTearDown pdev))
  Prog.perform (ModuleAct.step (.deviceDestroy minor))
  Prog.perform (ModuleAct.step (.cdevDel pdev))
  pure 0

/-- The kernel removes a device, and frees what is managed for it. -/
def driverRemove (pdev : ℕ) : ModuleProg Unit := do
  Prog.perform (ModuleAct.step (.beginRemove pdev))
  let _ ← al5eRemove pdev
  Prog.perform (ModuleAct.step (.devresRelease pdev))

def removeAll : List ℕ → ModuleProg Unit
  | [] => pure ()
  | pdev :: rest => do
      driverRemove pdev
      removeAll rest

/-- `platform_driver_unregister` removes the devices which are bound. -/
def platformDriverUnregister : ModuleProg Unit := do
  let bound ← Prog.perform ModuleAct.boundDevices
  removeAll bound
  Prog.perform (ModuleAct.step .driverUnregister)

def al5eExit : ModuleProg Unit := do
  platformDriverUnregister
  Prog.perform (ModuleAct.step .classDestroy)
  Prog.perform (ModuleAct.step .unregisterChrdevRegion)

/-! ## The machine -/

inductive ModuleOp where
  | init
  | probe (pdev : ℕ)
  | remove (pdev : ℕ)
  | exit
  deriving DecidableEq

def moduleBody : ModuleOp → ModuleProg Unit
  | .init => do
      Prog.perform (ModuleAct.step .load)
      let ret ← al5eInit
      Prog.perform (ModuleAct.step (.initReturned ret))
  | .probe pdev => do
      let ret ← al5eProbe pdev
      Prog.perform (ModuleAct.step (.probeReturned pdev ret))
  | .remove pdev => driverRemove pdev
  | .exit => do
      al5eExit
      Prog.perform (ModuleAct.step .unload)

structure OpenFile where
  pdev : ℕ
  withdrawn : Bool
  deriving DecidableEq

/-- An operation of a file found the codec of its device running, or the device was
withdrawn since the file was opened. -/
structure Touch where
  running : Bool
  withdrawn : Bool
  deriving DecidableEq

/-- The module, the files of its devices, what their operations have found, and the call
in progress. -/
structure World where
  module : Module
  files : List OpenFile
  touched : List Touch
  active : Option ℕ

def start : World :=
  ⟨unloaded, [], [], none⟩

inductive FileEvent where
  | open (minor : ℕ)
  | use (file : ℕ)
  | close (file : ℕ)

namespace World

def withdraw (withdrawing : Option ℕ) (file : OpenFile) : OpenFile :=
  if withdrawing = some file.pdev then { file with withdrawn := true } else file

def setModule (world : World) (m : Module) : World :=
  { world with module := m, files := world.files.map (withdraw m.withdrawing) }

def touch (world : World) (file : OpenFile) : World :=
  { world with touched := ⟨world.module.running file.pdev, file.withdrawn⟩ :: world.touched }

/-- `al5_codec_open`, any operation of an open file, and `al5_codec_release`, as far as
they use the codec. -/
def file (world : World) : FileEvent → Option World
  | .open minor =>
      (world.module.cdevs.find? fun entry => entry.1 = minor).map fun entry =>
        let file := ⟨entry.2, decide (world.module.withdrawing = some entry.2)⟩
        { world.touch file with files := file :: world.files }
  | .use k => world.files[k]?.map world.touch
  | .close k =>
      world.files[k]?.map fun file =>
        { world.touch file with files := world.files.eraseIdx k }

end World

abbrev ModuleCall : Type :=
  Call ModuleAct ModuleAct.Res ModuleOp Unit

/-- A device is probed while it is not bound and removed while it is; the module is
loaded once, and unloaded while no file is open. -/
def mayEnter (world : World) : ModuleOp → Bool
  | .init => !world.module.loaded
  | .probe pdev => world.module.loaded && !world.module.bound.contains pdev
  | .remove pdev => world.module.bound.contains pdev
  | .exit => world.module.loaded && world.files.isEmpty

/-- The kernel makes one call at a time. -/
def moduleEnter (calls : List ModuleCall) (op : ModuleOp) (world : World) : Option World :=
  if (calls.all fun call => call.prog.finished) && mayEnter world op then
    some { world with active := some calls.length }
  else
    none

def moduleMachine :
    Machine World ModuleAct ModuleAct.Res Outcome ModuleOp Unit FileEvent where
  body := moduleBody
  enter := moduleEnter
  exec i _ action choice world :=
    if world.active = some i then
      (world.module.act action choice).map fun outcome =>
        (outcome.1, world.setModule outcome.2)
    else
      none
  env event world := world.file event

/-! ## What holds between two steps -/

namespace Module

def Live (m : Module) (pdev : ℕ) : Prop :=
  m.running pdev = true ∧ ∃ minor, (minor, pdev) ∈ m.cdevs

/-- A file can be opened of a codec only which runs, or whose device is withdrawn. -/
def Published (m : Module) : Prop :=
  ∀ minor pdev, (minor, pdev) ∈ m.cdevs →
    m.running pdev = true ∨ m.withdrawing = some pdev

/-- What a step owes to the open files. -/
structure StepOk (m m' : Module) : Prop where
  live : ∀ pdev, m.Live pdev → m'.Live pdev ∨ m'.withdrawing = some pdev
  published : m'.Published

/-- The module between two calls, when it has no device. -/
structure Idle (m : Module) : Prop where
  bound : m.bound = []
  cdevs : m.cdevs = []
  nodes : m.nodes = []

/-- The module between two calls, when it has a device. -/
structure Serves (m : Module) (pdev minor : ℕ) : Prop where
  loaded : m.loaded = true
  bound : m.bound = [pdev]
  cdevs : m.cdevs = [(minor, pdev)]
  nodes : m.nodes = [minor]
  codec : m.codecs pdev = some ⟨true, true, minor⟩
  probed : m.probed = minor + 1

/-- What a module holds between two calls: at most one device, with the minor which
counts the successful probes before it; of every failed `al5e_init` the region, and the
class if the driver could not be registered. -/
structure Rest (m : Module) : Prop where
  devices : m.Idle ∨ ∃ pdev minor, m.Serves pdev minor
  codecs : ∀ pdev, pdev ∉ m.bound → m.codecs pdev = none
  minors : m.currentMinor = m.probed
  withdrawing : m.withdrawing = none
  regions : m.regions.length =
    m.inits.count .noClass + m.inits.count .noDriver + if m.loaded then 1 else 0
  major : m.loaded = true → m.major ∈ m.regions
  moduleClass : m.moduleClass = (m.loaded || m.inits.contains .noDriver)
  driver : m.driver = m.loaded
  noDriver : m.loaded = true → .noDriver ∉ m.inits

section

variable {m m' : Module}

theorem StepOk.of_same
    (hpublished : m.Published) (hcodecs : m'.codecs = m.codecs)
    (hcdevs : m'.cdevs = m.cdevs) (hwithdrawing : m'.withdrawing = m.withdrawing) :
    StepOk m m' := by
  constructor
  · intro pdev hlive
    left
    unfold Live running
    rw [hcodecs, hcdevs]
    exact hlive
  · unfold Published running
    rw [hcodecs, hcdevs, hwithdrawing]
    exact hpublished

/-- A step which concerns one device. -/
theorem StepOk.of_other
    {p : ℕ} (hpublished : m.Published)
    (hcodecs : ∀ other, other ≠ p → m'.codecs other = m.codecs other)
    (hcdevs : ∀ minor other, other ≠ p →
      ((minor, other) ∈ m'.cdevs ↔ (minor, other) ∈ m.cdevs))
    (hwithdrawing : ∀ other, other ≠ p → m.withdrawing = some other →
      m'.withdrawing = some other)
    (hlive : m.Live p → m'.Live p ∨ m'.withdrawing = some p)
    (hshown : ∀ minor, (minor, p) ∈ m'.cdevs →
      m'.running p = true ∨ m'.withdrawing = some p) :
    StepOk m m' := by
  constructor
  · intro other hother
    by_cases heq : other = p
    · subst heq
      exact hlive hother
    · obtain ⟨hrunning, minor, hmem⟩ := hother
      refine .inl ⟨?_, minor, (hcdevs minor other heq).mpr hmem⟩
      unfold running
      rw [hcodecs other heq]
      exact hrunning
  · intro minor other hmem
    by_cases heq : other = p
    · subst heq
      exact hshown minor hmem
    · rcases hpublished minor other ((hcdevs minor other heq).mp hmem) with hrunning | hdrawn
      · left
        unfold running
        rw [hcodecs other heq]
        exact hrunning
      · exact .inr (hwithdrawing other heq hdrawn)

end

end Module

/-- Every operation of a file has found its codec running, or its device withdrawn. -/
structure WorldInv (world : World) : Prop where
  published : world.module.Published
  files : ∀ file ∈ world.files, file.withdrawn = true ∨ world.module.Live file.pdev
  withdrawing : ∀ pdev, world.module.withdrawing = some pdev →
    ∀ file ∈ world.files, file.pdev = pdev → file.withdrawn = true
  touched : ∀ touch ∈ world.touched, touch.running = true ∨ touch.withdrawn = true
  rest : world.active = none → world.module.Rest

def moduleOutline : Outline moduleMachine .free where
  inv := WorldInv
  rely i world world' := world'.active = world.active ∧
    (world.active = some i → world'.module = world.module)
  fresh i world := world.active ≠ some i
  post i _ _ world := world.active = some i → world.module.Rest
  rely_refl _ _ := ⟨rfl, fun _ => rfl⟩
  rely_trans := by
    rintro i world₁ world₂ world₃ ⟨hactive, hsame⟩ ⟨hactive', hsame'⟩
    exact ⟨hactive'.trans hactive,
      fun hi => (hsame' (hactive.trans hi)).trans (hsame hi)⟩
  fresh_rely := by
    rintro i world world' ⟨hactive, -⟩ hfresh
    rwa [hactive]
  post_rely := by
    rintro i op out world world' ⟨hactive, hsame⟩ hpost hi
    rw [hactive] at hi
    rw [hsame hi]
    exact hpost hi

/-- The call is in progress, and the module is as said. -/
structure At (i : ℕ) (m : Module) (world : World) : Prop where
  active : world.active = some i
  module : world.module = m

/-- The weakest precondition of a program of the module. -/
abbrev modWp {α : Type} (i : ℕ) (op : ModuleOp) (program : ModuleProg α)
    (post : α → World → Prop) (world : World) : Prop :=
  moduleOutline.wp i op program post world

theorem WorldInv.step
    {world : World} {m' : Module} (hinv : WorldInv world)
    (hok : world.module.StepOk m') (hactive : world.active ≠ none) :
    WorldInv (world.setModule m') := by
  refine ⟨hok.published, ?_, ?_, hinv.touched, fun hnone => absurd hnone hactive⟩
  · intro file hfile
    obtain ⟨old, hold, rfl⟩ := List.mem_map.mp hfile
    unfold World.withdraw
    split_ifs with hdrawn
    · exact .inl rfl
    · rcases hinv.files old hold with hwithdrawn | hlive
      · exact .inl hwithdrawn
      · exact .inr ((hok.live old.pdev hlive).resolve_right hdrawn)
  · intro pdev hpdev file hfile heq
    obtain ⟨old, hold, rfl⟩ := List.mem_map.mp hfile
    unfold World.withdraw at heq ⊢
    split_ifs at heq ⊢ with hdrawn
    · rfl
    · exact absurd (hpdev.trans (congrArg some heq.symm)) hdrawn

section

variable {α : Type} {i : ℕ} {op : ModuleOp} {m : Module} {world : World}
variable {post : α → World → Prop}

/-- The rule of an action. -/
theorem At.wp_act
    {action : ModuleAct} {next : action.Res → ModuleProg α} (hat : At i m world)
    (hstep : ∀ choice result m', m.Published → m.act action choice = some (result, m') →
      m.StepOk m' ∧ ∀ world', At i m' world' → modWp i op (next result) post world') :
    modWp i op (.act action next) post world := by
  intro world₁ hrely hinv choice result world₂ hexec _
  obtain ⟨hactive, hsame⟩ := hrely
  have hi : world₁.active = some i := hactive.trans hat.active
  have hm : world₁.module = m := (hsame hat.active).trans hat.module
  simp only [moduleMachine, hi, if_true, hm] at hexec
  obtain ⟨⟨result', m'⟩, hact, heq⟩ := Option.map_eq_some_iff.mp hexec
  obtain ⟨rfl, rfl⟩ := Prod.mk.inj heq
  obtain ⟨hok, hnext⟩ := hstep choice result' m' (hm ▸ hinv.published) hact
  refine ⟨hinv.step (hm ▸ hok) (by simp [hi]), ?_, hnext _ ⟨hi, rfl⟩⟩
  intro j hj
  refine ⟨rfl, fun hother => ?_⟩
  rw [hi] at hother
  exact absurd (Option.some.inj hother).symm hj

theorem At.wp_call
    {call : KernelCall} {next : ℤ → ModuleProg α} (hat : At i m world)
    (hsucceeds : ∀ major, m.Published → m.canSucceed major call = true →
      m.StepOk (m.succeeded major call) ∧
        ∀ world', At i (m.succeeded major call) world' → modWp i op (next 0) post world')
    (hfails : ∀ err, m.Published → err ≠ 0 → m.StepOk (m.failed call) ∧
      ∀ world', At i (m.failed call) world' → modWp i op (next err) post world') :
    modWp i op (.act (.call call) next) post world := by
  refine hat.wp_act fun choice result m' hpublished hact => ?_
  cases choice with
  | succeed major =>
      simp only [Module.act] at hact
      split_ifs at hact with hcan
      obtain ⟨rfl, rfl⟩ := Prod.mk.inj (Option.some.inj hact)
      exact hsucceeds major hpublished hcan
  | fail err =>
      simp only [Module.act] at hact
      split_ifs at hact with hneg
      obtain ⟨rfl, rfl⟩ := Prod.mk.inj (Option.some.inj hact)
      exact hfails _ hpublished hneg.ne

theorem At.wp_step
    {step : KernelStep} {next : Unit → ModuleProg α} (hat : At i m world)
    (hok : m.Published → m.StepOk (m.after step))
    (hnext : ∀ world', At i (m.after step) world' → modWp i op (next ()) post world') :
    modWp i op (.act (.step step) next) post world := by
  refine hat.wp_act fun choice result m' hpublished hact => ?_
  cases choice with
  | succeed major =>
      obtain ⟨-, rfl⟩ := Prod.mk.inj (Option.some.inj hact)
      exact ⟨hok hpublished, hnext⟩
  | fail err => cases hact

/-- The rule of an action which reads. -/
theorem At.wp_read
    {action : ModuleAct} {v : action.Res} {next : action.Res → ModuleProg α}
    (hat : At i m world)
    (hreads : ∀ major, m.act action (.succeed major) = some (v, m))
    (hfails : ∀ err, m.act action (.fail err) = none)
    (hnext : ∀ world', At i m world' → modWp i op (next v) post world') :
    modWp i op (.act action next) post world := by
  refine hat.wp_act fun choice result m' hpublished hact => ?_
  cases choice with
  | succeed major =>
      rw [hreads major] at hact
      obtain ⟨rfl, rfl⟩ := Prod.mk.inj (Option.some.inj hact)
      exact ⟨.of_same hpublished rfl rfl rfl, hnext⟩
  | fail err =>
      rw [hfails err] at hact
      cases hact

/-! ## Loading -/

/-- A module which is not loaded has no device. -/
theorem Module.Rest.idle (hrest : m.Rest) (hloaded : m.loaded = false) : m.Idle := by
  rcases hrest.devices with hidle | ⟨pdev, minor, hserves⟩
  · exact hidle
  · rw [hserves.loaded] at hloaded
    cases hloaded

theorem Module.Rest.codecs_of_idle (hrest : m.Rest) (hbound : m.bound = []) (pdev : ℕ) :
    m.codecs pdev = none :=
  hrest.codecs pdev (by simp [hbound])

/-- A failed `al5e_init` leaves the module as it is. -/
theorem At.wp_initFailed
    {err : ℤ} (hat : At i m world) (herr : err ≠ 0) (hrest : m.Rest) :
    modWp i op (Prog.perform (ModuleAct.step (.initReturned err)))
      (fun _ world => world.active = some i → world.module.Rest) world := by
  have hsame : m.after (.initReturned err) = m := if_neg herr
  refine hat.wp_step (fun hpublished => ?_) fun _ hat _ => ?_
  · rw [hsame]
    exact .of_same hpublished rfl rfl rfl
  · rw [hat.module, hsame]
    exact hrest

/-- The end of `al5e_init`: the class exists, and the driver is registered. -/
theorem At.wp_registerDriver
    {major other : ℕ}
    (hat : At i (((m.after .load).succeeded major .allocChrdevRegion).succeeded other
      .classCreate) world)
    (hrest : m.Rest) (hloaded : m.loaded = false) (hnoDriver : .noDriver ∉ m.inits) :
    modWp i op
      ((Prog.perform (ModuleAct.call .platformDriverRegister)).bind fun ret =>
        Prog.perform (ModuleAct.step (.initReturned ret)))
      (fun _ world => world.active = some i → world.module.Rest) world := by
  obtain ⟨hbound, hcdevs, hnodes⟩ := hrest.idle hloaded
  have hcodecs := hrest.codecs_of_idle hbound
  have hregions := hrest.regions
  rw [hloaded] at hregions
  refine hat.wp_call ?_ ?_
  · intro _ hpublished _
    refine ⟨.of_same hpublished rfl rfl rfl, fun _ hat => ?_⟩
    refine hat.wp_step (fun hpublished => .of_same hpublished rfl rfl rfl) fun _ hat => ?_
    intro _
    rw [hat.module]
    refine ⟨.inl ⟨hbound, hcdevs, hnodes⟩, fun pdev _ => hcodecs pdev, rfl,
      hrest.withdrawing, ?_, fun _ => ?_, ?_, rfl, fun _ => ?_⟩
    · simpa [Module.after, Module.succeeded] using hregions
    · simp [Module.after, Module.succeeded]
    · simp [Module.after, Module.succeeded]
    · simpa [Module.after, Module.succeeded] using hnoDriver
  · -- The region and the class stay.
    intro err hpublished herr
    refine ⟨.of_same hpublished rfl rfl rfl, fun _ hat => hat.wp_initFailed herr ?_⟩
    refine ⟨.inl ⟨hbound, hcdevs, hnodes⟩, fun pdev _ => hcodecs pdev, rfl,
      hrest.withdrawing, ?_, ?_, ?_, ?_, ?_⟩
    · simp [Module.after, Module.succeeded, Module.failed, hloaded, hregions]
      omega
    · simp [Module.after, Module.succeeded, Module.failed, hloaded]
    · simp [Module.after, Module.succeeded, Module.failed]
    · simp [Module.after, Module.succeeded, Module.failed, hloaded, hrest.driver]
    · simp [Module.after, Module.succeeded, Module.failed, hloaded]

/-- `al5e_init` with its region: the class is free unless a registration has failed. -/
theorem At.wp_createClass
    {major : ℕ} (hat : At i ((m.after .load).succeeded major .allocChrdevRegion) world)
    (hrest : m.Rest) (hloaded : m.loaded = false) :
    modWp i op
      ((do
        let err ← Prog.perform (ModuleAct.call .classCreate)
        if err ≠ 0 then
          pure err
        else
          Prog.perform (ModuleAct.call .platformDriverRegister) : ModuleProg ℤ).bind fun ret =>
            Prog.perform (ModuleAct.step (.initReturned ret)))
      (fun _ world => world.active = some i → world.module.Rest) world := by
  obtain ⟨hbound, hcdevs, hnodes⟩ := hrest.idle hloaded
  have hregions := hrest.regions
  have hclass := hrest.moduleClass
  rw [hloaded] at hregions hclass
  refine hat.wp_call ?_ ?_
  · intro _ hpublished hfree
    have hnone : m.moduleClass = false := (Bool.not_eq_true' _).mp hfree
    have hnoDriver : InitEnd.noDriver ∉ m.inits := by simpa [hnone] using hclass
    refine ⟨.of_same hpublished rfl rfl rfl, fun _ hat => ?_⟩
    exact hat.wp_registerDriver hrest hloaded hnoDriver
  · -- The region stays.
    intro err hpublished herr
    refine ⟨.of_same hpublished rfl rfl rfl, fun _ hat => ?_⟩
    simp only [Prog.ret_bind, Prog.pure_eq, if_pos herr]
    refine hat.wp_initFailed herr ?_
    refine ⟨.inl ⟨hbound, hcdevs, hnodes⟩, fun pdev _ => hrest.codecs_of_idle hbound pdev,
      rfl, hrest.withdrawing, ?_, ?_, ?_, ?_, ?_⟩
    · simp [Module.after, Module.succeeded, Module.failed, hloaded, hregions]
      omega
    · simp [Module.after, Module.succeeded, Module.failed, hloaded]
    · simp [Module.after, Module.succeeded, Module.failed, hloaded, hclass]
    · simp [Module.after, Module.succeeded, Module.failed, hloaded, hrest.driver]
    · simp [Module.after, Module.succeeded, Module.failed, hloaded]

theorem At.wp_init
    (hat : At i m world) (hrest : m.Rest) (hloaded : m.loaded = false) :
    modWp i op (moduleBody .init) (fun _ world => world.active = some i → world.module.Rest)
      world := by
  obtain ⟨hbound, hcdevs, hnodes⟩ := hrest.idle hloaded
  refine hat.wp_step (fun hpublished => .of_same hpublished rfl rfl rfl) fun _ hat => ?_
  refine hat.wp_read (fun _ => rfl) (fun _ => rfl) fun _ hat => ?_
  refine hat.wp_call ?_ ?_
  · intro _ hpublished _
    refine ⟨.of_same hpublished rfl rfl rfl, fun _ hat => ?_⟩
    exact hat.wp_createClass hrest hloaded
  · intro err hpublished herr
    refine ⟨.of_same hpublished rfl rfl rfl, fun _ hat => ?_⟩
    simp only [Prog.ret_bind, Prog.pure_eq, if_pos herr]
    refine hat.wp_initFailed herr ?_
    refine ⟨.inl ⟨hbound, hcdevs, hnodes⟩, fun pdev _ => hrest.codecs_of_idle hbound pdev,
      rfl, hrest.withdrawing, ?_, ?_, ?_, ?_, ?_⟩
    · simp [Module.after, Module.failed, hloaded, hrest.regions]
    · simp [Module.after, Module.failed, hloaded]
    · simp [Module.after, Module.failed, hloaded, hrest.moduleClass]
    · simp [Module.after, Module.failed, hloaded, hrest.driver]
    · simp [Module.after, Module.failed, hloaded]

/-! ## Probing -/

/-- A step which concerns a device that answers for no minor. -/
theorem Module.StepOk.of_hidden
    {m' : Module} {p : ℕ} (hpublished : m.Published)
    (hcodecs : ∀ other, other ≠ p → m'.codecs other = m.codecs other)
    (hcdevs : m'.cdevs = m.cdevs) (hhidden : ∀ minor, (minor, p) ∉ m.cdevs)
    (hwithdrawing : ∀ other, other ≠ p → m.withdrawing = some other →
      m'.withdrawing = some other) : m.StepOk m' := by
  refine .of_other hpublished hcodecs (fun _ _ _ => by rw [hcdevs]) hwithdrawing ?_ ?_
  · rintro ⟨-, minor, hmem⟩
    exact absurd hmem (hhidden minor)
  · intro minor hmem
    rw [hcdevs] at hmem
    exact absurd hmem (hhidden minor)

/-- A step which concerns the device that is withdrawn. -/
theorem Module.StepOk.of_withdrawn
    {m' : Module} {pdev : ℕ} (hpublished : m.Published)
    (hcodecs : ∀ other, other ≠ pdev → m'.codecs other = m.codecs other)
    (hcdevs : ∀ minor other, other ≠ pdev →
      ((minor, other) ∈ m'.cdevs ↔ (minor, other) ∈ m.cdevs))
    (hother : ∀ other, other ≠ pdev → m.withdrawing ≠ some other)
    (hwithdrawing : m'.withdrawing = some pdev) : m.StepOk m' :=
  .of_other hpublished hcodecs hcdevs
    (fun other hne hdrawn => absurd hdrawn (hother other hne))
    (fun _ => .inr hwithdrawing) (fun _ _ => .inr hwithdrawing)

def Module.probing (m : Module) (pdev : ℕ) (codec : Option Codec)
    (withdrawing : Option ℕ) : Module :=
  { m with codecs := Function.update m.codecs pdev codec, withdrawing }

theorem Module.changeCodec_probing
    (m : Module) (pdev : ℕ) (codec : Codec) (withdrawing : Option ℕ)
    (change : Codec → Codec) :
    (m.probing pdev (some codec) withdrawing).changeCodec pdev change =
      m.probing pdev (some (change codec)) withdrawing := by
  simp [probing, changeCodec]

/-- A device that is not bound answers for no minor. -/
theorem Module.Rest.hidden {pdev : ℕ} (hrest : m.Rest) (hnew : pdev ∉ m.bound)
    (minor : ℕ) : (minor, pdev) ∉ m.cdevs := by
  rcases hrest.devices with hidle | ⟨other, otherMinor, hserves⟩
  · rw [hidle.cdevs]
    exact List.not_mem_nil
  · rw [hserves.bound] at hnew
    rw [hserves.cdevs]
    intro hmem
    rw [List.mem_singleton] at hmem hnew
    exact hnew (Prod.mk.inj hmem).2

/-- A probe that fails leaves the module as it was. -/
theorem At.wp_probeFailed
    {pdev : ℕ} {err : ℤ} {codec : Option Codec} {withdrawing : Option ℕ}
    (hat : At i (m.probing pdev codec withdrawing) world) (herr : err ≠ 0)
    (hrest : m.Rest) (hnew : pdev ∉ m.bound)
    (hother : ∀ other, other ≠ pdev → withdrawing ≠ some other) :
    modWp i op (Prog.perform (ModuleAct.step (.probeReturned pdev err)))
      (fun _ world => world.active = some i → world.module.Rest) world := by
  have hbefore : (m.probing pdev codec withdrawing).after (.probeReturned pdev err) = m := by
    have hcodec : Function.update m.codecs pdev none = m.codecs := by
      rw [← hrest.codecs pdev hnew, Function.update_eq_self]
    obtain ⟨_, _, _, _, _, _, _, _, _, _, _, _, _⟩ := m
    have hwithdrawing := hrest.withdrawing
    simp only at hwithdrawing hcodec
    simp only [Module.after, if_neg herr, Module.probing, Function.update_idem, hcodec,
      hwithdrawing]
  refine hat.wp_step (fun hpublished => ?_) fun _ hat _ => ?_
  · rw [hbefore]
    refine .of_hidden (p := pdev) hpublished ?_ rfl (hrest.hidden hnew) ?_
    · intro other hne
      exact (Function.update_of_ne hne ..).symm
    · exact fun other hne hdrawn => absurd hdrawn (hother other hne)
  · rw [hat.module, hbefore]
    exact hrest

/-- The tear-down of a probe that fails. -/
theorem At.wp_probeTornDown
    {pdev : ℕ} {err : ℤ} {codec : Codec} {withdrawing : Option ℕ}
    (hat : At i (m.probing pdev (some codec) withdrawing) world) (herr : err ≠ 0)
    (hrest : m.Rest) (hnew : pdev ∉ m.bound)
    (hother : ∀ other, other ≠ pdev → withdrawing ≠ some other) :
    modWp i op (.act (.step (.al5CodecTearDown pdev)) fun _ =>
        Prog.perform (ModuleAct.step (.probeReturned pdev err)))
      (fun _ world => world.active = some i → world.module.Rest) world := by
  have htorn := m.changeCodec_probing pdev codec withdrawing
    fun codec => { codec with setUp := false, booted := false }
  refine hat.wp_step (fun hpublished => ?_) fun _ hat => ?_
  · refine .of_hidden hpublished ?_ rfl (hrest.hidden hnew) fun _ _ hdrawn => hdrawn
    intro other hne
    exact Function.update_of_ne hne ..
  · have hat' : At i (m.probing pdev (some { codec with setUp := false, booted := false })
        withdrawing) _ := ⟨hat.active, hat.module.trans htorn⟩
    exact hat'.wp_probeFailed herr hrest hnew hother

def Module.served (m : Module) (pdev : ℕ) : Module :=
  { m with
    codecs := Function.update m.codecs pdev (some ⟨true, true, m.currentMinor⟩)
    cdevs := (m.currentMinor, pdev) :: m.cdevs
    nodes := m.currentMinor :: m.nodes
    bound := pdev :: m.bound
    currentMinor := m.currentMinor + 1
    probed := m.probed + 1 }

theorem Module.Rest.served
    {pdev : ℕ} (hrest : m.Rest) (hidle : m.Idle) (hloaded : m.loaded = true) :
    (m.served pdev).Rest := by
  refine ⟨.inr ⟨pdev, m.currentMinor, ?_⟩, ?_, ?_, hrest.withdrawing, hrest.regions,
    hrest.major, hrest.moduleClass, hrest.driver, hrest.noDriver⟩
  · refine ⟨hloaded, ?_, ?_, ?_, Function.update_self .., ?_⟩
    · exact congrArg (pdev :: ·) hidle.bound
    · exact congrArg ((m.currentMinor, pdev) :: ·) hidle.cdevs
    · exact congrArg (m.currentMinor :: ·) hidle.nodes
    · exact congrArg (· + 1) hrest.minors.symm
  · intro other hmem
    have hne : other ≠ pdev := fun heq => hmem (heq ▸ List.mem_cons_self ..)
    have hbound : other ∉ m.bound := fun hold => hmem (List.mem_cons_of_mem _ hold)
    exact (Function.update_of_ne hne ..).trans (hrest.codecs other hbound)
  · exact congrArg (· + 1) hrest.minors

/-- The end of a probe: the codec takes its minor. -/
theorem At.wp_probeServed
    {pdev major other : ℕ}
    (hat : At i (((m.probing pdev (some ⟨true, true, 0⟩) m.withdrawing).succeeded major
      (.cdevAdd pdev m.currentMinor)).succeeded other
        (.deviceCreate pdev m.currentMinor)) world)
    (hrest : m.Rest) (hidle : m.Idle) (hloaded : m.loaded = true) :
    modWp i op
      (.act .getCurrentMinor fun minor => .act (.step (.setCodecMinor pdev minor)) fun _ =>
        .act (.step .incCurrentMinor) fun _ => .act (.step (.probeReturned pdev 0)) .ret)
      (fun _ world => world.active = some i → world.module.Rest) world := by
  refine hat.wp_read (fun _ => rfl) (fun _ => rfl) fun _ hat => ?_
  refine hat.wp_step (fun hpublished => ?_) fun _ hat => ?_
  · refine .of_other (p := pdev) hpublished
      (fun other hne => Function.update_of_ne hne ..) (fun _ _ _ => Iff.rfl)
      (fun _ _ h => h) ?_ ?_
    · rintro ⟨-, minor, hmem⟩
      refine .inl ⟨?_, minor, hmem⟩
      simp [Module.after, Module.changeCodec, Module.succeeded, Module.probing,
        Module.running]
    · intro minor _
      simp [Module.after, Module.changeCodec, Module.succeeded, Module.probing,
        Module.running]
  refine hat.wp_step (fun hpublished => .of_same hpublished rfl rfl rfl) fun _ hat => ?_
  refine hat.wp_step (fun hpublished => .of_same hpublished rfl rfl rfl) fun _ hat _ => ?_
  have hserved : ((((((m.probing pdev (some ⟨true, true, 0⟩) m.withdrawing).succeeded major
      (.cdevAdd pdev m.currentMinor)).succeeded other
        (.deviceCreate pdev m.currentMinor)).after
          (.setCodecMinor pdev m.currentMinor)).after .incCurrentMinor).after
            (.probeReturned pdev 0)) = m.served pdev := by
    simp [Module.after, Module.changeCodec, Module.succeeded, Module.probing,
      Module.served]
  rw [hat.module]
  exact hserved ▸ hrest.served hidle hloaded

/-- The node is refused, and the device answers no more. -/
theorem At.wp_probeRefused
    {pdev major : ℕ} {err : ℤ}
    (hat : At i (((m.probing pdev (some ⟨true, true, 0⟩) m.withdrawing).succeeded major
      (.cdevAdd pdev m.currentMinor)).failed (.deviceCreate pdev m.currentMinor)) world)
    (herr : err ≠ 0) (hrest : m.Rest) (hnew : pdev ∉ m.bound) :
    modWp i op
      (.act (.step (.cdevDel pdev)) fun _ => .act (.step (.al5CodecTearDown pdev)) fun _ =>
        Prog.perform (ModuleAct.step (.probeReturned pdev err)))
      (fun _ world => world.active = some i → world.module.Rest) world := by
  have hdrawn : ∀ other, other ≠ pdev → (some pdev : Option ℕ) ≠ some other :=
    fun other hne heq => hne (Option.some.inj heq).symm
  have hothers : ∀ minor other, (minor, other) ∈ m.cdevs → other ≠ pdev := by
    rintro minor other hmem rfl
    exact hrest.hidden hnew minor hmem
  have hmodule : (((m.probing pdev (some ⟨true, true, 0⟩) m.withdrawing).succeeded major
      (.cdevAdd pdev m.currentMinor)).failed (.deviceCreate pdev m.currentMinor)).after
        (.cdevDel pdev) = m.probing pdev (some ⟨true, true, 0⟩) (some pdev) := by
    simpa [Module.after, Module.failed, Module.succeeded, Module.probing] using hothers
  refine hat.wp_step (fun hpublished => ?_) fun _ hat => ?_
  · refine .of_withdrawn hpublished (fun _ _ => rfl) ?_ hdrawn rfl
    intro minor other hne
    simp [Module.after, hne]
  · have hat' : At i (m.probing pdev (some ⟨true, true, 0⟩) (some pdev)) _ :=
      ⟨hat.active, hat.module.trans hmodule⟩
    exact hat'.wp_probeTornDown herr hrest hnew hdrawn

/-- The character device and its node. -/
theorem At.wp_probeBooted
    {pdev : ℕ}
    (hat : At i (m.probing pdev (some ⟨true, true, 0⟩) m.withdrawing) world)
    (hrest : m.Rest) (hloaded : m.loaded = true) (hnew : pdev ∉ m.bound) :
    modWp i op
      ((al5eSetupCodecCdev pdev m.currentMinor).bind fun err =>
        (if err ≠ 0 then do
          Prog.perform (ModuleAct.step (.al5CodecTearDown pdev))
          pure err
        else do
          let minor ← Prog.perform ModuleAct.getCurrentMinor
          Prog.perform (ModuleAct.step (.setCodecMinor pdev minor))
          Prog.perform (ModuleAct.step .incCurrentMinor)
          pure 0 : ModuleProg ℤ).bind fun ret =>
            Prog.perform (ModuleAct.step (.probeReturned pdev ret)))
      (fun _ world => world.active = some i → world.module.Rest) world := by
  have hhidden := hrest.hidden hnew
  have hnone : ∀ other, other ≠ pdev → m.withdrawing ≠ some other := fun other _ => by
    simp [hrest.withdrawing]
  refine hat.wp_call ?_ ?_
  · intro _ hpublished _
    refine ⟨?_, fun _ hat => ?_⟩
    · refine .of_other (p := pdev) hpublished (fun _ _ => rfl) ?_ (fun _ _ h => h) ?_ ?_
      · intro minor other hne
        simp [Module.succeeded, Module.probing, hne]
      · rintro ⟨-, minor, hmem⟩
        exact absurd hmem (hhidden minor)
      · intro minor _
        simp [Module.succeeded, Module.probing, Module.running]
    · refine hat.wp_call ?_ ?_
      · -- The kernel has no node of the name yet.
        intro _ hpublished hfree
        have hnodes : m.nodes = [] := List.isEmpty_iff.mp hfree
        have hidle : m.Idle := by
          rcases hrest.devices with hidle | ⟨other, minor, hserves⟩
          · exact hidle
          · rw [hserves.nodes] at hnodes
            exact absurd hnodes (List.cons_ne_nil _ _)
        refine ⟨.of_same hpublished rfl rfl rfl, fun _ hat => ?_⟩
        exact hat.wp_probeServed hrest hidle hloaded
      · intro err hpublished herr
        refine ⟨?_, fun _ hat => ?_⟩
        · exact .of_withdrawn hpublished (fun _ _ => rfl) (fun _ _ _ => Iff.rfl) hnone rfl
        · simp only [Prog.ret_bind, if_pos herr, Prog.bind_eq, Prog.perform_bind,
            Prog.act_bind, Prog.pure_eq]
          exact hat.wp_probeRefused herr hrest hnew
  · intro err hpublished herr
    refine ⟨.of_same hpublished rfl rfl rfl, fun _ hat => ?_⟩
    simp only [if_pos herr, Prog.pure_eq, Prog.ret_bind]
    exact hat.wp_probeTornDown herr hrest hnew hnone

theorem At.wp_probe
    {pdev : ℕ} (hat : At i m world) (hrest : m.Rest) (hloaded : m.loaded = true)
    (hnew : pdev ∉ m.bound) :
    modWp i op (moduleBody (.probe pdev))
      (fun _ world => world.active = some i → world.module.Rest) world := by
  have hhidden := hrest.hidden hnew
  have hnone : ∀ other, other ≠ pdev → m.withdrawing ≠ some other := fun other _ => by
    simp [hrest.withdrawing]
  have hENOMEM : -ENOMEM ≠ 0 := by decide
  have hsame : m.probing pdev none m.withdrawing = m := by
    unfold Module.probing
    rw [← hrest.codecs pdev hnew, Function.update_eq_self]
  have hchange : ∀ {codec : Codec} (change : Codec → Codec),
      (m.probing pdev (some codec) m.withdrawing).Published →
        (m.probing pdev (some codec) m.withdrawing).StepOk
          ((m.probing pdev (some codec) m.withdrawing).changeCodec pdev change) := by
    intro codec change hpublished
    refine .of_hidden hpublished ?_ rfl hhidden fun _ _ h => h
    exact fun other hne => Function.update_of_ne hne ..
  refine hat.wp_call ?_ ?_
  · intro _ hpublished _
    refine ⟨?_, fun _ hat => ?_⟩
    · refine .of_hidden hpublished ?_ rfl hhidden fun _ _ h => h
      exact fun other hne => Function.update_of_ne hne ..
    have hat' : At i (m.probing pdev (some ⟨false, false, 0⟩) m.withdrawing) _ := hat
    refine hat'.wp_call ?_ ?_
    · intro _ hpublished _
      refine ⟨hchange _ hpublished, fun _ hat => ?_⟩
      have hat' : At i (m.probing pdev (some ⟨true, false, 0⟩) m.withdrawing) _ :=
        ⟨hat.active, hat.module.trans (m.changeCodec_probing ..)⟩
      refine hat'.wp_call ?_ ?_
      · intro _ hpublished _
        refine ⟨hchange _ hpublished, fun _ hat => ?_⟩
        have hat' : At i (m.probing pdev (some ⟨true, true, 0⟩) m.withdrawing) _ :=
          ⟨hat.active, hat.module.trans (m.changeCodec_probing ..)⟩
        refine hat'.wp_read (fun _ => rfl) (fun _ => rfl) fun _ hat => ?_
        have hbooted : modWp i op _ _ _ := hat.wp_probeBooted hrest hloaded hnew
        rw [← Prog.bind_assoc] at hbooted
        exact hbooted
      · intro err hpublished herr
        refine ⟨.of_same hpublished rfl rfl rfl, fun _ hat => ?_⟩
        simp only [if_pos herr, Prog.bind_eq, Prog.perform_bind, Prog.act_bind, Prog.pure_eq,
          Prog.ret_bind]
        exact hat.wp_probeTornDown herr hrest hnew hnone
    · intro err hpublished herr
      refine ⟨.of_same hpublished rfl rfl rfl, fun _ hat => ?_⟩
      simp only [if_pos herr, Prog.pure_eq, Prog.ret_bind]
      exact hat.wp_probeFailed herr hrest hnew hnone
  · intro err hpublished herr
    refine ⟨.of_same hpublished rfl rfl rfl, fun _ hat => ?_⟩
    have hat' : At i (m.probing pdev none m.withdrawing) _ :=
      ⟨hat.active, hat.module.trans hsame.symm⟩
    simp only [if_pos herr, Prog.pure_eq, Prog.ret_bind]
    exact hat'.wp_probeFailed hENOMEM hrest hnew hnone

/-! ## Removing -/

def Module.removed (m : Module) (pdev : ℕ) : Module :=
  { m with
    codecs := Function.update m.codecs pdev none
    cdevs := []
    nodes := []
    bound := [] }

theorem Module.Rest.removed
    {pdev minor : ℕ} (hrest : m.Rest) (hserves : m.Serves pdev minor) :
    (m.removed pdev).Rest := by
  refine ⟨.inl ⟨rfl, rfl, rfl⟩, ?_, hrest.minors, hrest.withdrawing, hrest.regions,
    hrest.major, hrest.moduleClass, hrest.driver, hrest.noDriver⟩
  intro other _
  by_cases heq : other = pdev
  · subst heq
    exact Function.update_self ..
  · have hbound : other ∉ m.bound := by
      rw [hserves.bound, List.mem_singleton]
      exact heq
    exact (Function.update_of_ne heq ..).trans (hrest.codecs other hbound)

theorem At.wp_driverRemove
    {pdev minor : ℕ} (hat : At i m world) (hrest : m.Rest)
    (hserves : m.Serves pdev minor) :
    modWp i op (driverRemove pdev) (fun _ => At i (m.removed pdev)) world := by
  have hdrawn : ∀ other, other ≠ pdev → (some pdev : Option ℕ) ≠ some other :=
    fun other hne heq => hne (Option.some.inj heq).symm
  refine hat.wp_step (fun hpublished => ?_) fun _ hat => ?_
  · refine .of_withdrawn hpublished (fun _ _ => rfl) (fun _ _ _ => Iff.rfl) ?_ rfl
    intro other _
    simp [hrest.withdrawing]
  refine hat.wp_read (v := minor) (fun _ => ?_) (fun _ => rfl) fun _ hat => ?_
  · simp [Module.act, Module.after, hserves.codec]
  refine hat.wp_step (fun hpublished => ?_) fun _ hat => ?_
  · exact .of_withdrawn hpublished (fun other hne => Function.update_of_ne hne ..)
      (fun _ _ _ => Iff.rfl) hdrawn rfl
  refine hat.wp_step (fun hpublished => .of_same hpublished rfl rfl rfl) fun _ hat => ?_
  refine hat.wp_step (fun hpublished => ?_) fun _ hat => ?_
  · refine .of_withdrawn hpublished (fun _ _ => rfl) ?_ hdrawn rfl
    intro minor other hne
    simp [Module.after, hne]
  refine hat.wp_step (fun hpublished => ?_) fun _ hat => ?_
  · refine .of_hidden hpublished (fun other hne => Function.update_of_ne hne ..) rfl ?_ ?_
    · intro minor
      simp [Module.after]
    · exact fun other hne heq => absurd heq (hdrawn other hne)
  have hmodule : ((((((m.after (.beginRemove pdev)).after (.al5CodecTearDown pdev)).after
      (.deviceDestroy minor)).after (.cdevDel pdev)).after (.devresRelease pdev))) =
        m.removed pdev := by
    simp [Module.after, Module.changeCodec, Module.removed, hserves.bound, hserves.cdevs,
      hserves.nodes, hrest.withdrawing]
  exact ⟨hat.active, hat.module.trans hmodule⟩

/-- A module without a device is unloaded. -/
theorem At.wp_unload
    (hat : At i m world) (hrest : m.Rest) (hidle : m.Idle) (hloaded : m.loaded = true) :
    modWp i op
      (.act (.step .driverUnregister) fun _ => .act (.step .classDestroy) fun _ =>
        .act (.step .unregisterChrdevRegion) fun _ => .act (.step .unload) .ret)
      (fun _ world => world.active = some i → world.module.Rest) world := by
  refine hat.wp_step (fun hpublished => .of_same hpublished rfl rfl rfl) fun _ hat => ?_
  refine hat.wp_step (fun hpublished => .of_same hpublished rfl rfl rfl) fun _ hat => ?_
  refine hat.wp_step (fun hpublished => .of_same hpublished rfl rfl rfl) fun _ hat => ?_
  refine hat.wp_step (fun hpublished => .of_same hpublished rfl rfl rfl) fun _ hat _ => ?_
  rw [hat.module]
  have hregions := hrest.regions
  have hnoDriver := hrest.noDriver hloaded
  rw [hloaded, if_pos rfl] at hregions
  refine ⟨.inl ⟨hidle.bound, hidle.cdevs, hidle.nodes⟩, hrest.codecs, hrest.minors,
    hrest.withdrawing, ?_, fun hcontra => ?_, ?_, rfl, fun hcontra => ?_⟩
  · have hlength := List.length_erase_of_mem (hrest.major hloaded)
    simp [Module.after, hlength, hregions]
  · cases hcontra
  · simpa [Module.after] using hnoDriver
  · cases hcontra

theorem At.wp_exit
    (hat : At i m world) (hrest : m.Rest) (hloaded : m.loaded = true) :
    modWp i op (moduleBody .exit) (fun _ world => world.active = some i → world.module.Rest)
      world := by
  refine hat.wp_read (fun _ => rfl) (fun _ => rfl) fun _ hat => ?_
  rcases hrest.devices with hidle | ⟨pdev, minor, hserves⟩
  · rw [hidle.bound]
    exact hat.wp_unload hrest hidle hloaded
  · rw [hserves.bound]
    simp only [Prog.ret_bind, removeAll, Prog.bind_eq, Prog.bind_assoc]
    refine Outline.wp_seq (hat.wp_driverRemove hrest hserves) fun _ _ hat => ?_
    exact hat.wp_unload (hrest.removed hserves) ⟨rfl, rfl, rfl⟩ hloaded

end

/-! ## Every run -/

theorem WorldInv.file
    {world world' : World} {event : FileEvent} (hinv : WorldInv world)
    (hfile : world.file event = some world') :
    WorldInv world' ∧ world'.active = world.active ∧ world'.module = world.module := by
  have htouch : ∀ file ∈ world.files,
      world.module.running file.pdev = true ∨ file.withdrawn = true := by
    intro file hmem
    rcases hinv.files file hmem with hwithdrawn | ⟨hrunning, -⟩
    · exact .inr hwithdrawn
    · exact .inl hrunning
  cases event with
  | «open» minor =>
      obtain ⟨⟨minor', pdev⟩, hfind, rfl⟩ := Option.map_eq_some_iff.mp hfile
      have hmem := List.mem_of_find?_eq_some hfind
      have hfound := hinv.published minor' pdev hmem
      refine ⟨⟨hinv.published, ?_, ?_, ?_, hinv.rest⟩, rfl, rfl⟩
      · intro file hfile
        rcases List.mem_cons.mp hfile with rfl | hold
        · by_cases hdrawn : world.module.withdrawing = some pdev
          · exact .inl (decide_eq_true hdrawn)
          · exact .inr ⟨hfound.resolve_right hdrawn, minor', hmem⟩
        · exact hinv.files file hold
      · intro other hother file hfile heq
        rcases List.mem_cons.mp hfile with rfl | hold
        · exact decide_eq_true (hother.trans (congrArg some heq.symm))
        · exact hinv.withdrawing other hother file hold heq
      · intro touch htouched
        rcases List.mem_cons.mp htouched with rfl | hold
        · exact hfound.imp id decide_eq_true
        · exact hinv.touched touch hold
  | use k =>
      obtain ⟨file, hget, rfl⟩ := Option.map_eq_some_iff.mp hfile
      refine ⟨⟨hinv.published, hinv.files, hinv.withdrawing, ?_, hinv.rest⟩, rfl, rfl⟩
      intro touch htouched
      rcases List.mem_cons.mp htouched with rfl | hold
      · exact htouch file (List.mem_of_getElem? hget)
      · exact hinv.touched touch hold
  | close k =>
      obtain ⟨file, hget, rfl⟩ := Option.map_eq_some_iff.mp hfile
      refine ⟨⟨hinv.published, ?_, ?_, ?_, hinv.rest⟩, rfl, rfl⟩
      · exact fun other hmem => hinv.files other (List.mem_of_mem_eraseIdx hmem)
      · exact fun pdev hpdev other hmem =>
          hinv.withdrawing pdev hpdev other (List.mem_of_mem_eraseIdx hmem)
      · intro touch htouched
        rcases List.mem_cons.mp htouched with rfl | hold
        · exact htouch file (List.mem_of_getElem? hget)
        · exact hinv.touched touch hold

theorem rest_unloaded : unloaded.Rest where
  devices := .inl ⟨rfl, rfl, rfl⟩
  codecs _ _ := rfl
  minors := rfl
  withdrawing := rfl
  regions := rfl
  major h := by cases h
  moduleClass := rfl
  driver := rfl
  noDriver h := by cases h

/-- When the last call has returned, the module is at rest. -/
theorem rest_of_holds
    {config : Config World ModuleAct ModuleAct.Res ModuleOp Unit}
    (hholds : moduleOutline.Holds config)
    (hfinished : ∀ call ∈ config.calls, call.prog.finished = true) :
    config.state.module.Rest := by
  cases hactive : config.state.active with
  | none => exact hholds.inv.rest hactive
  | some i =>
      rcases Nat.lt_or_ge i config.calls.length with hlt | hge
      · have hcall := hholds.covered i _ (List.getElem?_eq_getElem hlt)
        have hdone := hfinished _ (List.getElem_mem hlt)
        generalize config.calls[i] = call at hcall hdone
        obtain ⟨op, prog⟩ := call
        cases prog with
        | ret out => exact hcall hactive
        | act action next => cases hdone
      · exact absurd hactive (hholds.fresh i hge)

theorem moduleOutline_valid : moduleOutline.Valid start where
  init := by
    refine ⟨?_, ?_, ?_, ?_, fun _ => rest_unloaded⟩ <;> simp [start, unloaded, Module.Published]
  init_fresh i := by simp [moduleOutline, start]
  env := by
    intro event world world' hinv hfile _
    obtain ⟨hinv', hactive, hmodule⟩ := WorldInv.file hinv hfile
    exact ⟨hinv', fun i => ⟨hactive, fun _ => hmodule⟩⟩
  enter := by
    intro calls op world world' hinv henter _ hcovered hfresh
    simp only [moduleMachine, moduleEnter] at henter
    split_ifs at henter with hmay
    obtain rfl := Option.some.inj henter
    obtain ⟨hfinished, hmay⟩ := (Bool.and_eq_true _ _).mp hmay
    have hholds : moduleOutline.Holds ⟨world, calls⟩ := ⟨hinv, hcovered, hfresh⟩
    have hrest := rest_of_holds hholds (List.all_eq_true.mp hfinished)
    refine ⟨⟨hinv.published, hinv.files, hinv.withdrawing, hinv.touched, by simp⟩,
      ?_, ?_, ?_⟩
    · intro i call hget
      have hlt : i < calls.length := (List.getElem?_eq_some_iff.mp hget).1
      have hdone := List.all_eq_true.mp hfinished _ (List.mem_of_getElem? hget)
      obtain ⟨callOp, prog⟩ := call
      cases prog with
      | ret out =>
          intro hactive
          exact absurd (Option.some.inj hactive) hlt.ne'
      | act action next => cases hdone
    · intro i hi hactive
      exact absurd (Option.some.inj hactive) hi.ne
    · have hat : At calls.length world.module { world with active := some calls.length } :=
        ⟨rfl, rfl⟩
      cases op with
      | init => exact hat.wp_init hrest ((Bool.not_eq_true' _).mp hmay)
      | probe pdev =>
          obtain ⟨hloaded, hnew⟩ := (Bool.and_eq_true _ _).mp hmay
          exact hat.wp_probe hrest hloaded (by simpa using hnew)
      | remove pdev =>
          have hbound : pdev ∈ world.module.bound := by simpa [mayEnter] using hmay
          rcases hrest.devices with hidle | ⟨other, minor, hserves⟩
          · rw [hidle.bound] at hbound
            exact absurd hbound List.not_mem_nil
          · rw [hserves.bound, List.mem_singleton] at hbound
            subst hbound
            refine Outline.wp_mono ?_ (hat.wp_driverRemove hrest hserves)
            intro _ world' hat' _
            rw [hat'.module]
            exact hrest.removed hserves
      | exit =>
          obtain ⟨hloaded, -⟩ := (Bool.and_eq_true _ _).mp hmay
          exact hat.wp_exit hrest hloaded

/-- In every run of loads, probes, removes and unloads, of which any step may fail, and of
operations of files: between two calls the module holds what `Rest` says. -/
theorem module_at_rest
    (config : Config World ModuleAct ModuleAct.Res ModuleOp Unit)
    (hreach : moduleMachine.Reach .free ⟨start, []⟩ config)
    (hfinished : ∀ call ∈ config.calls, call.prog.finished = true) :
    config.state.module.Rest :=
  rest_of_holds (moduleOutline_valid.sound hreach) hfinished

def probeMoves : List (Move Outcome ModuleOp FileEvent) :=
  [.enter .init] ++ List.replicate 6 (.step 0 (.succeed 240)) ++
    [.enter (.probe 7)] ++ List.replicate 10 (.step 1 (.succeed 0))

/-- A second device is probed while the first one is bound. -/
def secondProbeMoves : List (Move Outcome ModuleOp FileEvent) :=
  probeMoves ++ [.enter (.probe 8)] ++ List.replicate 5 (.step 2 (.succeed 0)) ++
    [.step 2 (.fail (-17))] ++ List.replicate 3 (.step 2 (.succeed 0))

theorem module_at_rest_of_second_probe :
    ∃ config, moduleMachine.run secondProbeMoves ⟨start, []⟩ = some config ∧
      config.state.module.bound = [7] ∧ config.state.module.Rest := by
  have hrun : ∃ config, moduleMachine.run secondProbeMoves ⟨start, []⟩ = some config ∧
      config.state.module.bound = [7] ∧
        (config.calls.all fun call => call.prog.finished) = true :=
    ⟨_, rfl, rfl, rfl⟩
  obtain ⟨config, hrun, hbound, hfinished⟩ := hrun
  exact ⟨config, hrun, hbound,
    module_at_rest config (Machine.reach_of_run hrun) (List.all_eq_true.mp hfinished)⟩

/-- At any moment of these runs, an operation of a file has found the codec of its device
set up and booted, unless the device was withdrawn since the file was opened. -/
theorem files_find_codec
    (config : Config World ModuleAct ModuleAct.Res ModuleOp Unit)
    (hreach : moduleMachine.Reach .free ⟨start, []⟩ config) :
    ∀ touch ∈ config.state.touched, touch.running = true ∨ touch.withdrawn = true :=
  (moduleOutline_valid.sound hreach).inv.touched

/-- A file is opened and used; while its device is removed, another one is opened. -/
def openMoves : List (Move Outcome ModuleOp FileEvent) :=
  probeMoves ++ [.env (.open 0), .env (.use 0), .enter (.remove 7)] ++
    List.replicate 3 (.step 2 (.succeed 0)) ++ [.env (.open 0)]

theorem files_find_codec_of_remove :
    ∃ config, moduleMachine.run openMoves ⟨start, []⟩ = some config ∧
      config.state.touched = [⟨false, true⟩, ⟨true, false⟩, ⟨true, false⟩] ∧
      ∀ touch ∈ config.state.touched, touch.running = true ∨ touch.withdrawn = true := by
  have hrun : ∃ config, moduleMachine.run openMoves ⟨start, []⟩ = some config ∧
      config.state.touched = [⟨false, true⟩, ⟨true, false⟩, ⟨true, false⟩] :=
    ⟨_, rfl, rfl⟩
  obtain ⟨config, hrun, htouched⟩ := hrun
  exact ⟨config, hrun, htouched, files_find_codec config (Machine.reach_of_run hrun)⟩

end VcuDriver.ModuleLife

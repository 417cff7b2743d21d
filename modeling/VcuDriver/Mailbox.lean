import VcuDriver.Mail
import VcuDriver.Conc.Machine

/-!
# The mailbox ring

A mailbox is a ring of 32-bit words in the memory of the MCU with a head and a
tail register.  The functions of `al_mailbox.c`, `mcu_utils.c` and
`mcu_interface.c` are programs over single register and word accesses, so that
the accesses of the two ends can be interleaved.  Unsigned arithmetic is
reduced where the source's types reduce it; register values and offsets are in
bytes.
-/

namespace VcuDriver

open Conc

/-! ## Machine integers -/

def u16 (n : ℕ) : ℕ :=
  n % 2 ^ 16

def u32 (n : ℕ) : ℕ :=
  n % 2 ^ 32

def sizeT (n : ℕ) : ℕ :=
  n % 2 ^ 64

def sizeTSub (a b : ℕ) : ℕ :=
  (a + 2 ^ 64 - b) % 2 ^ 64

theorem u16_eq {n : ℕ} (hn : n < 2 ^ 16) : u16 n = n :=
  Nat.mod_eq_of_lt hn

theorem u32_eq {n : ℕ} (hn : n < 2 ^ 32) : u32 n = n :=
  Nat.mod_eq_of_lt hn

theorem sizeT_eq {n : ℕ} (hn : n < 2 ^ 64) : sizeT n = n :=
  Nat.mod_eq_of_lt hn

theorem sizeTSub_eq {a b : ℕ} (hba : b ≤ a) (ha : a < 2 ^ 64) :
    sizeTSub a b = a - b := by
  unfold sizeTSub
  omega

/-- What becomes of the results of unsigned arithmetic: `fit` brings one into a type of so
many bits, and `minus` is a difference of two `size_t`. -/
structure Unsigned (m : Type → Type) where
  fit (bits n : ℕ) : m ℕ
  minus (a b : ℕ) : m ℕ

/-- The unsigned arithmetic of the source. -/
def wrapping : Unsigned Id where
  fit bits n := pure (n % 2 ^ bits)
  minus a b := pure (sizeTSub a b)

/-! ## The arithmetic of the ring -/

section

variable {m : Type → Type} [Monad m] (unsigned : Unsigned m)

/-- Head and tail can only be multiples of four, and they can only be equal if
the mailbox is empty. -/
def spaceTest (mailboxSize usedSize dataSize : ℕ) : m Bool := do
  let needed ← unsigned.fit 64 (dataSize + 4)
  let free ← unsigned.minus mailboxSize usedSize
  pure (decide (needed > free))

def wrapTest (mailboxSize value dataSize : ℕ) : m Bool := do
  let stop ← unsigned.fit 64 (value + dataSize)
  pure (decide (stop > mailboxSize))

/-- The space left before the end of the ring, and what remains to be copied after it. -/
def untilWrap (mailboxSize memcpySize value : ℕ) : m (ℕ × ℕ) := do
  let spaceLeftBeforeWrapping ← unsigned.minus mailboxSize value
  let memcpySize ← unsigned.minus memcpySize spaceLeftBeforeWrapping
  pure (spaceLeftBeforeWrapping, memcpySize)

/-- The register value `size` bytes after `value`, rounded up to a word. -/
def advanced (mailboxSize value size : ℕ) : m ℕ := do
  let rounded ← unsigned.fit 64 (value + size + 3)
  unsigned.fit 32 (rounded / 4 * 4 % mailboxSize)

/-- `used_size` of `al5_mailbox_write`. -/
def usedBytes (mailboxSize headValue tailValue : ℕ) : m ℕ :=
  if tailValue ≥ headValue then pure (tailValue - headValue)
  else do
    let sum ← unsigned.fit 64 (mailboxSize + tailValue)
    unsigned.minus sum headValue

end

def notEnoughSpaceInMailbox (mailboxSize usedSize dataSize : ℕ) : Bool :=
  Id.run (spaceTest wrapping mailboxSize usedSize dataSize)

def mailboxIsWrapping (mailboxSize tailValue dataSize : ℕ) : Bool :=
  Id.run (wrapTest wrapping mailboxSize tailValue dataSize)

def advance (mailboxSize value size : ℕ) : ℕ :=
  Id.run (advanced wrapping mailboxSize value size)

theorem wrapping_fit (bits n : ℕ) : wrapping.fit bits n = pure (n % 2 ^ bits) := by
  unfold wrapping
  rfl

theorem wrapping_minus (a b : ℕ) : wrapping.minus a b = pure (sizeTSub a b) := by
  unfold wrapping
  rfl

theorem notEnoughSpaceInMailbox_eq (mailboxSize usedSize dataSize : ℕ) :
    notEnoughSpaceInMailbox mailboxSize usedSize dataSize =
      decide (sizeT (dataSize + 4) > sizeTSub mailboxSize usedSize) := by
  unfold notEnoughSpaceInMailbox spaceTest sizeT
  rw [wrapping_fit, wrapping_minus, pure_bind, pure_bind, Id.run_pure]

theorem mailboxIsWrapping_eq (mailboxSize tailValue dataSize : ℕ) :
    mailboxIsWrapping mailboxSize tailValue dataSize =
      decide (sizeT (tailValue + dataSize) > mailboxSize) := by
  unfold mailboxIsWrapping wrapTest sizeT
  rw [wrapping_fit, pure_bind, Id.run_pure]

theorem untilWrap_wrapping (mailboxSize memcpySize value : ℕ) :
    Id.run (untilWrap wrapping mailboxSize memcpySize value) =
      (sizeTSub mailboxSize value, sizeTSub memcpySize (sizeTSub mailboxSize value)) := by
  unfold untilWrap
  rw [wrapping_minus, pure_bind, wrapping_minus, pure_bind, Id.run_pure]

theorem advance_eq (mailboxSize value size : ℕ) :
    advance mailboxSize value size =
      u32 (sizeT (value + size + 3) / 4 * 4 % mailboxSize) := by
  unfold advance advanced sizeT u32
  rw [wrapping_fit, pure_bind, wrapping_fit, Id.run_pure]

theorem usedBytes_wrapping (mailboxSize headValue tailValue : ℕ) :
    Id.run (usedBytes wrapping mailboxSize headValue tailValue) =
      if tailValue ≥ headValue then tailValue - headValue
      else sizeTSub (sizeT (mailboxSize + tailValue)) headValue := by
  unfold usedBytes sizeT
  by_cases hge : tailValue ≥ headValue
  · rw [if_pos hge, if_pos hge, Id.run_pure]
  · rw [if_neg hge, if_neg hge, wrapping_fit, pure_bind, wrapping_minus, Id.run_pure]

/-! ## Accesses -/

/-- The locks of the two ends: `write_lock`, `read_lock`, and the exclusion of
the interrupt thread against itself. -/
inductive RingLock where
  | write
  | read
  | irqThread
  deriving DecidableEq

/-- One access to the registers or to the data of a mailbox.  `deliver` is the
return of a read to its caller, which then owns the mail. -/
inductive RingAct where
  | lock (which : RingLock)
  | unlock (which : RingLock)
  | readHead
  | readTail
  | writeHead (value : ℕ)
  | writeTail (value : ℕ)
  | readWord (offset : ℕ)
  | writeWord (offset : ℕ) (word : Word)
  | signal
  | deliver (mail : Al5Mail)

abbrev RingAct.Res : RingAct → Type
  | .readHead | .readTail => ℕ
  | .readWord _ => Word
  | _ => Unit

abbrev RingProg (α : Type) : Type :=
  Prog RingAct RingAct.Res α

/-! ## Word copies -/

/-- `for (i = from; ...; ++i) iowrite32(src[i], dst + i)`, `count` times. -/
def memcpyToio32Loop (dst : ℕ) (src : List Byte) : ℕ → ℕ → RingProg Unit
  | _, 0 => .ret ()
  | i, count + 1 =>
      .act (.writeWord (dst + 4 * i) (wordAt src (4 * i))) fun _ =>
        memcpyToio32Loop dst src (i + 1) count

def memcpyToio32 (dst : ℕ) (src : List Byte) (size : ℕ) : RingProg Unit :=
  memcpyToio32Loop dst src 0 (size / 4)

/-- `for (i = from; ...; ++i) dst[i] = ioread32(src + i)`, `count` times, where
`dst` starts `iterator` bytes into a buffer. -/
def memcpyFromio32Loop (iterator src : ℕ) :
    List Byte → ℕ → ℕ → RingProg (List Byte)
  | buffer, _, 0 => .ret buffer
  | buffer, i, count + 1 =>
      .act (.readWord (src + 4 * i)) fun word =>
        memcpyFromio32Loop iterator src
          (pokeWord buffer (iterator + 4 * i) word) (i + 1) count

def memcpyFromio32 (buffer : List Byte) (iterator src size : ℕ) :
    RingProg (List Byte) :=
  memcpyFromio32Loop iterator src buffer 0 (size / 4)

/-! ## The ring -/

def headerSize : ℕ := 4

/-- Returns the remaining size, tail and data. -/
def writeInMailboxUntilWrap (mailboxSize memcpySize tail : ℕ)
    (data : List Byte) : RingProg (ℕ × ℕ × List Byte) := do
  let (spaceLeftBeforeWrapping, memcpySize) :=
    Id.run (untilWrap wrapping mailboxSize memcpySize tail)
  memcpyToio32 tail data spaceLeftBeforeWrapping
  pure (memcpySize, 0, data.drop spaceLeftBeforeWrapping)

/-- Returns the buffer and the remaining size, head and iterator. -/
def readInMailboxUntilWrap (mailboxSize memcpySize head : ℕ)
    (buffer : List Byte) : RingProg (List Byte × ℕ × ℕ × ℕ) := do
  let (spaceLeftBeforeWrapping, memcpySize) :=
    Id.run (untilWrap wrapping mailboxSize memcpySize head)
  let buffer ← memcpyFromio32 buffer 0 head spaceLeftBeforeWrapping
  pure (buffer, memcpySize, 0, spaceLeftBeforeWrapping)

def serializeHeader (msgUid bodySize : BitVec 16) : List Byte :=
  [ (bodySize &&& 0x00ff).setWidth 8,
    (bodySize >>> 8).setWidth 8,
    (msgUid &&& 0x00ff).setWidth 8,
    (msgUid >>> 8).setWidth 8 ]

def unserializeMsgUid (header : List Byte) : BitVec 16 :=
  BitVec.ofNat 16
    ((byteAt header 2).toNat + (byteAt header 3).toNat * 2 ^ 8)

def unserializeBodySize (header : List Byte) : BitVec 16 :=
  BitVec.ofNat 16
    ((byteAt header 0).toNat + (byteAt header 1).toNat * 2 ^ 8)

/-- `write_data`: takes and returns `local_tail`, a `u16`. -/
def writeData (mailboxSize localTail : ℕ) (inData : List Byte) (size : ℕ) :
    RingProg ℕ := do
  let (size, tailValue, inData) ←
    if mailboxIsWrapping mailboxSize localTail size then
      writeInMailboxUntilWrap mailboxSize size localTail inData
    else
      pure (size, localTail, inData)
  memcpyToio32 tailValue inData size
  pure (u16 (advance mailboxSize tailValue size))

/-- `read_data` after its read of the head; the buffer is allocated zeroed. -/
def readDataAt (mailboxSize size headValue : ℕ) : RingProg (List Byte) := do
  let outData := List.replicate size 0
  let (outData, size, headValue, dataIterator) ←
    if mailboxIsWrapping mailboxSize headValue size then
      readInMailboxUntilWrap mailboxSize size headValue outData
    else
      pure (outData, size, headValue, 0)
  let outData ← memcpyFromio32 outData dataIterator headValue size
  Prog.perform (RingAct.writeHead (advance mailboxSize headValue size))
  pure outData

def readData (mailboxSize size : ℕ) : RingProg (List Byte) := do
  let headValue ← Prog.perform RingAct.readHead
  readDataAt mailboxSize size headValue

def pullTail : RingProg ℕ := do
  let value ← Prog.perform RingAct.readTail
  pure (u16 value)

def pushTail (localTail : ℕ) : RingProg Unit :=
  Prog.perform (RingAct.writeTail localTail)

def al5MailboxWrite (mailboxSize : ℕ) (mail : Al5Mail) : RingProg ℤ := do
  let mailSize := al5MailGetSize mail
  let totalSize := sizeT (mailSize + headerSize)
  let headValue ← Prog.perform RingAct.readHead
  let tailValue ← Prog.perform RingAct.readTail
  let usedSize := Id.run (usedBytes wrapping mailboxSize headValue tailValue)
  if notEnoughSpaceInMailbox mailboxSize usedSize totalSize then
    pure (-EAGAIN)
  else
    let header :=
      serializeHeader mail.msgUid (BitVec.ofNat 16 mailSize)
    let localTail ← pullTail
    let localTail ← writeData mailboxSize localTail header headerSize
    let localTail ←
      writeData mailboxSize localTail (al5MailGetBody mail) mailSize
    pushTail localTail
    pure 0

/-- `al5_mailbox_read`, when its allocations succeed. -/
def al5MailboxRead (mailboxSize : ℕ) : RingProg Al5Mail := do
  let header ← readData mailboxSize headerSize
  let msgUid := unserializeMsgUid header
  let bodySize := unserializeBodySize header
  let body ← readData mailboxSize bodySize.toNat
  pure {
    msgUid := msgUid
    bodySize := bodySize
    contentSize := bodySize.toNat
    body := body }

/-! ## The interface of the MCU -/

def al5McuSend (mailboxSize : ℕ) (mail : Al5Mail) : RingProg ℤ := do
  Prog.perform (RingAct.lock .write)
  let error ← al5MailboxWrite mailboxSize mail
  Prog.perform (RingAct.unlock .write)
  pure error

def al5McuRecv (mailboxSize : ℕ) : RingProg Al5Mail := do
  Prog.perform (RingAct.lock .read)
  let mail ← al5MailboxRead mailboxSize
  Prog.perform (RingAct.unlock .read)
  pure mail

def al5McuIsEmpty : RingProg Bool := do
  Prog.perform (RingAct.lock .read)
  let headValue ← Prog.perform RingAct.readHead
  let tailValue ← Prog.perform RingAct.readTail
  Prog.perform (RingAct.unlock .read)
  pure (headValue == tailValue)

/-- `al5_check_and_send`, with `send_msg`. -/
def al5CheckAndSend (mailboxSize : ℕ) (mail : Option Al5Mail) : RingProg ℤ :=
  match mail with
  | none => pure (-ENOMEM)
  | some mail => do
      let err ← al5McuSend mailboxSize mail
      if err ≠ 0 then
        pure err
      else
        Prog.perform RingAct.signal
        pure 0

/-- One turn of the loop of `al5_group_read_mails` in the interrupt thread, up
to the point where the mail belongs to `handle_mail`. -/
def readMail (mailboxSize : ℕ) : RingProg (Option Al5Mail) := do
  Prog.perform (RingAct.lock .irqThread)
  let isEmpty ← al5McuIsEmpty
  if isEmpty then
    Prog.perform (RingAct.unlock .irqThread)
    pure none
  else
    let mail ← al5McuRecv mailboxSize
    Prog.perform (RingAct.deliver mail)
    Prog.perform (RingAct.unlock .irqThread)
    pure (some mail)

end VcuDriver

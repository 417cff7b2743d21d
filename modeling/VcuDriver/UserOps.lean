import VcuDriver.UserState

/-!
# The operations of a user

The functions of `al_user.c`, `enc_user.c` and `dec_user.c`, `al5_queue_pop`
and `al5_codec_release`, as programs over the actions of a user.  A machine
interleaves any number of calls on one user; the mails delivered to it come
from its environment.
-/

namespace VcuDriver

open Conc

/-! ## Sending -/

/-- Build a mail; a constructor that writes through `NULL` or out of bounds
stops the call. -/
def buildMail (constructor : Bool → MailResult) :
    UserProg (Option Al5Mail) := do
  let kmalloc ← Prog.perform UserAct.kmalloc
  match constructor kmalloc with
  | .ok mail => pure mail
  | .error _ => do
      Prog.perform UserAct.oops
      pure none

def userCheckAndSend (mail : Option Al5Mail) : UserProg ℤ :=
  match mail with
  | none => pure (-ENOMEM)
  | some mail => Prog.perform (UserAct.send mail)

/-- `al5_check_and_send` of a mail under construction. -/
def sendBuilt (constructor : Bool → MailResult) : UserProg ℤ := do
  let mail ← buildMail constructor
  userCheckAndSend mail

/-! ## Queues -/

def al5QueuePop (which : UserMail) : UserProg (Option Al5Mail) := do
  Prog.perform (UserAct.waitEvent which)
  Prog.perform (UserAct.listPop which)

/-- The error of `al5_queue_pop_timeout` after its wait. -/
def waitError (err : ℤ) : ℤ :=
  if err = 0 then -EINVAL
  else if err > 0 then 0
  else if err = -ERESTARTSYS then -EINTR
  else err

def al5QueuePopTimeout (which : UserMail) :
    UserProg (ℤ × Option Al5Mail) := do
  let err ← Prog.perform (UserAct.waitEventTimeout which)
  let mail ← Prog.perform (UserAct.listPop which)
  match mail with
  | some mail => pure (0, some mail)
  | none => pure (if waitError err ≠ 0 then waitError err else -EINVAL, none)

def userQueuesUnlock : UserProg Unit := do
  Prog.perform (UserAct.queueUnlock .status)
  Prog.perform (UserAct.queueUnlock .sc)
  Prog.perform (UserAct.queueUnlock .create)
  Prog.perform (UserAct.queueUnlock .reconstructed)

def userQueuesLock : UserProg Unit := do
  Prog.perform (UserAct.queueLock .status)
  Prog.perform (UserAct.queueLock .sc)
  Prog.perform (UserAct.queueLock .create)
  Prog.perform (UserAct.queueLock .reconstructed)

/-! ## Destroying the channel -/

def unlockAll : List UserOperation → UserProg Unit
  | [] => pure ()
  | operation :: rest => do
      Prog.perform (UserAct.mutexUnlock operation)
      unlockAll rest

/-- The mutex loop: it returns whether every mutex was taken, and releases the
ones taken when it is interrupted. -/
def lockAll : List UserOperation → List UserOperation → UserProg Bool
  | [], _ => pure true
  | operation :: rest, taken => do
      let err ← Prog.perform (UserAct.mutexLockKillable operation)
      if err = -EINTR then
        unlockAll taken
        pure false
      else
        lockAll rest (taken ++ [operation])

def al5UserDestroyChannelResources : UserProg Unit := do
  Prog.perform (UserAct.bufpoolFree .intBuffers)
  Prog.perform (UserAct.bufpoolFree .recBuffers)

def forgetChannel : UserProg Unit := do
  Prog.perform (UserAct.setChanUid badChan)
  Prog.perform (UserAct.setCheckpoint noCheckpoint)
  al5UserDestroyChannelResources

/-- `al5_user_destroy_channel` between its mutex loops. -/
def destroyUnderLocks (quiet : Bool) : UserProg ℤ := do
  let chanUid ← Prog.perform UserAct.getChanUid
  if quiet then
    let err ← sendBuilt fun kmalloc => createQuietDestroyChannelMsg kmalloc chanUid
    if err ≠ 0 then
      pure err
    else
      forgetChannel
      pure 0
  else
    let err ← sendBuilt fun kmalloc => createDestroyChannelMsg kmalloc chanUid
    if err ≠ 0 then
      pure err
    else
      let mail ← al5QueuePop .destroy
      match mail with
      | none => pure (-EINTR)
      | some mail => do
          Prog.perform (UserAct.freeMail mail)
          forgetChannel
          pure 0

def al5UserDestroyChannel (quiet : Bool) : UserProg ℤ := do
  let chanUid ← Prog.perform UserAct.getChanUid
  if chanUid = badChan then
    pure (-EPERM)
  else
    userQueuesUnlock
    let locked ← lockAll userOperations []
    if locked then
      let err ← destroyUnderLocks quiet
      unlockAll userOperations
      userQueuesLock
      pure err
    else
      userQueuesLock
      pure (-EINTR)

/-! ## The encoder -/

/-- `struct al5_channel_status` of the encoder. -/
structure Al5eChannelStatus where
  options : Word
  numCore : Byte
  ppsParam : Word
  errorCode : Word

structure Al5ChannelBuffers where
  intBuffersCount : Word
  intBuffersSize : Word
  recBuffersCount : Word
  recBuffersSize : Word

structure Al5eFeedbackChannel where
  chanUid : Word
  options : Word
  numCore : Word
  ppsParam : Word
  buffersNeeded : Al5ChannelBuffers
  errorCode : Word

def zeroFeedback : Al5eFeedbackChannel :=
  ⟨0, 0, 0, 0, ⟨0, 0, 0, 0⟩, 0⟩

def feedbackOfMail (mail : Al5Mail) : Al5eFeedbackChannel where
  chanUid := al5MailGetWord mail 0
  options := al5MailGetWord mail 2
  numCore := al5MailGetWord mail 3
  ppsParam := al5MailGetWord mail 4
  buffersNeeded := {
    intBuffersCount := al5MailGetWord mail 5
    intBuffersSize := al5MailGetWord mail 6
    recBuffersCount := al5MailGetWord mail 7
    recBuffersSize := al5MailGetWord mail 8 }
  errorCode := al5MailGetWord mail 10

def al5eUpdateChanParam (message : Al5eFeedbackChannel) : Al5eChannelStatus where
  options := message.options
  numCore := message.numCore.setWidth 8
  ppsParam := message.ppsParam
  errorCode := message.errorCode

def checkpointAllocateBuffers : ℤ := 1

def checkpointSendIntermediateBuffers : ℤ := 2

def checkpointSendReferenceBuffers : ℤ := 3

def al5McuGetVirtualAddress (physicalAddress : Word) : Word :=
  physicalAddress + 0x80000000

/-- The words of `create_mail_from_bufpool` for one buffer. -/
def writeBuffers : List DmaBuffer → Option Al5Mail → MailResult
  | [], mail => .ok mail
  | buffer :: buffers, mail => do
      let handle : Word := buffer.dmaHandle.setWidth 32
      let mail ← al5MailWriteWord mail handle
      let mail ← al5MailWriteWord mail (al5McuGetVirtualAddress handle)
      let mail ← al5MailWriteWord mail buffer.size
      writeBuffers buffers mail

def createMailFromBufpool (msgUid chanUid : Word) (bufpool : List DmaBuffer)
    (kmalloc : Bool) : MailResult := do
  let contentSize : Word := BitVec.ofNat 32 bufpool.length * 12
  let mail := al5MailCreate kmalloc msgUid (4 + contentSize)
  let mail ← al5MailWriteWord mail chanUid
  writeBuffers bufpool mail

def pageSize : ℕ := 4096

def allocateChannelBuffers (buffers : Al5ChannelBuffers) : UserProg ℤ := do
  let padding := pageSize - buffers.recBuffersSize.toNat % pageSize
  let recBuffersSize := buffers.recBuffersSize + BitVec.ofNat 32 padding
  let err ← Prog.perform (UserAct.bufpoolAllocate .intBuffers
    buffers.intBuffersCount buffers.intBuffersSize)
  if err ≠ 0 then
    pure err
  else
    Prog.perform (UserAct.bufpoolAllocate .recBuffers buffers.recBuffersCount
      recBuffersSize)

/-- `send_intermediate_buffers` and `send_reference_buffers`. -/
def sendBuffers (mailUid : MailUid) (pool : BufferPool) : UserProg ℤ := do
  let chanUid ← Prog.perform UserAct.getChanUid
  let bufpool ← Prog.perform (UserAct.getBufpool pool)
  sendBuilt (createMailFromBufpool mailUid.code chanUid bufpool)

def sendIntermediateBuffers : UserProg ℤ :=
  sendBuffers .pushBufferIntermediate .intBuffers

def sendReferenceBuffers : UserProg ℤ :=
  sendBuffers .pushBufferReference .recBuffers

/-- `try_to_create_channel`: the error, and the status and the feedback when
they are known. -/
def tryToCreateChannel (uid : Word) (param : Al5Params)
    (status : Al5eChannelStatus) :
    UserProg (ℤ × Al5eChannelStatus × Al5eFeedbackChannel) := do
  let err ← sendBuilt fun kmalloc => al5eCreateChannelParamMsg kmalloc uid param
  if err ≠ 0 then
    pure (err, status, zeroFeedback)
  else
    let (err, feedback) ← al5QueuePopTimeout .create
    match feedback with
    | none => pure (err, status, zeroFeedback)
    | some mail => do
        let message := feedbackOfMail mail
        Prog.perform (UserAct.freeMail mail)
        -- `check_and_affect_chan_uid` leaves the user alone on a bad uid.
        if message.chanUid = badChan then
          pure (-EINVAL, al5eUpdateChanParam message, message)
        else do
          Prog.perform (UserAct.setChanUid message.chanUid)
          pure (0, al5eUpdateChanParam message, message)

def channelIsFullyCreated : UserProg Bool := do
  let chanUid ← Prog.perform UserAct.getChanUid
  if chanUid = badChan then
    pure false
  else
    let checkpoint ← Prog.perform UserAct.getCheckpoint
    pure (decide (checkpoint = noCheckpoint))

/-- `al5e_user_create_channel` at its third checkpoint. -/
def createSendReference : UserProg ℤ := do
  let checkpoint ← Prog.perform UserAct.getCheckpoint
  if checkpoint = checkpointSendReferenceBuffers then
    let err ← sendReferenceBuffers
    if err ≠ 0 then
      Prog.perform (UserAct.mutexUnlock .create)
      pure err
    else
      Prog.perform (UserAct.setCheckpoint noCheckpoint)
      Prog.perform (UserAct.mutexUnlock .create)
      pure 0
  else
    Prog.perform (UserAct.mutexUnlock .create)
    pure 0

/-- `al5e_user_create_channel` from its second checkpoint on. -/
def createSendIntermediate : UserProg ℤ := do
  let checkpoint ← Prog.perform UserAct.getCheckpoint
  if checkpoint = checkpointSendIntermediateBuffers then
    let err ← sendIntermediateBuffers
    if err ≠ 0 then
      Prog.perform (UserAct.mutexUnlock .create)
      pure err
    else
      Prog.perform (UserAct.setCheckpoint checkpointSendReferenceBuffers)
      createSendReference
  else
    createSendReference

/-- `al5e_user_create_channel` from its first checkpoint on. -/
def createAllocate (message : Al5eFeedbackChannel) : UserProg ℤ := do
  let checkpoint ← Prog.perform UserAct.getCheckpoint
  if checkpoint = checkpointAllocateBuffers then
    let err ← allocateChannelBuffers message.buffersNeeded
    if err ≠ 0 then
      Prog.perform (UserAct.setCheckpoint noCheckpoint)
      Prog.perform (UserAct.mutexUnlock .create)
      let _ ← al5UserDestroyChannel false
      pure err
    else
      Prog.perform (UserAct.setCheckpoint checkpointSendIntermediateBuffers)
      createSendIntermediate
  else
    createSendIntermediate

def al5eUserCreateChannel (uid : Word) (param : Al5Params)
    (status : Al5eChannelStatus) : UserProg (ℤ × Al5eChannelStatus) := do
  let err ← Prog.perform (UserAct.mutexLockKillable .create)
  if err = -EINTR then
    pure (err, status)
  else
    let created ← channelIsFullyCreated
    if created then
      Prog.perform (UserAct.mutexUnlock .create)
      pure (-EPERM, status)
    else
      let checkpoint ← Prog.perform UserAct.getCheckpoint
      if checkpoint = noCheckpoint then
        let (err, status, message) ← tryToCreateChannel uid param status
        if err ≠ 0 then
          Prog.perform (UserAct.mutexUnlock .create)
          pure (err, status)
        else
          Prog.perform (UserAct.setCheckpoint checkpointAllocateBuffers)
          let err ← createAllocate message
          pure (err, status)
      else
        let err ← createAllocate zeroFeedback
        pure (err, status)

/-- The operations that send one command for the channel under the mutex of
frames: encode, decode frame and decode slice. -/
def sendFrameCommand (constructor : Word → Bool → MailResult) :
    UserProg ℤ := do
  let err ← Prog.perform (UserAct.mutexLockKillable .xcode)
  if err = -EINTR then
    pure err
  else
    let chanUid ← Prog.perform UserAct.getChanUid
    if chanUid = badChan then
      Prog.perform (UserAct.mutexUnlock .xcode)
      pure (-EPERM)
    else
      let chanUid ← Prog.perform UserAct.getChanUid
      let err ← sendBuilt (constructor chanUid)
      Prog.perform (UserAct.mutexUnlock .xcode)
      pure err

def al5eUserEncodeOneFrame (msg : Al5EncodeMsg) : UserProg ℤ :=
  sendFrameCommand fun chanUid kmalloc =>
    al5eCreateEncodeOneFrameMsg kmalloc chanUid msg

/-- The status which a feedback mail carries: its size and its bytes. -/
def mailGetStatus (mail : Al5Mail) : Word × List Byte :=
  let size : Word := BitVec.ofNat 32 (al5MailGetSize mail) - 4
  (size, (mail.body.drop 4).take size.toNat)

/-- The wait for a status, the same in the encoder and in the decoder. -/
def waitForStatus : UserProg (ℤ × Option (Word × List Byte)) := do
  let locked ← Prog.perform (UserAct.mutexTrylock .status)
  if locked then
    let chanUid ← Prog.perform UserAct.getChanUid
    if chanUid = badChan then
      Prog.perform (UserAct.mutexUnlock .status)
      pure (-EPERM, none)
    else
      let feedback ← al5QueuePop .status
      match feedback with
      | some mail => do
          Prog.perform (UserAct.freeMail mail)
          Prog.perform (UserAct.mutexUnlock .status)
          pure (0, some (mailGetStatus mail))
      | none => do
          Prog.perform (UserAct.mutexUnlock .status)
          pure (-EINTR, none)
  else
    pure (-EINTR, none)

def al5eUserWaitForStatus : UserProg (ℤ × Option (Word × List Byte)) :=
  waitForStatus

structure Al5Buffer where
  streamBufferPtr : BitVec 64
  handle : Word
  offset : Word
  size : Word

def createPutStreamMail (chanUid : Word) (info : BufferInfo) (buffer : Al5Buffer)
    (kmalloc : Bool) : MailResult := do
  let mail := al5MailCreate kmalloc MailUid.putStreamBuffer.code 28
  let mail ← al5MailWriteWord mail chanUid
  let mail ← al5MailWriteWord mail info.busAddress
  let mail ← al5MailWriteWord mail (al5McuGetVirtualAddress info.busAddress)
  let mail ← al5MailWriteWord mail buffer.size
  let mail ← al5MailWriteWord mail buffer.offset
  al5MailWrite mail
    (wordBytes (buffer.streamBufferPtr.setWidth 32) ++
      wordBytes ((buffer.streamBufferPtr >>> 32).setWidth 32)) 8

/-- `al5e_user_put_stream_buffer`, which takes no mutex. -/
def al5eUserPutStreamBuffer (buffer : Al5Buffer) : UserProg ℤ := do
  let chanUid ← Prog.perform UserAct.getChanUid
  if chanUid = badChan then
    pure (-EPERM)
  else
    let result ← Prog.perform (UserAct.getDmabufInfo buffer.handle)
    match result with
    | .error error => pure error
    | .ok info =>
        if buffer.size > info.size then
          pure (-EFAULT)
        else do
          let chanUid ← Prog.perform UserAct.getChanUid
          sendBuilt (createPutStreamMail chanUid info buffer)

def getUserRecBuffer (id : Word) : UserProg ℤ := do
  let bufpool ← Prog.perform (UserAct.getBufpool .recBuffers)
  if id.toInt > bufpool.length ∨ id.toInt < 0 then
    pure (-1)
  else
    Prog.perform (UserAct.bufpoolReserveFd id)

structure Al5ReconstructedInfo where
  fd : Word
  picStruct : Word
  poc : Word

def al5eUserGetRec : UserProg (ℤ × Option Al5ReconstructedInfo) := do
  let locked ← Prog.perform (UserAct.mutexTrylock .reconstructed)
  if locked then
    let chanUid ← Prog.perform UserAct.getChanUid
    if chanUid = badChan then
      Prog.perform (UserAct.mutexUnlock .reconstructed)
      pure (-EPERM, none)
    else
      let chanUid ← Prog.perform UserAct.getChanUid
      let err ← sendBuilt fun kmalloc =>
        al5CreateEmptyMail kmalloc chanUid MailUid.getReconstructedPicture.code
      if err ≠ 0 then
        Prog.perform (UserAct.mutexUnlock .reconstructed)
        pure (err, none)
      else
        let feedback ← al5QueuePop .reconstructed
        match feedback with
        | none => do
            Prog.perform (UserAct.mutexUnlock .reconstructed)
            pure (-EINTR, none)
        | some mail => do
            let fd ← getUserRecBuffer (al5MailGetWord mail 1)
            Prog.perform (UserAct.freeMail mail)
            Prog.perform (UserAct.mutexUnlock .reconstructed)
            if BitVec.ofInt 32 fd = (-1 : Word) then
              pure (-EINVAL, none)
            else
              pure (0, some {
                fd := BitVec.ofInt 32 fd
                picStruct := al5MailGetWord mail 2
                poc := al5MailGetWord mail 3 })
  else
    pure (-EINTR, none)

def al5eUserReleaseRec (fd : Word) : UserProg ℤ := do
  let locked ← Prog.perform (UserAct.mutexTrylock .reconstructed)
  if locked then
    let chanUid ← Prog.perform UserAct.getChanUid
    if chanUid = badChan then
      Prog.perform (UserAct.mutexUnlock .reconstructed)
      pure (-EPERM)
    else
      let id ← Prog.perform (UserAct.bufpoolGetId fd)
      if id < 0 then
        Prog.perform (UserAct.mutexUnlock .reconstructed)
        pure (-EINVAL)
      else
        let chanUid ← Prog.perform UserAct.getChanUid
        let err ← sendBuilt fun kmalloc =>
          al5CreateClassicMail kmalloc chanUid
            MailUid.releaseReconstructedPicture.code
            (wordBytes (BitVec.ofInt 32 id)) 4
        Prog.perform (UserAct.mutexUnlock .reconstructed)
        pure err
  else
    pure (-EINTR)

/-! ## The decoder -/

/-- `struct al5_channel_status` of the decoder. -/
structure Al5dChannelStatus where
  numCore : Byte
  errorCode : Word

def al5dUpdateChanParam (mail : Al5Mail) : Al5dChannelStatus where
  numCore := (wordAt mail.body 8).setWidth 8
  errorCode := wordAt mail.body 12

def initChan (mail : Al5Mail) : UserProg ℤ := do
  Prog.perform (UserAct.setChanUid (al5MailGetChanUid mail))
  let chanUid ← Prog.perform UserAct.getChanUid
  if chanUid = badChan then pure (-EINVAL) else pure 0

def al5dUserCreateChannel (uid : Word) (param : Al5Params)
    (status : Al5dChannelStatus) : UserProg (ℤ × Al5dChannelStatus) := do
  let err ← Prog.perform (UserAct.mutexLockKillable .create)
  if err = -EINTR then
    pure (err, status)
  else
    let chanUid ← Prog.perform UserAct.getChanUid
    if chanUid ≠ badChan then
      Prog.perform (UserAct.mutexUnlock .create)
      pure (-EPERM, status)
    else
      let err ← sendBuilt fun kmalloc =>
        al5dCreateChannelParamMsg kmalloc uid param
      if err ≠ 0 then
        Prog.perform (UserAct.mutexUnlock .create)
        pure (err, status)
      else
        let (err, feedback) ← al5QueuePopTimeout .create
        match feedback with
        | none => do
            Prog.perform (UserAct.mutexUnlock .create)
            pure (err, status)
        | some mail => do
            let err ← initChan mail
            Prog.perform (UserAct.freeMail mail)
            Prog.perform (UserAct.mutexUnlock .create)
            pure (err, al5dUpdateChanParam mail)

def al5dUserDecodeOneSlice (msg : Al5DecodeMsg) : UserProg ℤ :=
  sendFrameCommand fun chanUid kmalloc =>
    al5dCreateDecodeOneSliceMsg kmalloc chanUid msg

def al5dUserDecodeOneFrame (msg : Al5DecodeMsg) : UserProg ℤ :=
  sendFrameCommand fun chanUid kmalloc =>
    al5dCreateDecodeOneFrameMsg kmalloc chanUid msg

def al5dUserSearchStartCode (uid : Word) (msg : Al5SearchScMsg) : UserProg ℤ :=
  sendBuilt fun kmalloc => al5dCreateSearchScMail kmalloc uid msg

def al5dUserWaitForStatus : UserProg (ℤ × Option (Word × List Byte)) :=
  waitForStatus

structure Al5Scstatus where
  numSc : BitVec 16
  numBytes : Word

def al5dMailGetScStatus (mail : Al5Mail) : Al5Scstatus where
  numSc := (wordAt mail.body 4).setWidth 16
  numBytes := wordAt mail.body 8

def al5dUserWaitForStartCode : UserProg (ℤ × Option Al5Scstatus) := do
  let locked ← Prog.perform (UserAct.mutexTrylock .sc)
  if locked then
    let feedback ← al5QueuePop .sc
    match feedback with
    | some mail => do
        Prog.perform (UserAct.freeMail mail)
        Prog.perform (UserAct.mutexUnlock .sc)
        pure (0, some (al5dMailGetScStatus mail))
    | none => do
        Prog.perform (UserAct.mutexUnlock .sc)
        pure (-EINTR, none)
  else
    pure (-EINTR, none)

/-! ## Closing the file -/

/-- The loop of `al5_user_remove_residual_messages` on one queue, for at most
`rounds` mails. -/
def drainQueue (which : UserMail) : ℕ → UserProg Unit
  | 0 => Prog.perform UserAct.oops
  | rounds + 1 => do
      let mail ← al5QueuePop which
      match mail with
      | none => pure ()
      | some mail => do
          Prog.perform (UserAct.freeMail mail)
          drainQueue which rounds

def removeResidualMessages (rounds : ℕ) : List UserMail → UserProg Unit
  | [] => pure ()
  | which :: rest => do
      Prog.perform (UserAct.queueUnlock which)
      drainQueue which rounds
      removeResidualMessages rounds rest

def al5UserRemoveResidualMessages (rounds : ℕ) : UserProg Unit :=
  removeResidualMessages rounds userMails

/-- The loop of `al5_codec_release`, for at most `tries` tries. -/
def quietDestroyLoop : ℕ → UserProg Unit
  | 0 => pure ()
  | tries + 1 => do
      let ret ← al5UserDestroyChannel true
      if ret = 0 then pure () else quietDestroyLoop tries

/-- `al5_codec_release`; no bound on the mails of a queue is known, so every
bound is a call of its own. -/
def al5CodecRelease (rounds : ℕ) : UserProg Unit := do
  let chanUid ← Prog.perform UserAct.getChanUid
  if chanUid = badChan then
    al5UserRemoveResidualMessages rounds
    Prog.perform UserAct.unbind
  else
    quietDestroyLoop 10000
    al5UserDestroyChannelResources
    al5UserRemoveResidualMessages rounds
    Prog.perform UserAct.unbind

/-! ## Booting the MCU -/

/-- `init_mcu`; the memory pool of the MCU is one more allocation. -/
def initMcu (uid : Word) (msg : List Byte) : UserProg ℤ := do
  let err ← Prog.perform (UserAct.mutexLockKillable .init)
  if err = -EINTR then
    pure err
  else
    let (err, feedback) ← al5QueuePopTimeout .init
    match feedback with
    | none => do
        Prog.perform (UserAct.mutexUnlock .init)
        pure err
    | some mail => do
        Prog.perform (UserAct.freeMail mail)
        let suballocBuf ← Prog.perform UserAct.kmalloc
        if suballocBuf then
          let err ← sendBuilt fun kmalloc => createInitMsg kmalloc uid msg
          if err ≠ 0 then
            Prog.perform (UserAct.mutexUnlock .init)
            pure err
          else
            let (err, feedback) ← al5QueuePopTimeout .init
            match feedback with
            | none => do
                Prog.perform (UserAct.mutexUnlock .init)
                pure err
            | some mail => do
                Prog.perform (UserAct.freeMail mail)
                Prog.perform (UserAct.mutexUnlock .init)
                pure 0
        else
          Prog.perform (UserAct.mutexUnlock .init)
          pure (-ENOMEM)

/-- `al5_codec_set_firmware` once its root user is bound. -/
def al5CodecSetFirmware (uid : Word) (msg : List Byte) : UserProg ℤ := do
  let err ← initMcu uid msg
  if err ≠ 0 then
    pure err
  else
    Prog.perform UserAct.unbind
    pure 0

/-! ## The machine -/

/-- The user of an encoder or decoder file, or the root user of the boot. -/
inductive UserKind where
  | encoder
  | decoder
  | root
  deriving DecidableEq

inductive UserOp where
  | encoderCreate (param : Al5Params) (status : Al5eChannelStatus)
  | encodeOneFrame (msg : Al5EncodeMsg)
  | encoderWaitForStatus
  | putStreamBuffer (buffer : Al5Buffer)
  | getRec
  | releaseRec (fd : Word)
  | decoderCreate (param : Al5Params) (status : Al5dChannelStatus)
  | decodeOneFrame (msg : Al5DecodeMsg)
  | decodeOneSlice (msg : Al5DecodeMsg)
  | searchStartCode (msg : Al5SearchScMsg)
  | decoderWaitForStatus
  | waitForStartCode
  | destroy (quiet : Bool)
  | release (rounds : ℕ)
  | setFirmware (msg : List Byte)

namespace UserOp

/-- The operations which the `ioctl` of a codec offers, the release of a file,
and the boot. -/
def offeredTo : UserOp → UserKind → Bool
  | .encoderCreate .., .encoder | .encodeOneFrame _, .encoder
  | .encoderWaitForStatus, .encoder | .putStreamBuffer _, .encoder
  | .getRec, .encoder | .releaseRec _, .encoder => true
  | .decoderCreate .., .decoder | .decodeOneFrame _, .decoder
  | .decodeOneSlice _, .decoder | .searchStartCode _, .decoder
  | .decoderWaitForStatus, .decoder | .waitForStartCode, .decoder => true
  | .destroy _, .encoder | .destroy _, .decoder => true
  | .release _, .encoder | .release _, .decoder => true
  | .setFirmware _, .root => true
  | _, _ => false

def isRelease : UserOp → Bool
  | .release _ => true
  | _ => false

def closes : UserOp → Bool
  | .release _ | .setFirmware _ => true
  | _ => false

end UserOp

inductive UserOut where
  | done (err : ℤ)
  | encoderChannel (err : ℤ) (status : Al5eChannelStatus)
  | decoderChannel (err : ℤ) (status : Al5dChannelStatus)
  | status (err : ℤ) (params : Option (Word × List Byte))
  | startCode (err : ℤ) (status : Option Al5Scstatus)
  | picture (err : ℤ) (info : Option Al5ReconstructedInfo)
  | closed

def userBody (uid : Word) : UserOp → UserProg UserOut
  | .encoderCreate param status =>
      (al5eUserCreateChannel uid param status).bind fun result =>
        .ret (.encoderChannel result.1 result.2)
  | .encodeOneFrame msg =>
      (al5eUserEncodeOneFrame msg).bind fun err => .ret (.done err)
  | .encoderWaitForStatus =>
      al5eUserWaitForStatus.bind fun result => .ret (.status result.1 result.2)
  | .putStreamBuffer buffer =>
      (al5eUserPutStreamBuffer buffer).bind fun err => .ret (.done err)
  | .getRec =>
      al5eUserGetRec.bind fun result => .ret (.picture result.1 result.2)
  | .releaseRec fd => (al5eUserReleaseRec fd).bind fun err => .ret (.done err)
  | .decoderCreate param status =>
      (al5dUserCreateChannel uid param status).bind fun result =>
        .ret (.decoderChannel result.1 result.2)
  | .decodeOneFrame msg =>
      (al5dUserDecodeOneFrame msg).bind fun err => .ret (.done err)
  | .decodeOneSlice msg =>
      (al5dUserDecodeOneSlice msg).bind fun err => .ret (.done err)
  | .searchStartCode msg =>
      (al5dUserSearchStartCode uid msg).bind fun err => .ret (.done err)
  | .decoderWaitForStatus =>
      al5dUserWaitForStatus.bind fun result => .ret (.status result.1 result.2)
  | .waitForStartCode =>
      al5dUserWaitForStartCode.bind fun result =>
        .ret (.startCode result.1 result.2)
  | .destroy quiet => (al5UserDestroyChannel quiet).bind fun err => .ret (.done err)
  | .release rounds => (al5CodecRelease rounds).bind fun _ => .ret .closed
  | .setFirmware msg =>
      (al5CodecSetFirmware uid msg).bind fun err => .ret (.done err)

def al5UserDeliver (mail : Al5Mail) (state : UserState) : UserState :=
  let which := mailToQueue mail.uid?
  state.setQueue which
    { state.queues which with mails := (state.queues which).mails ++ [mail] }

abbrev UserCall : Type :=
  Call UserAct UserAct.Res UserOp UserOut

abbrev UserConfig : Type :=
  Config UserState UserAct UserAct.Res UserOp UserOut

abbrev UserMove : Type :=
  Move Choice UserOp Al5Mail

/-- A file is released once all of its calls have returned, and nothing is
called on it from then on. -/
def userEnter (kind : UserKind) (calls : List UserCall) (op : UserOp)
    (state : UserState) : Option UserState :=
  if state.closer = none ∧ op.offeredTo kind then
    if op.closes then
      if calls.all fun call => call.prog.finished then
        some { state with closer := some calls.length }
      else
        none
    else
      some state
  else
    none

/-- Calls on one user; from its release on only the releasing call runs. -/
def userMachine (kind : UserKind) (uid : Word) :
    Machine UserState UserAct UserAct.Res Choice UserOp UserOut Al5Mail where
  body := userBody uid
  enter := userEnter kind
  exec i _ action choice state :=
    if state.closer.all (· == i) then state.act i action choice else none
  env mail state := if state.bound then some (al5UserDeliver mail state) else none

def userStart : UserConfig :=
  ⟨al5UserInit, []⟩

end VcuDriver

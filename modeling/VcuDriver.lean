import VcuDriver.Conc.Outline
import VcuDriver.Mail
import VcuDriver.Mailbox
import VcuDriver.MailboxFifo
import VcuDriver.Conc.Discipline
import VcuDriver.Feedback
import VcuDriver.MailboxSend
import VcuDriver.StreamBuffer
import VcuDriver.UserDiscipline
import VcuDriver.UserMails
import VcuDriver.UserMutex
import VcuDriver.UserQueues
import VcuDriver.BufferPool
import VcuDriver.BufferPoolAccounting
import VcuDriver.Conc.Chain
import VcuDriver.StatusFifo
import VcuDriver.UserConditions
import VcuDriver.UserCreation
import VcuDriver.UserReplies
import VcuDriver.Codec
import VcuDriver.CodecSteps
import VcuDriver.Conc.Places
import VcuDriver.UserClosing
import VcuDriver.UserCustody
import VcuDriver.BringUp
import VcuDriver.Conc.Ledger
import VcuDriver.Conc.Watch
import VcuDriver.DmabufCreation
import VcuDriver.GetRec
import VcuDriver.IrqLifetime
import VcuDriver.MailboxSpace
import VcuDriver.OpenFiles
import VcuDriver.PoolMails
import VcuDriver.PoolMemory
import VcuDriver.UserCreateStatus
import VcuDriver.UserPushes
import VcuDriver.UserResumption
import VcuDriver.CodecConditions
import VcuDriver.CodecCustody
import VcuDriver.CodecReplies
import VcuDriver.CodecChannels
import VcuDriver.CodecFeedback
import VcuDriver.CodecStatus
import VcuDriver.AddressTranslation
import VcuDriver.Conc.Alone
import VcuDriver.DmabufMapping
import VcuDriver.Conc.Refinement
import VcuDriver.MailList
import VcuDriver.Group
import VcuDriver.MailboxContents
import VcuDriver.Dispatch
import VcuDriver.Drain
import VcuDriver.Conc.Ensures
import VcuDriver.MailFailure
import VcuDriver.PoolRoundTrip
import VcuDriver.DestroyAtomic
import VcuDriver.Conc.Fate
import VcuDriver.Interrupts
import VcuDriver.McuBoot
import VcuDriver.UserProgress
import VcuDriver.ModuleLifetime

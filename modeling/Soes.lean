import Soes.Stack.Device
import Soes.Properties.AlRefinement
import Soes.Properties.AlTrace
import Soes.Properties.DcWatch
import Soes.Properties.DeadBus
import Soes.Properties.Entry
import Soes.Properties.HeldReply
import Soes.Properties.InboxRelease
import Soes.Properties.CoeLedger
import Soes.Properties.ProtocolLedger
import Soes.Properties.MbxProcess
import Soes.Properties.Completions
import Soes.Properties.Bookkeeping
import Soes.Properties.OpPending
import Soes.Properties.PdoMapping
import Soes.Properties.SyncErrors
import Soes.Properties.AlCodes
import Soes.Properties.Sessions
import Soes.Properties.FreshSessions
import Soes.Properties.Authorised
import Soes.Properties.FoeDelivery
import Soes.Properties.OutputSessions
import Soes.Properties.HardwareWatchdog
import Soes.Properties.SoftwareWatchdog
import Soes.Properties.CaRoundTrip
import Soes.Properties.EoeTransport
import Soes.Properties.EoeReassembly
import Soes.Properties.EoeSetIp
import Soes.Properties.EepEmulation
import Soes.Properties.FoeReports
import Soes.Properties.FoeOpen
import Soes.Properties.OdList
import Soes.Properties.BitSlices
import Soes.Properties.ObjectExtent
import Soes.Properties.ObjectLookup
import Soes.Properties.EoeSettings
import Soes.Stack.Lan9252
import Soes.Properties.CsrChunks
import Soes.Properties.FifoWords
import Soes.Properties.StaleReads
import Soes.Properties.HalWaits
import Soes.Properties.CsrAccess
import Soes.Properties.GeneratedTables
import Soes.Properties.GeneratedImage
import Soes.Properties.GeneratedStart
import Soes.Properties.GeneratedExchange
import Soes.Properties.OneDictionary
import Soes.Properties.MappingEnds
import Soes.Properties.MappingVerdict
import Soes.Properties.PramAccess

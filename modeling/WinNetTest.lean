import WinNetTest.Fnio.Serialization
import WinNetTest.Fnio.StaleMemory
import WinNetTest.Fnio.FrameIndex
import WinNetTest.Fnio.SetFrame
import WinNetTest.Fnio.FrameRelease
import WinNetTest.Fnio.BounceOwnership
import WinNetTest.Fnmp.Exclusive
import WinNetTest.Fnmp.OidCompletion
import WinNetTest.Fnmp.ApiVersions
import WinNetTest.Fnmp.TaskOffload
import WinNetTest.Fnmp.Rss
import WinNetTest.Fnmp.QuicConnections
import WinNetTest.Fnmp.QueryCopy
import WinNetTest.Fnmp.Halt
import WinNetTest.Fnmp.AdapterLifetime
import WinNetTest.Fnmp.ControlDeviceLifetime
import WinNetTest.Fnlwf.RxAccounts
import WinNetTest.Fnlwf.LowResources
import WinNetTest.Fnlwf.StatusAccounts
import WinNetTest.Fnlwf.TxCompletion
import WinNetTest.Fnlwf.OidCompletion
import WinNetTest.Fnlwf.OidSubmit
import WinNetTest.Isr.Quiescence
import WinNetTest.Isr.RelayPending
import WinNetTest.Isr.ServiceLoop
import WinNetTest.Pkt.Receiver
import WinNetTest.Pkt.TcpRoundTrip
import WinNetTest.Pkt.Quic
import WinNetTest.Sock.Timeout
import WinNetTest.Sock.Blocking
import WinNetTest.WskClient.Results
import WinNetTest.WskClient.Forms
import WinNetTest.WskClient.Buffers

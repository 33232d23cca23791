import Libcage.Lib.Flow
import Libcage.Proofs.Rdp.RecvWindow
import Libcage.Proofs.Rdp.SendWindowRuns
import Libcage.Rdp.Exchange
import Libcage.Proofs.Rdp.UserData
import Libcage.Proofs.Rdp.Stream
import Libcage.Proofs.Rdp.WindowLengths
import Libcage.Proofs.Rdp.Acknowledgements
import Libcage.Proofs.Rdp.Resets
import Libcage.Proofs.Rdp.Handshake
import Libcage.Proofs.Rdp.Tables
import Libcage.Proofs.Dht.Rttable
import Libcage.Dht.Store
import Libcage.Proofs.Dht.Ownership
import Libcage.Dht.FindValue
import Libcage.Dht.Get
import Libcage.Proofs.Dht.Expiry
import Libcage.Proofs.Dht.Gets
import Libcage.Proofs.Dht.Transports
import Libcage.Dht.Query
import Libcage.Proofs.Dht.Callbacks
import Libcage.Proofs.Dht.Failover
import Libcage.Proofs.Dht.Reports
import Libcage.Proofs.Dht.Wakeups
import Libcage.Dht.Replication
import Libcage.Proofs.Dht.Lifetimes
import Libcage.Proofs.Rdp.SimultaneousOpen
import Libcage.Cage
import Libcage.Dtun.Register
import Libcage.Lib.Lease
import Libcage.Proofs.Peers
import Libcage.Proofs.Proxy.Store
import Libcage.Proofs.Registered
import Libcage.Dgram
import Libcage.Proofs.Proxy.Relay
import Libcage.Ping
import Libcage.Proofs.Ping
import Libcage.Proofs.Proxy.Gets
import Libcage.Proofs.Proxy.Lossless
import Libcage.Dtun.Query
import Libcage.Proofs.Dtun.Queries
import Libcage.Dtun.Request
import Libcage.Proofs.Dtun.Requests
import Libcage.Dht.Lookup
import Libcage.Lib.Closest
import Libcage.Proofs.Dht.Distance
import Libcage.Proofs.Dht.LiveContacts
import Libcage.Proofs.Dht.Lookup
import Libcage.Proofs.Dht.MergeNodes
import Libcage.Proofs.Dht.Restores
import Libcage.Datagrams
import Libcage.Decoders
import Libcage.NatNetwork
import Libcage.Proofs.Datagrams
import Libcage.Proofs.Decoders
import Libcage.Proofs.NatNetwork
import Libcage.Proofs.Natdetector
import Libcage.Proofs.Proxy.Registration
import Libcage.Lib.Ledger
import Libcage.Proofs.Proxy.ClientGets
import Libcage.Dht.Sweep
import Libcage.Proofs.Dht.Deletes
import Libcage.Proofs.Dht.StoreReceiver
import Libcage.Proofs.Dht.Sweep
import Libcage.Proofs.Rdp.EackDecoding
import Libcage.Proofs.Rdp.EackNumbers
import Libcage.Proofs.Rdp.EphemeralPorts
import Libcage.Proofs.Rdp.FlowControl
import Libcage.Dht.FindValueReply
import Libcage.Proofs.Rdp.DeferredCloses
import Libcage.Proofs.Rdp.TimerWalk
import Libcage.Proofs.ReplyBuffers
import Libcage.Bn
import Libcage.Proofs.Bn.Arithmetic
import Libcage.Proofs.Bn.Hex
import Libcage.Advertise
import Libcage.Agent.Crypto
import Libcage.Agent.SecKeyWrapper
import Libcage.Lib.Der
import Libcage.Lib.RateLimit
import Libcage.Proofs.Advertise
import Libcage.Proofs.Agent.Crypto
import Libcage.Proofs.NodeLists
import Libcage.Proofs.Proxy.Sweep
import Libcage.Agent.Base64
import Libcage.Agent.Pem
import Libcage.Proofs.Agent.Pem
import Libcage.Lib.Search
import Libcage.Dht.FindNode
import Libcage.Proofs.Dht.FindsClosest
import Libcage.Proofs.Dtun.Relay
import Libcage.Proofs.Rdp.LifeCycle

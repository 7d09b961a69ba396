import Iwan.Checksum
import Iwan.Client.Ack
import Iwan.Client.Routes
import Iwan.Codecs
import Iwan.Connection
import Iwan.Https.Chunked
import Iwan.Https.Coding
import Iwan.Https.Request
import Iwan.Json.Bodies
import Iwan.Json.Lookup
import Iwan.Oidc.Accept
import Iwan.Oidc.Normalize
import Iwan.Oidc.Query
import Iwan.Proxy.DnsVerdicts
import Iwan.Proxy.Evict
import Iwan.Proxy.ForceClose
import Iwan.Proxy.HttpTarget
import Iwan.Proxy.LockoutCount
import Iwan.Proxy.Pace
import Iwan.Proxy.RelayLife
import Iwan.Proxy.RelayStream
import Iwan.Proxy.Replies
import Iwan.Proxy.RxPool
import Iwan.Proxy.Targets
import Iwan.Proxy.Token
import Iwan.Proxy.Upload
import Iwan.Server.Batch
import Iwan.Server.Guess
import Iwan.Server.Spoof
import Iwan.Terminal
import Iwan.TunPool

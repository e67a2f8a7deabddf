import Nshgeoip.Lib.Bytes
import Nshgeoip.Lib.Search
import Nshgeoip.Lib.Lines
import Nshgeoip.Lib.Decimal
import Nshgeoip.Lib.Binary64
import Nshgeoip.Lib.Json
import Nshgeoip.Lib.Interleave
import Nshgeoip.Lib.Lifetime
import Nshgeoip.Lib.CText
import Nshgeoip.Lib.Overlay
import Nshgeoip.Lib.Program
import Nshgeoip.Lib.Machine
import Nshgeoip.Lib.Files
import Nshgeoip.Lib.ShellText
import Nshgeoip.Lib.InetText
import Nshgeoip.TextUtil
import Nshgeoip.IpAddr
import Nshgeoip.IpAddr.Literals
import Nshgeoip.Http
import Nshgeoip.Http.ReadHead
import Nshgeoip.Http.ReadLoop
import Nshgeoip.Http.HeaderScan
import Nshgeoip.Http.RequestGrammar
import Nshgeoip.Http.RoundTrip
import Nshgeoip.Http.Framing
import Nshgeoip.Geoip
import Nshgeoip.Metrics
import Nshgeoip.ThreadPool
import Nshgeoip.ThreadPool.Conservation
import Nshgeoip.ThreadPool.Progress
import Nshgeoip.Server
import Nshgeoip.Server.Answer
import Nshgeoip.Server.Framing
import Nshgeoip.Server.Bodies
import Nshgeoip.Server.Renderings
import Nshgeoip.Server.Lookup
import Nshgeoip.Server.ContentType
import Nshgeoip.Server.Head
import Nshgeoip.Server.Accounting
import Nshgeoip.Server.Pool
import Nshgeoip.Server.Databases
import Nshgeoip.Server.Coverage
import Nshgeoip.Server.Lifetime
import Nshgeoip.Config
import Nshgeoip.Config.Law
import Nshgeoip.Config.AutoDetect
import Nshgeoip.Server.RunLoop
import Nshgeoip.Server.MetricsFile
import Nshgeoip.Config.Ranges
import Nshgeoip.Server.Lifecycle
import Nshgeoip.Server.Resources
import Nshgeoip.Server.SocketPath
import Nshgeoip.Server.StaleSocket
import Nshgeoip.GeoipSync
import Nshgeoip.GeoipSync.Safety
import Nshgeoip.GeoipSync.Marker
import Nshgeoip.GeoipUpdate
import Nshgeoip.GeoipUpdate.Published
import Nshgeoip.Mirror
import Nshgeoip.Ctl
import Nshgeoip.Ctl.Startable
import Nshgeoip.Ctl.ConfigValue
import Nshgeoip.Ctl.External
import Nshgeoip.Ctl.GeoipConf
import Nshgeoip.CheckDb
import Nshgeoip.CheckDb.Json
import Nshgeoip.CheckDb.Ini
import Nshgeoip.Lib.Prometheus
import Nshgeoip.Metrics.ReadBack
import Nshgeoip.Metrics.Ending
import Nshgeoip.Geoip.Age
import Nshgeoip.CheckDb.Age
import Nshgeoip.Process
import Nshgeoip.Process.Connections
import Nshgeoip.Process.Rounds
import Nshgeoip.Process.Shutdown
import Nshgeoip.Lib.Sections
import Nshgeoip.Lib.Sweep
import Nshgeoip.GeoipSync.Script
import Nshgeoip.GeoipSync.Cycle
import Nshgeoip.GeoipSync.Settled
import Nshgeoip.Lib.Service
import Nshgeoip.GeoipUpdate.Script
import Nshgeoip.Main
import Nshgeoip.Main.CommandLine
import Nshgeoip.Main.HealthCheck
import Nshgeoip.Ctl.Download
import Nshgeoip.Ctl.Fetch
import Nshgeoip.Ctl.Release
import Nshgeoip.Http.Deadline
import Nshgeoip.Ctl.Install
import Nshgeoip.Lib.Atomic
import Nshgeoip.Server.Handler
import Nshgeoip.Server.Concurrency

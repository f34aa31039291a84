import WatchedAgent.Proofs.StaticFiles
import WatchedAgent.Model.SocketDetector
import WatchedAgent.Model.Status
import WatchedAgent.Proofs.LogRuns
import WatchedAgent.Proofs.Identifiers
import WatchedAgent.Proofs.Ownership
import WatchedAgent.Proofs.Parenthood
import WatchedAgent.Proofs.Restart
import WatchedAgent.Proofs.Units
import WatchedAgent.Proofs.Order
import WatchedAgent.Lib.Json
import WatchedAgent.Model.Config
import WatchedAgent.Proofs.ConfigFile
import WatchedAgent.Model.Startup
import WatchedAgent.Proofs.Loading
import WatchedAgent.Model.PollingThread
import WatchedAgent.Proofs.Shutdown
import WatchedAgent.Model.Ressource
import WatchedAgent.Model.Polling
import WatchedAgent.Proofs.CompleteSamples
import WatchedAgent.Proofs.Delivery
import WatchedAgent.Proofs.Lifetimes
import WatchedAgent.Lib.Numeral
import WatchedAgent.Proofs.SocketText
import WatchedAgent.Proofs.SavedConfig
import WatchedAgent.Proofs.Recognition
import WatchedAgent.Model.Monitored
import WatchedAgent.Proofs.Enhancement
import WatchedAgent.Lib.OrderedMap
import WatchedAgent.Lib.Regex
import WatchedAgent.Model.Routes
import WatchedAgent.Proofs.RouteTable
import WatchedAgent.Proofs.Advertised
import WatchedAgent.Lib.Fallible
import WatchedAgent.Lib.Words
import WatchedAgent.Lib.Decimal
import WatchedAgent.Lib.Counters
import WatchedAgent.Lib.LuaPattern
import WatchedAgent.Model.ServiceCollectors
import WatchedAgent.Model.LuaCollectors
import WatchedAgent.Proofs.MatchLists
import WatchedAgent.Proofs.Addresses
import WatchedAgent.Proofs.Loopback
import WatchedAgent.Proofs.Merging
import WatchedAgent.Proofs.UnsetIds
import WatchedAgent.Proofs.StatFields
import WatchedAgent.Proofs.IoCollectors
import WatchedAgent.Proofs.MemCollectors
import WatchedAgent.Proofs.CpuFiles
import WatchedAgent.Proofs.CpuCollectors
import WatchedAgent.Lib.Forest
import WatchedAgent.Proofs.Roots
import WatchedAgent.Lib.History
import WatchedAgent.Proofs.LogWindow
import WatchedAgent.Proofs.Histories
import WatchedAgent.Model.Rates
import WatchedAgent.Proofs.PidRates
import WatchedAgent.Proofs.TickRates
import WatchedAgent.Model.SystemCollectors
import WatchedAgent.Model.Shares
import WatchedAgent.Proofs.CpuPercentages
import WatchedAgent.Proofs.MemoryPercentages
import WatchedAgent.Proofs.CpuElapsed
import WatchedAgent.Proofs.Denominators
import WatchedAgent.Lib.OStream
import WatchedAgent.Lib.Percent
import WatchedAgent.Model.Collecting
import WatchedAgent.Model.HostCollectors
import WatchedAgent.Proofs.MountPoints
import WatchedAgent.Lib.ByteStream
import WatchedAgent.Model.Sending
import WatchedAgent.Proofs.WholeFiles
import WatchedAgent.Model.HomePage
import WatchedAgent.Proofs.StatusReports
import WatchedAgent.Model.Counting
import WatchedAgent.Proofs.SampleCounts
import WatchedAgent.Model.Making
import WatchedAgent.Proofs.Registered
import WatchedAgent.Proofs.SafeCalls
import WatchedAgent.Proofs.SafeCollectors
import WatchedAgent.Lib.Strtod
import WatchedAgent.Model.Requests
import WatchedAgent.Proofs.HistoryRequests
import WatchedAgent.Lib.Html
import WatchedAgent.Model.ServicePage
import WatchedAgent.Proofs.ServicePages
import WatchedAgent.Proofs.DeviceRates
import WatchedAgent.Lib.Delimited
import WatchedAgent.Model.HttpServer
import WatchedAgent.Proofs.RequestText
import WatchedAgent.Proofs.Collisions
import WatchedAgent.Proofs.Connections
import WatchedAgent.Proofs.AnyClient
import WatchedAgent.Proofs.QueryStrings
import WatchedAgent.Proofs.AgentResponses
import WatchedAgent.Lib.LuaLazy
import WatchedAgent.Model.AgentLog
import WatchedAgent.Proofs.SelfLog
import WatchedAgent.Model.HttpClient
import WatchedAgent.Proofs.ResponseText
import WatchedAgent.Proofs.Exchanges
import WatchedAgent.Proofs.Revalidation
import WatchedAgent.Lib.JsonPath
import WatchedAgent.Model.Main
import WatchedAgent.Proofs.SecondStart
import WatchedAgent.Model.Documents
import WatchedAgent.Proofs.DeclaredNames
import WatchedAgent.Proofs.Documented
import WatchedAgent.Proofs.AgentCalls
import WatchedAgent.Model.DetectionThread
import WatchedAgent.Proofs.DetectionShutdown
import WatchedAgent.Model.SystemScripts
import WatchedAgent.Proofs.SameEvents

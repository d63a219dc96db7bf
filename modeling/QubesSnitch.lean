import QubesSnitch.AcceptedHeap
import QubesSnitch.ActionColumn
import QubesSnitch.Answers
import QubesSnitch.Attribution
import QubesSnitch.Basic
import QubesSnitch.CacheBounds
import QubesSnitch.CheckedHeap
import QubesSnitch.Concrete
import QubesSnitch.Daemon
import QubesSnitch.DaemonRuns
import QubesSnitch.Display
import QubesSnitch.Dns
import QubesSnitch.DnsCache
import QubesSnitch.DnsLanguage
import QubesSnitch.DnsReject
import QubesSnitch.Enforcement
import QubesSnitch.Enrichment
import QubesSnitch.HintLifetime
import QubesSnitch.HintOrigins
import QubesSnitch.HintPolicy
import QubesSnitch.HintSections
import QubesSnitch.HostnameAnswers
import QubesSnitch.Ipaddress
import QubesSnitch.Lasting
import QubesSnitch.LateFiles
import QubesSnitch.Lib.Blake2s
import QubesSnitch.Lib.ChainWalk
import QubesSnitch.Lib.Computation
import QubesSnitch.Lib.Dict
import QubesSnitch.Lib.Eviction
import QubesSnitch.Lib.FirstMatch
import QubesSnitch.Lib.Histories
import QubesSnitch.Lib.Interleaving
import QubesSnitch.Lib.Json
import QubesSnitch.Lib.JsonPrefix
import QubesSnitch.Lib.LockOrder
import QubesSnitch.Lib.Marks
import QubesSnitch.Lib.OnesComplement
import QubesSnitch.Lib.PyText
import QubesSnitch.Lib.Regex
import QubesSnitch.Lib.TicketQueue
import QubesSnitch.Lib.TokenBucket
import QubesSnitch.Lib.Words
import QubesSnitch.Lifecycle
import QubesSnitch.LineProtocol
import QubesSnitch.LockUse
import QubesSnitch.LogThrottle
import QubesSnitch.NetvmWalk
import QubesSnitch.Nft.Chains
import QubesSnitch.Nft.FailClosed
import QubesSnitch.Nft.Guarantees
import QubesSnitch.Nft.Lines
import QubesSnitch.Nft.Reading
import QubesSnitch.Nft.Render
import QubesSnitch.Nft.Syntax
import QubesSnitch.Nft.Tokens
import QubesSnitch.ObjectChecks
import QubesSnitch.ObjectFrame
import QubesSnitch.ObjectValues
import QubesSnitch.OneList
import QubesSnitch.PacketFormat
import QubesSnitch.PacketHandlers
import QubesSnitch.Packets
import QubesSnitch.Policy
import QubesSnitch.PolicyRuntime
import QubesSnitch.PolicyTables
import QubesSnitch.PromptLine
import QubesSnitch.PromptTurns
import QubesSnitch.Queue
import QubesSnitch.QueueRuns
import QubesSnitch.ReadConfig
import QubesSnitch.RefreshOrder
import QubesSnitch.Refreshes
import QubesSnitch.Restarts
import QubesSnitch.RuleFile
import QubesSnitch.RuleObjects
import QubesSnitch.RulesDir
import QubesSnitch.SavedDecision
import QubesSnitch.SourceErrors
import QubesSnitch.SourceMap
import QubesSnitch.SourceRows
import QubesSnitch.SourceService
import QubesSnitch.SourcesRuntime
import QubesSnitch.Stored
import QubesSnitch.Ui
import QubesSnitch.WildcardRules
import QubesSnitch.WireNames

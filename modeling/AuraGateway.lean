import AuraGateway.Foundations.FloatOrder
import AuraGateway.Foundations.GlobLanguage
import AuraGateway.Foundations.FirstMatch
import AuraGateway.Foundations.FixedWindow
import AuraGateway.Standard.RustStd
import AuraGateway.Types.Routing
import AuraGateway.Types.PatternLanguage
import AuraGateway.Types.Request
import AuraGateway.Router.Config
import AuraGateway.Router.FallbackDepth
import AuraGateway.Router.Features
import AuraGateway.Router.HealthTracker
import AuraGateway.Router.CircuitRecovery
import AuraGateway.Router.SessionAffinity
import AuraGateway.Router.SmartRouter
import AuraGateway.Router.Strategy
import AuraGateway.Router.Scorer
import AuraGateway.Router.TierCatalog
import AuraGateway.Router.AutoRouter
import AuraGateway.Foundations.LabelledRuns
import AuraGateway.Foundations.OwnedRows
import AuraGateway.Router.DecisionSpec
import AuraGateway.Router.SelectionSafety
import AuraGateway.Router.TierPolicy
import AuraGateway.Router.BudgetPolicy
import AuraGateway.Proxy.State
import AuraGateway.Proxy.Eligibility
import AuraGateway.Proxy.Calls
import AuraGateway.Proxy.RoutingGold
import AuraGateway.Proxy.AutoRouting
import AuraGateway.Proxy.EscalationRuns
import AuraGateway.Proxy.PromptEgress
import AuraGateway.Storage.Rows
import AuraGateway.Storage.Repo
import AuraGateway.Storage.Tenancy
import AuraGateway.Management.Routes
import AuraGateway.Management.Isolation
import AuraGateway.Proxy.ResponseCache
import AuraGateway.Proxy.ResponseHandling
import AuraGateway.Proxy.TenantIsolation
import AuraGateway.Foundations.EventLog
import AuraGateway.Proxy.Breaker
import AuraGateway.Router.DecisionRecord
import AuraGateway.Proxy.Resolution
import AuraGateway.Proxy.RouterBuild
import AuraGateway.Settings.Interleaving
import AuraGateway.Proxy.OrgPolicy
import AuraGateway.Settings.OrgFreshness
import AuraGateway.Auth.ApiKeys
import AuraGateway.Auth.KeyRuns
import AuraGateway.Auth.KeyRecords
import AuraGateway.Usage.Recording
import AuraGateway.Usage.EndUserCounters
import AuraGateway.Limits.RateLimit
import AuraGateway.Limits.StoredLimits
import AuraGateway.Limits.TokenBudget
import AuraGateway.Limits.WindowRuns
import AuraGateway.Foundations.KeyedTable
import AuraGateway.Pricing.CostCalculator
import AuraGateway.Settings.Document
import AuraGateway.Settings.Runtime
import AuraGateway.Router.ModelIndex
import AuraGateway.Router.OrgSettings
import AuraGateway.Pricing.ModelCatalog
import AuraGateway.Foundations.UniqueInserts
import AuraGateway.Playground.MintKey
import AuraGateway.Playground.MintRuns
import AuraGateway.Foundations.Framing
import AuraGateway.Sdk.DataModel
import AuraGateway.Sdk.PythonTypes
import AuraGateway.Sdk.Delivery
import AuraGateway.Types.StreamEvent
import AuraGateway.Sdk.Streaming
import AuraGateway.Foundations.KeyedPartition
import AuraGateway.Standard.JsStd
import AuraGateway.Scraper.FamilyKey
import AuraGateway.Scraper.Persist
import AuraGateway.Scraper.PersistPlan
import AuraGateway.Scraper.PersistRuns
import AuraGateway.Scraper.PersistOnce
import AuraGateway.Scraper.PersistPrices
import AuraGateway.Foundations.Scanner
import AuraGateway.Foundations.PolledStream
import AuraGateway.Standard.Utf8
import AuraGateway.Provider.Sse
import AuraGateway.Types.Responses
import AuraGateway.Foundations.KeyedFolds
import AuraGateway.Provider.ChatChunks
import AuraGateway.Provider.ReceivedCalls
import AuraGateway.Provider.ChatStream
import AuraGateway.Provider.ChatDelivery
import AuraGateway.Provider.QueuedStream
import AuraGateway.Provider.QueuedDelivery
import AuraGateway.Provider.Anthropic
import AuraGateway.Provider.Gemini
import AuraGateway.Provider.GeminiStream
import AuraGateway.Provider.GeminiDelivery
import AuraGateway.Provider.GeminiAnswer
import AuraGateway.Provider.GeminiRequest
import AuraGateway.Provider.GeminiRoundTrip
import AuraGateway.Provider.Outcomes
import AuraGateway.Provider.BedrockAgreement
import AuraGateway.Provider.ChatRequests
import AuraGateway.Foundations.KeysetPages
import AuraGateway.Foundations.Endings
import AuraGateway.Decisions.Cursor
import AuraGateway.Decisions.Tables
import AuraGateway.Decisions.Listing
import AuraGateway.Decisions.ListingPages
import AuraGateway.Decisions.Outcomes
import AuraGateway.Decisions.Rollup
import AuraGateway.Decisions.RollupHistory
import AuraGateway.Provider.ChatAdapters
import AuraGateway.Provider.AnthropicAnswer
import AuraGateway.Provider.Bedrock
import AuraGateway.Provider.StreamEndings
import AuraGateway.Proxy.Replies
import AuraGateway.Foundations.Gauges
import AuraGateway.Foundations.Delimited
import AuraGateway.Proxy.CacheKeys
import AuraGateway.Proxy.Compression
import AuraGateway.Proxy.ToolReplay
import AuraGateway.Proxy.ActiveRequests
import AuraGateway.Foundations.Selection
import AuraGateway.Validation.Fanout
import AuraGateway.Foundations.SaturatingSums
import AuraGateway.Validation.FanoutUsage
import AuraGateway.Proxy.StreamHandler
import AuraGateway.Proxy.TerminalStatus
import AuraGateway.Foundations.Sealing
import AuraGateway.Crypto.Hex
import AuraGateway.Crypto.Envelope
import AuraGateway.Types.SseMessage
import AuraGateway.Types.EventDecoding
import AuraGateway.Foundations.UniqueReading
import AuraGateway.Compression.Values
import AuraGateway.Compression.Yaml
import AuraGateway.Compression.YamlReading
import AuraGateway.Scraper.SlugAgreement
import AuraGateway.Foundations.Majority
import AuraGateway.Scraper.PriceVoting
import AuraGateway.Decisions.ToolLoops
import AuraGateway.Proxy.ContextNeeds
import AuraGateway.Router.ModeOrder
import AuraGateway.Foundations.Rotation
import AuraGateway.Router.RoundRobin
import AuraGateway.Proxy.ConversationTitles
import AuraGateway.Decisions.RollupReport
import AuraGateway.Foundations.Batches
import AuraGateway.Provider.RequestOrder
import AuraGateway.Foundations.SortedCuts
import AuraGateway.Proxy.CatalogTiers
import AuraGateway.Pricing.CatalogRows
import AuraGateway.Provider.ChunkedText
import AuraGateway.Proxy.SynthesizedStream
import AuraGateway.Validation.Votes
import AuraGateway.Foundations.StrippedText
import AuraGateway.Validation.NormalForms
import AuraGateway.Router.ModelReplies
import AuraGateway.Foundations.CumulativeWalk
import AuraGateway.Router.HealthViews
import AuraGateway.Router.WeightedChoice
import AuraGateway.Foundations.FloatCounts
import AuraGateway.Router.LatencyChoice
import AuraGateway.Compression.Minify
import AuraGateway.Compression.ToonReading
import AuraGateway.Compression.AispSurroundings
import AuraGateway.Compression.Toon
import AuraGateway.Compression.Selector
import AuraGateway.Foundations.Softmax
import AuraGateway.Foundations.Resumptions
import AuraGateway.Foundations.Upserts
import AuraGateway.Router.LearnedModel
import AuraGateway.Router.CostModel
import AuraGateway.Router.ModelRegistry
import AuraGateway.Router.RegistryRestarts
import AuraGateway.Router.GoldPairs
import AuraGateway.Router.GoldBatches
import AuraGateway.Proxy.LearnedModels
import AuraGateway.Foundations.ExpiringStore
import AuraGateway.Proxy.CacheRuns
import AuraGateway.Decisions.SyntheticTraffic
import AuraGateway.Proxy.RoutingLab
import AuraGateway.Proxy.DecisionTrail
import AuraGateway.Foundations.HeaderList
import AuraGateway.Playground.ProxyCall

import InferPlatform.Gateway.Balance
import InferPlatform.Gateway.Failover
import InferPlatform.Agent.Pipeline
import InferPlatform.Agent.Reply
import InferPlatform.Gateway.Chunking
import InferPlatform.Gateway.Protocol
import InferPlatform.Gateway.Setup
import InferPlatform.Gateway.Reporting
import InferPlatform.Gateway.Health
import InferPlatform.Gateway.Staleness
import InferPlatform.Gateway.Fallback
import InferPlatform.Gateway.Arrears
import InferPlatform.Gateway.RateLimit
import InferPlatform.Gateway.ApiKeys
import InferPlatform.Gateway.LicenseGate
import InferPlatform.Agent.Tunnel
import InferPlatform.Planner.Fewest
import InferPlatform.Planner.Order
import InferPlatform.Planner.Exact
import InferPlatform.Gateway.PlanOrder
import InferPlatform.Gateway.Latency
import InferPlatform.Gateway.Worsening
import InferPlatform.Gateway.Counters
import InferPlatform.Gateway.Tokens
import InferPlatform.Gateway.Clean
import InferPlatform.Gateway.Limits
import InferPlatform.Gateway.Provider
import InferPlatform.Gateway.Uptime
import InferPlatform.Gateway.Webhook
import InferPlatform.Gateway.Consumer
import InferPlatform.Gateway.ModelRows
import InferPlatform.Planner.Estimate
import InferPlatform.Gateway.Heartbeat
import InferPlatform.Gateway.Onboarding
import InferPlatform.Gateway.KeyList
import InferPlatform.Agent.Conversation
import InferPlatform.Gateway.ChatPaths
import InferPlatform.Gateway.UsageSummary
import InferPlatform.Gateway.Statistics
import InferPlatform.Gateway.ModelStats
import InferPlatform.Gateway.Detection
import InferPlatform.Agent.Hardware
import InferPlatform.Gateway.Router
import InferPlatform.Agent.Network
import InferPlatform.Gateway.Distributed
import InferPlatform.Gateway.Connection
import InferPlatform.Gateway.Contacts
import InferPlatform.Gateway.DefaultPorts

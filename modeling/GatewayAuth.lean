import GatewayAuth.Lib.Runs
import GatewayAuth.Lib.Metering
import GatewayAuth.Lib.Sorted
import GatewayAuth.Document
import GatewayAuth.JsonBody
import GatewayAuth.Classify
import GatewayAuth.RootFields
import GatewayAuth.Operations
import GatewayAuth.Authz
import GatewayAuth.Text
import GatewayAuth.Forwarding
import GatewayAuth.Jwt
import GatewayAuth.Auth
import GatewayAuth.Ratelimit
import GatewayAuth.Audit
import GatewayAuth.Server
import GatewayAuth.Lib.Logs
import GatewayAuth.Service
import GatewayAuth.Mediation
import GatewayAuth.MethodGate
import GatewayAuth.Verification
import GatewayAuth.Trail
import GatewayAuth.Checks
import GatewayAuth.Budgets
import GatewayAuth.Identity
import GatewayAuth.Routing
import GatewayAuth.Handle
import GatewayAuth.Outcomes
import GatewayAuth.Variables
import GatewayAuth.KeySets
import GatewayAuth.Headers
import GatewayAuth.Lib.Orders
import GatewayAuth.HashOrder
import GatewayAuth.Tightening
import GatewayAuth.FragmentWalk
import GatewayAuth.Lib.DepthFirst
import GatewayAuth.CallDepth
import GatewayAuth.Lib.Words
import GatewayAuth.ScopesClaim
import GatewayAuth.Lib.Utf8
import GatewayAuth.Loading
import GatewayAuth.Secrets
import GatewayAuth.Grammar
import GatewayAuth.Fingerprint
import GatewayAuth.Listener
import GatewayAuth.Lib.Lines
import GatewayAuth.AuditFile
import GatewayAuth.Wire
import GatewayAuth.Lib.CellRate
import GatewayAuth.Rates
import GatewayAuth.Isolation
import GatewayAuth.Process
import GatewayAuth.Connections
import GatewayAuth.Confidential
import GatewayAuth.Metrics
import GatewayAuth.ConfigFile
import GatewayAuth.Startup
import GatewayAuth.Lifetime
import GatewayAuth.AuditText
import GatewayAuth.Lib.Fairness
import GatewayAuth.Progress
import GatewayAuth.Serial
import GatewayAuth.Revocation
import GatewayAuth.Lib.Records
import GatewayAuth.ConfigShape

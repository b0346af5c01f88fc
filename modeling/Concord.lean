import Concord.Lib.Transition
import Concord.Lib.Checked
import Concord.Auth.Error
import Concord.Auth.Credentials
import Concord.Auth.SlotWorld
import Concord.Auth.Generations
import Concord.Auth.Rejected
import Concord.Auth.Flight
import Concord.Error
import Concord.Lib.Loop
import Concord.Pagination
import Concord.Request
import Concord.Auth.Orchestrator
import Concord.Collect
import Concord.Progress
import Concord.Client.Rejection
import Concord.Io
import Concord.Client.Execute
import Concord.Client.Recovery
import Concord.Client.Challenge
import Concord.Lib.FormUrlencoded
import Concord.Auth.Placement
import Concord.Transport
import Concord.Client.Build
import Concord.Client.Placement
import Concord.RateLimit.Cooldown
import Concord.Lib.Results
import Concord.Lib.Keyed
import Concord.Lib.Edits
import Concord.Lib.Gcra
import Concord.Lib.Ranked
import Concord.RateLimit.Plan
import Concord.RateLimit.Window
import Concord.Sema.Ast
import Concord.Sema.Common
import Concord.Sema.Policy
import Concord.Sema.RateLimit
import Concord.Sema.Profile
import Concord.Sema.Auth
import Concord.Sema.Items
import Concord.Sema.Facade
import Concord.Sema.Resolve
import Concord.Sema.Inheritance
import Concord.Sema.Acquisition
import Concord.Codegen.RateLimit
import Concord.Codegen.Layers
import Concord.Codegen.Directives
import Concord.Codegen.Facade
import Concord.Codegen.Handles
import Concord.Codegen.Auth
import Concord.RateLimit.Expiry
import Concord.RateLimit.Deadlines
import Concord.RateLimit.Pruning
import Concord.RateLimit.Misconfigured
import Concord.Lib.Gate
import Concord.Body.Frame
import Concord.Body.Limit
import Concord.Body.Length
import Concord.Lib.Ancestry
import Concord.Sema.ProfileSets
import Concord.Lib.LastWrite
import Concord.Policy
import Concord.Client.Head
import Concord.Client.Timeout
import Concord.Codegen.Paginate
import Concord.Lib.Affix
import Concord.Lib.PathTree
import Concord.Codegen.Names
import Concord.Codegen.NameChecks
import Concord.Codegen.NameClashes
import Concord.Lib.Ip
import Concord.Host
import Concord.RetryMode
import Concord.Sema.Descriptor
import Concord.Sema.Origin
import Concord.Sema.DnsUrl
import Concord.Codegen.Origin
import Concord.Lib.PercentEncoding
import Concord.Lib.Segments
import Concord.UrlPath
import Concord.Codegen.Path
import Concord.Redaction
import Concord.Lib.Replace
import Concord.DebugUrl
import Concord.Client.ContentType
import Concord.PolicyLayers
import Concord.Codegen.PolicyOps
import Concord.Codegen.Query
import Concord.Lib.Delivery
import Concord.Body.SizeHint
import Concord.Lib.Held
import Concord.Auth.ProviderSend
import Concord.Auth.Recursion
import Concord.RateLimit.Accepted
import Concord.Client.Clones
import Concord.Client.BodyFailure
import Concord.Client.Hooks
import Concord.Body.Reading
import Concord.Body.Source
import Concord.Body.Multipart
import Concord.Client.CallOutcome
import Concord.Auth.CellRefinement
import Concord.RateLimit.Response
import Concord.Lib.Parsing
import Concord.Lib.TokenTree
import Concord.Parse.RoundTrip
import Concord.Parse.PublicExpr
import Concord.Parse.Route

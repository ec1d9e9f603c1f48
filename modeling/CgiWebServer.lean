import CgiWebServer.Proofs.AcceptLoop
import CgiWebServer.Proofs.AccessLog
import CgiWebServer.Proofs.AdmissionBound
import CgiWebServer.Proofs.AllowHeader
import CgiWebServer.Proofs.Arguments
import CgiWebServer.Proofs.BadInput
import CgiWebServer.Proofs.Body
import CgiWebServer.Proofs.ContentType
import CgiWebServer.Proofs.CookieHeader
import CgiWebServer.Proofs.Credentials
import CgiWebServer.Proofs.DailyFiles
import CgiWebServer.Proofs.Descriptors
import CgiWebServer.Proofs.EndpointCache
import CgiWebServer.Proofs.ErrorPages
import CgiWebServer.Proofs.EveryRequest
import CgiWebServer.Proofs.FileStream
import CgiWebServer.Proofs.FixedWindow
import CgiWebServer.Proofs.FixedWindowSequence
import CgiWebServer.Proofs.GlobalLimiter
import CgiWebServer.Proofs.HeadGet
import CgiWebServer.Proofs.HeaderNames
import CgiWebServer.Proofs.LimitKey
import CgiWebServer.Proofs.LimiterSettings
import CgiWebServer.Proofs.LimiterSteps
import CgiWebServer.Proofs.Linearizable
import CgiWebServer.Proofs.LogOverrun
import CgiWebServer.Proofs.LogRing
import CgiWebServer.Proofs.LogText
import CgiWebServer.Proofs.LoginToken
import CgiWebServer.Proofs.MintedTokens
import CgiWebServer.Proofs.OneHead
import CgiWebServer.Proofs.PublicFiles
import CgiWebServer.Proofs.ReadBack
import CgiWebServer.Proofs.RefillRate
import CgiWebServer.Proofs.Refusals
import CgiWebServer.Proofs.Remaining
import CgiWebServer.Proofs.Request
import CgiWebServer.Proofs.ResetTime
import CgiWebServer.Proofs.Resources
import CgiWebServer.Proofs.RetryAfter
import CgiWebServer.Proofs.RoleHierarchy
import CgiWebServer.Proofs.RoleWildcard
import CgiWebServer.Proofs.Rotation
import CgiWebServer.Proofs.ScriptCuts
import CgiWebServer.Proofs.ScriptHeaders
import CgiWebServer.Proofs.ScriptStatus
import CgiWebServer.Proofs.Secret
import CgiWebServer.Proofs.Segments
import CgiWebServer.Proofs.SentTypes
import CgiWebServer.Proofs.SessionEnd
import CgiWebServer.Proofs.SessionLine
import CgiWebServer.Proofs.Shutdown
import CgiWebServer.Proofs.Submissions
import CgiWebServer.Proofs.ThreadCount
import CgiWebServer.Proofs.TokenBucket
import CgiWebServer.Proofs.TokenBucketReference
import CgiWebServer.Proofs.UrlDecode
import CgiWebServer.Proofs.UrlForm
import CgiWebServer.Proofs.WriteCount
import CgiWebServer.Proofs.WriteLoop
import CgiWebServer.Proofs.OneResponse

import Turnstile.Rehearsal
import Turnstile.Redis.Connection
import Turnstile.Settings.CommandLine
import Turnstile.Main
import Turnstile.Proofs.Store.View
import Turnstile.Proofs.Crowd
import Turnstile.Proofs.Crowd.Conduct
import Turnstile.Proofs.Crowd.Attempts
import Turnstile.Proofs.Crowd.Play
import Turnstile.Proofs.Lock.Fencing
import Turnstile.Proofs.Lock.Exclusion
import Turnstile.Proofs.Record
import Turnstile.Proofs.Registry.Ledger
import Turnstile.Proofs.Guard.Visit
import Turnstile.Proofs.Guard.Agreement
import Turnstile.Proofs.Guard.Progress
import Turnstile.Proofs.Guard.Once
import Turnstile.Proofs.Guard.Handling
import Turnstile.Proofs.Guard.Outcome
import Turnstile.Proofs.Guard.Forever
import Turnstile.Proofs.Store.Expiring
import Turnstile.Proofs.Bucket.Throughput
import Turnstile.Proofs.Service.Unharmed
import Turnstile.Proofs.Guard.Release
import Turnstile.Proofs.Crowd.Trace
import Turnstile.Proofs.Guard.Gate
import Turnstile.Proofs.Guard.Errand
import Turnstile.Proofs.Registry.LifeCycle
import Turnstile.Proofs.Guard.Tenants
import Turnstile.Proofs.Bucket.Lasting
import Turnstile.Proofs.Binary64.Rounding
import Turnstile.Proofs.Binary64.Values
import Turnstile.Proofs.Bucket.Rounded
import Turnstile.Proofs.Bucket.Wait
import Turnstile.Proofs.Bucket.Retry
import Turnstile.Proofs.Json.Reading
import Turnstile.Proofs.Json.Text
import Turnstile.Proofs.Json.Number
import Turnstile.Proofs.Json.Value
import Turnstile.Proofs.Json.Sorted
import Turnstile.Proofs.Record.Reading
import Turnstile.Proofs.Http.Headers
import Turnstile.Proofs.Recording
import Turnstile.Proofs.Crowd.Through
import Turnstile.Proofs.Guard.Through
import Turnstile.Proofs.Crowd.Endings
import Turnstile.Proofs.Guard.Account
import Turnstile.Proofs.Guard.Sources
import Turnstile.Proofs.Service.Passages
import Turnstile.Proofs.Service.Replay
import Turnstile.Proofs.Service.Fields
import Turnstile.Proofs.Bucket.Looks
import Turnstile.Proofs.Admission
import Turnstile.Proofs.Service.Forecast
import Turnstile.Proofs.Policies.Built
import Turnstile.Proofs.Program.Play
import Turnstile.Proofs.Guard.Alone
import Turnstile.Proofs.Guard.ErrorPaths
import Turnstile.Proofs.Redis.Wire
import Turnstile.Proofs.Key.Segments
import Turnstile.Proofs.Service.Buckets
import Turnstile.Proofs.Bucket.Burst
import Turnstile.Proofs.Json.Shape
import Turnstile.Proofs.Recording.Reading
import Turnstile.Proofs.Policies.LastMatch
import Turnstile.Proofs.Store.Tidy
import Turnstile.Proofs.Bucket.Bounds
import Turnstile.Proofs.Json.Depth
import Turnstile.Proofs.Registry.ReadBack
import Turnstile.Proofs.Service.Peers
import Turnstile.Proofs.Service.PresentedKey
import Turnstile.Proofs.Service.Counted

import Interchange.Attempt.Backoff
import Interchange.Attempt.Breaker
import Interchange.Attempt.Invocation
import Interchange.Attempt.Process
import Interchange.Attempt.Script
import Interchange.Code
import Interchange.Decimal.Layout
import Interchange.Decimal.Shortest
import Interchange.Dictionary
import Interchange.Endpoint.Connections
import Interchange.Endpoint.Form
import Interchange.Endpoint.Registration
import Interchange.Endpoint.Registry
import Interchange.Failure
import Interchange.Gateway.Bank
import Interchange.Gateway.Dispatch
import Interchange.Gateway.Handlers
import Interchange.Gateway.Handling
import Interchange.Gateway.Readymade
import Interchange.Gateway.Rehearsal
import Interchange.Gateway.Remote
import Interchange.Gateway.Settings
import Interchange.Http.Status
import Interchange.Http.Uri
import Interchange.Json.Fault
import Interchange.Json.Float
import Interchange.Json.Member
import Interchange.Json.Reader
import Interchange.Json.Shape
import Interchange.Json.Skip
import Interchange.Json.Value
import Interchange.Json.Written
import Interchange.Message.Form
import Interchange.Message.Headers
import Interchange.Message.Metadata
import Interchange.Message.Request
import Interchange.Message.Response
import Interchange.Proofs.Attempt.Cancellation
import Interchange.Proofs.Attempt.Course
import Interchange.Proofs.Attempt.Crowd
import Interchange.Proofs.Attempt.History
import Interchange.Proofs.Attempt.Isolation
import Interchange.Proofs.Attempt.Lateness
import Interchange.Proofs.Attempt.Monitoring
import Interchange.Proofs.Attempt.Omission
import Interchange.Proofs.Attempt.Schedule
import Interchange.Proofs.Attempt.Thresholds
import Interchange.Proofs.Attempt.Timing
import Interchange.Proofs.Dictionary
import Interchange.Proofs.Endpoint.Registry
import Interchange.Proofs.Endpoint.Standing
import Interchange.Proofs.Gateway.Answers
import Interchange.Proofs.Gateway.Bank
import Interchange.Proofs.Gateway.Chronicle
import Interchange.Proofs.Gateway.Concourse
import Interchange.Proofs.Gateway.Delivery
import Interchange.Proofs.Gateway.Echo
import Interchange.Proofs.Gateway.Framing
import Interchange.Proofs.Gateway.Freshness
import Interchange.Proofs.Gateway.Identity
import Interchange.Proofs.Gateway.Notification
import Interchange.Proofs.Gateway.Rejection
import Interchange.Proofs.Gateway.Relay
import Interchange.Proofs.Gateway.Reporting
import Interchange.Proofs.Gateway.Schedule
import Interchange.Proofs.Gateway.Slots
import Interchange.Proofs.Json.Legibility
import Interchange.Proofs.Json.Reading
import Interchange.Proofs.Json.Scalars
import Interchange.Proofs.Json.Shapes
import Interchange.Proofs.Json.Writing
import Interchange.Proofs.Message.Headers
import Interchange.Proofs.Protocol.Acceptance
import Interchange.Proofs.Protocol.Admission
import Interchange.Proofs.Protocol.Delivery
import Interchange.Proofs.Protocol.JsonRpc.Echo
import Interchange.Proofs.Protocol.JsonRpc.Requests
import Interchange.Proofs.Protocol.JsonRpc.Rereading
import Interchange.Proofs.Protocol.PathTemplate
import Interchange.Proofs.Protocol.Payload
import Interchange.Proofs.Protocol.Rendering
import Interchange.Proofs.Protocol.Reporting
import Interchange.Proofs.Protocol.Spelling
import Interchange.Proofs.Routing.Catalogue
import Interchange.Proofs.Routing.Choices
import Interchange.Proofs.Routing.Levelling
import Interchange.Proofs.Routing.Precedence
import Interchange.Proofs.Routing.Refresh
import Interchange.Proofs.Routing.Rotation
import Interchange.Proofs.Routing.Run
import Interchange.Proofs.Routing.Selection
import Interchange.Proofs.Routing.Table
import Interchange.Proofs.Routing.Weights
import Interchange.Proofs.Text.Utf8
import Interchange.Protocol.Adapter
import Interchange.Protocol.Codec
import Interchange.Protocol.Crossing
import Interchange.Protocol.Envelope
import Interchange.Protocol.JsonRpc.Crossing
import Interchange.Protocol.JsonRpc.Request
import Interchange.Protocol.JsonRpc.Response
import Interchange.Protocol.PathTemplate
import Interchange.Protocol.Rest
import Interchange.Protocol.Tag
import Interchange.Routing.Balancer
import Interchange.Routing.Router
import Interchange.Routing.Rule
import Interchange.Text.Blank
import Interchange.Text.Concealed
import Interchange.Text.Quoted
import Interchange.Text.Utf8
import Interchange.Time.Seconds
import Interchange.Time.Span

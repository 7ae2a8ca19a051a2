import LanguageClient.Config.Load
import LanguageClient.Proofs.Session.Outbound
import LanguageClient.Rpc.Message
import LanguageClient.Session.Step
import LanguageClient.Telemetry
import LanguageClient.Proofs.Session.Tally
import LanguageClient.Proofs.Session.Completion
import LanguageClient.Proofs.Frame.Writer
import LanguageClient.Proofs.Session.Duty
import LanguageClient.Proofs.Session.Intake
import LanguageClient.Proofs.Session.Answer
import LanguageClient.Proofs.Frame.Header
import LanguageClient.Proofs.Session.Serving
import LanguageClient.Proofs.Session.Alignment
import LanguageClient.Proofs.Session.Correlation
import LanguageClient.Proofs.Text.Utf8
import LanguageClient.Proofs.Json.String
import LanguageClient.Proofs.Json.Number
import LanguageClient.Proofs.Json.Passing
import LanguageClient.Proofs.Schema.Record
import LanguageClient.Proofs.Payload
import LanguageClient.Proofs.Session.Dispatch
import LanguageClient.Proofs.Session.Reply
import LanguageClient.Proofs.Session.Loopback
import LanguageClient.Proofs.Session.Promptness
import LanguageClient.Proofs.Json.Grammar
import LanguageClient.Proofs.Json.Soundness
import LanguageClient.Proofs.Schema.Soundness
import LanguageClient.Proofs.Session.Malformed
import LanguageClient.Proofs.Frame.Stream
import LanguageClient.Proofs.Session.Resilience
import LanguageClient.Proofs.Session.Closing
import LanguageClient.Proofs.Frame.Resynchronisation
import LanguageClient.Proofs.Session.Resynchronisation
import LanguageClient.Proofs.Session.Revision
import LanguageClient.Proofs.Session.Transparency
import LanguageClient.Proofs.Session.Lenience
import LanguageClient.Proofs.Session.Incoming
import LanguageClient.Proofs.Session.Transcript
import LanguageClient.Proofs.Session.Handlers
import LanguageClient.Proofs.Config.Layering
import LanguageClient.Proofs.Config.Variables
import LanguageClient.Proofs.Config.Spelling
import LanguageClient.Proofs.Log.Filter
import LanguageClient.Proofs.Method
import LanguageClient.Proofs.Telemetry
import LanguageClient.Proofs.Session.Verdict
import LanguageClient.Proofs.Session.Insertion
import LanguageClient.Proofs.Json.Reread
import LanguageClient.Proofs.Json.Nesting
import LanguageClient.Proofs.Double
import LanguageClient.Proofs.Schema.Members
import LanguageClient.Proofs.Schema.Judging
import LanguageClient.Proofs.Envelope
import LanguageClient.Proofs.Frame.Foreign
import LanguageClient.Proofs.Session.Leftover
import LanguageClient.Proofs.Session.Exhaustion
import LanguageClient.Proofs.Restoration

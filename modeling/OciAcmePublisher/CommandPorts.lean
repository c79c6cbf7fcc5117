import OciAcmePublisher.CompatibilityProbe
import OciAcmePublisher.Effects.Sums

/-!
# The operations of the commands

What the commands of `cli.py` do themselves, besides what their services do: they load the configuration, log, write the metrics
textfile and the staging evidence, check the host for a preflight, and print.
-/

namespace OciAcmePublisher

open Effects

/-- A value of the printed JSON object. -/
inductive Printed where
  | text (value : String)
  | number (value : Int)
  | flag (value : Bool)
  | texts (values : List String)
  | numbers (values : List Int)
  deriving DecidableEq, Repr

/-- The operations of a command besides its service's. -/
inductive CommandOp where
  | loadConfig (path : String)
  | configureLogging (config : AppConfig)
  | logEvent (level : LogLevel) (event : String) (fields : List (String × FieldValue))
  | writeConfiguredMetrics (config : AppConfig)
  | writeEvidence (path : String) (certificate : CertificateConfig) (result : LiveCompatibilityProbeResult)
  | timedatectl
  | isDir (path : String)
  | request (address : String) (port : Nat) (text : String)
  | print (payload : List (String × Printed))
  | printLine (line : String)

/-- The type of an operation's replies: of `timedatectl` its exit code and output, none where it does not end in time. -/
@[reducible] def CommandOp.Reply : CommandOp → Type
  | .loadConfig _ => AppConfig
  | .timedatectl => Option (Int × String)
  | .isDir _ => Bool
  | .request .. => Bytes
  | _ => Unit

@[reducible] def commandCalls : Signature where
  Op := CommandOp
  Reply := CommandOp.Reply

/-- The operations of a command: its own, and those of the services. -/
@[reducible] def commands : Signature := commandCalls.sum publisher

/-- What a command does. -/
abbrev Command (α : Type) := Program commands Exc α

/-- Perform one of the command's own operations. -/
abbrev console (op : CommandOp) : Command op.Reply := Program.perform (S := commands) (.inl op)

end OciAcmePublisher

import MusicMacro.Curve.Recorder
import MusicMacro.Main
import MusicMacro.Proofs.Sink.Writer
import MusicMacro.Proofs.Sheet.RoundTrip
import MusicMacro.Proofs.Sink.Metered
import MusicMacro.Proofs.Track.Plan
import MusicMacro.Proofs.Track.Step
import MusicMacro.Proofs.Track.Frame
import MusicMacro.Proofs.Macro.FailedCall
import MusicMacro.Proofs.Sink.Form
import MusicMacro.Proofs.Track.Views
import MusicMacro.Proofs.Track.Truncation
import MusicMacro.Proofs.Macro.Line
import MusicMacro.Proofs.Track.Calls
import MusicMacro.Proofs.Track.Diagnostics
import MusicMacro.Proofs.Curve.Finish
import MusicMacro.Proofs.Track.Travel
import MusicMacro.Proofs.Macro.Motion
import MusicMacro.Proofs.Track.Position
import MusicMacro.Proofs.Track.Timing
import MusicMacro.Proofs.Checked.Value
import MusicMacro.Proofs.Track.Note
import MusicMacro.Proofs.Checked.Track
import MusicMacro.Proofs.Json.Reading
import MusicMacro.Proofs.Config.RoundTrip
import MusicMacro.Proofs.Config.Partial
import MusicMacro.Proofs.CommandLine.Arguments
import MusicMacro.Proofs.CommandLine.Run
import MusicMacro.Proofs.Curve.Recorder
import MusicMacro.Proofs.Curve.Target
import MusicMacro.Proofs.Curve.ClosedForm
import MusicMacro.Proofs.Macro.Validation
import MusicMacro.Proofs.Dial.Event
import MusicMacro.Proofs.Track.Turn
import MusicMacro.Proofs.Macro.Grammar
import MusicMacro.Proofs.Sheet.Verbatim
import MusicMacro.Proofs.Macro.Footprint
import MusicMacro.Proofs.Macro.Nudge
import MusicMacro.Proofs.Macro.KeySignature
import MusicMacro.Proofs.Dial.Encoding
import MusicMacro.Proofs.Macro.Dispatch
import MusicMacro.Proofs.Macro.Written
import MusicMacro.Proofs.Curve.Overshoot
import MusicMacro.Proofs.CommandLine.Items
import MusicMacro.Proofs.Sink.Status
import MusicMacro.Proofs.Macro.ChannelMessages
import MusicMacro.Proofs.Timeline.Conversion
import MusicMacro.Proofs.Channel.Gate
import MusicMacro.Proofs.Sink.Window

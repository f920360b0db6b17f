import VideoOverlay.Color
import VideoOverlay.CommandLine.Request
import VideoOverlay.CommandLine.Run
import VideoOverlay.CommandLine.Setting
import VideoOverlay.Config.Basic
import VideoOverlay.Config.Document
import VideoOverlay.Config.File
import VideoOverlay.Duration.Token
import VideoOverlay.Error
import VideoOverlay.Export.Command
import VideoOverlay.Export.Job
import VideoOverlay.Geometry
import VideoOverlay.Graph.Compile
import VideoOverlay.Graph.Segment
import VideoOverlay.Json.Record
import VideoOverlay.Json.Token
import VideoOverlay.Main
import VideoOverlay.Media.Listing
import VideoOverlay.Media.Picture
import VideoOverlay.Media.Probe
import VideoOverlay.Number.Binary64
import VideoOverlay.Number.Decimal
import VideoOverlay.Number.Numeral
import VideoOverlay.Overlay.Basic
import VideoOverlay.Overlay.Filter
import VideoOverlay.Overlay.Validate
import VideoOverlay.Proofs.Color.Thickness
import VideoOverlay.Proofs.CommandLine.DryRun
import VideoOverlay.Proofs.CommandLine.Overwrite
import VideoOverlay.Proofs.CommandLine.Preview
import VideoOverlay.Proofs.CommandLine.Run
import VideoOverlay.Proofs.Config.RoundTrip
import VideoOverlay.Proofs.Duration.Comma
import VideoOverlay.Proofs.Duration.HeadFree
import VideoOverlay.Proofs.Duration.Lookalike
import VideoOverlay.Proofs.Duration.Occurrence
import VideoOverlay.Proofs.Duration.Overflow
import VideoOverlay.Proofs.Duration.Scan
import VideoOverlay.Proofs.Duration.Seconds
import VideoOverlay.Proofs.Export.Fade
import VideoOverlay.Proofs.Export.FadeStart
import VideoOverlay.Proofs.Export.Job
import VideoOverlay.Proofs.Export.Leftover
import VideoOverlay.Proofs.Export.Merge
import VideoOverlay.Proofs.Export.Outcome
import VideoOverlay.Proofs.Export.Render
import VideoOverlay.Proofs.Graph.Check
import VideoOverlay.Proofs.Graph.DrawnAlike
import VideoOverlay.Proofs.Graph.Layer
import VideoOverlay.Proofs.Graph.Layering
import VideoOverlay.Proofs.Graph.Layout
import VideoOverlay.Proofs.Graph.Lines
import VideoOverlay.Proofs.Graph.Linking
import VideoOverlay.Proofs.Graph.Still
import VideoOverlay.Proofs.Graph.Tokens
import VideoOverlay.Proofs.Graph.WellLinked
import VideoOverlay.Proofs.Media.Picture
import VideoOverlay.Proofs.Media.Report
import VideoOverlay.Proofs.Number.Numeral
import VideoOverlay.Proofs.Overlay.Complete
import VideoOverlay.Proofs.Overlay.Plain
import VideoOverlay.Proofs.Scene.Accept
import VideoOverlay.Proofs.Scene.Marked
import VideoOverlay.Proofs.Scene.Still
import VideoOverlay.Proofs.Session.Rearrange
import VideoOverlay.Proofs.Session.Register
import VideoOverlay.Proofs.Session.Run
import VideoOverlay.Proofs.Text.Bracket
import VideoOverlay.Proofs.Text.Character
import VideoOverlay.Proofs.Toml.Lines
import VideoOverlay.Proofs.Toml.Quoted
import VideoOverlay.Scene.Entry
import VideoOverlay.Scene.File
import VideoOverlay.Scene.Session
import VideoOverlay.Session
import VideoOverlay.System.Files
import VideoOverlay.System.Machine
import VideoOverlay.Text.Blank
import VideoOverlay.Text.Hex
import VideoOverlay.Text.Utf8
import VideoOverlay.TimeRange
import VideoOverlay.Toml.Document
import VideoOverlay.Toml.Nested
import VideoOverlay.Toml.Quoted
import VideoOverlay.Toml.Scalar
import VideoOverlay.Toml.Typed
import VideoOverlay.Toml.Value
import VideoOverlay.Toml.Writer

import InputScript.Main
import InputScript.Folder
import InputScript.Proofs.Catalog.Builtin
import InputScript.Proofs.Catalog.Registration
import InputScript.Proofs.Script.JumpTargets
import InputScript.Engine.Operation
import InputScript.Proofs.Engine.Progress
import InputScript.Proofs.Engine.Lifecycle
import InputScript.Proofs.Command.Gesture
import InputScript.Proofs.Engine.BuiltinStretch
import InputScript.Proofs.Engine.Stopping
import InputScript.Proofs.LineMachine
import InputScript.Proofs.LineMachine.Stretch
import InputScript.Proofs.LineMachine.Refinement
import InputScript.Proofs.Script.Faults
import InputScript.Proofs.Source.Spelling
import InputScript.Proofs.Source.Written
import InputScript.Proofs.Source.Quoting
import InputScript.Proofs.Script.Listing
import InputScript.Proofs.Script.Commented
import InputScript.Proofs.Command.Nesting
import InputScript.Proofs.Engine.Course
import InputScript.Proofs.Engine.BuiltinCourse
import InputScript.Proofs.Engine.Control
import InputScript.Proofs.Engine.Release
import InputScript.Proofs.Engine.Undisturbed
import InputScript.Proofs.Engine.Abreast
import InputScript.Proofs.Engine.Interruption
import InputScript.Proofs.Engine.Verdict
import InputScript.Proofs.Engine.Handover
import InputScript.Proofs.Script.IntegerTarget
import InputScript.Proofs.Script.Inserted
import InputScript.Proofs.Script.LineByLine
import InputScript.Proofs.Script.Edited
import InputScript.Proofs.Token.Lexeme
import InputScript.Proofs.Token.Scanning
import InputScript.Proofs.Token.Coverage
import InputScript.Proofs.Token.Classification
import InputScript.Proofs.Token.LineLocal
import InputScript.Proofs.Json.WholeNumber
import InputScript.Proofs.Json.Written
import InputScript.Proofs.Folder.ReadBack
import InputScript.Proofs.Settings.Saved
import InputScript.Proofs.Script.LabelNotions
import InputScript.Proofs.Engine.Observation
import InputScript.Proofs.LineMachine.Ending
import InputScript.Proofs.Source.TypedText
import InputScript.Proofs.LineMachine.Typing
import InputScript.Proofs.Engine.Execution
import InputScript.Proofs.Cli.FrontEnds
import InputScript.Proofs.Key.Naming
import InputScript.Proofs.Key.Joining
import InputScript.Proofs.Command.RandomWait
import InputScript.Proofs.Engine.Path
import InputScript.Proofs.Engine.Termination
import InputScript.Proofs.Engine.GivingWay
import InputScript.Proofs.LineMachine.StraightLine
import InputScript.Proofs.Command.Request
import InputScript.Proofs.Engine.LastRequest
import InputScript.Proofs.Catalog.Registry
import InputScript.Proofs.Script.Respelled
import InputScript.Proofs.Engine.Cursor
import InputScript.Proofs.StopToken.Family
import InputScript.Proofs.StopToken.Sleeping
import InputScript.Proofs.Script.LineLookup
import InputScript.Proofs.LineMachine.BoundedInteger
import InputScript.Proofs.Source.Slicing
import InputScript.Proofs.Settings.Partial
import InputScript.Proofs.Command.PauseBounds

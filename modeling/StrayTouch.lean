import StrayTouch.Classifier.Scripted
import StrayTouch.Disk.Usual
import StrayTouch.Gesture.RawStroke
import StrayTouch.Main
import StrayTouch.Proofs.Engine.Isolation
import StrayTouch.Proofs.Engine.Lifecycle
import StrayTouch.Proofs.Recording.Replay
import StrayTouch.Text.Lines
import StrayTouch.Proofs.Document
import StrayTouch.Proofs.Config.Refusal
import StrayTouch.Proofs.CommandLine.Escape
import StrayTouch.Proofs.CommandLine.Exit
import StrayTouch.Proofs.Session.Independence
import StrayTouch.Proofs.Session.Listener
import StrayTouch.Proofs.Engine.Contact
import StrayTouch.Proofs.Engine.Easing
import StrayTouch.Proofs.Engine.Order
import StrayTouch.Proofs.Engine.Shift
import StrayTouch.Proofs.Engine.Density
import StrayTouch.Proofs.Evaluator.Bounds
import StrayTouch.Proofs.Evaluator.Validation
import StrayTouch.Proofs.Config.Override
import StrayTouch.Proofs.Config.Density
import StrayTouch.Proofs.Engine.Counting
import StrayTouch.Proofs.Config.Shape
import StrayTouch.Proofs.Recording.Naming
import StrayTouch.Proofs.Tuning.Report
import StrayTouch.Proofs.Classifier.Motion
import StrayTouch.Proofs.Classifier.Rest
import StrayTouch.Proofs.Classifier.Ratio
import StrayTouch.Proofs.Classifier.Speed
import StrayTouch.Memory.Basic
import StrayTouch.Memory.Session
import StrayTouch.Proofs.Memory.Agree
import StrayTouch.Proofs.Memory.Basic
import StrayTouch.Proofs.Memory.Evaluation
import StrayTouch.Proofs.Memory.Independence

import Templating.Helper
import Templating.Main
import Templating.Proofs.Evaluation.Effect
import Templating.Proofs.Evaluation.Unknown
import Templating.Proofs.Fields
import Templating.Proofs.Value.Functions
import Templating.Proofs.Number.Bits
import Templating.Proofs.Number.Rounding
import Templating.Proofs.Number.Shortest
import Templating.Proofs.Json.Number
import Templating.Proofs.Json.RoundTrip
import Templating.Proofs.Node.Parts
import Templating.Proofs.Node.RoundTrip
import Templating.Proofs.Evaluation.Failure
import Templating.Proofs.Report.Census
import Templating.Proofs.Evaluation.Course
import Templating.Proofs.Renderer.Globals
import Templating.Proofs.Loading.DataOnly
import Templating.Proofs.Evaluation.Lockstep
import Templating.Proofs.Renderer.Independence
import Templating.Proofs.Evaluation.LoopScope
import Templating.Proofs.Json.Reading
import Templating.Proofs.Node.Reading
import Templating.Proofs.Node.Reload
import Templating.Proofs.Node.Rearrangement
import Templating.Proofs.Scope.History
import Templating.Proofs.Renderer.Paths
import Templating.Proofs.Value.RoundTrip
import Templating.Proofs.Node.Site
import Templating.Proofs.Node.Replacement
import Templating.Proofs.Evaluation.Commutation
import Templating.Proofs.Evaluation.Splicing
import Templating.Proofs.Evaluation.LoopPasses
import Templating.Proofs.Evaluation.Order
import Templating.Proofs.CommandLine.Rendering
import Templating.Proofs.Evaluation.Concatenation
import Templating.Proofs.Number.Integers
import Templating.Proofs.Number.Printing
import Templating.Proofs.Value.Integers
import Templating.Proofs.Value.Keys
import Templating.Proofs.Number.Comparison
import Templating.Proofs.Value.Equality
import Templating.Proofs.Value.Observation
import Templating.Proofs.Value.HandOver
import Templating.Proofs.Value.NormalForm
import Templating.Proofs.Value.Operators
import Templating.Proofs.Report.Worklist
import Templating.Proofs.Node.Depth
import Templating.Proofs.Evaluation.Levels
import Templating.Proofs.Value.KeyFaults
import Templating.Proofs.Renderer.Sessions
import Templating.Proofs.Diagnostic
import Templating.Proofs.Evaluation.Literals
import Templating.Proofs.Config
import Templating.Proofs.Text.Title

import Estree.Ast.Build
import Estree.Ast.Outline
import Estree.Ast.Render
import Estree.Console
import Estree.Describe
import Estree.Interpreter
import Estree.Load.Text
import Estree.Load.Tree
import Estree.Proofs.Routine
import Estree.Proofs.Discipline
import Estree.Proofs.Level.Expression
import Estree.Proofs.Level.Statement
import Estree.Proofs.Level.Part
import Estree.Proofs.Law
import Estree.Proofs.Asking
import Estree.Proofs.Enclosed
import Estree.Proofs.Fatal
import Estree.Proofs.CallBalance
import Estree.Proofs.Scope
import Estree.Proofs.Session
import Estree.Proofs.Function
import Estree.Proofs.WellScoped
import Estree.Proofs.Permanence
import Estree.Proofs.Partition
import Estree.Proofs.Confinement
import Estree.Proofs.Jump.Correct
import Estree.Proofs.Jump.Sound
import Estree.Proofs.Admitted
import Estree.Proofs.Tree.Every
import Estree.Proofs.Tree.Admits
import Estree.Proofs.Supported
import Estree.Proofs.Simulation
import Estree.Proofs.Hide
import Estree.Proofs.Unmentioned
import Estree.Proofs.Walk
import Estree.Proofs.Resolution
import Estree.Proofs.Ancestry
import Estree.Proofs.Limit
import Estree.Proofs.Hang
import Estree.Proofs.Termination
import Estree.Proofs.Load.Document
import Estree.Proofs.Load.Agree
import Estree.Proofs.Load.Rearranged
import Estree.Proofs.Load.Rendering
import Estree.Proofs.Load.Text
import Estree.Proofs.Json.Merged
import Estree.Proofs.Tree.Outline
import Estree.Proofs.Description
import Estree.Proofs.Incremental
import Estree.Proofs.Growth
import Estree.Proofs.Backtrace
import Estree.Proofs.Conversion
import Estree.Proofs.Instance
import Estree.Proofs.Json.Integer
import Estree.Proofs.Json.Normal
import Estree.Proofs.Json.Reading
import Estree.Proofs.Json.RoundTrip
import Estree.Proofs.Json.Cycle
import Estree.Proofs.Switch
import Estree.Proofs.Try
import Estree.Proofs.Fork
import Estree.Proofs.Iteration
import Estree.Proofs.Pairing.Loop
import Estree.Proofs.Assignment
import Estree.Proofs.Placement
import Estree.Proofs.Parameter
import Estree.Proofs.Equality
import Estree.Proofs.Text.Order
import Estree.Proofs.Property.Access
import Estree.Proofs.Text.Position
import Estree.Proofs.Decimal.Longest
import Estree.Proofs.Radix.Reading
import Estree.Proofs.Slice
import Estree.Proofs.Text.Split
import Estree.Proofs.Property.Copy
import Estree.Proofs.Property.Index
import Estree.Proofs.Building

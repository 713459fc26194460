import Storyworld.Text.Blank
import Storyworld.Text.Numeric
import Storyworld.Text.Lowercase
import Storyworld.Number.Notation
import Storyworld.Number.Decimal
import Storyworld.Number.Remainder
import Storyworld.Json.Reader
import Storyworld.Json.Writer
import Storyworld.Attribute
import Storyworld.Path
import Storyworld.Document.Codec
import Storyworld.World.Load
import Storyworld.World.Store
import Storyworld.Script.Condition
import Storyworld.Script.Assignment
import Storyworld.Script.Diagnostic
import Storyworld.Text.Similarity
import Storyworld.Story.Config
import Storyworld.Story.Output
import Storyworld.Story.Affordance
import Storyworld.Story.Naming
import Storyworld.Story.Action
import Storyworld.Story.SavedGame
import Storyworld.Main
import Storyworld.Proofs.Document.Check
import Storyworld.Proofs.Path
import Storyworld.Proofs.Attribute.Change
import Storyworld.Proofs.World.Integrity
import Storyworld.Proofs.World.ReadWrite
import Storyworld.Proofs.World.Failure
import Storyworld.Proofs.Story.Stage
import Storyworld.Proofs.Story.Turn
import Storyworld.Proofs.Story.Resume
import Storyworld.Proofs.Json.Text
import Storyworld.Proofs.Script.Precedence
import Storyworld.Proofs.Script.Grammar
import Storyworld.Proofs.Script.Assignment
import Storyworld.Proofs.Json.Record
import Storyworld.Proofs.Attribute
import Storyworld.Proofs.Document.Codec
import Storyworld.Proofs.Story.SavedGame
import Storyworld.Proofs.Story.Threads
import Storyworld.Proofs.Story.Answer
import Storyworld.Proofs.World.Growth
import Storyworld.Proofs.Limits
import Storyworld.Proofs.Library
import Storyworld.Proofs.Script.Fault
import Storyworld.Proofs.Story.Effects
import Storyworld.Proofs.World.Address
import Storyworld.Proofs.Story.Fault
import Storyworld.Proofs.Story.Failure
import Storyworld.Proofs.Terminal.Check
import Storyworld.Proofs.Story.Markup
import Storyworld.Proofs.Terminal.Link
import Storyworld.Proofs.Story.Affordance
import Storyworld.Proofs.Story.Exit
import Storyworld.Proofs.World.Index
import Storyworld.Proofs.Story.Structure
import Storyworld.Proofs.Story.Verb
import Storyworld.Proofs.Script.Dependence
import Storyworld.Proofs.Script.Literal
import Storyworld.Proofs.Script.Agreement
import Storyworld.Proofs.Story.Batch
import Storyworld.Proofs.Document.Text
import Storyworld.Proofs.Story.Naming
import Storyworld.Proofs.Script.Scanning
import Storyworld.Proofs.Script.Grouping
import Storyworld.Proofs.Script.Junction
import Storyworld.Proofs.Number.Whole
import Storyworld.Proofs.World.Default
import Storyworld.Proofs.Story.Choice
import Storyworld.Proofs.Story.Repetition
import Storyworld.Proofs.Script.Eagerness
import Storyworld.Proofs.Terminal.Flattening
import Storyworld.Proofs.Document.Meaning
import Storyworld.Proofs.Script.Displacement
import Storyworld.Proofs.Script.Sequence
import Storyworld.Proofs.Script.Negation
import Storyworld.Proofs.Script.Composition
import Storyworld.Proofs.Script.Opacity
import Storyworld.Proofs.Script.Escaping
import Storyworld.Proofs.Script.Comparison
import Storyworld.Script.Bytes
import Storyworld.Proofs.Script.Pointing
import Storyworld.Proofs.Terminal.Operand
import Storyworld.Proofs.Script.Target
import Storyworld.Proofs.Script.Underflow
import Storyworld.Proofs.Script.Balance

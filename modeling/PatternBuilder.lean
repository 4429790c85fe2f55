import PatternBuilder.Expression.Call
import PatternBuilder.Expression.Compile
import PatternBuilder.Expression.Dump
import PatternBuilder.Proofs.Grammar.TokenReading
import PatternBuilder.Proofs.Grammar.ClassReading
import PatternBuilder.Proofs.Grammar.RoundTrip
import PatternBuilder.Proofs.Element.Validity
import PatternBuilder.Proofs.Grammar.HexCodes
import PatternBuilder.Proofs.Element.Translation
import PatternBuilder.Proofs.Element.Joining
import PatternBuilder.Proofs.Element.NodeText
import PatternBuilder.Proofs.Element.ReadBack
import PatternBuilder.Proofs.Expression.Steps
import PatternBuilder.Proofs.Expression.Heads
import PatternBuilder.Proofs.Expression.Records
import PatternBuilder.Proofs.Expression.Tree
import PatternBuilder.Proofs.Expression.Reachable
import PatternBuilder.Proofs.Expression.WellFormed
import PatternBuilder.Proofs.Expression.Compile
import PatternBuilder.Proofs.Expression.Hygiene
import PatternBuilder.Proofs.Grammar.Marks
import PatternBuilder.Proofs.Element.Marks
import PatternBuilder.Proofs.Expression.Bookkeeping
import PatternBuilder.Proofs.Expression.Relocation
import PatternBuilder.Proofs.Expression.InPlace
import PatternBuilder.Proofs.Expression.Completion
import PatternBuilder.Proofs.Expression.Repetitions
import PatternBuilder.Proofs.Expression.Coherence
import PatternBuilder.Proofs.Expression.Replay
import PatternBuilder.Proofs.Element.Pruning
import PatternBuilder.Proofs.Expression.Residue
import PatternBuilder.Proofs.Expression.DroppedAnchors
import PatternBuilder.Proofs.Element.Anchors
import PatternBuilder.Proofs.Expression.Anchors
import PatternBuilder.Proofs.Expression.Adoption
import PatternBuilder.Proofs.Expression.Associativity
import PatternBuilder.Proofs.Element.UnicodeNodes
import PatternBuilder.Proofs.Expression.RequestedFlags
import PatternBuilder.Proofs.Expression.FlagErasure
import PatternBuilder.Proofs.Text.Quoted
import PatternBuilder.Proofs.Text.Escaped
import PatternBuilder.Proofs.Element.Label
import PatternBuilder.Proofs.Element.Outline
import PatternBuilder.Proofs.Expression.Dump
import PatternBuilder.Proofs.Grammar.Slashes
import PatternBuilder.Proofs.Element.GivenCharacters
import PatternBuilder.Proofs.Expression.LiteralForm
import PatternBuilder.Proofs.Element.Decimals
import PatternBuilder.Proofs.Element.NoOps
import PatternBuilder.Proofs.Expression.Brackets
import PatternBuilder.Proofs.Expression.Conflicts
import PatternBuilder.Proofs.Element.Classes
import PatternBuilder.Proofs.Element.Collecting
import PatternBuilder.Proofs.Grammar.Operands
import PatternBuilder.Proofs.Element.Operands
import PatternBuilder.Proofs.Expression.UnicodeRepetitions

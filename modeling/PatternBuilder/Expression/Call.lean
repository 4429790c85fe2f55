import PatternBuilder.Expression.Literal
import PatternBuilder.Expression.Splice

namespace PatternBuilder

inductive Call where
  | setFlag (f : Flag)
  | atom (a : Atom)
  | boundary (b : Boundary)
  | anchor (a : Anchor)
  | literal (l : Literal)
  | backreference (index : Nat)
  | namedBackreference (name : String)
  | openComposite (kind : Composite)
  | close
  | quantify (q : Quantifier)
  | splice (other : Expression) (options : SpliceOptions)

namespace Expression

variable [Property.Engine]

def apply (e : Expression) : Call → Except BuildError Expression
  | .setFlag f => .ok (e.setFlag f)
  | .atom a => .ok (e.push (.atom a))
  | .boundary b => e.pushChecked (.boundary b)
  | .anchor a => e.addAnchor a
  | .literal l => e.addLiteral l
  | .backreference index => e.backreference index
  | .namedBackreference name => e.namedBackreference name
  | .openComposite kind => e.openComposite kind
  | .close => e.close
  | .quantify q => e.quantify q
  | .splice other options => e.splice other options

def run (e : Expression) (calls : List Call) : Except BuildError Expression :=
  calls.foldlM apply e

end Expression

end PatternBuilder

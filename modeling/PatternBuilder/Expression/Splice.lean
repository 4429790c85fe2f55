import PatternBuilder.Expression.Basic

namespace PatternBuilder

structure SpliceOptions where
  /-- The text in front of every group name of the spliced expression. -/
  scope : String := ""
  ignoreFlags : Bool := true
  ignoreAnchors : Bool := true
  deriving DecidableEq

namespace Element

mutual

/-- The element as it is in a host that already has `offset` capture groups: it refers to the
same groups as before, under their new numbers and names. -/
def relocate (options : SpliceOptions) (offset : Nat) : Element → Element
  | anchor a => if options.ignoreAnchors then noop else anchor a
  | backreference i => backreference (i + offset)
  | namedBackreference name => namedBackreference (options.scope ++ name)
  | quantified q e => quantified q (relocate options offset e)
  | composite (.namedCapture name) es =>
    composite (.namedCapture (options.scope ++ name)) (relocateAll options offset es)
  | composite kind es => composite kind (relocateAll options offset es)
  | subexpression es => subexpression (relocateAll options offset es)
  | e => e

def relocateAll (options : SpliceOptions) (offset : Nat) : List Element → List Element
  | [] => []
  | e :: es => relocate options offset e :: relocateAll options offset es

end

theorem relocateAll_eq_map (options : SpliceOptions) (offset : Nat) (es : List Element) :
    relocateAll options offset es = es.map (relocate options offset) := by
  induction es with
  | nil => rfl
  | cons e es ih => simp [relocateAll, ih]

end Element

namespace Expression

def finishedElements (e : Expression) (unfinished : Composite → BuildError) :
    Except BuildError (List Element) :=
  match e.frames, e.level.pending with
  | frame :: _, _ => .error (unfinished frame.kind)
  | [], some q => .error (.danglingQuantifier none q)
  | [], none => .ok e.level.elements

/-- Puts a finished expression into another as a single element. Every node of it is taken note
of in the order of the text, and the first that does not fit decides the error. -/
def splice (e other : Expression) (options : SpliceOptions) : Except BuildError Expression := do
  let elements ← other.finishedElements .unfinishedSubexpression
  let children := Element.relocateAll options e.captureCount elements
  let registry ← (Element.nodesAll children).foldlM Registry.adopt e.registry
  let flags := if options.ignoreFlags then e.flags else e.flags.union other.flags
  let spliced := { e with registry, flags }
  return (spliced.push (.subexpression children)).setUnicodeFor (.subexpression children)

end Expression

end PatternBuilder

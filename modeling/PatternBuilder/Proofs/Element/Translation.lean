import PatternBuilder.Proofs.Element.Validity

namespace PatternBuilder

namespace Node

def endsInNumber (ns : List Node) : Bool := ns.getLast?.any isNumber

/-- Sequences of nodes one after the other. A sequence that ends in a number gets a group of its
own if what follows starts with a digit. -/
def join : List (List Node) → List Node
  | [] => []
  | ns :: rest =>
    (if endsInNumber ns && beginsWithDigit rest.flatten then [group .plain [ns]] else ns) ++
      join rest

def single (grouped : Bool) (ns : List Node) : Node :=
  match grouped, ns with
  | false, [n] => n
  | _, ns => group .plain [ns]

end Node

structure Part where
  element : Element
  nodes : List Node

namespace Element

def classItems? : Element → Option (List ClassItem)
  | char c => some [.char c]
  | range a b => some [.range a b]
  | anyOfChars s => some (s.toList.map .char)
  | atom .backspace => some [.atom .backspace]
  | _ => none

end Element

namespace Part

def items (ps : List Part) : List ClassItem := ps.flatMap fun p ↦ p.element.classItems?.getD []

def alternatives (ps : List Part) : List (List Node) :=
  (ps.filter fun p ↦ p.element.classItems?.isNone).map Part.nodes

def sequence (ps : List Part) : List Node := Node.join (ps.map Part.nodes)

def anyOf (ps : List Part) : Node :=
  match alternatives ps, items ps with
  | [], is => .set false is
  | ns :: d, [] => .group .plain (ns :: d)
  | ns :: d, i :: is => .group .plain (ns :: d ++ [[.set false (i :: is)]])

def anythingBut (ps : List Part) : Node :=
  match alternatives ps, items ps with
  | [], is => .set true is
  | ns :: d, [] => .group .plain [[.group (.look .notAhead) (ns :: d),
      .set false [.atom .whitespace, .atom .nonWhitespace]]]
  | ns :: d, i :: is => .group .plain [[.group (.look .notAhead) (ns :: d), .set true (i :: is)]]

end Part

def Composite.node (ps : List Part) : Composite → Node
  | anyOf => Part.anyOf ps
  | anythingBut => Part.anythingBut ps
  | group => .group .plain [Part.sequence ps]
  | capture => .group .capture [Part.sequence ps]
  | namedCapture name => .group (.named name) [Part.sequence ps]
  | look l => .group (.look l) [Part.sequence ps]

namespace Element

mutual

/-- The nodes that the element stands for. -/
def toNodes : Element → List Node
  | atom .backspace => [.set false [.atom .backspace]]
  | atom .nullByte => [.number 0]
  | atom a => [.atom a]
  | boundary b => [.boundary b]
  | anchor a => [.anchor a]
  | noop => []
  | char c => [.char c]
  | string s => s.toList.map .char
  | range a b => [.set false [.range a b]]
  | anyOfChars s => [.set false (s.toList.map .char)]
  | anythingButChars s => [.set true (s.toList.map .char)]
  | anythingButString s => [.group .plain [s.toList.map fun c ↦ .set true [.char c]]]
  | anythingButRange a b => [.set true [.range a b]]
  | controlChar c => [.control c.toUpper]
  | code form digits => [.code form digits.toList]
  | property negated name => [.property negated name]
  | backreference i => [.number i]
  | namedBackreference name => [.namedReference name]
  | quantified q e => [.repeated q (Node.single e.needsGroup (toNodes e))]
  | composite k es => [k.node (parts es)]
  | subexpression es => Part.sequence (parts es)

def parts : List Element → List Part
  | [] => []
  | e :: es => ⟨e, toNodes e⟩ :: parts es

end

def toDisjunction (es : List Element) : Disjunction :=
  match Part.sequence (parts es) with
  | [] => [[.group .plain [[]]]]
  | ns => [ns]

theorem parts_eq_map (es : List Element) : parts es = es.map fun e ↦ ⟨e, e.toNodes⟩ := by
  induction es with
  | nil => rfl
  | cons e es ih => simp [parts, ih]

end Element

end PatternBuilder

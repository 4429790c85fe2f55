import PatternBuilder.Element.Nodes
import PatternBuilder.Expression.Registry
import PatternBuilder.Flags

namespace PatternBuilder

/-- The elements added on one level, and the quantifier that waits for the next of them. -/
structure Level where
  elements : List Element := []
  pending : Option Quantifier := none

namespace Level

/-- Adds an element as it is; a waiting quantifier goes on waiting. -/
def place (l : Level) (e : Element) : Level := { l with elements := l.elements ++ [e] }

def push (l : Level) (e : Element) : Level where
  elements := l.elements ++ [e.quantifiedBy l.pending]
  pending := none

def pushChecked (l : Level) (e : Element) : Except BuildError Level :=
  match l.pending with
  | some q => if e.isQuantifiable then .ok (l.push e) else .error (.unquantifiable e.kindName q)
  | none => .ok (l.push e)

def quantify (l : Level) (q : Quantifier) : Except BuildError Level :=
  match l.pending with
  | some pending => .error (.quantifierConflict q pending)
  | none => .ok { l with pending := some q }

end Level

/-- A composite that is still open, with the level it will be added to. -/
structure Frame where
  kind : Composite
  outer : Level

structure Expression where
  level : Level := {}
  frames : List Frame := []
  flags : Flags := {}
  registry : Registry := {}

namespace Expression

def empty : Expression := {}

def isClosed (e : Expression) : Bool := e.frames.isEmpty

def captureCount (e : Expression) : Nat := e.registry.captureCount

def groupNames (e : Expression) : List String := e.registry.names

def levelsFrom (level : Level) : List Frame → List (Option Composite × Level)
  | [] => [(none, level)]
  | ⟨kind, outer⟩ :: frames => (some kind, level) :: levelsFrom outer frames

/-- The levels of an expression, the outermost first. -/
def levels (e : Expression) : List (Option Composite × Level) :=
  (levelsFrom e.level e.frames).reverse

def setFlag (e : Expression) (f : Flag) : Expression := { e with flags := e.flags.insert f }

def setUnicodeFor (e : Expression) (el : Element) : Expression :=
  if el.requiresUnicode then e.setFlag .unicode else e

def push (e : Expression) (el : Element) : Expression := { e with level := e.level.push el }

def pushChecked (e : Expression) (el : Element) : Except BuildError Expression :=
  (e.level.pushChecked el).map fun l ↦ { e with level := l }

def addAnchor (e : Expression) (a : Anchor) : Except BuildError Expression :=
  (e.registry.addAnchor a).map fun r ↦
    { e with registry := r, level := e.level.place (.anchor a) }

def openComposite (e : Expression) (kind : Composite) : Except BuildError Expression :=
  (e.registry.openComposite kind).map fun r ↦
    { e with registry := r, level := {}, frames := ⟨kind, e.level⟩ :: e.frames }

def close (e : Expression) : Except BuildError Expression :=
  match e.frames with
  | [] => .error .nothingToClose
  | ⟨kind, outer⟩ :: frames =>
    match e.level.pending with
    | some q => .error (.danglingQuantifier (some kind) q)
    | none =>
      (outer.pushChecked (.composite kind e.level.elements)).map fun l ↦
        { e with level := l, frames }

def countError? : Quantifier → Option BuildError
  | .exactly 0 | .atLeast 0 _ => some (.invalidCount 0)
  | .between x y _ => if y ≤ x then some (.invalidBetween x y) else none
  | _ => none

def quantify (e : Expression) (q : Quantifier) : Except BuildError Expression :=
  match countError? q with
  | some error => .error error
  | none => (e.level.quantify q).map fun l ↦ { e with level := l }

def backreference (e : Expression) (index : Nat) : Except BuildError Expression :=
  if index = 0 ∨ e.captureCount < index then .error (.invalidBackreference index e.captureCount)
  else .ok (e.push (.backreference index))

def namedBackreference (e : Expression) (name : String) : Except BuildError Expression :=
  if e.groupNames.contains name then .ok (e.push (.namedBackreference name))
  else .error (.unknownGroup name)

end Expression

end PatternBuilder

import PatternBuilder.Expression.Basic
import PatternBuilder.Property.Basic

namespace PatternBuilder

inductive Literal where
  | char (c : Char)
  | string (s : String)
  | range (first last : Char)
  | anyOfChars (s : String)
  | anythingButChars (s : String)
  | anythingButString (s : String)
  | anythingButRange (first last : Char)
  | controlChar (c : Char)
  | code (form : CodeForm) (digits : String)
  | property (negated : Bool) (name : String)
  deriving DecidableEq

namespace Literal

variable [Property.Engine]

def ofText (s : String) : Element :=
  match s.toList with
  | [c] => .char c
  | _ => .string s

def element : Literal → Except BuildError Element
  | char c => .ok (.char c)
  | string s => if s.isEmpty then .error (.emptyText "s") else .ok (ofText s)
  | range a b => if b ≤ a then .error (.invalidRange a b) else .ok (.range a b)
  | anyOfChars s => if s.isEmpty then .error (.emptyText "chars") else .ok (.anyOfChars s)
  | anythingButChars s =>
    if s.isEmpty then .error (.emptyText "chars") else .ok (.anythingButChars s)
  | anythingButString s =>
    if s.isEmpty then .error (.emptyText "str") else .ok (.anythingButString s)
  | anythingButRange a b =>
    if b ≤ a then .error (.invalidRange a b) else .ok (.anythingButRange a b)
  | controlChar c =>
    if c.isAlpha then .ok (.controlChar c.toUpper) else .error (.invalidControlChar c)
  | code form digits =>
    if isHexOfLength digits form.lengths then .ok (.code form digits)
    else .error (.invalidCode form digits)
  | property negated name =>
    if Property.isAccepted name then .ok (.property negated name)
    else .error (.invalidProperty name)

end Literal

def Expression.addLiteral [Property.Engine] (e : Expression) (l : Literal) :
    Except BuildError Expression :=
  l.element.map fun el ↦ (e.push el).setUnicodeFor el

end PatternBuilder

import PatternBuilder.Element.Basic

namespace PatternBuilder

inductive ClassItem where
  | char (c : Char)
  | range (first last : Char)
  | atom (a : Atom)
  deriving DecidableEq

inductive GroupKind where
  | plain
  | capture
  | named (name : String)
  | look (l : Lookaround)
  deriving DecidableEq

inductive Node where
  | char (c : Char)
  | atom (a : Atom)
  | boundary (b : Boundary)
  | anchor (a : Anchor)
  | control (letter : Char)
  | code (form : CodeForm) (digits : List Char)
  | property (negated : Bool) (name : String)
  /-- A backslash before a number: a capture group, or for zero the null character. -/
  | number (value : Nat)
  | namedReference (name : String)
  | set (negated : Bool) (items : List ClassItem)
  | group (kind : GroupKind) (alternatives : List (List Node))
  | repeated (q : Quantifier) (body : Node)

abbrev Disjunction := List (List Node)

def Node.isRepeatable : Node → Bool
  | .boundary _ | .anchor _ | .repeated _ _ | .group (.look _) _ => false
  | _ => true

inductive ReadError where
  | unbalancedParenthesis
  | unbalancedBracket
  | invalidAtom
  | invalidQuantifier
  | reversedRange
  | incompleteEscape
  | invalidEscape
  | invalidGroup
  | invalidGroupName
  | duplicateGroupName
  | invalidPropertyName
  deriving DecidableEq

def ReadError.message : ReadError → String
  | unbalancedParenthesis => "Unbalanced parenthesis"
  | unbalancedBracket => "Unbalanced bracket"
  | invalidAtom => "Invalid atom character"
  | invalidQuantifier => "Invalid quantifier"
  | reversedRange => "Range values reversed, start char code is greater than end char code."
  | incompleteEscape => "Incomplete escape"
  | invalidEscape => "Invalid escape"
  | invalidGroup => "Invalid group modifier"
  | invalidGroupName => "Invalid capture group name"
  | duplicateGroupName => "Duplicate capture group name"
  | invalidPropertyName => "Invalid property name"

end PatternBuilder

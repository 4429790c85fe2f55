import PatternBuilder.Element.Basic
import PatternBuilder.Text.Escape

namespace PatternBuilder

/-- The escape that stands for an atom; outside a class a backspace needs a class of its own. -/
def Atom.text : Atom → List Char
  | anyChar => ['.']
  | whitespace => ['\\', 's']
  | nonWhitespace => ['\\', 'S']
  | digit => ['\\', 'd']
  | nonDigit => ['\\', 'D']
  | word => ['\\', 'w']
  | nonWord => ['\\', 'W']
  | newline => ['\\', 'n']
  | carriageReturn => ['\\', 'r']
  | tab => ['\\', 't']
  | verticalTab => ['\\', 'v']
  | formFeed => ['\\', 'f']
  | backspace => ['[', '\\', 'b', ']']
  | nullByte => ['\\', '0']

def Boundary.text : Boundary → List Char
  | edge => ['\\', 'b']
  | noEdge => ['\\', 'B']

def Anchor.text : Anchor → List Char
  | start => ['^']
  | finish => ['$']

def Lookaround.opening : Lookaround → List Char
  | ahead => ['(', '?', '=']
  | notAhead => ['(', '?', '!']
  | behind => ['(', '?', '<', '=']
  | notBehind => ['(', '?', '<', '!']

def groupText (body : List Char) : List Char := '(' :: '?' :: ':' :: body ++ [')']

def classText (negated : Bool) (body : List Char) : List Char :=
  if negated then '[' :: '^' :: body ++ [']'] else '[' :: body ++ [']']

def rangeBody (first last : Char) : List Char :=
  Place.bracket.escapeChar first ++ '-' :: Place.bracket.escapeChar last

def alternation : List (List Char) → List Char
  | [] => []
  | [t] => t
  | t :: ts => t ++ '|' :: alternation ts

def startsWithDigit : List Char → Bool
  | [] => false
  | c :: _ => c.isDigit

namespace Element

def classBody? : Element → Option (List Char)
  | char c => some (Place.bracket.escapeChar c)
  | range a b => some (rangeBody a b)
  | anyOfChars s => some (Place.bracket.escape s.toList)
  | atom .backspace => some ['\\', 'b']
  | _ => none

mutual

def isInvisible : Element → Bool
  | noop => true
  | subexpression es => allInvisible es
  | _ => false

def allInvisible : List Element → Bool
  | [] => true
  | e :: es => isInvisible e && allInvisible es

end

mutual

/-- Whether the element's text ends in an escape made of digits, so that a digit behind it would
be read as part of the escape. -/
def endsInNumber : Element → Bool
  | backreference _ | atom .nullByte => true
  | subexpression es => lastEndsInNumber es
  | _ => false

def lastEndsInNumber : List Element → Bool
  | [] => false
  | e :: es => if allInvisible es then endsInNumber e else lastEndsInNumber es

end

end Element

structure Piece where
  element : Element
  text : List Char

namespace Piece

/-- A sequence of pieces. A group closes off a piece whose number would otherwise run on into the
digit behind it. -/
def sequence : List Piece → List Char
  | [] => []
  | p :: ps =>
    (if p.element.endsInNumber && startsWithDigit (ps.flatMap Piece.text) then groupText p.text
      else p.text) ++ sequence ps

def fused (ps : List Piece) : List Char :=
  ps.flatMap fun p ↦ p.element.classBody?.getD []

def unfused (ps : List Piece) : List (List Char) :=
  (ps.filter fun p ↦ p.element.classBody?.isNone).map Piece.text

/-- One of the pieces: a bracket class, behind the alternatives that do not fit into it. -/
def anyOf (ps : List Piece) : List Char :=
  match unfused ps, fused ps with
  | [], body => classText false body
  | alternatives, [] => groupText (alternation alternatives)
  | alternatives, body => groupText (alternation (alternatives ++ [classText false body]))

/-- A character that starts none of the pieces. -/
def anythingBut (ps : List Piece) : List Char :=
  match unfused ps, fused ps with
  | [], body => classText true body
  | alternatives, body =>
    groupText (Lookaround.notAhead.opening ++ alternation alternatives ++
      ')' :: if body.isEmpty then classText false ['\\', 's', '\\', 'S'] else classText true body)

end Piece

def Composite.text (ps : List Piece) : Composite → List Char
  | anyOf => Piece.anyOf ps
  | anythingBut => Piece.anythingBut ps
  | group => groupText (Piece.sequence ps)
  | capture => '(' :: Piece.sequence ps ++ [')']
  | namedCapture name => '(' :: '?' :: '<' :: name.toList ++ '>' :: Piece.sequence ps ++ [')']
  | look l => l.opening ++ Piece.sequence ps ++ [')']

namespace Element

mutual

def text : Element → List Char
  | atom a => a.text
  | boundary b => b.text
  | anchor a => a.text
  | noop => []
  | char c => Place.literal.escapeChar c
  | string s => Place.literal.escape s.toList
  | range a b => classText false (rangeBody a b)
  | anyOfChars s => classText false (Place.bracket.escape s.toList)
  | anythingButChars s => classText true (Place.bracket.escape s.toList)
  | anythingButString s =>
    groupText (s.toList.flatMap fun c ↦ classText true (Place.bracket.escapeChar c))
  | anythingButRange a b => classText true (rangeBody a b)
  | controlChar c => ['\\', 'c', c.toUpper]
  | code form digits => form.text digits.toList
  | property false name => '\\' :: 'p' :: '{' :: name.toList ++ ['}']
  | property true name => '\\' :: 'P' :: '{' :: name.toList ++ ['}']
  | backreference i => '\\' :: Quantifier.decimal i
  | namedBackreference name => '\\' :: 'k' :: '<' :: name.toList ++ ['>']
  | quantified q e => (if e.needsGroup then groupText (text e) else text e) ++ q.suffix
  | composite k es => k.text (pieces es)
  | subexpression es => Piece.sequence (pieces es)

def pieces : List Element → List Piece
  | [] => []
  | e :: es => ⟨e, text e⟩ :: pieces es

end

theorem pieces_eq_map (es : List Element) : pieces es = es.map fun e ↦ ⟨e, e.text⟩ := by
  induction es with
  | nil => rfl
  | cons e es ih => simp [pieces, ih]

theorem flatMap_text_pieces (es : List Element) :
    (pieces es).flatMap Piece.text = es.flatMap text := by
  rw [pieces_eq_map, List.flatMap_map]

def sequenceText (es : List Element) : List Char := Piece.sequence (pieces es)

/-- The text of a whole pattern; an empty group stands for a pattern without text. -/
def patternText (es : List Element) : List Char :=
  match sequenceText es with
  | [] => groupText []
  | text => text

theorem isSome_classBody? (e : Element) : e.classBody?.isSome = e.isFusable := by
  cases e with
  | atom a => cases a <;> rfl
  | _ => rfl

end Element

end PatternBuilder

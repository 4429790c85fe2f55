import PatternBuilder.Code
import PatternBuilder.Quantifier

namespace PatternBuilder

inductive Atom where
  | anyChar
  | whitespace
  | nonWhitespace
  | digit
  | nonDigit
  | word
  | nonWord
  | newline
  | carriageReturn
  | tab
  | verticalTab
  | formFeed
  | backspace
  | nullByte
  deriving DecidableEq

inductive Boundary where
  | edge
  | noEdge
  deriving DecidableEq

inductive Anchor where
  | start
  | finish
  deriving DecidableEq

inductive Lookaround where
  | ahead
  | notAhead
  | behind
  | notBehind
  deriving DecidableEq

inductive Composite where
  | anyOf
  | anythingBut
  | group
  | capture
  | namedCapture (name : String)
  | look (l : Lookaround)
  deriving DecidableEq

/-- A node of a pattern's tree. Texts are kept as they were given: how they are escaped depends
on the place where they are written. -/
inductive Element where
  | atom (a : Atom)
  | boundary (b : Boundary)
  | anchor (a : Anchor)
  /-- What is left of an anchor that was dropped. -/
  | noop
  | char (c : Char)
  | string (s : String)
  | range (first last : Char)
  | anyOfChars (s : String)
  | anythingButChars (s : String)
  /-- A text that differs from the given one at every position. -/
  | anythingButString (s : String)
  | anythingButRange (first last : Char)
  | controlChar (letter : Char)
  | code (form : CodeForm) (digits : String)
  | property (negated : Bool) (name : String)
  | backreference (index : Nat)
  | namedBackreference (name : String)
  | quantified (q : Quantifier) (inner : Element)
  | composite (kind : Composite) (children : List Element)
  | subexpression (children : List Element)

namespace Atom

def kindName : Atom → String
  | anyChar => "AnyChar"
  | whitespace => "WhitespaceChar"
  | nonWhitespace => "NonWhitespaceChar"
  | digit => "Digit"
  | nonDigit => "NonDigit"
  | word => "Word"
  | nonWord => "NonWord"
  | newline => "Newline"
  | carriageReturn => "CarriageReturn"
  | tab => "Tab"
  | verticalTab => "VerticalTab"
  | formFeed => "FormFeed"
  | backspace => "Backspace"
  | nullByte => "NullByte"

end Atom

namespace Composite

def kindName : Composite → String
  | anyOf => "AnyOf"
  | anythingBut => "AnythingBut"
  | group => "Group"
  | capture => "Capture"
  | namedCapture _ => "NamedCapture"
  | look .ahead => "AssertAhead"
  | look .notAhead => "AssertNotAhead"
  | look .behind => "AssertBehind"
  | look .notBehind => "AssertNotBehind"

def openerName : Composite → String
  | anyOf => "any_of"
  | anythingBut => "anything_but"
  | group => "group"
  | capture => "capture"
  | namedCapture _ => "named_capture"
  | look .ahead => "assert_ahead"
  | look .notAhead => "assert_not_ahead"
  | look .behind => "assert_behind"
  | look .notBehind => "assert_not_behind"

def isLook : Composite → Bool
  | look _ => true
  | _ => false

end Composite

namespace Element

def kindName : Element → String
  | atom a => a.kindName
  | boundary .edge => "WordBoundary"
  | boundary .noEdge => "NonWordBoundary"
  | anchor .start => "StartOfInput"
  | anchor .finish => "EndOfInput"
  | noop => "Noop"
  | char _ => "Char"
  | string _ => "String"
  | range _ _ => "Range"
  | anyOfChars _ => "AnyOfChars"
  | anythingButChars _ => "AnythingButChars"
  | anythingButString _ => "AnythingButString"
  | anythingButRange _ _ => "AnythingButRange"
  | controlChar _ => "ControlChar"
  | code .byte _ => "HexCode"
  | code .unit _ => "Utf16Code"
  | code .point _ => "UnicodeCharCode"
  | property false _ => "UnicodeProperty"
  | property true _ => "NotUnicodeProperty"
  | backreference _ => "Backreference"
  | namedBackreference _ => "NamedBackreference"
  | quantified _ _ => "Quantified"
  | composite k _ => k.kindName
  | subexpression _ => "Subexpression"

def children : Element → List Element
  | quantified _ e => [e]
  | composite _ es | subexpression es => es
  | _ => []

def quantifiedBy (e : Element) : Option Quantifier → Element
  | some q => quantified q e
  | none => e

def needsGroup : Element → Bool
  | string _ | subexpression _ => true
  | _ => false

def isQuantifiable : Element → Bool
  | boundary _ | anchor _ | noop => false
  | composite k _ => !k.isLook
  | _ => true

def isFusable : Element → Bool
  | char _ | range _ _ | anyOfChars _ | atom .backspace => true
  | _ => false

/-- Whether the element itself, its children apart, is only understood in unicode mode. -/
def isUnicodeOnly : Element → Bool
  | code .point _ | property _ _ => true
  | range a b | anythingButRange a b => isAstral a || isAstral b
  | _ => false

@[elab_as_elim, induction_eliminator]
theorem induction {P : Element → Prop} (atom : ∀ a, P (.atom a)) (boundary : ∀ b, P (.boundary b))
    (anchor : ∀ a, P (.anchor a)) (noop : P .noop) (char : ∀ c, P (.char c))
    (string : ∀ s, P (.string s)) (range : ∀ a b, P (.range a b))
    (anyOfChars : ∀ s, P (.anyOfChars s)) (anythingButChars : ∀ s, P (.anythingButChars s))
    (anythingButString : ∀ s, P (.anythingButString s))
    (anythingButRange : ∀ a b, P (.anythingButRange a b))
    (controlChar : ∀ c, P (.controlChar c)) (code : ∀ f s, P (.code f s))
    (property : ∀ n s, P (.property n s)) (backreference : ∀ i, P (.backreference i))
    (namedBackreference : ∀ s, P (.namedBackreference s))
    (quantified : ∀ q e, P e → P (.quantified q e))
    (composite : ∀ k es, (∀ e ∈ es, P e) → P (.composite k es))
    (subexpression : ∀ es, (∀ e ∈ es, P e) → P (.subexpression es)) (e : Element) : P e :=
  @Element.rec P (fun es ↦ ∀ e ∈ es, P e) atom boundary anchor noop char string
    range anyOfChars anythingButChars anythingButString anythingButRange controlChar code property
    backreference namedBackreference quantified composite subexpression
    (by simp) (fun _ _ he hes ↦ by simpa using ⟨he, hes⟩) e

theorem induction_of_children {P : Element → Prop} (h : ∀ e, (∀ c ∈ e.children, P c) → P e)
    (e : Element) : P e := by
  induction e with
  | quantified q e ih =>
    refine h _ fun c hc ↦ ?_
    rwa [List.mem_singleton.mp hc]
  | composite k es ih => exact h _ ih
  | subexpression es ih => exact h _ ih
  | _ => exact h _ fun c hc ↦ absurd hc List.not_mem_nil

end Element

end PatternBuilder

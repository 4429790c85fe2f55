namespace PatternBuilder

inductive Flag where
  | matchIndices
  | global
  | caseInsensitive
  | multiline
  | dotAll
  | unicode
  | sticky
  deriving DecidableEq

namespace Flag

def all : List Flag :=
  [matchIndices, global, caseInsensitive, multiline, dotAll, unicode, sticky]

def letter : Flag → Char
  | matchIndices => 'd'
  | global => 'g'
  | caseInsensitive => 'i'
  | multiline => 'm'
  | dotAll => 's'
  | unicode => 'u'
  | sticky => 'y'

def name : Flag → String
  | matchIndices => "MatchIndices"
  | global => "Global"
  | caseInsensitive => "CaseInsensitive"
  | multiline => "Multiline"
  | dotAll => "DotAll"
  | unicode => "Unicode"
  | sticky => "Sticky"

def ofLetter? (c : Char) : Option Flag :=
  all.find? fun f ↦ f.letter == c

theorem mem_all (f : Flag) : f ∈ all := by cases f <;> decide

theorem ofLetter?_letter (f : Flag) : ofLetter? f.letter = some f := by cases f <;> decide

end Flag

@[ext]
structure Flags where
  matchIndices : Bool := false
  global : Bool := false
  caseInsensitive : Bool := false
  multiline : Bool := false
  dotAll : Bool := false
  unicode : Bool := false
  sticky : Bool := false
  deriving DecidableEq

namespace Flags

def empty : Flags := {}

def contains (s : Flags) : Flag → Bool
  | .matchIndices => s.matchIndices
  | .global => s.global
  | .caseInsensitive => s.caseInsensitive
  | .multiline => s.multiline
  | .dotAll => s.dotAll
  | .unicode => s.unicode
  | .sticky => s.sticky

def insert (s : Flags) : Flag → Flags
  | .matchIndices => { s with matchIndices := true }
  | .global => { s with global := true }
  | .caseInsensitive => { s with caseInsensitive := true }
  | .multiline => { s with multiline := true }
  | .dotAll => { s with dotAll := true }
  | .unicode => { s with unicode := true }
  | .sticky => { s with sticky := true }

def union (s t : Flags) : Flags where
  matchIndices := s.matchIndices || t.matchIndices
  global := s.global || t.global
  caseInsensitive := s.caseInsensitive || t.caseInsensitive
  multiline := s.multiline || t.multiline
  dotAll := s.dotAll || t.dotAll
  unicode := s.unicode || t.unicode
  sticky := s.sticky || t.sticky

def isEmpty (s : Flags) : Bool := s == empty

def ofList (fs : List Flag) : Flags := fs.foldl insert empty

def toList (s : Flags) : List Flag := Flag.all.filter s.contains

def letters (s : Flags) : List Char := s.toList.map Flag.letter

def describe (s : Flags) : String := "Flags(" ++ String.ofList s.letters ++ ")"

@[simp]
theorem contains_empty (f : Flag) : empty.contains f = false := by cases f <;> rfl

@[simp]
theorem contains_insert (s : Flags) (f g : Flag) :
    (s.insert f).contains g = (f == g || s.contains g) := by
  cases f <;> cases g <;> simp [insert, contains]

@[simp]
theorem contains_union (s t : Flags) (f : Flag) :
    (s.union t).contains f = (s.contains f || t.contains f) := by cases f <;> rfl

theorem ext_contains {s t : Flags} (h : ∀ f, s.contains f = t.contains f) : s = t := by
  ext1
  · exact h .matchIndices
  · exact h .global
  · exact h .caseInsensitive
  · exact h .multiline
  · exact h .dotAll
  · exact h .unicode
  · exact h .sticky

@[simp]
theorem mem_toList (s : Flags) (f : Flag) : f ∈ s.toList ↔ s.contains f = true := by
  simp [toList, Flag.mem_all]

end Flags

end PatternBuilder

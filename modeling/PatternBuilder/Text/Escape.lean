namespace PatternBuilder

/-- The two places where a plain character can stand in a pattern. -/
inductive Place where
  | literal
  | bracket
  deriving DecidableEq

def specials : List Char :=
  ['\\', '.', '^', '$', '|', '?', '*', '+', '(', ')', '[', ']', '{', '}', '/']

namespace Place

/-- Whether a character has a meaning in this place; inside a bracket class `-` forms ranges. -/
def isSpecial : Place → Char → Bool
  | literal, c => specials.contains c
  | bracket, c => c == '-' || specials.contains c

def escapeChar (p : Place) (c : Char) : List Char :=
  if p.isSpecial c then ['\\', c] else [c]

def escape (p : Place) (cs : List Char) : List Char :=
  cs.flatMap p.escapeChar

def escapeText (p : Place) (s : String) : String :=
  if s.toList.any p.isSpecial then String.ofList (p.escape s.toList) else s

theorem escape_eq_self {p : Place} {cs : List Char} (h : cs.any p.isSpecial = false) :
    p.escape cs = cs := by
  induction cs with
  | nil => rfl
  | cons c cs ih =>
    simp only [List.any_cons, Bool.or_eq_false_iff] at h
    simp [escape, escapeChar, h.1] at ih ⊢
    exact ih (by simpa using h.2)

theorem toList_escapeText (p : Place) (s : String) :
    (p.escapeText s).toList = p.escape s.toList := by
  unfold escapeText
  split
  · simp
  · exact (escape_eq_self (Bool.eq_false_iff.mpr ‹_›)).symm

end Place

end PatternBuilder

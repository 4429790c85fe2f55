import Mathlib.Data.List.Forall2
import PatternBuilder.Proofs.Grammar.TokenReading

namespace PatternBuilder

namespace Scan

/-- The text from each unit on, where a unit is an escape or a character by itself. What stands in
a bracket class is passed over. -/
def unitsFrom (inClass : Bool) : List Char → List (List Char)
  | [] => []
  | '\\' :: c :: cs =>
    if inClass then unitsFrom true cs else ('\\' :: c :: cs) :: unitsFrom false cs
  | c :: cs => if inClass then unitsFrom (c != ']') cs else (c :: cs) :: unitsFrom (c == '[') cs

def opened? : List Char → Option (Option String)
  | '(' :: '?' :: '<' :: cs =>
    let name := cs.takeWhile (· != '>')
    if isGroupNameList name then some (some (String.ofList name)) else none
  | '(' :: '?' :: _ => none
  | '(' :: _ => some none
  | _ => none

def reference? : List Char → Option Element
  | '\\' :: 'k' :: '<' :: cs => some (.namedBackreference (String.ofList (cs.takeWhile (· != '>'))))
  | '\\' :: cs =>
    let value := Token.numberValue (cs.takeWhile Char.isDigit)
    if value = 0 then none else some (.backreference value)
  | _ => none

def isMark (cs : List Char) : Bool := (opened? cs).isSome || (reference? cs).isSome

def marks (cs : List Char) : List (List Char) := (unitsFrom false cs).filter isMark

def openings (cs : List Char) : List (List Char) :=
  (unitsFrom false cs).filter fun s ↦ (opened? s).isSome

def references (cs : List Char) : List Element := (unitsFrom false cs).filterMap reference?

def isPlain (c : Char) : Bool := c != '\\' && c != '[' && c != '('

variable {c : Char} {cs rest : List Char}

theorem unitsFrom_escape (inClass : Bool) (c : Char) (cs : List Char) :
    unitsFrom inClass ('\\' :: c :: cs) =
      if inClass then unitsFrom true cs else ('\\' :: c :: cs) :: unitsFrom false cs := by
  rw [unitsFrom]

theorem unitsFrom_cons (inClass : Bool) (h : c ≠ '\\') (cs : List Char) :
    unitsFrom inClass (c :: cs) =
      if inClass then unitsFrom (c != ']') cs else (c :: cs) :: unitsFrom (c == '[') cs := by
  rw [unitsFrom]
  simp [h]

theorem marks_escape (c : Char) (cs : List Char) :
    marks ('\\' :: c :: cs) = [('\\' :: c :: cs)].filter isMark ++ marks cs := by
  simp only [marks, unitsFrom_escape, Bool.false_eq_true, if_false, List.filter_cons]
  split <;> rfl

theorem marks_open (cs : List Char) :
    marks ('(' :: cs) = [('(' :: cs)].filter isMark ++ marks cs := by
  simp only [marks, unitsFrom_cons false (show '(' ≠ '\\' by decide), Bool.false_eq_true, if_false,
    List.filter_cons]
  split <;> rfl

theorem isMark_plain (h : isPlain c = true) (cs : List Char) : isMark (c :: cs) = false := by
  have hp : c ≠ '(' := by rintro rfl; exact absurd h (by decide)
  have hs : c ≠ '\\' := by rintro rfl; exact absurd h (by decide)
  simp [isMark, opened?, reference?, hp, hs]

theorem marks_plain (h : isPlain c = true) (cs : List Char) : marks (c :: cs) = marks cs := by
  have hs : c ≠ '\\' := by rintro rfl; exact absurd h (by decide)
  have hb : (c == '[') = false := by
    rw [beq_eq_false_iff_ne]
    rintro rfl
    exact absurd h (by decide)
  rw [marks, unitsFrom_cons false hs, hb]
  simp [isMark_plain h, marks]

theorem marks_plain_append (h : cs.all isPlain = true) (rest : List Char) :
    marks (cs ++ rest) = marks rest := by
  induction cs with
  | nil => rfl
  | cons c cs ih =>
    rw [List.all_cons, Bool.and_eq_true] at h
    rw [List.cons_append, marks_plain h.1, ih h.2]

theorem reference?_escape (hk : c ≠ 'k') {value : Nat}
    (hv : Token.numberValue ((c :: cs).takeWhile Char.isDigit) = value) :
    reference? ('\\' :: c :: cs) = if value = 0 then none else some (.backreference value) := by
  subst hv
  unfold reference?
  split <;> simp_all

theorem marks_escape_plain (hd : c.isDigit = false) (hk : c ≠ 'k') (cs : List Char) :
    marks ('\\' :: c :: cs) = marks cs := by
  have hm : isMark ('\\' :: c :: cs) = false := by
    have hv : Token.numberValue ((c :: cs).takeWhile Char.isDigit) = 0 := by
      simp [hd, Token.numberValue]
    simp [isMark, opened?, reference?_escape hk hv]
  simp [marks_escape, hm]

theorem unitsFrom_escapeChar (c : Char) (rest : List Char) :
    unitsFrom true (Place.bracket.escapeChar c ++ rest) = unitsFrom true rest := by
  unfold Place.escapeChar
  split
  · exact unitsFrom_escape true c rest
  · rename_i h
    have hb : c ≠ ']' := by rintro rfl; exact h (by decide)
    have hs : c ≠ '\\' := by rintro rfl; exact h (by decide)
    have hne : (c != ']') = true := bne_iff_ne.mpr hb
    have hu := unitsFrom_cons true hs rest
    rwa [if_pos rfl, hne] at hu

theorem unitsFrom_item {i : ClassItem} (h : i.IsWellFormed) (rest : List Char) :
    unitsFrom true (i.text ++ rest) = unitsFrom true rest := by
  cases i with
  | char c => exact unitsFrom_escapeChar c rest
  | range a b =>
    have hm := unitsFrom_cons true (show '-' ≠ '\\' by decide)
      (Place.bracket.escapeChar b ++ rest)
    rw [ClassItem.text, rangeBody, List.append_assoc, List.cons_append, unitsFrom_escapeChar, hm]
    exact unitsFrom_escapeChar b rest
  | atom a =>
    simp only [ClassItem.IsWellFormed, List.mem_cons, List.not_mem_nil, or_false] at h
    rcases h with h | h | h | h | h | h | h <;> subst h <;> rfl

/-- A class ends where it was written to end. -/
theorem unitsFrom_items {items : List ClassItem} (h : ∀ i ∈ items, i.IsWellFormed)
    (rest : List Char) :
    unitsFrom true (items.flatMap ClassItem.text ++ ']' :: rest) = unitsFrom false rest := by
  induction items with
  | nil => exact unitsFrom_cons true (by decide) rest
  | cons i items ih =>
    rw [List.flatMap_cons, List.append_assoc, unitsFrom_item (h i List.mem_cons_self),
      ih fun j hj ↦ h j (List.mem_cons_of_mem i hj)]

theorem marks_class (negated : Bool) {items : List ClassItem} (h : ∀ i ∈ items, i.IsWellFormed)
    (rest : List Char) :
    marks (classText negated (items.flatMap ClassItem.text) ++ rest) = marks rest := by
  have hopen (cs : List Char) : marks ('[' :: cs) = (unitsFrom true cs).filter isMark := rfl
  have hcaret (cs : List Char) : unitsFrom true ('^' :: cs) = unitsFrom true cs := rfl
  have hbody := unitsFrom_items h rest
  cases negated with
  | true =>
    rw [classText, if_pos rfl, List.cons_append, List.cons_append, hopen, List.cons_append,
      List.cons_append, hcaret, List.append_assoc, List.singleton_append, hbody, marks]
  | false =>
    rw [classText, if_neg Bool.false_ne_true, List.cons_append, List.cons_append, hopen,
      List.append_assoc, List.singleton_append, hbody, marks]

end Scan

end PatternBuilder

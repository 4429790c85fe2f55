import PatternBuilder.Proofs.Element.Validity
import PatternBuilder.Proofs.Grammar.TokenReading

namespace PatternBuilder

def lineTerminators : List Char := ['\n', '\r', '\u2028', '\u2029']

def isInline (c : Char) : Bool := !lineTerminators.contains c

variable {c : Char} {t : List Char}

theorem all_isInline {p : Char → Bool} (h : t.all p = true) (hp : lineTerminators.any p = false) :
    t.all isInline = true := by
  rw [List.all_eq_true] at h ⊢
  intro d hd
  rw [isInline, Bool.not_eq_true', List.contains_eq_mem, decide_eq_false_iff_not]
  exact fun hm ↦ List.any_eq_false.mp hp d hm (h d hd)

theorem isInline_eq_false_iff : isInline c = false ↔ c ∈ lineTerminators := by
  simp [isInline]

theorem count_flatMap_congr {α : Type} {l : List α} {f g : α → List Char}
    (h : ∀ x ∈ l, (f x).count c = (g x).count c) :
    (l.flatMap f).count c = (l.flatMap g).count c := by
  rw [List.count_flatMap, List.count_flatMap]
  exact congrArg List.sum (List.map_congr_left h)

section

variable (hc : isInline c = false)

include hc

theorem count_inline (h : t.all isInline = true) : t.count c = 0 :=
  List.count_eq_zero.mpr (Token.not_mem_of_all h hc)

theorem count_enclosed (before t after : List Char) (hb : before.all isInline = true)
    (ha : after.all isInline = true) : (before ++ t ++ after).count c = t.count c := by
  rw [List.count_append, List.count_append, count_inline hc hb, count_inline hc ha, Nat.zero_add,
    Nat.add_zero]

theorem count_escapeChar (p : Place) (d : Char) : (p.escapeChar d).count c = [d].count c := by
  unfold Place.escapeChar
  split
  · exact count_enclosed hc ['\\'] [d] [] rfl rfl
  · rfl

theorem count_escape (p : Place) (cs : List Char) : (p.escape cs).count c = cs.count c := by
  have h := count_flatMap_congr (l := cs) (g := fun d ↦ [d]) fun d _ ↦ count_escapeChar hc p d
  rwa [List.flatMap_singleton'] at h

theorem count_groupText (t : List Char) : (groupText t).count c = t.count c :=
  count_enclosed hc ['(', '?', ':'] t [')'] rfl rfl

theorem count_classText (negated : Bool) (t : List Char) :
    (classText negated t).count c = t.count c := by
  cases negated with
  | false => exact count_enclosed hc ['['] t [']'] rfl rfl
  | true => exact count_enclosed hc ['[', '^'] t [']'] rfl rfl

theorem count_cons {d : Char} (hd : isInline d = true) (t : List Char) :
    (d :: t).count c = t.count c := by
  have h := count_enclosed hc [d] t [] (by simpa using hd) rfl
  rwa [List.append_nil] at h

theorem count_rangeBody (first last : Char) :
    (rangeBody first last).count c = [first, last].count c := by
  rw [rangeBody, List.count_append, count_cons hc rfl, count_escapeChar hc, count_escapeChar hc,
    ← List.count_append, List.singleton_append]

theorem count_alternation (ts : List (List Char)) :
    (alternation ts).count c = ts.flatten.count c := by
  induction ts with
  | nil => rfl
  | cons t ts ih =>
    cases ts with
    | nil => rw [alternation, List.flatten_cons, List.flatten_nil, List.append_nil]
    | cons u ts =>
      have h : alternation (t :: u :: ts) = t ++ '|' :: alternation (u :: ts) := rfl
      rw [h, List.count_append, count_cons hc rfl, ih, List.flatten_cons (l := t),
        List.count_append]

end

theorem all_isInline_suffix (q : Quantifier) : q.suffix.all isInline = true := by
  rw [List.all_eq_true]
  intro d hd
  cases hi : isInline d with
  | true => rfl
  | false =>
    have hm := isInline_eq_false_iff.mp hi
    simp only [lineTerminators, List.mem_cons, List.not_mem_nil, or_false] at hm
    rcases hm with rfl | rfl | rfl | rfl <;>
      exact absurd hd (Token.not_mem_suffix rfl (by decide) q)

namespace Piece

variable (hc : isInline c = false) (ps : List Piece)

include hc

theorem count_sequence : (sequence ps).count c = (ps.flatMap text).count c := by
  induction ps with
  | nil => rfl
  | cons p ps ih =>
    rw [sequence, List.count_append, List.flatMap_cons, List.count_append, ih]
    split
    · rw [count_groupText hc]
    · rfl

def members (ps : List Piece) : List Char := fused ps ++ (unfused ps).flatten

theorem count_anyOf : (anyOf ps).count c = (members ps).count c := by
  rw [members, anyOf]
  generalize unfused ps = alternatives
  generalize fused ps = body
  cases alternatives with
  | nil => simp [count_classText hc]
  | cons t ts =>
    cases body with
    | nil => simp [count_groupText hc, count_alternation hc]
    | cons d body =>
      simp only [count_groupText hc, count_alternation hc, List.flatten_append,
        List.flatten_singleton, List.count_append, count_classText hc]
      omega

theorem count_anythingBut : (anythingBut ps).count c = (members ps).count c := by
  rw [members, anythingBut]
  generalize unfused ps = alternatives
  generalize fused ps = body
  cases alternatives with
  | nil => simp [count_classText hc]
  | cons t ts =>
    have hopening : Lookaround.notAhead.opening.count c = 0 := count_inline hc rfl
    simp only [count_groupText hc, List.count_append, hopening, count_alternation hc,
      count_cons hc (d := ')') rfl]
    cases body with
    | nil =>
      have hany : ['\\', 's', '\\', 'S'].count c = 0 := count_inline hc rfl
      simp [count_classText hc, hany]
    | cons d body =>
      simp only [List.isEmpty_cons, Bool.false_eq_true, if_false, count_classText hc]
      omega

end Piece

namespace Element

/-- The characters that the element is given by its argument, to be written as they are. -/
def given : Element → List Char
  | char c => [c]
  | string s | anyOfChars s | anythingButChars s | anythingButString s => s.toList
  | range a b | anythingButRange a b => [a, b]
  | _ => []

variable {es : List Element} (hc : isInline c = false)

include hc

theorem count_classBody {e : Element} {body : List Char} (h : e.classBody? = some body) :
    body.count c = e.text.count c := by
  cases e with
  | char d =>
    cases h
    rw [text, count_escapeChar hc, count_escapeChar hc]
  | range a b =>
    cases h
    rw [text, count_classText hc]
  | anyOfChars s =>
    cases h
    rw [text, count_classText hc]
  | atom a =>
    cases a with
    | backspace =>
      cases h
      exact (count_classText hc false _).symm
    | _ => cases h
  | _ => cases h

theorem count_members (es : List Element) :
    (Piece.members (pieces es)).count c = (es.flatMap text).count c := by
  induction es with
  | nil => rfl
  | cons e es ih =>
    simp only [Piece.members, Piece.fused, Piece.unfused, pieces, List.flatMap_cons,
      List.filter_cons, List.count_append] at ih ⊢
    cases hb : e.classBody? with
    | none =>
      simp only [Option.getD_none, Option.isNone_none, if_true, List.map_cons, List.flatten_cons,
        List.count_append, List.count_nil]
      omega
    | some body =>
      have hbody := count_classBody hc hb
      simp only [Option.getD_some, Option.isNone_some, Bool.false_eq_true, if_false, hbody]
      omega

theorem count_sequence (es : List Element) :
    (Piece.sequence (pieces es)).count c = (es.flatMap text).count c := by
  rw [Piece.count_sequence hc, flatMap_text_pieces]

theorem count_composite [Property.Engine] (kind : Composite) (hv : (composite kind es).IsValid) :
    (kind.text (pieces es)).count c = (es.flatMap text).count c := by
  have hseq := count_sequence hc es
  cases kind with
  | anyOf => exact (Piece.count_anyOf hc _).trans (count_members hc es)
  | anythingBut => exact (Piece.count_anythingBut hc _).trans (count_members hc es)
  | group => exact (count_groupText hc _).trans hseq
  | capture => exact (count_enclosed hc ['('] _ [')'] rfl rfl).trans hseq
  | namedCapture name =>
    have hname : name.toList.all isInline = true :=
      all_isInline (Token.all_of_isGroupName hv) rfl
    have hopening : (['(', '?', '<'] ++ name.toList ++ ['>']).all isInline = true := by
      rw [List.all_append, List.all_append, hname]
      rfl
    have h := count_enclosed hc _ (Piece.sequence (pieces es)) [')'] hopening rfl
    rw [← hseq, ← h]
    simp [Composite.text]
  | look l => cases l <;> exact (count_enclosed hc _ _ [')'] rfl rfl).trans hseq

theorem count_argument {p : Char → Bool} {s : List Char} (h : s.all p = true)
    (hp : lineTerminators.any p = false) (before after : List Char)
    (hb : before.all isInline = true) (ha : after.all isInline = true) :
    (before ++ s ++ after).count c = 0 :=
  (count_enclosed hc before s after hb ha).trans (count_inline hc (all_isInline h hp))

variable [Property.Engine]

theorem count_code {form : CodeForm} {digits : String} (h : (code form digits).IsValid) :
    (form.text digits.toList).count c = 0 := by
  have hd := (Bool.and_eq_true_iff.mp h).2
  have hdigits := count_inline hc (all_isInline hd rfl)
  cases form with
  | byte | unit => exact (count_cons hc rfl _).trans ((count_cons hc rfl _).trans hdigits)
  | point =>
    exact count_argument hc hd rfl ['\\', 'u', '{'] ['}'] rfl rfl

/-- What an element writes of the character itself, and what the elements below it write. -/
theorem count_text_eq_add {e : Element} (h : e.IsValid) :
    e.text.count c = e.given.count c + (e.children.flatMap text).count c := by
  cases e with
  | atom a => exact count_inline hc (by cases a <;> rfl)
  | boundary b => exact count_inline hc (by cases b <;> rfl)
  | anchor a => exact count_inline hc (by cases a <;> rfl)
  | noop => rfl
  | char d => exact count_escapeChar hc .literal d
  | string s => exact count_escape hc .literal s.toList
  | range a b | anythingButRange a b =>
    exact (count_classText hc _ _).trans (count_rangeBody hc a b)
  | anyOfChars s | anythingButChars s =>
    exact (count_classText hc _ _).trans (count_escape hc .bracket s.toList)
  | anythingButString s =>
    have h := count_flatMap_congr (l := s.toList) (g := fun d ↦ [d])
      fun d _ ↦ (count_classText hc true _).trans (count_escapeChar hc .bracket d)
    rw [List.flatMap_singleton'] at h
    exact (count_groupText hc _).trans h
  | controlChar d =>
    have hd : [d].all Char.isUpper = true := by simpa [IsValid] using h
    have hcount := count_argument hc hd rfl ['\\', 'c'] [] rfl rfl
    rwa [text, toUpper_eq_self h]
  | code form digits => exact count_code hc h
  | property negated name =>
    have hname := Token.all_of_isAccepted h
    cases negated with
    | false =>
      exact count_argument hc hname rfl ['\\', 'p', '{'] ['}'] rfl rfl
    | true =>
      exact count_argument hc hname rfl ['\\', 'P', '{'] ['}'] rfl rfl
  | backreference i =>
    have hd : (Quantifier.decimal i).all Char.isDigit = true :=
      List.all_eq_true.mpr fun _ ↦ Token.isDigit_of_mem_decimal
    exact (count_cons hc rfl _).trans (count_inline hc (all_isInline hd rfl))
  | namedBackreference name =>
    exact count_argument hc (Token.all_of_isGroupName h) rfl ['\\', 'k', '<'] ['>'] rfl rfl
  | quantified q e =>
    have hgrouped : (if e.needsGroup then groupText e.text else e.text).count c =
        e.text.count c := by
      split
      · exact count_groupText hc e.text
      · rfl
    rw [text, List.count_append, hgrouped, count_inline hc (all_isInline_suffix q)]
    simp [given, children]
  | composite kind es => exact (count_composite hc kind h).trans (Nat.zero_add _).symm
  | subexpression es => exact (count_sequence hc es).trans (Nat.zero_add _).symm

theorem count_text {e : Element} (h : e.IsWellFormed) :
    e.text.count c = (e.nodes.flatMap given).count c := by
  induction e using induction_of_children with
  | h e ih =>
    have hchildren := count_flatMap_congr (c := c) fun d hd ↦ ih d hd (h.of_mem hd)
    rw [count_text_eq_add hc h.isValid, hchildren, nodes_eq_cons, List.flatMap_cons,
      List.count_append, nodesAll_eq_flatMap, List.flatMap_assoc]

theorem count_patternText (h : ∀ e ∈ es, e.IsWellFormed) :
    (patternText es).count c = ((nodesAll es).flatMap given).count c := by
  have hes := count_flatMap_congr (c := c) fun e he ↦ count_text hc (h e he)
  have hseq : (sequenceText es).count c = ((nodesAll es).flatMap given).count c := by
    rw [sequenceText, count_sequence hc, hes, nodesAll_eq_flatMap, List.flatMap_assoc]
  rw [← hseq, patternText]
  split
  · rename_i hempty
    rw [hempty]
    exact count_inline hc rfl
  · rfl

end Element

end PatternBuilder

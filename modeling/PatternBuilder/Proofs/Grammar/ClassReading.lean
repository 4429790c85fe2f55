import PatternBuilder.Proofs.Grammar.Writing

namespace PatternBuilder

open Token

def ClassItem.marks : ClassItem → List ClassMark
  | range a b => [.item (.char a), .hyphen, .item (.char b)]
  | i => [.item i]

namespace Token

theorem readClassEscape_special {c : Char} (h : Place.bracket.isSpecial c = true) :
    readClassEscape c = .ok (.char c) := by
  simp only [Place.isSpecial, Bool.or_eq_true, beq_iff_eq, List.contains_eq_mem, decide_eq_true_eq,
    specials, List.mem_cons, List.not_mem_nil, or_false] at h
  rcases h with h | h | h | h | h | h | h | h | h | h | h | h | h | h | h | h <;> subst h <;> rfl

theorem readMarks_escapeChar (c : Char) (rest : List Char) :
    readMarks (Place.bracket.escapeChar c ++ rest) =
      (readMarks rest).map fun (marks, r) ↦ (.item (.char c) :: marks, r) := by
  unfold Place.escapeChar
  split
  · rename_i h
    simp [readMarks, readClassEscape_special h]
  · rename_i h
    have hb : c ≠ ']' := by rintro rfl; exact h (by decide)
    have hs : c ≠ '\\' := by rintro rfl; exact h (by decide)
    have hh : c ≠ '-' := by rintro rfl; exact h (by decide)
    simp [readMarks, *]

theorem readMarks_text {i : ClassItem} (h : i.IsWellFormed) (rest : List Char) :
    readMarks (i.text ++ rest) =
      (readMarks rest).map fun (marks, r) ↦ (i.marks ++ marks, r) := by
  cases i with
  | char c => exact readMarks_escapeChar c rest
  | range a b =>
    simp only [ClassItem.text, rangeBody, List.append_assoc, List.cons_append,
      readMarks_escapeChar, readMarks]
    cases readMarks rest <;> rfl
  | atom a =>
    simp only [ClassItem.IsWellFormed, List.mem_cons, List.not_mem_nil, or_false] at h
    rcases h with h | h | h | h | h | h | h <;> subst h <;> rfl

theorem readMarks_flatMap {items : List ClassItem} (h : ∀ i ∈ items, i.IsWellFormed)
    (rest : List Char) :
    readMarks (items.flatMap ClassItem.text ++ ']' :: rest) =
      .ok (items.flatMap ClassItem.marks, rest) := by
  induction items with
  | nil => rfl
  | cons i items ih =>
    rw [List.flatMap_cons, List.append_assoc, readMarks_text (h i List.mem_cons_self),
      ih fun j hj ↦ h j (List.mem_cons_of_mem i hj)]
    rfl

theorem formRanges_item {i : ClassItem} {marks : List ClassMark} (h : marks.head? ≠ some .hyphen) :
    formRanges (.item i :: marks) = (formRanges marks).map (i :: ·) := by
  cases marks with
  | nil => simp [formRanges]
  | cons m marks =>
    cases m with
    | hyphen => simp at h
    | item j => cases i <;> simp [formRanges]

theorem head?_marks_ne_hyphen (items : List ClassItem) :
    (items.flatMap ClassItem.marks).head? ≠ some .hyphen := by
  cases items with
  | nil => simp
  | cons i items => cases i <;> simp [ClassItem.marks]

theorem formRanges_marks {items : List ClassItem} (h : ∀ i ∈ items, i.IsWellFormed) :
    formRanges (items.flatMap ClassItem.marks) = .ok items := by
  induction items with
  | nil => rfl
  | cons i items ih =>
    have ih := ih fun j hj ↦ h j (List.mem_cons_of_mem i hj)
    have hh := head?_marks_ne_hyphen items
    rw [List.flatMap_cons]
    cases i with
    | char c => exact (formRanges_item hh).trans (by rw [ih]; rfl)
    | atom a => exact (formRanges_item hh).trans (by rw [ih]; rfl)
    | range a b =>
      have hab : a ≤ b := h (.range a b) List.mem_cons_self
      simp only [ClassItem.marks, List.cons_append, List.nil_append, formRanges, ih]
      rw [if_neg (by simpa using hab)]
      rfl

theorem readClass_text {items : List ClassItem} (negated : Bool)
    (h : ∀ i ∈ items, i.IsWellFormed) (rest : List Char) :
    readClass negated (items.flatMap ClassItem.text ++ ']' :: rest) =
      .ok (leaf (.set negated items), rest) := by
  simp only [readClass, readMarks_flatMap h, formRanges_marks h]
  rfl

theorem head?_text_ne_caret {items : List ClassItem} (h : ∀ i ∈ items, i.IsWellFormed)
    (rest : List Char) : (items.flatMap ClassItem.text ++ ']' :: rest).head? ≠ some '^' := by
  have hc (c : Char) (cs : List Char) : (Place.bracket.escapeChar c ++ cs).head? ≠ some '^' := by
    unfold Place.escapeChar
    split
    · simp
    · rename_i hc
      rintro he
      simp only [List.cons_append, List.nil_append, List.head?_cons, Option.some.injEq] at he
      exact hc (he ▸ by decide)
  cases items with
  | nil => simp
  | cons i items =>
    rw [List.flatMap_cons, List.append_assoc]
    cases i with
    | char c => exact hc c _
    | range a b =>
      simp only [ClassItem.text, rangeBody, List.append_assoc]
      exact hc a _
    | atom a =>
      have ha := h (.atom a) List.mem_cons_self
      simp only [ClassItem.IsWellFormed, List.mem_cons, List.not_mem_nil, or_false] at ha
      rcases ha with h | h | h | h | h | h | h <;> subst h <;> simp [ClassItem.text, Atom.text]

theorem read_class [Property.Engine] {items : List ClassItem} (negated : Bool)
    (h : ∀ i ∈ items, i.IsWellFormed) (rest : List Char) :
    ∃ cs, classText negated (items.flatMap ClassItem.text) = '[' :: cs ∧
      read '[' (cs ++ rest) = .ok (leaf (.set negated items), rest) := by
  have hr := readClass_text negated h rest
  cases negated with
  | true => exact ⟨'^' :: items.flatMap ClassItem.text ++ [']'], rfl, by simpa [read] using hr⟩
  | false =>
    refine ⟨items.flatMap ClassItem.text ++ [']'], rfl, ?_⟩
    have hh := head?_text_ne_caret h rest
    rw [List.append_assoc, List.singleton_append]
    cases hb : items.flatMap ClassItem.text ++ ']' :: rest with
    | nil => simp at hb
    | cons c cs =>
      have hc : c ≠ '^' := by simpa [hb] using hh
      rw [hb] at hr
      simpa [read, hc] using hr

end Token

end PatternBuilder

import PatternBuilder.Proofs.Grammar.Writing

namespace PatternBuilder

namespace Token

theorem isDigit_special {p : Place} {c : Char} (h : p.isSpecial c = true) : c.isDigit = false := by
  have hs : ∀ c ∈ '-' :: specials, c.isDigit = false := by simp [specials]
  cases p with
  | literal => exact hs c (List.mem_cons_of_mem _ (by simpa [Place.isSpecial] using h))
  | bracket => exact hs c (List.mem_cons.mpr (by simpa [Place.isSpecial] using h))

theorem readEscape_special [Property.Engine] {c : Char} (h : Place.literal.isSpecial c = true)
    (rest : List Char) :
    readEscape (c :: rest) = .ok (leaf (.char c), rest) := by
  simp only [Place.isSpecial, List.contains_eq_mem, decide_eq_true_eq, specials, List.mem_cons,
    List.not_mem_nil, or_false] at h
  rcases h with h | h | h | h | h | h | h | h | h | h | h | h | h | h | h <;> subst h <;> rfl

theorem read_plain [Property.Engine] {c : Char} (h : Place.literal.isSpecial c = false)
    (rest : List Char) :
    read c rest = .ok (leaf (.char c), rest) := by
  unfold read
  split <;> first | rfl | exact absurd h (by decide)

theorem readEscape_digit [Property.Engine] {c : Char} (h : c.isDigit = true) (cs : List Char) :
    readEscape (c :: cs) =
      .ok (leaf (.number (numberValue (c :: cs.takeWhile Char.isDigit))),
        cs.dropWhile Char.isDigit) := by
  unfold readEscape
  split <;> simp_all

theorem takeWhile_digits {ds rest : List Char} (hd : ∀ c ∈ ds, c.isDigit = true)
    (hr : startsWithDigit rest = false) : (ds ++ rest).takeWhile Char.isDigit = ds := by
  rw [List.takeWhile_append_of_pos hd]
  cases rest with
  | nil => simp
  | cons c cs => simp only [startsWithDigit] at hr; simp [hr]

theorem dropWhile_digits {ds rest : List Char} (hd : ∀ c ∈ ds, c.isDigit = true)
    (hr : startsWithDigit rest = false) : (ds ++ rest).dropWhile Char.isDigit = rest := by
  rw [List.dropWhile_append_of_pos hd]
  cases rest with
  | nil => rfl
  | cons c cs => simp only [startsWithDigit] at hr; simp [hr]

theorem isDigit_of_mem_decimal {n : Nat} {c : Char} (h : c ∈ Quantifier.decimal n) :
    c.isDigit = true :=
  Nat.isDigit_of_mem_toDigits (by omega) (by omega) h

theorem decimal_ne_nil (n : Nat) : Quantifier.decimal n ≠ [] := Nat.toDigits_ne_nil

theorem not_mem_decimal {c : Char} (h : c.isDigit = false) (n : Nat) :
    c ∉ Quantifier.decimal n := fun hc ↦
  Bool.false_ne_true (h.symm.trans (isDigit_of_mem_decimal hc))

theorem not_mem_suffix {c : Char} (hd : c.isDigit = false)
    (hm : c ∉ ['?', '*', '+', '{', ',', '}']) (q : Quantifier) : c ∉ q.suffix := by
  have hdecimal := not_mem_decimal hd
  have hlazy (lazy : Bool) : c ∉ Quantifier.lazyMark lazy := by
    cases lazy <;> simp_all [Quantifier.lazyMark]
  simp only [List.mem_cons, List.not_mem_nil, or_false, not_or] at hm
  cases q <;> simp [Quantifier.suffix, hdecimal, hlazy, hm]

theorem numberValue_decimal (n : Nat) : numberValue (Quantifier.decimal n) = n :=
  Nat.ofDigitChars_ten_toDigits

theorem readEscape_decimal [Property.Engine] (n : Nat) {rest : List Char}
    (h : startsWithDigit rest = false) :
    readEscape (Quantifier.decimal n ++ rest) = .ok (leaf (.number n), rest) := by
  obtain ⟨c, cs, hc⟩ := List.exists_cons_of_ne_nil (decimal_ne_nil n)
  have hd : ∀ d ∈ c :: cs, d.isDigit = true := fun d hd ↦ isDigit_of_mem_decimal (hc ▸ hd)
  have hcs : ∀ d ∈ cs, d.isDigit = true := fun d h ↦ hd d (List.mem_cons_of_mem c h)
  rw [hc, List.cons_append, readEscape_digit (hd c List.mem_cons_self), takeWhile_digits hcs h,
    dropWhile_digits hcs h, ← hc, numberValue_decimal]

theorem takeWhile_ne_append {mark : Char} {cs : List Char} (h : mark ∉ cs) (rest : List Char) :
    (cs ++ mark :: rest).takeWhile (· != mark) = cs := by
  have hne : ∀ c ∈ cs, (c != mark) = true := fun c hc ↦ by
    simpa using ne_of_mem_of_not_mem hc h
  simp [List.takeWhile_append_of_pos hne]

theorem upTo?_append {mark : Char} {cs : List Char} (h : mark ∉ cs) (rest : List Char) :
    upTo? mark (cs ++ mark :: rest) = some (cs, rest) := by
  have hne : ∀ c ∈ cs, (c != mark) = true := fun c hc ↦ by
    simpa using ne_of_mem_of_not_mem hc h
  simp [upTo?, List.dropWhile_append_of_pos hne, takeWhile_ne_append h]

theorem hexDigits?_append {n : Nat} {ds : List Char} (hn : ds.length = n)
    (hd : ds.all isHexDigit = true) (rest : List Char) :
    hexDigits? n (ds ++ rest) = some (ds, rest) := by
  subst hn
  simpa [hexDigits?] using hd

theorem readCode_append {form : CodeForm} {n : Nat} {ds : List Char} (hn : ds.length = n)
    (hd : ds.all isHexDigit = true) (rest : List Char) :
    readCode form n (ds ++ rest) = .ok (leaf (.code form ds), rest) := by
  simp only [readCode, hexDigits?_append hn hd]

theorem not_mem_of_all {p : Char → Bool} {cs : List Char} {c : Char} (h : cs.all p = true)
    (hc : p c = false) : c ∉ cs := by
  intro hm
  have := List.all_eq_true.mp h c hm
  simp [hc] at this

theorem readEscape_code [Property.Engine] {form : CodeForm} {ds : List Char}
    (h : form.IsWellFormed ds) (rest : List Char) :
    ∃ c cs, form.text ds = '\\' :: c :: cs ∧
      readEscape (c :: cs ++ rest) = .ok (leaf (.code form ds), rest) := by
  cases form with
  | byte => exact ⟨'x', ds, rfl, readCode_append h.1 h.2 rest⟩
  | unit =>
    refine ⟨'u', ds, rfl, ?_⟩
    have hb : '{' ∉ ds := not_mem_of_all h.2 (by decide)
    have hr : readCode .unit 4 (ds ++ rest) = .ok (leaf (.code .unit ds), rest) :=
      readCode_append h.1 h.2 rest
    cases ds with
    | nil => simp [CodeForm.IsWellFormed] at h
    | cons d ds =>
      simp only [List.mem_cons, not_or] at hb
      simpa [readEscape, Ne.symm hb.1] using hr
  | point =>
    refine ⟨'u', '{' :: ds ++ ['}'], rfl, ?_⟩
    have hb : '}' ∉ ds := not_mem_of_all h.2.1 (by decide)
    obtain ⟨hne, hd, hv⟩ := h
    have hu := upTo?_append hb rest
    have hr : readPoint (ds ++ '}' :: rest) = .ok (leaf (.code .point ds), rest) := by
      simp only [readPoint, hu, hd, decide_eq_true hv, Bool.and_true]
      rw [if_pos (by simpa using hne)]
    simpa [readEscape] using hr

def isPropertyChar (c : Char) : Bool := c.isAlphanum || c == '_' || c == '='

theorem isPropertyChar_of_isNamePart {cs : List Char} (h : Property.isNamePart cs = true) :
    ∀ c ∈ cs, isPropertyChar c = true := by
  intro c hc
  simp only [Property.isNamePart, Bool.and_eq_true, List.all_eq_true, Bool.or_eq_true] at h
  simp only [isPropertyChar, Char.isAlphanum, Bool.or_eq_true]
  rcases h.2 c hc with h | h
  · exact .inl (.inl (.inl h))
  · exact .inl (.inr h)

theorem isPropertyChar_of_isValuePart {cs : List Char} (h : Property.isValuePart cs = true) :
    ∀ c ∈ cs, isPropertyChar c = true := by
  intro c hc
  simp only [Property.isValuePart, Bool.and_eq_true, List.all_eq_true] at h
  rw [isPropertyChar, h.2 c hc, Bool.true_or]

theorem all_of_isAccepted [Property.Engine] {name : String} (h : Property.isAccepted name = true) :
    name.toList.all isPropertyChar = true := by
  rw [List.all_eq_true]
  intro c hm
  have hsplit := List.takeWhile_append_dropWhile (p := (· != '=')) (l := name.toList)
  simp only [Property.isAccepted, Property.isWellFormed, Property.split, Bool.and_eq_true] at h
  have h := h.1
  rw [← hsplit, List.mem_append] at hm
  cases hd : name.toList.dropWhile (· != '=') with
  | nil =>
    simp only [hd, List.tail?_nil] at h
    rw [hd] at hm
    exact isPropertyChar_of_isNamePart h c (hm.resolve_right (by simp))
  | cons d ds =>
    have hd' : d = '=' := by
      have := List.head?_dropWhile_not (· != '=') name.toList
      simpa [hd] using this
    simp only [hd, List.tail?_cons, Bool.and_eq_true] at h
    rw [hd, hd', List.mem_cons] at hm
    rcases hm with hm | rfl | hm
    · exact isPropertyChar_of_isNamePart h.1 c hm
    · rfl
    · exact isPropertyChar_of_isValuePart h.2 c hm

theorem readProperty_append [Property.Engine] {name : String} (negated : Bool)
    (h : Property.isAccepted name = true) (rest : List Char) :
    readProperty negated ('{' :: name.toList ++ '}' :: rest) =
      .ok (leaf (.property negated name), rest) := by
  have hclose : '}' ∉ name.toList := not_mem_of_all (all_of_isAccepted h) rfl
  simp only [List.cons_append, readProperty, upTo?_append hclose, String.ofList_toList]
  rw [if_pos h]

theorem nameChars {name : String} (h : isGroupName name = true) :
    ∃ c cs, name.toList = c :: cs ∧ isNameStart c = true ∧ cs.all isNameChar = true := by
  simp only [isGroupName] at h
  cases hn : name.toList with
  | nil => simp [hn, isGroupNameList] at h
  | cons c cs => exact ⟨c, cs, rfl, by simpa [hn, isGroupNameList] using h⟩

theorem isNameChar_of_isNameStart {c : Char} (h : isNameStart c = true) :
    isNameChar c = true := by
  simp only [isNameStart, isNameChar, Char.isAlphanum, Bool.or_eq_true] at h ⊢
  rcases h with h | h
  · exact .inl (.inl h)
  · exact .inr h

theorem all_of_isGroupName {name : String} (h : isGroupName name = true) :
    name.toList.all isNameChar = true := by
  obtain ⟨d, ds, hn, hd, hds⟩ := nameChars h
  rw [hn, List.all_cons, isNameChar_of_isNameStart hd, hds, Bool.and_self]

theorem readName_append {name : String} (make : String → Token) (h : isGroupName name = true)
    (rest : List Char) : readName make (name.toList ++ '>' :: rest) = .ok (make name, rest) := by
  have hu := upTo?_append (not_mem_of_all (all_of_isGroupName h) (c := '>') rfl) rest
  simp only [readName, hu, String.ofList_toList]
  exact if_pos h

theorem readOpening_named {name : String} (h : isGroupName name = true) (rest : List Char) :
    readOpening ('?' :: '<' :: name.toList ++ '>' :: rest) = .ok (opening (.named name), rest) := by
  obtain ⟨c, cs, hn, hc, -⟩ := nameChars h
  have he : c ≠ '=' := by rintro rfl; exact absurd hc (by decide)
  have hb : c ≠ '!' := by rintro rfl; exact absurd hc (by decide)
  have hr := readName_append (fun name ↦ opening (.named name)) h rest
  rw [hn] at hr ⊢
  simpa [readOpening, he, hb] using hr

theorem readOpening_capture {rest : List Char} (h : rest.head? ≠ some '?') :
    readOpening rest = .ok (opening .capture, rest) := by
  unfold readOpening
  split <;> simp_all

end Token

end PatternBuilder

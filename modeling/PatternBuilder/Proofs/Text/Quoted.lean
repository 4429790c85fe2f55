import PatternBuilder.Code
import PatternBuilder.Text.Quoted

namespace PatternBuilder

theorem hexDigitValue_digitChar {d : Nat} (h : d < 16) : hexDigitValue d.digitChar = d := by
  have hall : ∀ d ∈ List.range 16, hexDigitValue d.digitChar = d := by decide
  exact hall d (List.mem_range.mpr h)

theorem isHexDigit_digitChar {d : Nat} (h : d < 16) : isHexDigit d.digitChar = true := by
  have hall : ∀ d ∈ List.range 16, isHexDigit d.digitChar = true := by decide
  exact hall d (List.mem_range.mpr h)

theorem hexValue_concat (cs : List Char) (c : Char) :
    hexValue (cs ++ [c]) = 16 * hexValue cs + hexDigitValue c := by
  simp [hexValue]

theorem hexValue_toDigits (n : Nat) : hexValue (Nat.toDigits 16 n) = n := by
  induction n using Nat.strongRecOn with
  | ind n ih =>
    by_cases hn : n < 16
    · rw [Nat.toDigits_of_lt_base hn]
      simp [hexValue, hexDigitValue_digitChar hn]
    · rw [Nat.toDigits_of_base_le (by omega) (by omega), hexValue_concat, ih (n / 16) (by omega),
        hexDigitValue_digitChar (Nat.mod_lt n (by omega))]
      omega

theorem all_isHexDigit_toDigits (n : Nat) : (Nat.toDigits 16 n).all isHexDigit = true := by
  induction n using Nat.strongRecOn with
  | ind n ih =>
    by_cases hn : n < 16
    · rw [Nat.toDigits_of_lt_base hn, List.all_cons, isHexDigit_digitChar hn]
      rfl
    · rw [Nat.toDigits_of_base_le (by omega) (by omega), List.all_append, ih (n / 16) (by omega),
        List.all_cons, isHexDigit_digitChar (Nat.mod_lt n (by omega))]
      rfl

def quotationMarks : List Char := ['"', '\'']

def readQuoted : List Char → Option (Char × List Char)
  | [] => none
  | '\\' :: 'u' :: '{' :: cs =>
    some (Char.ofNat (hexValue (cs.takeWhile (· != '}'))), (cs.dropWhile (· != '}')).tail)
  | '\\' :: '0' :: cs => some ('\x00', cs)
  | '\\' :: 't' :: cs => some ('\t', cs)
  | '\\' :: 'n' :: cs => some ('\n', cs)
  | '\\' :: 'r' :: cs => some ('\r', cs)
  | '\\' :: c :: cs => some (c, cs)
  | c :: cs => some (c, cs)

variable {mark : Char} {cs ds : List Char}

theorem readQuoted_codeEscape (c : Char) (rest : List Char) :
    readQuoted (codeEscape c ++ rest) = some (c, rest) := by
  have hne : ∀ d ∈ Nat.toDigits 16 c.toNat, (d != '}') = true := by
    intro d hd
    rw [bne_iff_ne]
    rintro rfl
    exact absurd (List.all_eq_true.mp (all_isHexDigit_toDigits c.toNat) '}' hd) (by decide)
  have ht : codeEscape c ++ rest =
      '\\' :: 'u' :: '{' :: (Nat.toDigits 16 c.toNat ++ '}' :: rest) := by simp [codeEscape]
  rw [ht, readQuoted, List.takeWhile_append_of_pos hne, List.dropWhile_append_of_pos hne]
  simp [hexValue_toDigits, Char.ofNat_toNat]

theorem readQuoted_quoteChar (hm : mark ∈ quotationMarks) (c : Char) (rest : List Char) :
    readQuoted (quoteChar mark c ++ rest) = some (c, rest) := by
  have hmark : readQuoted ('\\' :: mark :: rest) = some (mark, rest) := by
    simp only [quotationMarks, List.mem_cons, List.not_mem_nil, or_false] at hm
    rcases hm with rfl | rfl <;> rfl
  unfold quoteChar
  split
  · subst c; rfl
  split
  · subst c; rfl
  split
  · subst c; rfl
  split
  · subst c; rfl
  split
  · subst c; rfl
  split
  · subst c; exact hmark
  split
  · exact readQuoted_codeEscape c rest
  · simp [readQuoted, *]

theorem quoteChar_cases (mark c : Char) :
    (∃ d ∈ ['0', 't', 'n', 'r', '\\', mark], quoteChar mark c = ['\\', d]) ∨
      quoteChar mark c = codeEscape c ∨ (quoteChar mark c = [c] ∧ c ∉ ['\n', mark]) := by
  unfold quoteChar
  split
  · exact .inl ⟨'0', by simp, rfl⟩
  split
  · exact .inl ⟨'t', by simp, rfl⟩
  split
  · exact .inl ⟨'n', by simp, rfl⟩
  split
  · exact .inl ⟨'r', by simp, rfl⟩
  split
  · exact .inl ⟨'\\', by simp, rfl⟩
  split
  · exact .inl ⟨mark, by simp, rfl⟩
  split
  · exact .inr (.inl rfl)
  · exact .inr (.inr ⟨rfl, by simp [*]⟩)

theorem ne_of_mem_quotationMarks {c : Char} (hm : mark ∈ quotationMarks)
    (hc : c ∉ quotationMarks) : c ≠ mark := by
  rintro rfl
  exact hc hm

theorem quoteChar_eq_cons (hm : mark ∈ quotationMarks) (c : Char) :
    ∃ d ds, quoteChar mark c = d :: ds ∧ d ≠ mark := by
  have hs : '\\' ≠ mark := ne_of_mem_quotationMarks hm (by decide)
  rcases quoteChar_cases mark c with ⟨d, -, h⟩ | h | ⟨h, hc⟩
  · exact ⟨_, _, h, hs⟩
  · exact ⟨_, _, h, hs⟩
  · exact ⟨_, _, h, by simp_all⟩

theorem newline_not_mem_quoteChar (hm : mark ∈ quotationMarks) (c : Char) :
    '\n' ∉ quoteChar mark c := by
  have hmark : '\n' ≠ mark := ne_of_mem_quotationMarks hm (by decide)
  rcases quoteChar_cases mark c with ⟨d, hd, h⟩ | h | ⟨h, hc⟩
  · rw [h]
    simp only [List.mem_cons, List.not_mem_nil, or_false] at hd
    rcases hd with rfl | rfl | rfl | rfl | rfl | rfl <;> simp [hmark]
  · have hd : '\n' ∉ Nat.toDigits 16 c.toNat := by
      intro hd
      exact absurd (List.all_eq_true.mp (all_isHexDigit_toDigits c.toNat) '\n' hd) (by decide)
    simp [h, codeEscape, hd]
  · rw [h, List.mem_singleton]
    rintro rfl
    exact hc List.mem_cons_self

/-- A quoted text cannot be taken for another, whatever stands behind the two. -/
theorem quoteWith_append_inj (hm : mark ∈ quotationMarks) {rest rest' : List Char}
    (h : quoteWith mark cs ++ rest = quoteWith mark ds ++ rest') : cs = ds ∧ rest = rest' := by
  simp only [quoteWith, List.cons_append, List.cons.injEq, true_and, List.append_assoc,
    List.nil_append] at h
  induction cs generalizing ds with
  | nil =>
    cases ds with
    | nil => simpa using h
    | cons d ds =>
      obtain ⟨x, xs, hx, hne⟩ := quoteChar_eq_cons hm d
      simp only [List.flatMap_nil, List.nil_append, List.flatMap_cons, hx, List.cons_append,
        List.cons.injEq] at h
      exact absurd h.1.symm hne
  | cons c cs ih =>
    cases ds with
    | nil =>
      obtain ⟨x, xs, hx, hne⟩ := quoteChar_eq_cons hm c
      simp only [List.flatMap_nil, List.nil_append, List.flatMap_cons, hx, List.cons_append,
        List.cons.injEq] at h
      exact absurd h.1 hne
    | cons d ds =>
      simp only [List.flatMap_cons, List.append_assoc] at h
      have hread := congrArg readQuoted h
      rw [readQuoted_quoteChar hm, readQuoted_quoteChar hm, Option.some.injEq, Prod.mk.injEq]
        at hread
      obtain ⟨rfl, hrest⟩ := hread
      obtain ⟨rfl, hr⟩ := ih hrest
      exact ⟨rfl, hr⟩

theorem newline_not_mem_quoteWith (hm : mark ∈ quotationMarks) (cs : List Char) :
    '\n' ∉ quoteWith mark cs := by
  have hmark : '\n' ≠ mark := ne_of_mem_quotationMarks hm (by decide)
  simp [quoteWith, hmark, newline_not_mem_quoteChar hm]

theorem quoted_inj {s t : String} (h : quoted s = quoted t) : s = t := by
  have hl := congrArg String.toList h
  rw [quoted, quoted, String.toList_ofList, String.toList_ofList] at hl
  have hc := @quoteWith_append_inj '"' s.toList t.toList (by decide) [] [] (by simpa using hl)
  exact String.toList_inj.mp hc.1

theorem toList_quotedChar (c : Char) : (quotedChar c).toList = quoteWith '\'' [c] :=
  String.toList_ofList

theorem quotedChar_range_inj {a b c d : Char}
    (h : quotedChar a ++ "-" ++ quotedChar b = quotedChar c ++ "-" ++ quotedChar d) :
    a = c ∧ b = d := by
  have hl := congrArg String.toList h
  simp only [String.toList_append, toList_quotedChar, List.append_assoc] at hl
  obtain ⟨ha, hrest⟩ := quoteWith_append_inj (by decide) hl
  have hb := @quoteWith_append_inj '\'' [b] [d] (by decide) [] [] (by simpa using hrest)
  exact ⟨(List.cons.inj ha).1, (List.cons.inj hb.1).1⟩

theorem quotedChar_inj {c d : Char} (h : quotedChar c = quotedChar d) : c = d :=
  (quotedChar_range_inj (by rw [h] : quotedChar c ++ "-" ++ quotedChar c = _)).1

end PatternBuilder

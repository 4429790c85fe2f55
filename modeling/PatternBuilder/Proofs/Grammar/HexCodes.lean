import Mathlib.Algebra.Group.Nat.Defs
import PatternBuilder.Proofs.Grammar.Writing

namespace PatternBuilder

theorem isHexDigit_iff {c : Char} :
    isHexDigit c = true ↔ (48 ≤ c.toNat ∧ c.toNat ≤ 57) ∨ (97 ≤ c.toNat ∧ c.toNat ≤ 102) ∨
      (65 ≤ c.toNat ∧ c.toNat ≤ 70) := by
  simp only [isHexDigit, Char.isDigit, Bool.or_eq_true, Bool.and_eq_true, decide_eq_true_eq,
    Char.le_def, UInt32.le_iff_toNat_le, or_assoc, ge_iff_le]
  rfl

theorem utf8ByteSize_ofList {cs : List Char} (h : cs.all isHexDigit = true) :
    (String.ofList cs).utf8ByteSize = cs.length := by
  induction cs with
  | nil => rfl
  | cons c cs ih =>
    simp only [List.all_cons, Bool.and_eq_true] at h
    have hc : c.utf8Size = 1 := by
      have hn : c.toNat ≤ 127 := by have := isHexDigit_iff.mp h.1; omega
      rw [Char.utf8Size_eq_one_iff, UInt32.le_iff_toNat_le]
      exact hn
    have hs : String.ofList (c :: cs) = String.singleton c ++ String.ofList cs := by
      rw [String.singleton_eq_ofList, ← String.ofList_append]
      rfl
    rw [hs, String.utf8ByteSize_append, String.utf8ByteSize_singleton, hc, ih h.2]
    simp only [List.length_cons]
    omega

theorem hexDigitValue_lt {c : Char} (h : isHexDigit c = true) : hexDigitValue c < 16 := by
  have h := isHexDigit_iff.mp h
  have hd : c.isDigit = true ↔ 48 ≤ c.toNat ∧ c.toNat ≤ 57 := by
    simp only [Char.isDigit, Bool.and_eq_true, decide_eq_true_eq, UInt32.le_iff_toNat_le,
      ge_iff_le]
    rfl
  have ha : 'a' ≤ c ↔ 97 ≤ c.toNat := by
    rw [Char.le_def, UInt32.le_iff_toNat_le]
    rfl
  have h0 : '0'.toNat = 48 := rfl
  have hA : 'A'.toNat = 65 := rfl
  have ha' : 'a'.toNat = 97 := rfl
  simp only [hexDigitValue, hd, ha, h0, hA, ha']
  split
  · omega
  · split <;> omega

theorem hexValue_lt {ds : List Char} (h : ds.all isHexDigit = true) :
    hexValue ds < 16 ^ ds.length := by
  have hfold : ∀ (ds : List Char) (n : Nat), ds.all isHexDigit = true →
      ds.foldl (fun n c ↦ 16 * n + hexDigitValue c) n < (n + 1) * 16 ^ ds.length := by
    intro ds
    induction ds with
    | nil => intro n _; simp
    | cons d ds ih =>
      intro n h
      simp only [List.all_cons, Bool.and_eq_true] at h
      have hd := hexDigitValue_lt h.1
      refine Nat.lt_of_lt_of_le (ih _ h.2) ?_
      rw [List.length_cons, Nat.pow_succ', ← Nat.mul_assoc]
      exact Nat.mul_le_mul_right _ (by dsimp only; omega)
  simpa [hexValue] using hfold ds 0 h

theorem CodeForm.isWellFormed_of_isHexOfLength {form : CodeForm} {digits : String}
    (h : isHexOfLength digits form.lengths = true) : form.IsWellFormed digits.toList := by
  simp only [isHexOfLength, Bool.and_eq_true, List.contains_eq_mem, decide_eq_true_eq] at h
  obtain ⟨hl, hd⟩ := h
  rw [← String.ofList_toList (s := digits), utf8ByteSize_ofList hd] at hl
  have hv := hexValue_lt hd
  cases form with
  | byte => exact ⟨by simpa [lengths] using hl, hd⟩
  | unit => exact ⟨by simpa [lengths] using hl, hd⟩
  | point =>
    have hl : digits.toList.length = 4 ∨ digits.toList.length = 5 := by simpa [lengths] using hl
    have hle : 16 ^ digits.toList.length ≤ 16 ^ 5 := Nat.pow_le_pow_right (by omega) (by omega)
    refine ⟨fun hn ↦ ?_, hd, by omega⟩
    rw [hn] at hl
    simp at hl

end PatternBuilder

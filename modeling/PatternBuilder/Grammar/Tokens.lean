import PatternBuilder.Grammar.Token

namespace PatternBuilder

namespace Token

theorem length_lt_of_dropWhile {p : Char → Bool} {c : Char} {cs rest : List Char}
    (h : cs.dropWhile p = c :: rest) : rest.length < cs.length := by
  have hle := (List.dropWhile_sublist p (l := cs)).length_le
  rw [h, List.length_cons] at hle
  exact hle

theorem length_upTo? {mark : Char} {cs found rest : List Char}
    (h : upTo? mark cs = some (found, rest)) : rest.length ≤ cs.length := by
  unfold upTo? at h
  split at h
  case h_1 => cases h
  case h_2 heq =>
    cases h
    exact Nat.le_of_lt (length_lt_of_dropWhile heq)

theorem length_hexDigits? {n : Nat} {cs found rest : List Char}
    (h : hexDigits? n cs = some (found, rest)) : rest.length ≤ cs.length := by
  unfold hexDigits? at h
  split at h <;> simp at h
  simp [← h.2]

theorem length_readCode {form : CodeForm} {n : Nat} {cs rest : List Char} {t : Token}
    (h : readCode form n cs = .ok (t, rest)) : rest.length ≤ cs.length := by
  unfold readCode at h
  split at h <;> simp at h
  rename_i hd
  exact h.2 ▸ length_hexDigits? hd

theorem length_readPoint {cs rest : List Char} {t : Token}
    (h : readPoint cs = .ok (t, rest)) : rest.length ≤ cs.length := by
  unfold readPoint at h
  split at h
  · rename_i hu
    split at h <;> simp at h
    exact h.2 ▸ length_upTo? hu
  · simp at h

theorem length_readProperty [Property.Engine] {negated : Bool} {cs rest : List Char} {t : Token}
    (h : readProperty negated cs = .ok (t, rest)) : rest.length ≤ cs.length := by
  unfold readProperty at h
  split at h
  · split at h
    · rename_i hu
      split at h <;> simp at h
      exact h.2 ▸ Nat.le_succ_of_le (length_upTo? hu)
    · simp at h
  · simp at h

theorem length_readName {make : String → Token} {cs rest : List Char} {t : Token}
    (h : readName make cs = .ok (t, rest)) : rest.length ≤ cs.length := by
  unfold readName at h
  split at h
  · rename_i hu
    split at h <;> simp at h
    exact h.2 ▸ length_upTo? hu
  · simp at h

theorem length_dropDigits (cs : List Char) : (cs.dropWhile Char.isDigit).length ≤ cs.length :=
  (List.dropWhile_sublist _).length_le

theorem length_of_eq_ok {t u : Token} {cs rest : List Char} {n : Nat}
    (h : (.ok (u, cs) : Except ReadError (Token × List Char)) = .ok (t, rest))
    (hn : cs.length ≤ n) : rest.length ≤ n := by
  cases h
  exact hn

theorem length_readEscape [Property.Engine] {cs rest : List Char} {t : Token}
    (h : readEscape cs = .ok (t, rest)) : rest.length ≤ cs.length := by
  unfold readEscape at h
  split at h
  case h_1 => cases h
  case h_2 | h_3 | h_4 | h_5 | h_6 | h_7 | h_8 | h_9 | h_10 | h_11 | h_12 | h_13 | h_14 =>
    -- a letter that is an escape by itself
    exact length_of_eq_ok h (Nat.le_succ _)
  case h_15 =>
    split at h
    · exact length_of_eq_ok h (Nat.le_add_right _ 2)
    · cases h
  case h_16 | h_18 => exact Nat.le_succ_of_le (length_readCode h)
  case h_17 => exact Nat.le_succ_of_le (Nat.le_succ_of_le (length_readPoint h))
  case h_19 | h_20 => exact Nat.le_succ_of_le (length_readProperty h)
  case h_21 => exact Nat.le_succ_of_le (Nat.le_succ_of_le (length_readName h))
  case h_22 =>
    split at h
    · exact length_of_eq_ok h (Nat.le_succ_of_le (length_dropDigits _))
    · split at h
      · exact length_of_eq_ok h (Nat.le_succ _)
      · cases h

theorem length_readMarks {cs rest : List Char} {marks : List ClassMark}
    (h : readMarks cs = .ok (marks, rest)) : rest.length ≤ cs.length := by
  fun_induction readMarks cs generalizing marks rest with
  | case1 | case3 | case4 => simp at h
  | case2 => simp at h; simp [← h.2]
  | case5 c cs item hi ih | case6 cs ih | case7 c cs _ _ _ _ ih =>
    cases hr : readMarks cs with
    | error e => simp [hr, Except.map] at h
    | ok r =>
      simp only [hr, Except.map, Except.ok.injEq, Prod.mk.injEq] at h
      have := ih hr
      simp only [← h.2, List.length_cons]
      omega

theorem length_readClass {negated : Bool} {cs rest : List Char} {t : Token}
    (h : readClass negated cs = .ok (t, rest)) : rest.length ≤ cs.length := by
  unfold readClass at h
  split at h
  · simp at h
  · rename_i marks rest' hm
    cases hf : formRanges marks with
    | error e => simp [hf, Except.map] at h
    | ok items =>
      simp only [hf, Except.map, Except.ok.injEq, Prod.mk.injEq] at h
      exact h.2 ▸ length_readMarks hm

theorem length_readOpening {cs rest : List Char} {t : Token}
    (h : readOpening cs = .ok (t, rest)) : rest.length ≤ cs.length := by
  unfold readOpening at h
  split at h
  case h_1 | h_2 | h_3 => exact length_of_eq_ok h (Nat.le_add_right _ 2)
  case h_4 | h_5 => exact length_of_eq_ok h (Nat.le_add_right _ 3)
  case h_6 => exact Nat.le_succ_of_le (Nat.le_succ_of_le (length_readName h))
  case h_7 => cases h
  case h_8 => exact length_of_eq_ok h (Nat.le_refl _)

theorem length_readLazy (make : Bool → Quantifier) (cs : List Char) :
    (readLazy make cs).2.length ≤ cs.length := by
  unfold readLazy
  split <;> simp

theorem length_readCounts {cs rest : List Char} {t : Token}
    (h : readCounts cs = .ok (t, rest)) : rest.length ≤ cs.length := by
  unfold readCounts at h
  simp only at h
  split at h
  · cases h
  split at h
  case h_1 heq => exact length_of_eq_ok h (Nat.le_of_lt (length_lt_of_dropWhile heq))
  case h_2 rest' heq =>
    have hlt := length_lt_of_dropWhile heq
    rw [List.length_cons] at hlt
    exact length_of_eq_ok h (Nat.le_trans (length_readLazy _ rest') (by omega))
  case h_3 rest' _ heq =>
    have hlt := length_lt_of_dropWhile heq
    split at h
    case h_1 rest'' heq' =>
      have hlt' := length_lt_of_dropWhile heq'
      split at h
      · cases h
      split at h
      · cases h
      · exact length_of_eq_ok h (Nat.le_trans (length_readLazy _ rest'') (by omega))
    case h_2 => cases h
  case h_4 => cases h

theorem length_read [Property.Engine] {c : Char} {cs rest : List Char} {t : Token}
    (h : read c cs = .ok (t, rest)) : rest.length ≤ cs.length := by
  unfold read at h
  split at h
  case h_1 => exact length_readEscape h
  case h_2 | h_3 | h_4 | h_5 | h_7 | h_9 | h_15 =>
    -- a character that is a token by itself
    exact length_of_eq_ok h (Nat.le_refl _)
  case h_6 => exact length_readOpening h
  case h_8 =>
    split at h
    · exact Nat.le_succ_of_le (length_readClass h)
    · exact length_readClass h
  case h_10 | h_11 => exact length_of_eq_ok h (length_readLazy _ _)
  case h_12 => exact length_readCounts h
  case h_13 | h_14 => cases h

def all [Property.Engine] : List Char → Except ReadError (List Token)
  | [] => .ok []
  | c :: cs =>
    match _h : read c cs with
    | .error e => .error e
    | .ok (t, rest) => (all rest).map (t :: ·)
termination_by cs => cs.length
decreasing_by
  have := length_read _h
  simp only [List.length_cons]
  omega

/-- The character that two units of UTF-16 stand for together, if the first can lead a pair and
the second can trail one. -/
def pair? : Token → Token → Option Char
  | leaf (.code .unit first), leaf (.code .unit second) =>
    let lead := hexValue first
    let trail := hexValue second
    if 0xD800 ≤ lead ∧ lead < 0xDC00 ∧ 0xDC00 ≤ trail ∧ trail < 0xE000 then
      some (Char.ofNat (0x10000 + 0x400 * (lead - 0xD800) + (trail - 0xDC00)))
    else none
  | _, _ => none

def joinPairs : List Token → List Token
  | [] => []
  | [t] => [t]
  | t :: u :: ts =>
    match pair? t u with
    | some c => leaf (.char c) :: joinPairs ts
    | none => t :: joinPairs (u :: ts)

def groupNames (ts : List Token) : List String :=
  ts.filterMap fun
    | opening (.named name) => some name
    | _ => none

end Token

end PatternBuilder

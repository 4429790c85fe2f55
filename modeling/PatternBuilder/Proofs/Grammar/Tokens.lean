import PatternBuilder.Proofs.Grammar.ClassReading
import PatternBuilder.Proofs.Grammar.TokenReading

namespace PatternBuilder

namespace Token

theorem all_cons [Property.Engine] {c : Char} {cs rest : List Char} {t : Token}
    (h : read c cs = .ok (t, rest)) :
    all (c :: cs) = (all rest).map (t :: ·) := by
  rw [all]
  split <;> simp_all

theorem readLazy_lazyMark (make : Bool → Quantifier) (lazy : Bool) {rest : List Char}
    (h : rest.head? ≠ some '?') :
    readLazy make (Quantifier.lazyMark lazy ++ rest) = (repetition (make lazy), rest) := by
  cases lazy with
  | true => rfl
  | false =>
    cases rest with
    | nil => rfl
    | cons c cs =>
      have hc : c ≠ '?' := by simpa using h
      simp [Quantifier.lazyMark, readLazy, hc]

theorem takeWhile_decimal (n : Nat) {rest : List Char} (h : startsWithDigit rest = false) :
    (Quantifier.decimal n ++ rest).takeWhile Char.isDigit = Quantifier.decimal n :=
  takeWhile_digits (fun _ ↦ isDigit_of_mem_decimal) h

theorem dropWhile_decimal (n : Nat) {rest : List Char} (h : startsWithDigit rest = false) :
    (Quantifier.decimal n ++ rest).dropWhile Char.isDigit = rest :=
  dropWhile_digits (fun _ ↦ isDigit_of_mem_decimal) h

theorem isEmpty_decimal (n : Nat) : (Quantifier.decimal n).isEmpty = false := by
  simpa using decimal_ne_nil n

theorem readCounts_exactly (n : Nat) (rest : List Char) :
    readCounts (Quantifier.decimal n ++ '}' :: rest) = .ok (repetition (.exactly n), rest) := by
  have hd : startsWithDigit ('}' :: rest) = false := rfl
  simp [readCounts, takeWhile_decimal n hd, dropWhile_decimal n hd, isEmpty_decimal,
    numberValue_decimal]

theorem readCounts_atLeast (n : Nat) (lazy : Bool) {rest : List Char}
    (h : rest.head? ≠ some '?') :
    readCounts (Quantifier.decimal n ++ ',' :: '}' :: (Quantifier.lazyMark lazy ++ rest)) =
      .ok (repetition (.atLeast n lazy), rest) := by
  have hd : startsWithDigit (',' :: '}' :: (Quantifier.lazyMark lazy ++ rest)) = false := rfl
  simp [readCounts, takeWhile_decimal n hd, dropWhile_decimal n hd, isEmpty_decimal,
    numberValue_decimal, readLazy_lazyMark _ lazy h]

theorem readCounts_between {x y : Nat} (hxy : x ≤ y) (lazy : Bool) {rest : List Char}
    (h : rest.head? ≠ some '?') :
    readCounts (Quantifier.decimal x ++ ',' :: (Quantifier.decimal y ++
      '}' :: (Quantifier.lazyMark lazy ++ rest))) =
      .ok (repetition (.between x y lazy), rest) := by
  have hx : startsWithDigit (',' :: (Quantifier.decimal y ++
      '}' :: (Quantifier.lazyMark lazy ++ rest))) = false := rfl
  have hy : startsWithDigit ('}' :: (Quantifier.lazyMark lazy ++ rest)) = false := rfl
  obtain ⟨c, cs, hc⟩ := List.exists_cons_of_ne_nil (decimal_ne_nil y)
  have hne : c ≠ '}' := by
    have hd : c.isDigit = true := isDigit_of_mem_decimal (hc ▸ List.mem_cons_self)
    rintro rfl
    exact absurd hd (by decide)
  have ht := takeWhile_decimal y hy
  have hr := dropWhile_decimal y hy
  have hv := numberValue_decimal y
  have he := isEmpty_decimal y
  simp only [readCounts, takeWhile_decimal x hx, dropWhile_decimal x hx, isEmpty_decimal,
    numberValue_decimal]
  rw [hc] at ht hr hv he ⊢
  simp only [List.cons_append] at ht hr ⊢
  simp [hne, ht, hr, hv, Nat.not_lt.mpr hxy, readLazy_lazyMark _ lazy h]

theorem all_suffix [Property.Engine] {q : Quantifier} (hq : q.IsWellFormed) {rest : List Char}
    (h : rest.head? ≠ some '?') :
    all (q.suffix ++ rest) = (all rest).map (repetition q :: ·) := by
  cases q with
  | optional => exact all_cons rfl
  | zeroOrMore lazy => exact all_cons (congrArg Except.ok (readLazy_lazyMark _ lazy h))
  | oneOrMore lazy => exact all_cons (congrArg Except.ok (readLazy_lazyMark _ lazy h))
  | exactly n =>
    refine all_cons ?_
    simpa [read] using readCounts_exactly n rest
  | atLeast n lazy =>
    refine all_cons ?_
    simpa [read] using readCounts_atLeast n lazy h
  | between x y lazy =>
    refine all_cons ?_
    simpa [read] using readCounts_between hq lazy h

theorem suffix_inj {q r : Quantifier} (hq : q.IsWellFormed) (hr : r.IsWellFormed)
    (h : q.suffix = r.suffix) : q = r := by
  -- no property is read, so that any engine will do
  let _ : Property.Engine := default
  have hend : ([] : List Char).head? ≠ some '?' := nofun
  have hread := all_suffix hq hend
  rw [h, all_suffix hr hend, all] at hread
  cases hread
  rfl

theorem all_opening [Property.Engine] {k : GroupKind} (hk : k.IsWellFormed) {rest : List Char}
    (h : rest.head? ≠ some '?') :
    all (k.opening ++ rest) = (all rest).map (opening k :: ·) := by
  cases k with
  | plain => exact all_cons rfl
  | capture => exact all_cons (readOpening_capture h)
  | named name =>
    refine all_cons ?_
    simpa [read] using readOpening_named hk rest
  | look l => cases l <;> exact all_cons rfl

theorem all_leafText [Property.Engine] {n : Node} (hl : n.isLeaf = true) (hw : n.IsWellFormed)
    {rest : List Char} (hd : n.isNumber = true → startsWithDigit rest = false) :
    all (n.leafText ++ rest) = (all rest).map (leaf n :: ·) := by
  cases n with
  | char c =>
    simp only [Node.leafText, Place.escapeChar]
    split
    · exact all_cons (readEscape_special ‹_› rest)
    · exact all_cons (read_plain (Bool.eq_false_iff.mpr ‹_›) rest)
  | atom a =>
    cases a with
    | backspace => exact absurd rfl hw.1
    | nullByte => exact absurd rfl hw.2
    | _ => exact all_cons rfl
  | boundary b => cases b <;> exact all_cons rfl
  | anchor a => cases a <;> exact all_cons rfl
  | control c => exact all_cons (if_pos hw)
  | code form ds =>
    obtain ⟨c, cs, ht, he⟩ := readEscape_code hw rest
    rw [Node.leafText, ht]
    exact all_cons he
  | property negated name =>
    have hp := readProperty_append negated hw rest
    cases negated <;> exact all_cons (by simpa [read, readEscape] using hp)
  | number v => exact all_cons (readEscape_decimal v (hd rfl))
  | namedReference name =>
    have hn := readName_append (fun name ↦ leaf (.namedReference name)) hw rest
    exact all_cons (by simpa [read, readEscape] using hn)
  | set negated items =>
    obtain ⟨cs, ht, hs⟩ := read_class negated hw rest
    rw [Node.leafText, ht]
    exact all_cons hs
  | group k d => cases hl
  | repeated q n => cases hl

end Token

end PatternBuilder

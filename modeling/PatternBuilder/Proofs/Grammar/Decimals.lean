import Mathlib.Data.List.Forall2
import PatternBuilder.Proofs.Grammar.TokenReading

namespace PatternBuilder

namespace Scan

/-- What a text is read as from left to right: a backslash together with all the digits behind it,
a backslash together with any other character, or a character. -/
def units : List Char → List (List Char)
  | [] => []
  | '\\' :: c :: cs =>
    if c.isDigit then ('\\' :: c :: cs.takeWhile Char.isDigit) :: units (cs.dropWhile Char.isDigit)
    else ['\\', c] :: units cs
  | c :: cs => [c] :: units cs
termination_by cs => cs.length
decreasing_by
  all_goals have hle := (List.dropWhile_sublist Char.isDigit (l := cs)).length_le
  all_goals simp only [List.length_cons]
  all_goals omega

def decimal? : List Char → Option (List Char)
  | '\\' :: c :: cs => if c.isDigit then some (c :: cs) else none
  | _ => none

def decimals (cs : List Char) : List (List Char) := (units cs).filterMap decimal?

def endsInDecimal (cs : List Char) : Bool := (units cs).getLast?.any fun u ↦ (decimal? u).isSome

/-- The text is read as the given numbers, whatever stands behind it; `ends` tells whether it must
not be a digit, since the last unit is a number itself. -/
structure Spells (t : List Char) (ns : List Nat) (ends : Bool) : Prop where
  units_append : ∀ rest, (ends = true → startsWithDigit rest = false) →
    units (t ++ rest) = units t ++ units rest
  decimals_eq : decimals t = ns.map Quantifier.decimal
  endsInDecimal_eq : endsInDecimal t = ends

variable {t u : List Char} {ns ms : List Nat} {ends ends' : Bool}

theorem units_cons {c : Char} (h : c ≠ '\\') (cs : List Char) :
    units (c :: cs) = [c] :: units cs := by
  rw [units]
  exact fun _ _ hc _ ↦ h hc

theorem units_escape {c : Char} (h : c.isDigit = false) (cs : List Char) :
    units ('\\' :: c :: cs) = ['\\', c] :: units cs := by
  rw [units, h]
  rfl

theorem units_number (n : Nat) {rest : List Char} (h : startsWithDigit rest = false) :
    units ('\\' :: (Quantifier.decimal n ++ rest)) =
      ('\\' :: Quantifier.decimal n) :: units rest := by
  obtain ⟨c, cs, hn⟩ := List.exists_cons_of_ne_nil (Token.decimal_ne_nil n)
  have hd : ∀ d ∈ c :: cs, d.isDigit = true := fun d hd ↦
    Token.isDigit_of_mem_decimal (n := n) (hn ▸ hd)
  have hcs : ∀ d ∈ cs, d.isDigit = true := fun d hm ↦ hd d (List.mem_cons_of_mem c hm)
  rw [hn, List.cons_append, units, if_pos (hd c List.mem_cons_self), Token.takeWhile_digits hcs h,
    Token.dropWhile_digits hcs h]

theorem units_ne_nil (h : t ≠ []) : units t ≠ [] := by
  cases t with
  | nil => exact absurd rfl h
  | cons c cs =>
    rw [units.eq_def]
    split
    · contradiction
    · split <;> simp
    · simp

theorem decimal?_number (n : Nat) :
    decimal? ('\\' :: Quantifier.decimal n) = some (Quantifier.decimal n) := by
  obtain ⟨c, cs, hn⟩ := List.exists_cons_of_ne_nil (Token.decimal_ne_nil n)
  have hd : c.isDigit = true := Token.isDigit_of_mem_decimal (n := n) (hn ▸ List.mem_cons_self)
  rw [hn, decimal?, if_pos hd]

theorem endsInDecimal_append (hsplit : units (t ++ u) = units t ++ units u) (hu : u ≠ []) :
    endsInDecimal (t ++ u) = endsInDecimal u := by
  rw [endsInDecimal, hsplit, List.getLast?_append]
  cases hl : (units u).getLast? with
  | none => exact absurd (List.getLast?_eq_none_iff.mp hl) (units_ne_nil hu)
  | some v => simp [endsInDecimal, hl]

theorem startsWithDigit_append (h : u ≠ []) (rest : List Char) :
    startsWithDigit (u ++ rest) = startsWithDigit u := by
  cases u with
  | nil => exact absurd rfl h
  | cons c u => rfl

namespace Spells

theorem of_unit {o : Option Nat} (hd : decimal? t = o.map Quantifier.decimal)
    (h : ∀ rest, (o.isSome = true → startsWithDigit rest = false) →
      units (t ++ rest) = t :: units rest) : Spells t o.toList o.isSome := by
  have ht : units t = [t] := by
    have hnil := h [] fun _ ↦ rfl
    rwa [List.append_nil, units] at hnil
  refine ⟨fun rest hr ↦ ?_, ?_, ?_⟩
  · rw [ht, h rest hr, List.singleton_append]
  · rw [decimals, ht]
    cases o <;> simp [hd]
  · rw [endsInDecimal, ht, List.getLast?_singleton, Option.any_some, hd, Option.isSome_map]

theorem nil : Spells [] [] false := by
  refine ⟨fun rest _ ↦ ?_, ?_, ?_⟩ <;> simp [units, decimals, endsInDecimal]

/-- A number must not be followed by a digit, nor by nothing, as a digit might come then. -/
theorem append (ht : Spells t ns ends) (hu : Spells u ms ends')
    (h : ends = true → u ≠ [] ∧ startsWithDigit u = false) : Spells (t ++ u) (ns ++ ms) ends' := by
  have hsplit := ht.units_append u fun he ↦ (h he).2
  refine ⟨fun rest hr ↦ ?_, ?_, ?_⟩
  · have hfront : ends = true → startsWithDigit (u ++ rest) = false := fun he ↦ by
      rw [startsWithDigit_append (h he).1, (h he).2]
    rw [hsplit, List.append_assoc, List.append_assoc, ht.units_append _ hfront,
      hu.units_append rest hr]
  · rw [decimals, hsplit, List.filterMap_append, List.map_append, ← ht.decimals_eq,
      ← hu.decimals_eq]
    rfl
  · by_cases hne : u = []
    · subst hne
      have he : ends = false := Bool.eq_false_iff.mpr fun he ↦ (h he).1 rfl
      rw [List.append_nil, ht.endsInDecimal_eq, he, ← hu.endsInDecimal_eq]
      exact nil.endsInDecimal_eq.symm
    · rw [endsInDecimal_append hsplit hne, hu.endsInDecimal_eq]

theorem append_of_silent (ht : Spells t ns false) (hu : Spells u ms ends) :
    Spells (t ++ u) (ns ++ ms) ends := ht.append hu nofun

theorem plain (h : '\\' ∉ t) : Spells t [] false := by
  induction t with
  | nil => exact nil
  | cons c t ih =>
    have hc : Spells [c] [] false := of_unit (o := none) (by simp [decimal?]) fun rest _ ↦
      units_cons (List.ne_of_not_mem_cons h).symm rest
    exact hc.append_of_silent (ih (List.not_mem_of_not_mem_cons h))

theorem escape {c : Char} (h : c.isDigit = false) : Spells ['\\', c] [] false :=
  of_unit (o := none) (by rw [decimal?, h]; rfl) fun rest _ ↦ units_escape h rest

theorem number (n : Nat) : Spells ('\\' :: Quantifier.decimal n) [n] true :=
  of_unit (o := some n) (decimal?_number n) fun _ hr ↦ units_number n (hr rfl)

/-- Inside of brackets a number at the end is cut off from what stands behind. -/
theorem enclosed (before : List Char) (h : Spells t ns ends) (last : Char)
    (hb : '\\' ∉ before) (hl : last.isDigit = false ∧ last ≠ '\\') :
    Spells (before ++ t ++ [last]) ns false := by
  have hlast : Spells [last] [] false := plain (by simpa using hl.2.symm)
  have hend : Spells (t ++ [last]) (ns ++ []) false :=
    h.append hlast fun _ ↦ ⟨List.cons_ne_nil _ _, hl.1⟩
  have hall := (plain hb).append_of_silent hend
  rwa [List.nil_append, List.append_nil, ← List.append_assoc] at hall

theorem flatMap {α : Type} {l : List α} {f : α → List Char} (h : ∀ x ∈ l, Spells (f x) [] false) :
    Spells (l.flatMap f) [] false :=
  flatMap_of_append (P := (Spells · [] false)) nil append_of_silent h

theorem group (h : Spells t ns ends) : Spells (groupText t) ns false :=
  h.enclosed ['(', '?', ':'] ')' (by decide) (by decide)

theorem bracket (negated : Bool) (h : Spells t ns ends) :
    Spells (classText negated t) ns false := by
  cases negated with
  | false => exact h.enclosed ['['] ']' (by decide) (by decide)
  | true => exact h.enclosed ['[', '^'] ']' (by decide) (by decide)

theorem escapeChar (p : Place) (c : Char) : Spells (p.escapeChar c) [] false := by
  unfold Place.escapeChar
  split
  · exact escape (Token.isDigit_special ‹_›)
  · rename_i hs
    refine plain fun hm ↦ hs ?_
    rw [← List.mem_singleton.mp hm]
    cases p <;> rfl

theorem rangeBody (first last : Char) : Spells (rangeBody first last) [] false :=
  (escapeChar .bracket first).append_of_silent
    ((plain (t := ['-']) (by decide)).append_of_silent (escapeChar .bracket last))

theorem alternation {ts : List (List Char)} {nss : List (List Nat)}
    (h : List.Forall₂ (fun t ns ↦ ∃ ends, Spells t ns ends) ts nss) :
    ∃ ends, Spells (alternation ts) nss.flatten ends := by
  induction h with
  | nil => exact ⟨false, nil⟩
  | @cons t ns ts nss ht hts ih =>
    cases hts with
    | nil => simpa [PatternBuilder.alternation] using ht
    | @cons u ms ts nss hu hts =>
      obtain ⟨ends, ht⟩ := ht
      obtain ⟨ends', hrest⟩ := ih
      have hbar := (plain (t := ['|']) (by decide)).append_of_silent hrest
      exact ⟨ends', ht.append hbar fun _ ↦ ⟨List.cons_ne_nil _ _, rfl⟩⟩

end Spells

end Scan

end PatternBuilder

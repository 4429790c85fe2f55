import Mathlib.Logic.Function.Basic
import PatternBuilder.Text.Escape

namespace PatternBuilder

/-- What an escaped text is read as: a character by itself, or one together with the backslash in
front of it. -/
inductive EscapeUnit where
  | plain (c : Char)
  | escaped (c : Char)
  deriving DecidableEq

namespace EscapeUnit

def char : EscapeUnit → Char
  | plain c | escaped c => c

def text : EscapeUnit → List Char
  | plain c => [c]
  | escaped c => ['\\', c]

def read? : List Char → Option (List EscapeUnit)
  | [] => some []
  | ['\\'] => none
  | '\\' :: c :: cs => (read? cs).map (escaped c :: ·)
  | c :: cs => (read? cs).map (plain c :: ·)

variable {u : EscapeUnit} {us : List EscapeUnit} {cs : List Char}

theorem read?_text_append (h : u ≠ plain '\\') (cs : List Char) :
    read? (u.text ++ cs) = (read? cs).map (u :: ·) := by
  cases u with
  | escaped c => rfl
  | plain c =>
    have hc : c ≠ '\\' := by
      rintro rfl
      exact h rfl
    rw [text, List.singleton_append, read?]
    · exact fun hc' _ ↦ hc hc'
    · exact fun _ _ hc' _ ↦ hc hc'

theorem read?_flatMap_text (h : plain '\\' ∉ us) : read? (us.flatMap text) = some us := by
  induction us with
  | nil => rfl
  | cons u us ih =>
    rw [List.mem_cons, not_or] at h
    rw [List.flatMap_cons, read?_text_append (Ne.symm h.1), ih h.2]
    rfl

theorem flatMap_text_of_read? (h : read? cs = some us) : us.flatMap text = cs := by
  fun_induction read? cs generalizing us with
  | case1 =>
    cases h
    rfl
  | case2 => cases h
  | case3 c cs ih | case4 c cs _ _ ih =>
    obtain ⟨vs, hvs, rfl⟩ := Option.map_eq_some_iff.mp h
    rw [List.flatMap_cons, ih hvs]
    rfl

end EscapeUnit

namespace Place

def pushEscaped (p : Place) (out : String) (c : Char) : String :=
  if p.isSpecial c then (out.push '\\').push c else out.push c

def unit (p : Place) (c : Char) : EscapeUnit :=
  if p.isSpecial c then .escaped c else .plain c

def Hides (p : Place) (us : List EscapeUnit) : Prop :=
  ∀ c, (.plain c ∈ us → p.isSpecial c = false) ∧ (.escaped c ∈ us → p.isSpecial c = true)

variable {p : Place} {us : List EscapeUnit}

theorem toList_pushEscaped (p : Place) (out : String) (c : Char) :
    (p.pushEscaped out c).toList = out.toList ++ p.escapeChar c := by
  unfold pushEscaped escapeChar
  split <;> simp

theorem toList_foldl_pushEscaped (p : Place) (out : String) (cs : List Char) :
    (cs.foldl p.pushEscaped out).toList = out.toList ++ p.escape cs := by
  induction cs generalizing out with
  | nil => simp [escape]
  | cons c cs ih =>
    rw [List.foldl_cons, ih, toList_pushEscaped, List.append_assoc]
    rfl

theorem escape_append (p : Place) (cs ds : List Char) :
    p.escape (cs ++ ds) = p.escape cs ++ p.escape ds :=
  List.flatMap_append

theorem isSpecial_backslash (p : Place) : p.isSpecial '\\' = true := by
  cases p <;> decide

theorem text_unit (p : Place) (c : Char) : (p.unit c).text = p.escapeChar c := by
  unfold unit escapeChar
  split <;> rfl

theorem char_unit (p : Place) (c : Char) : (p.unit c).char = c := by
  unfold unit
  split <;> rfl

theorem flatMap_text_map_unit (p : Place) (cs : List Char) :
    (cs.map p.unit).flatMap EscapeUnit.text = p.escape cs := by
  simp only [List.flatMap_map, text_unit]
  rfl

theorem map_char_map_unit (p : Place) (cs : List Char) :
    (cs.map p.unit).map EscapeUnit.char = cs := by
  simp [Function.comp_def, char_unit]

theorem hides_map_unit (p : Place) (cs : List Char) : p.Hides (cs.map p.unit) := by
  intro c
  simp only [List.mem_map, unit]
  constructor
  · rintro ⟨d, -, hd⟩
    split at hd <;> cases hd
    exact Bool.eq_false_iff.mpr ‹_›
  · rintro ⟨d, -, hd⟩
    split at hd <;> cases hd
    assumption

theorem Hides.map_unit_map_char (h : p.Hides us) : (us.map EscapeUnit.char).map p.unit = us := by
  rw [List.map_map]
  refine (List.map_congr_left fun u hu ↦ ?_).trans (List.map_id us)
  cases u with
  | plain c => exact if_neg (Bool.eq_false_iff.mp ((h c).1 hu))
  | escaped c => exact if_pos ((h c).2 hu)

theorem read?_escape (p : Place) (cs : List Char) :
    EscapeUnit.read? (p.escape cs) = some (cs.map p.unit) := by
  rw [← flatMap_text_map_unit]
  -- a backslash by itself would put the reader out of step, but it is special
  refine EscapeUnit.read?_flatMap_text fun hplain ↦ ?_
  have hs := (hides_map_unit p cs '\\').1 hplain
  rw [p.isSpecial_backslash] at hs
  cases hs

theorem escape_eq_iff {cs ds : List Char} : p.escape cs = ds ↔
    ∃ us, EscapeUnit.read? ds = some us ∧ us.map EscapeUnit.char = cs ∧ p.Hides us := by
  constructor
  · rintro rfl
    exact ⟨_, read?_escape p cs, map_char_map_unit p cs, hides_map_unit p cs⟩
  · rintro ⟨us, hread, rfl, hh⟩
    rw [← flatMap_text_map_unit, hh.map_unit_map_char, EscapeUnit.flatMap_text_of_read? hread]

theorem escapeText_eq_iff {s t : String} : p.escapeText s = t ↔
    ∃ us, EscapeUnit.read? t.toList = some us ∧ us.map EscapeUnit.char = s.toList ∧
      p.Hides us := by
  rw [← String.toList_inj, toList_escapeText, escape_eq_iff]

theorem escapeText_eq_foldl (p : Place) (s : String) :
    p.escapeText s = s.toList.foldl p.pushEscaped "" := by
  rw [← String.toList_inj, toList_escapeText, toList_foldl_pushEscaped]
  rfl

theorem escapeText_injective (p : Place) : Function.Injective p.escapeText := by
  intro s t h
  obtain ⟨us, hread, hs, -⟩ := escapeText_eq_iff.mp h
  obtain ⟨vs, hread', ht, -⟩ := escapeText_eq_iff.mp (rfl : p.escapeText t = _)
  obtain rfl : us = vs := Option.some.inj (hread.symm.trans hread')
  exact String.toList_inj.mp (hs.symm.trans ht)

theorem escapeText_append (p : Place) (s t : String) :
    p.escapeText (s ++ t) = p.escapeText s ++ p.escapeText t := by
  rw [← String.toList_inj, String.toList_append, toList_escapeText, toList_escapeText,
    toList_escapeText, String.toList_append, escape_append]

/-- Escaping a text is escaping its characters one by one, whether or not there is anything to
escape. What comes out is what is read as the text once the backslashes are taken off, with just
the special characters behind them. -/
theorem escapeText_loses_nothing (p : Place) :
    (∀ s, p.escapeText s = s.toList.foldl p.pushEscaped "") ∧
      (∀ s t, p.escapeText s = t ↔ ∃ us, EscapeUnit.read? t.toList = some us ∧
        us.map EscapeUnit.char = s.toList ∧ p.Hides us) ∧
      Function.Injective p.escapeText ∧
      ∀ s t, p.escapeText (s ++ t) = p.escapeText s ++ p.escapeText t :=
  ⟨p.escapeText_eq_foldl, fun _ _ ↦ escapeText_eq_iff, p.escapeText_injective,
    p.escapeText_append⟩

end Place

end PatternBuilder

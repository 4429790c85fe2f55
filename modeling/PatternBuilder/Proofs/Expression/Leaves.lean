import PatternBuilder.Proofs.Element.Validity
import PatternBuilder.Proofs.Expression.Heads
import PatternBuilder.Proofs.Expression.Operations

namespace PatternBuilder

namespace Element

def isLiteral : Element → Bool
  | char _ | string _ | range _ _ | anyOfChars _ | anythingButChars _ | anythingButString _
  | anythingButRange _ _ | controlChar _ | code _ _ | property _ _ => true
  | _ => false

def isLeaf : Element → Bool
  | atom _ | boundary _ => true
  | e => e.isLiteral || e.isReference

end Element

namespace Literal

theorem ofText_valid [Property.Engine] {s : String} (h : s.isEmpty = false) :
    (ofText s).isLiteral = true ∧ (ofText s).IsValid := by
  have hs : s.toList ≠ [] := by simpa using h
  unfold ofText
  split
  · exact ⟨rfl, trivial⟩
  · rename_i hc
    refine ⟨rfl, ?_⟩
    match hl : s.toList with
    | [] => exact absurd hl hs
    | [c] => exact absurd hl (hc c)
    | _ :: _ :: _ => simp [Element.IsValid, hl]

theorem element_eq_ok [Property.Engine] {l : Literal} {el : Element} (h : l.element = .ok el) :
    el.isLiteral = true ∧ el.IsValid := by
  cases l with
  | char c =>
    cases h
    exact ⟨rfl, trivial⟩
  | string s =>
    obtain ⟨hs, rfl⟩ := ite_error_eq_ok.mp h
    exact ofText_valid (Bool.eq_false_iff.mpr hs)
  | range a b | anythingButRange a b =>
    obtain ⟨hab, rfl⟩ := ite_error_eq_ok.mp h
    exact ⟨rfl, Char.not_le.mp hab⟩
  | anyOfChars s | anythingButChars s | anythingButString s =>
    obtain ⟨hs, rfl⟩ := ite_error_eq_ok.mp h
    exact ⟨rfl, fun hn ↦ hs (String.isEmpty_iff.mpr hn)⟩
  | controlChar c =>
    obtain ⟨hc, rfl⟩ := ite_ok_eq_ok.mp h
    exact ⟨rfl, isUpper_toUpper hc⟩
  | code form digits | property negated name =>
    obtain ⟨hp, rfl⟩ := ite_ok_eq_ok.mp h
    exact ⟨rfl, hp⟩

end Literal

namespace Element

variable {el : Element}

/-- What is known of an element for characters that an argument gives: a host takes it as it is. -/
structure IsVerbatim (e : Element) : Prop where
  isLeaf : e.isLeaf = true
  isReference : e.isReference = false
  isQuantifiable : e.isQuantifiable = true
  relocate : ∀ options offset, e.relocate options offset = e

theorem isVerbatim_of_isLiteral (h : el.isLiteral = true) : el.IsVerbatim := by
  cases el with
  | char _ | string _ | range _ _ | anyOfChars _ | anythingButChars _ | anythingButString _
  | anythingButRange _ _ | controlChar _ | code _ _ | property _ _ =>
    exact ⟨rfl, rfl, rfl, fun _ _ ↦ rfl⟩
  | _ => cases h

/-- What is known of an element that opens no group, sets no anchor and has nothing below it. -/
structure IsBare (e : Element) : Prop where
  head : e.head = e
  children : e.children = []
  isQuantified : e.isQuantified = false
  group? : e.group? = none
  anchor? : e.anchor? = none
  adopt : ∀ r : Registry, r.adopt e = .ok r

theorem isBare_of_isLeaf (h : el.isLeaf = true) : el.IsBare := by
  cases el with
  | anchor _ | noop | quantified _ _ | composite _ _ | subexpression _ => cases h
  | _ => exact ⟨rfl, rfl, rfl, rfl, rfl, fun _ ↦ rfl⟩

theorem heads_of_isLeaf (h : el.isLeaf = true) : heads [el] = [el] := by
  have hbare := isBare_of_isLeaf h
  rw [heads_singleton, hbare.head, hbare.children, heads_nil]

end Element

def Call.leaf? [Property.Engine] : Call → Option Element
  | atom a => some (.atom a)
  | boundary b => some (.boundary b)
  | literal l => l.element.toOption
  | backreference i => some (.backreference i)
  | namedBackreference name => some (.namedBackreference name)
  | _ => none

variable {c : Call} {el : Element}

theorem toOption_eq_some {α ε : Type} {x : Except ε α} {a : α} :
    x.toOption = some a ↔ x = .ok a := by
  cases x <;> simp [Except.toOption]

theorem Call.isLeaf_of_leaf? [Property.Engine] (h : c.leaf? = some el) : el.isLeaf = true := by
  cases c with
  | literal l =>
    have hel := (Literal.element_eq_ok (toOption_eq_some.mp h)).1
    exact (Element.isVerbatim_of_isLiteral hel).isLeaf
  | atom a | boundary b | backreference i | namedBackreference name =>
    cases h
    rfl
  | _ => cases h

theorem Call.isValid_of_leaf? [Property.Engine] (h : c.leaf? = some el)
    (hr : el.isReference = false) :
    el.IsValid := by
  cases c with
  | literal l => exact (Literal.element_eq_ok (toOption_eq_some.mp h)).2
  | atom a | boundary b =>
    cases h
    trivial
  | backreference i | namedBackreference name =>
    cases h
    cases hr
  | _ => cases h

namespace Expression

variable {e e' : Expression}

def Finds (e : Expression) : Element → Prop
  | .backreference i => 0 < i ∧ i ≤ e.captureCount
  | .namedBackreference name => name ∈ e.groupNames
  | _ => True

theorem finds_of_isReference (h : el.isReference = false) (e : Expression) : e.Finds el := by
  cases el <;> trivial

theorem apply_leaf_eq_ok [Property.Engine] (hc : c.leaf? = some el) :
    e.apply c = .ok e' ↔
      e.level.Admits el ∧ e.Finds el ∧ e' = (e.push el).setUnicodeFor el := by
  cases c with
  | atom a =>
    cases hc
    constructor
    · rintro h
      cases h
      exact ⟨.inr rfl, trivial, rfl⟩
    · rintro ⟨-, -, rfl⟩
      rfl
  | boundary b =>
    cases hc
    exact pushChecked_eq_ok.trans (and_congr_right fun _ ↦ (and_iff_right trivial).symm)
  | literal l =>
    have hl := toOption_eq_some.mp hc
    have hel := Element.isVerbatim_of_isLiteral (Literal.element_eq_ok hl).1
    have hf := finds_of_isReference hel.isReference e
    refine addLiteral_eq_ok.trans ?_
    constructor
    · rintro ⟨el', hl', rfl⟩
      obtain rfl : el = el' := Except.ok.inj (hl.symm.trans hl')
      exact ⟨.inr hel.isQuantifiable, hf, rfl⟩
    · rintro ⟨-, -, rfl⟩
      exact ⟨el, hl, rfl⟩
  | backreference i =>
    cases hc
    refine backreference_eq_ok.trans ?_
    constructor
    · rintro ⟨hpos, hle, rfl⟩
      exact ⟨.inr rfl, ⟨hpos, hle⟩, rfl⟩
    · rintro ⟨-, ⟨hpos, hle⟩, rfl⟩
      exact ⟨hpos, hle, rfl⟩
  | namedBackreference name =>
    cases hc
    exact namedBackreference_eq_ok.trans (and_iff_right (.inr rfl)).symm
  | _ => cases hc

end Expression

end PatternBuilder

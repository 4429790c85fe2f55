import PatternBuilder.Proofs.Expression.Tree

namespace PatternBuilder

namespace SpliceOptions

def keeping (scope : String) : SpliceOptions := ⟨scope, false, false⟩

def around (outer inner : SpliceOptions) : SpliceOptions where
  scope := outer.scope ++ inner.scope
  ignoreFlags := outer.ignoreFlags || inner.ignoreFlags
  ignoreAnchors := outer.ignoreAnchors || inner.ignoreAnchors

def inScope (scope : String) (options : SpliceOptions) : SpliceOptions :=
  { options with scope := scope ++ options.scope }

end SpliceOptions

def Call.relocate (scope : String) (offset : Nat) : Call → Call
  | backreference index => backreference (index + offset)
  | namedBackreference name => namedBackreference (scope ++ name)
  | openComposite kind => openComposite (kind.inScope scope)
  | splice other options => splice other (options.inScope scope)
  | c => c

namespace Element

variable (options outer inner : SpliceOptions) (offset : Nat)

theorem relocateAll_append (es fs : List Element) :
    relocateAll options offset (es ++ fs) =
      relocateAll options offset es ++ relocateAll options offset fs := by
  rw [relocateAll_eq_map, List.map_append, ← relocateAll_eq_map, ← relocateAll_eq_map]

theorem relocate_quantifiedBy (e : Element) (q : Option Quantifier) :
    (e.quantifiedBy q).relocate options offset = (e.relocate options offset).quantifiedBy q := by
  cases q <;> rfl

theorem relocateAll_singleton (e : Element) :
    relocateAll options offset [e] = [e.relocate options offset] := rfl

theorem relocateAll_relocateAll_of_forall {base : Nat} {es : List Element}
    (h : ∀ e ∈ es, (e.relocate inner offset).relocate outer base =
      e.relocate (outer.around inner) (base + offset)) :
    relocateAll outer base (relocateAll inner offset es) =
      relocateAll (outer.around inner) (base + offset) es := by
  rw [relocateAll_eq_map, relocateAll_eq_map, relocateAll_eq_map, List.map_map]
  exact List.map_congr_left h

theorem relocate_relocate (base : Nat) (e : Element) :
    (e.relocate inner offset).relocate outer base =
      e.relocate (outer.around inner) (base + offset) := by
  induction e with
  | anchor a =>
    cases hi : inner.ignoreAnchors <;> cases ho : outer.ignoreAnchors <;>
      simp [relocate, SpliceOptions.around, hi, ho]
  | backreference i =>
    simp only [relocate]
    rw [Nat.add_assoc, Nat.add_comm offset]
  | namedBackreference name => simp [relocate, SpliceOptions.around, String.append_assoc]
  | quantified q e ih => rw [relocate, relocate, relocate, ih]
  | composite kind es ih =>
    rw [relocate_composite, relocate_composite, relocate_composite,
      relocateAll_relocateAll_of_forall outer inner offset ih]
    cases kind <;> simp [Composite.inScope, SpliceOptions.around, String.append_assoc]
  | subexpression es ih =>
    rw [relocate, relocate, relocate, relocateAll_relocateAll_of_forall outer inner offset ih]
  | _ => rfl

theorem relocateAll_relocateAll (base : Nat) (es : List Element) :
    relocateAll outer base (relocateAll inner offset es) =
      relocateAll (outer.around inner) (base + offset) es :=
  relocateAll_relocateAll_of_forall outer inner offset fun e _ ↦
    relocate_relocate outer inner offset base e

theorem relocateAll_eq_self {es : List Element} (h : ∀ e ∈ es, e.relocate options offset = e) :
    relocateAll options offset es = es := by
  rw [relocateAll_eq_map]
  exact (List.map_congr_left h).trans (List.map_id es)

theorem relocate_keeping_empty (e : Element) : e.relocate (.keeping "") 0 = e := by
  induction e with
  | anchor a => rfl
  | backreference i => rfl
  | namedBackreference name => simp [relocate, SpliceOptions.keeping]
  | quantified q e ih => rw [relocate, ih]
  | composite kind es ih =>
    rw [relocate_composite, relocateAll_eq_self _ _ ih]
    cases kind <;> simp [Composite.inScope, SpliceOptions.keeping]
  | subexpression es ih => rw [relocate, relocateAll_eq_self _ _ ih]
  | _ => rfl

theorem any_isUnicodeOnly_relocate (ns : List Element) :
    (ns.map (relocate options offset)).any isUnicodeOnly = ns.any isUnicodeOnly := by
  rw [List.any_map]
  exact congrArg (List.any ns) (funext fun n ↦ (moved_relocate options offset n).isUnicodeOnly)

theorem requiresUnicode_relocate (e : Element) :
    (e.relocate options offset).requiresUnicode = e.requiresUnicode := by
  rw [requiresUnicode, nodes_relocate, any_isUnicodeOnly_relocate, requiresUnicode]

end Element

variable (scope : String) (offset : Nat)

theorem Call.leaf?_relocate [Property.Engine] {c : Call} {el : Element} (hc : c.leaf? = some el) :
    (c.relocate scope offset).leaf? = some (el.relocate (.keeping scope) offset) := by
  cases c with
  | literal l =>
    have hel := (Literal.element_eq_ok (toOption_eq_some.mp hc)).1
    rw [(Element.isVerbatim_of_isLiteral hel).relocate]
    exact hc
  | atom a | boundary b | backreference i | namedBackreference name =>
    cases hc
    rfl
  | _ => cases hc

def Level.relocate (l : Level) : Level :=
  { l with elements := Element.relocateAll (.keeping scope) offset l.elements }

def Frame.relocate (f : Frame) : Frame := ⟨f.kind.inScope scope, f.outer.relocate scope offset⟩

namespace Level

variable (l : Level) (e : Element)

theorem relocate_place : (l.place e).relocate scope offset =
    (l.relocate scope offset).place (e.relocate (.keeping scope) offset) := by
  simp [place, relocate, Element.relocateAll_append, Element.relocateAll]

theorem relocate_push : (l.push e).relocate scope offset =
    (l.relocate scope offset).push (e.relocate (.keeping scope) offset) := by
  simp [push, relocate, Element.relocateAll_append, Element.relocateAll,
    Element.relocate_quantifiedBy]

variable {l e} in
theorem Admits.relocate (h : l.Admits e) :
    (l.relocate scope offset).Admits (e.relocate (.keeping scope) offset) :=
  h.imp_right (Element.moved_relocate (.keeping scope) offset e).isQuantifiable.trans

end Level

end PatternBuilder

import Mathlib.Data.List.Forall2
import PatternBuilder.Element.Nodes
import PatternBuilder.Proofs.Grammar.Writing

namespace PatternBuilder

/-- Texts stand for lists, in such a way that this can be followed through a choice, whose own text
is a bracketed one. A bracket class stands for nothing, whatever it is filled with. -/
structure ReadsChoices {β : Type} (Stands Bracketed : List Char → List β → Prop)
    (Fills : List Char → Prop) : Prop where
  stands : ∀ {t bs}, Bracketed t bs → Stands t bs
  group : ∀ {t bs}, Stands t bs → Bracketed (groupText t) bs
  bracket : ∀ negated t, Fills t → Bracketed (classText negated t) []
  alternation : ∀ {ts bss}, List.Forall₂ Stands ts bss → Stands (alternation ts) bss.flatten
  exclusion : ∀ {t u bs}, Stands t bs → Bracketed u [] →
    Stands (Lookaround.notAhead.opening ++ t ++ ')' :: u) bs
  nil : Fills []
  append : ∀ {t u}, Fills t → Fills u → Fills (t ++ u)
  hyphen : Fills ['-']
  escape : ∀ c ∈ ['b', 's', 'S'], Fills ['\\', c]
  escapeChar : ∀ c, Fills (Place.bracket.escapeChar c)

namespace ReadsChoices

open Element

variable {β : Type} {Stands Bracketed : List Char → List β → Prop} {Fills : List Char → Prop}
variable {f : Element → Option β} {es : List Element}

theorem classBody (hr : ReadsChoices Stands Bracketed Fills) {e : Element} {body : List Char}
    (h : e.classBody? = some body) : Fills body := by
  cases e with
  | char c =>
    cases h
    exact hr.escapeChar c
  | range a b =>
    cases h
    exact hr.append (hr.escapeChar a) (hr.append hr.hyphen (hr.escapeChar b))
  | anyOfChars s =>
    cases h
    exact flatMap_of_append hr.nil hr.append fun c _ ↦ hr.escapeChar c
  | atom a =>
    cases a with
    | backspace =>
      cases h
      exact hr.escape 'b' List.mem_cons_self
    | _ => cases h
  | _ => cases h

theorem fused (hr : ReadsChoices Stands Bracketed Fills) (es : List Element) :
    Fills (Piece.fused (pieces es)) := by
  refine flatMap_of_append hr.nil hr.append fun p _ ↦ ?_
  cases h : p.element.classBody? with
  | none => exact hr.nil
  | some body => exact hr.classBody h

/-- Members that go into a bracket class stand for nothing, so that the others stand for all. -/
theorem exists_unfused (hf : ∀ e : Element, e.isFusable = true → e.nodes.filterMap f = [])
    (h : ∀ e ∈ es, Stands e.text (e.nodes.filterMap f)) :
    ∃ bss, List.Forall₂ Stands (Piece.unfused (pieces es)) bss ∧
      bss.flatten = (nodesAll es).filterMap f := by
  induction es with
  | nil => exact ⟨[], .nil, rfl⟩
  | cons e es ih =>
    obtain ⟨bss, hbss, hflat⟩ := ih fun f hf ↦ h f (List.mem_cons_of_mem e hf)
    rw [nodesAll, List.filterMap_append, ← hflat, pieces, Piece.unfused, List.filter_cons]
    cases hb : e.classBody? with
    | none => exact ⟨e.nodes.filterMap f :: bss, .cons (h e List.mem_cons_self) hbss, rfl⟩
    | some body =>
      rw [hf e (by rw [← isSome_classBody?, hb]; rfl)]
      exact ⟨bss, hbss, rfl⟩

theorem anyOf (hr : ReadsChoices Stands Bracketed Fills)
    (hf : ∀ e : Element, e.isFusable = true → e.nodes.filterMap f = [])
    (h : ∀ e ∈ es, Stands e.text (e.nodes.filterMap f)) :
    Bracketed (Piece.anyOf (pieces es)) ((nodesAll es).filterMap f) := by
  obtain ⟨bss, hbss, hflat⟩ := exists_unfused hf h
  have hbody := hr.fused es
  rw [← hflat, Piece.anyOf]
  generalize Piece.unfused (pieces es) = alternatives at hbss
  generalize Piece.fused (pieces es) = body at hbody
  cases hbss with
  | nil => exact hr.bracket false body hbody
  | cons ht hts =>
    cases body with
    | nil => exact hr.group (hr.alternation (.cons ht hts))
    | cons c body =>
      have hlast : List.Forall₂ Stands [classText false (c :: body)] [[]] :=
        .cons (hr.stands (hr.bracket false _ hbody)) .nil
      have hall := hr.alternation (List.rel_append (.cons ht hts) hlast)
      rw [List.flatten_append, List.flatten_singleton, List.append_nil] at hall
      exact hr.group hall

theorem anythingBut (hr : ReadsChoices Stands Bracketed Fills)
    (hf : ∀ e : Element, e.isFusable = true → e.nodes.filterMap f = [])
    (h : ∀ e ∈ es, Stands e.text (e.nodes.filterMap f)) :
    Bracketed (Piece.anythingBut (pieces es)) ((nodesAll es).filterMap f) := by
  obtain ⟨bss, hbss, hflat⟩ := exists_unfused hf h
  have hbody := hr.fused es
  rw [← hflat, Piece.anythingBut]
  generalize Piece.unfused (pieces es) = alternatives at hbss
  generalize Piece.fused (pieces es) = body at hbody
  cases hbss with
  | nil => exact hr.bracket true body hbody
  | cons ht hts =>
    have hclass : Bracketed (if body.isEmpty then classText false ['\\', 's', '\\', 'S']
        else classText true body) [] := by
      split
      · refine hr.bracket false _ (hr.append (hr.escape 's' ?_) (hr.escape 'S' ?_)) <;> decide
      · exact hr.bracket true _ hbody
    exact hr.group (hr.exclusion (hr.alternation (.cons ht hts)) hclass)

end ReadsChoices

end PatternBuilder

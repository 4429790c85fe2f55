import Mathlib.Data.List.Basic
import PatternBuilder.Proofs.Element.Joining
import PatternBuilder.Proofs.Grammar.RoundTrip

namespace PatternBuilder

namespace Element

open Node

theorem classBody?_eq (e : Element) :
    e.classBody? = e.classItems?.map fun is ↦ is.flatMap ClassItem.text := by
  cases e with
  | atom a => cases a <;> rfl
  | char c => simp [classBody?, classItems?, ClassItem.text]
  | range a b => simp [classBody?, classItems?, ClassItem.text]
  | anyOfChars s => simp [classBody?, classItems?, Place.escape, List.flatMap_map, ClassItem.text]
  | _ => rfl

theorem items_parts (es : List Element) :
    Part.items (parts es) = es.flatMap fun e ↦ e.classItems?.getD [] := by
  rw [Part.items, parts_eq_map, List.flatMap_map]

theorem fused_pieces (es : List Element) :
    Piece.fused (pieces es) = (Part.items (parts es)).flatMap ClassItem.text := by
  rw [items_parts, Piece.fused, pieces_eq_map, List.flatMap_map, List.flatMap_assoc]
  congr 1
  funext e
  rw [classBody?_eq]
  cases e.classItems? <;> rfl

theorem isWellFormed_classItems {e : Element} (h : ∀ a b, e = .range a b → a ≤ b)
    {is : List ClassItem} (hi : e.classItems? = some is) : ∀ i ∈ is, i.IsWellFormed := by
  cases e with
  | atom a => cases a <;> simp [classItems?] at hi; subst hi; simp [ClassItem.IsWellFormed]
  | char c => simp [classItems?] at hi; subst hi; simp [ClassItem.IsWellFormed]
  | range a b =>
    simp only [classItems?, Option.some.injEq] at hi
    subst hi
    simpa [ClassItem.IsWellFormed] using h a b rfl
  | anyOfChars s =>
    simp only [classItems?, Option.some.injEq] at hi
    subst hi
    simp [ClassItem.IsWellFormed]
  | _ => simp [classItems?] at hi

theorem isWellFormed_items {es : List Element} (h : ∀ a b, .range a b ∈ es → a ≤ b) :
    ∀ i ∈ Part.items (parts es), i.IsWellFormed := by
  intro i hi
  rw [items_parts] at hi
  obtain ⟨e, he, hi⟩ := List.mem_flatMap.mp hi
  cases hc : e.classItems? with
  | none => simp [hc] at hi
  | some is =>
    exact isWellFormed_classItems (fun a b heq ↦ h a b (heq ▸ he)) hc i (by simpa [hc] using hi)

theorem unfused_pieces {es : List Element} (h : ∀ e ∈ es, textAll e.toNodes = e.text) :
    Piece.unfused (pieces es) = (Part.alternatives (parts es)).map textAll := by
  induction es with
  | nil => rfl
  | cons e es ih =>
    have ih := ih fun f hf ↦ h f (List.mem_cons_of_mem e hf)
    simp only [Piece.unfused, Part.alternatives, pieces, parts] at ih ⊢
    have hc : e.classBody?.isNone = e.classItems?.isNone := by
      rw [classBody?_eq, Option.isNone_map]
    cases hn : e.classItems?.isNone with
    | true => simp [hc, hn, ih, h e List.mem_cons_self]
    | false => simp [hc, hn, ih]

theorem sequence_pieces [Property.Engine] {es : List Element} (hw : ∀ e ∈ es, e.IsWellFormed)
    (h : ∀ e ∈ es, textAll e.toNodes = e.text) :
    Piece.sequence (pieces es) = textAll (Part.sequence (parts es)) := by
  induction es with
  | nil => rfl
  | cons e es ih =>
    have h' : ∀ f ∈ es, textAll f.toNodes = f.text := fun f hf ↦ h f (List.mem_cons_of_mem e hf)
    have ih := ih (fun f hf ↦ hw f (List.mem_cons_of_mem e hf)) h'
    have hrest : (pieces es).flatMap Piece.text =
        textAll ((parts es).map Part.nodes).flatten := by
      rw [textAll_flatten, pieces_eq_map, parts_eq_map, List.map_map, List.flatMap_map,
        List.flatMap_map]
      exact List.flatMap_congr fun f hf ↦ (h' f hf).symm
    have he := h e List.mem_cons_self
    simp only [Part.sequence] at ih ⊢
    rw [pieces, Piece.sequence, hrest, ih, parts, List.map_cons, join, textAll_append,
      startsWithDigit_textAll, endsInNumber_toNodes (hw e List.mem_cons_self)]
    congr 1
    split
    · simp [textAll_singleton, text_group, GroupKind.opening, alternation, groupText, he]
    · exact he.symm

theorem text_ne_nil {i : ClassItem} : i.text ≠ [] := by
  have hc (c : Char) : Place.bracket.escapeChar c ≠ [] := by
    unfold Place.escapeChar
    split <;> simp
  cases i with
  | char c => exact hc c
  | range a b => simp [ClassItem.text, rangeBody]
  | atom a => cases a <;> simp [ClassItem.text, Atom.text]

theorem text_anyOf {ps : List Piece} {qs : List Part}
    (hu : Piece.unfused ps = (Part.alternatives qs).map textAll)
    (hf : Piece.fused ps = (Part.items qs).flatMap ClassItem.text) :
    (Part.anyOf qs).text = Piece.anyOf ps := by
  simp only [Part.anyOf, Piece.anyOf, hu, hf]
  cases Part.alternatives qs with
  | nil => exact text_leaf rfl
  | cons ns d =>
    cases Part.items qs with
    | nil => simp [text_group, GroupKind.opening, groupText]
    | cons i is =>
      obtain ⟨c, cs, hi⟩ := List.exists_cons_of_ne_nil (text_ne_nil (i := i))
      simp [text_group, textAll_singleton, text_set, GroupKind.opening, groupText, hi]

theorem text_anythingBut {ps : List Piece} {qs : List Part}
    (hu : Piece.unfused ps = (Part.alternatives qs).map textAll)
    (hf : Piece.fused ps = (Part.items qs).flatMap ClassItem.text) :
    (Part.anythingBut qs).text = Piece.anythingBut ps := by
  simp only [Part.anythingBut, Piece.anythingBut, hu, hf]
  cases Part.alternatives qs with
  | nil => exact text_leaf rfl
  | cons ns d =>
    cases Part.items qs with
    | nil =>
      simp [text_group, textAll_cons, textAll_nil, text_set, GroupKind.opening, groupText,
        alternation, ClassItem.text, Atom.text]
    | cons i is =>
      obtain ⟨c, cs, hi⟩ := List.exists_cons_of_ne_nil (text_ne_nil (i := i))
      simp [text_group, textAll_cons, textAll_nil, text_set, GroupKind.opening, groupText,
        alternation, hi]

theorem text_node [Property.Engine] {es : List Element} (hw : ∀ e ∈ es, e.IsWellFormed)
    (h : ∀ e ∈ es, textAll e.toNodes = e.text) (k : Composite) :
    (k.node (parts es)).text = k.text (pieces es) := by
  have hs := sequence_pieces hw h
  cases k with
  | anyOf => exact text_anyOf (unfused_pieces h) (fused_pieces es)
  | anythingBut => exact text_anythingBut (unfused_pieces h) (fused_pieces es)
  | _ =>
    simp [Composite.node, Composite.text, text_group, GroupKind.opening, alternation, groupText, hs]

/-- An element that may be repeated and is not written as a sequence is a single node. -/
theorem exists_toNodes_eq {e : Element} (hq : e.isQuantifiable = true)
    (hg : e.needsGroup = false) : ∃ n, e.toNodes = [n] := by
  cases e with
  | atom a => cases a <;> exact ⟨_, rfl⟩
  | noop => cases hq
  | string s => cases hg
  | subexpression es => cases hg
  | _ => exact ⟨_, rfl⟩

theorem text_single {e : Element} (hq : e.isQuantifiable = true)
    (h : textAll e.toNodes = e.text) :
    (single e.needsGroup e.toNodes).text = if e.needsGroup then groupText e.text else e.text := by
  cases hg : e.needsGroup with
  | true => simp [single, text_group, GroupKind.opening, alternation, groupText, h]
  | false =>
    obtain ⟨n, hn⟩ := exists_toNodes_eq hq hg
    rw [hn, textAll_singleton] at h
    simp [single, hn, h]

theorem textAll_map_char (cs : List Char) :
    textAll (cs.map Node.char) = Place.literal.escape cs := by
  induction cs with
  | nil => rfl
  | cons c cs ih =>
    rw [List.map_cons, textAll_cons, ih, text_leaf rfl]
    simp [leafText, Place.escape]

theorem flatMap_text_map_char (cs : List Char) :
    (cs.map ClassItem.char).flatMap ClassItem.text = Place.bracket.escape cs := by
  rw [List.flatMap_map]
  rfl

theorem textAll_map_set (cs : List Char) :
    textAll (cs.map fun c ↦ .set true [.char c]) =
      cs.flatMap fun c ↦ classText true (Place.bracket.escapeChar c) := by
  induction cs with
  | nil => rfl
  | cons c cs ih =>
    rw [List.map_cons, textAll_cons, ih, text_set]
    simp [ClassItem.text]

theorem textAll_toNodes [Property.Engine] {e : Element} (h : e.IsWellFormed) :
    textAll e.toNodes = e.text := by
  induction e with
  | atom a => cases a <;> rfl
  | boundary b => cases b <;> rfl
  | anchor a => cases a <;> rfl
  | noop => rfl
  | char c => exact textAll_leaf rfl
  | string s => exact textAll_map_char s.toList
  | range a b => exact (textAll_leaf rfl).trans (by simp [leafText, ClassItem.text, Element.text])
  | anyOfChars s =>
    rw [toNodes, textAll_singleton, text_set, flatMap_text_map_char, Element.text]
  | anythingButChars s =>
    rw [toNodes, textAll_singleton, text_set, flatMap_text_map_char, Element.text]
  | anythingButString s =>
    simp [toNodes, textAll_singleton, text_group, alternation, textAll_map_set, Element.text,
      groupText, GroupKind.opening]
  | anythingButRange a b =>
    exact (textAll_leaf rfl).trans (by simp [leafText, ClassItem.text, Element.text])
  | controlChar c => exact textAll_leaf rfl
  | code form digits => exact textAll_leaf rfl
  | property negated name => cases negated <;> exact textAll_leaf rfl
  | backreference i => exact textAll_leaf rfl
  | namedBackreference name => exact textAll_leaf rfl
  | quantified q e ih =>
    have hq : e.isQuantifiable = true := h.isValid.2.1
    have ih := ih (h.of_mem (by simp [children]))
    rw [toNodes, textAll_singleton, text_repeated, text_single hq ih, Element.text]
  | composite k es ih =>
    rw [toNodes, textAll_singleton, Element.text]
    exact text_node (fun e he ↦ h.of_mem he) (fun e he ↦ ih e he (h.of_mem he)) k
  | subexpression es ih =>
    rw [toNodes, Element.text]
    exact (sequence_pieces (fun e he ↦ h.of_mem he) fun e he ↦ ih e he (h.of_mem he)).symm

end Element

end PatternBuilder

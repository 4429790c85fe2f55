import PatternBuilder.Proofs.Element.NodeText
import PatternBuilder.Proofs.Grammar.HexCodes

namespace PatternBuilder

namespace Element

open Node

theorem isRepeatable_node {k : Composite} (h : k.isLook = false) (ps : List Part) :
    (k.node ps).isRepeatable = true := by
  cases k with
  | anyOf => simp only [Composite.node, Part.anyOf]; split <;> rfl
  | anythingBut => simp only [Composite.node, Part.anythingBut]; split <;> rfl
  | look l => cases h
  | _ => rfl

theorem isRepeatable_single {e : Element} (hq : e.isQuantifiable = true)
    (hr : e.isQuantified = false) : (single e.needsGroup e.toNodes).isRepeatable = true := by
  cases e with
  | atom a => cases a <;> rfl
  | boundary b => cases hq
  | anchor a => cases hq
  | noop => cases hq
  | quantified q e => cases hr
  | composite k es => exact isRepeatable_node (by simpa [isQuantifiable] using hq) (parts es)
  | _ => rfl

variable [Property.Engine]

theorem IsValid.le_of_range {e : Element} (h : e.IsValid) : ∀ a b, e = .range a b → a ≤ b := by
  rintro a b rfl
  exact UInt32.le_of_lt h

theorem le_of_range_mem {es : List Element} (hw : ∀ e ∈ es, e.IsWellFormed) :
    ∀ a b, .range a b ∈ es → a ≤ b := fun a b he ↦ (hw _ he).isValid.le_of_range a b rfl

theorem areWellFormed_alternatives {es : List Element}
    (h : ∀ e ∈ es, AreWellFormed e.toNodes) :
    AreWellFormedBranches (Part.alternatives (parts es)) := by
  rw [areWellFormedBranches_iff]
  intro ns hns
  simp only [Part.alternatives, parts_eq_map, List.mem_map, List.mem_filter] at hns
  obtain ⟨_, ⟨⟨e, he, rfl⟩, -⟩, rfl⟩ := hns
  exact h e he

theorem areWellFormed_sequence {es : List Element} (h : ∀ e ∈ es, AreWellFormed e.toNodes) :
    AreWellFormed (Part.sequence (parts es)) := by
  refine areWellFormed_join fun ns hns ↦ ?_
  simp only [parts_eq_map, List.mem_map] at hns
  obtain ⟨_, ⟨e, he, rfl⟩, rfl⟩ := hns
  exact h e he

theorem isWellFormed_anyOf {es : List Element} (hw : ∀ e ∈ es, e.IsWellFormed)
    (h : ∀ e ∈ es, AreWellFormed e.toNodes) : (Part.anyOf (parts es)).IsWellFormed := by
  have hi := isWellFormed_items (le_of_range_mem hw)
  have ha := areWellFormed_alternatives h
  unfold Part.anyOf
  split
  · exact hi
  · rename_i hd _
    exact ⟨trivial, by simp, hd ▸ ha⟩
  · rename_i ns d i is hd his
    rw [his] at hi
    rw [hd, areWellFormedBranches_iff] at ha
    refine ⟨trivial, by simp, areWellFormedBranches_iff.mpr fun ms hms ↦ ?_⟩
    rcases List.mem_append.mp hms with hms | hms
    · exact ha ms hms
    · rw [List.mem_singleton.mp hms]
      exact areWellFormed_singleton hi

theorem isWellFormed_anythingBut {es : List Element} (hw : ∀ e ∈ es, e.IsWellFormed)
    (h : ∀ e ∈ es, AreWellFormed e.toNodes) : (Part.anythingBut (parts es)).IsWellFormed := by
  have hi := isWellFormed_items (le_of_range_mem hw)
  have ha := areWellFormed_alternatives h
  have hgroup {d : List (List Node)} {s : Node} (hne : d ≠ []) (hd : AreWellFormedBranches d)
      (hs : s.IsWellFormed) : (Node.group .plain [[.group (.look .notAhead) d, s]]).IsWellFormed :=
    areWellFormed_plain ⟨⟨trivial, hne, hd⟩, fun hv ↦ (by cases hv), areWellFormed_singleton hs⟩
  unfold Part.anythingBut
  split
  · exact hi
  · rename_i hd _
    refine hgroup (by simp) (hd ▸ ha) fun i his ↦ ?_
    simp only [List.mem_cons, List.not_mem_nil, or_false] at his
    rcases his with rfl | rfl <;> simp [ClassItem.IsWellFormed]
  · rename_i hd his
    exact hgroup (by simp) (hd ▸ ha) (his ▸ hi)

theorem areWellFormed_toNodes {e : Element} (h : e.IsWellFormed) : AreWellFormed e.toNodes := by
  induction e with
  | atom a => 
    cases a with
    | backspace =>
      refine areWellFormed_singleton fun i hi ↦ ?_
      rw [List.mem_singleton.mp hi]
      simp [ClassItem.IsWellFormed]
    | nullByte => exact areWellFormed_singleton trivial
    | _ => exact areWellFormed_singleton ⟨by decide, by decide⟩
  | boundary b => exact areWellFormed_singleton trivial
  | anchor a => exact areWellFormed_singleton trivial
  | noop => trivial
  | char c => exact areWellFormed_singleton trivial
  | string s =>
    refine areWellFormed_of_forall fun n hn ↦ ?_
    obtain ⟨c, -, rfl⟩ := List.mem_map.mp hn
    exact ⟨trivial, rfl⟩
  | range a b => exact areWellFormed_singleton (isWellFormed_classItems h.isValid.le_of_range rfl)
  | anyOfChars s =>
    exact areWellFormed_singleton (isWellFormed_classItems h.isValid.le_of_range rfl)
  | anythingButChars s =>
    have hs : (anyOfChars s).IsValid := h.isValid
    exact areWellFormed_singleton (isWellFormed_classItems hs.le_of_range rfl)
  | anythingButString s =>
    refine areWellFormed_singleton (areWellFormed_plain (areWellFormed_of_forall fun n hn ↦ ?_))
    obtain ⟨c, -, rfl⟩ := List.mem_map.mp hn
    exact ⟨fun i hi ↦ List.mem_singleton.mp hi ▸ trivial, rfl⟩
  | anythingButRange a b =>
    have hr : (range a b).IsValid := h.isValid
    exact areWellFormed_singleton (isWellFormed_classItems hr.le_of_range rfl)
  | controlChar c =>
    have hc : c.isUpper = true := h.isValid
    refine areWellFormed_singleton ?_
    rw [toUpper_eq_self hc]
    simp [Node.IsWellFormed, isAlpha_eq, hc]
  | code form digits =>
    exact areWellFormed_singleton (CodeForm.isWellFormed_of_isHexOfLength h.isValid)
  | property negated name => exact areWellFormed_singleton h.isValid
  | backreference i => exact areWellFormed_singleton trivial
  | namedBackreference name => exact areWellFormed_singleton h.isValid
  | quantified q e ih =>
    obtain ⟨hq, he, hr⟩ := h.isValid
    have ih := ih (h.of_mem (by simp [children]))
    refine areWellFormed_singleton ⟨hq.isWellFormed, isRepeatable_single he hr, ?_⟩
    cases hg : e.needsGroup with
    | true => exact areWellFormed_plain ih
    | false =>
      obtain ⟨n, hn⟩ := exists_toNodes_eq he hg
      rw [hn] at ih ⊢
      exact ih.1
  | composite k es ih =>
    have hw : ∀ e ∈ es, e.IsWellFormed := fun e he ↦ h.of_mem he
    have ih : ∀ e ∈ es, AreWellFormed e.toNodes := fun e he ↦ ih e he (hw e he)
    have hs := areWellFormed_sequence ih
    refine areWellFormed_singleton ?_
    cases k with
    | anyOf => exact isWellFormed_anyOf hw ih
    | anythingBut => exact isWellFormed_anythingBut hw ih
    | group => exact areWellFormed_plain hs
    | capture => exact ⟨trivial, by simp, hs, trivial⟩
    | namedCapture name => exact ⟨h.isValid, by simp, hs, trivial⟩
    | look l => exact ⟨trivial, by simp, hs, trivial⟩
  | subexpression es ih => exact areWellFormed_sequence fun e he ↦ ih e he (h.of_mem he)

theorem isWellFormed_toDisjunction {es : List Element} (h : ∀ e ∈ es, e.IsWellFormed) :
    (toDisjunction es).IsWellFormed := by
  have hs := areWellFormed_sequence fun e he ↦ areWellFormed_toNodes (h e he)
  unfold toDisjunction
  split
  · exact ⟨by simp, areWellFormed_singleton (areWellFormed_plain trivial), trivial⟩
  · exact ⟨by simp, hs, trivial⟩

theorem text_toDisjunction {es : List Element} (h : ∀ e ∈ es, e.IsWellFormed) :
    (toDisjunction es).text = patternText es := by
  have hs : sequenceText es = textAll (Part.sequence (parts es)) :=
    sequence_pieces h fun e he ↦ textAll_toNodes (h e he)
  unfold toDisjunction patternText
  rw [hs]
  cases Part.sequence (parts es) with
  | nil => rfl
  | cons n ns =>
    obtain ⟨c, cs, ht, -⟩ := n.text_eq_cons
    have hne : textAll (n :: ns) = c :: (cs ++ textAll ns) := by rw [textAll_cons, ht]; rfl
    rw [hne]
    exact hne

/-- Reading the text of elements gives the disjunction that they stand for. -/
theorem read_patternText {es : List Element} (h : ∀ e ∈ es, e.IsWellFormed) :
    Disjunction.read (patternText es) = .ok (toDisjunction es) := by
  rw [← text_toDisjunction h, Disjunction.read_text (isWellFormed_toDisjunction h)]

end Element

end PatternBuilder

import PatternBuilder.Proofs.Element.Collecting
import PatternBuilder.Proofs.Element.ReadBack
import PatternBuilder.Proofs.Expression.Heads
import PatternBuilder.Proofs.Grammar.Marks

namespace PatternBuilder

namespace Node

theorem marksAll_append (ns ms : List Node) : marksAll (ns ++ ms) = marksAll ns ++ marksAll ms := by
  induction ns with
  | nil => rfl
  | cons n ns ih => rw [List.cons_append, marksAll, marksAll, ih, List.append_assoc]

theorem marksAll_singleton (n : Node) : marksAll [n] = n.marks := List.append_nil _

theorem marks_group (k : GroupKind) (d : List (List Node)) :
    (group k d).marks = [group k d].filter isMark ++ d.flatMap marksAll := by
  rw [marks, branchMarks_eq_flatMap]

theorem collects_marksAll : Collects marksAll where
  append := marksAll_append
  plain d := by rw [marksAll_singleton, marks_group]; rfl
  look l d := by rw [marksAll_singleton, marks_group]; rfl
  char _ := rfl
  set _ _ := rfl

end Node

namespace Element

open Node

def isMark (e : Element) : Bool := e.group?.isSome || e.isReference

def marks (es : List Element) : List Element := (nodesAll es).filter isMark

theorem marks_cons (e : Element) (es : List Element) :
    marks (e :: es) = [e].filter isMark ++ marks e.children ++ marks es := by
  simp [marks, nodesAll, nodes_eq_cons e, List.filter_cons]
  split <;> simp

theorem marks_singleton (e : Element) : marks [e] = [e].filter isMark ++ marks e.children := by
  rw [marks_cons, show marks [] = [] from rfl, List.append_nil]

variable {es : List Element}

theorem marks_node (k : Composite) (es : List Element) :
    (k.node (parts es)).marks =
      ([composite k es].filter isMark).flatMap toNodes ++
        es.flatMap fun e ↦ marksAll e.toNodes := by
  cases k with
  | anyOf => exact (marksAll_singleton _).symm.trans (collects_marksAll.anyOf es)
  | anythingBut => exact (marksAll_singleton _).symm.trans (collects_marksAll.anythingBut es)
  | _ =>
    rw [← collects_marksAll.sequence, Composite.node, marks_group, List.flatMap_singleton]
    rfl

theorem flatMap_marks (h : ∀ e ∈ es, marksAll e.toNodes = (marks [e]).flatMap toNodes) :
    (es.flatMap fun e ↦ marksAll e.toNodes) = (marks es).flatMap toNodes := by
  induction es with
  | nil => rfl
  | cons e es ih =>
    have hmarks : marks (e :: es) = marks [e] ++ marks es := by rw [marks_cons, marks_singleton]
    rw [List.flatMap_cons, h e List.mem_cons_self, ih fun f hf ↦ h f (List.mem_cons_of_mem e hf),
      hmarks, List.flatMap_append]

theorem marksAll_toNodes [Property.Engine] {e : Element} (h : e.IsWellFormed) :
    marksAll e.toNodes = (marks [e]).flatMap toNodes := by
  induction e with
  | atom a => cases a <;> rfl
  | string s => exact collects_marksAll.string s
  | anythingButString s => exact collects_marksAll.anythingButString s
  | backreference i =>
    have hi : i ≠ 0 := Nat.pos_iff_ne_zero.mp h.isValid
    have hm : (Node.number i).isMark = true := by
      simp [Node.isMark, Node.group?, Node.reference?, hi]
    rw [toNodes, marksAll_singleton, marks_leaf rfl, List.filter_cons_of_pos hm]
    rfl
  | quantified q e ih =>
    have ih := ih (h.of_mem (by simp [children]))
    rw [toNodes, marksAll_singleton, Node.marks, ← marksAll_singleton, collects_marksAll.single, ih]
    exact congrArg (List.flatMap toNodes) (marks_singleton (.quantified q e)).symm
  | composite k es ih =>
    rw [toNodes, marksAll_singleton, marks_node, marks_singleton, List.flatMap_append,
      flatMap_marks fun e he ↦ ih e he (h.of_mem he)]
    rfl
  | subexpression es ih =>
    rw [toNodes, collects_marksAll.sequence, marks_singleton,
      flatMap_marks fun e he ↦ ih e he (h.of_mem he)]
    rfl
  | _ => rfl

theorem flatMap_marksAll_toDisjunction [Property.Engine] (h : ∀ e ∈ es, e.IsWellFormed) :
    (toDisjunction es).flatMap marksAll = (marks es).flatMap toNodes := by
  rw [← flatMap_marks fun e he ↦ marksAll_toNodes (h e he), collects_marksAll.toDisjunction]

def reference? (e : Element) : Option Element := if e.isReference then some e else none

/-- Whether the text is the place where a group or a reference is written. -/
def StartsAt (e : Element) (cs : List Char) : Prop :=
  e.text <+: cs ∧ e.group? = Scan.opened? cs ∧ e.reference? = Scan.reference? cs

variable [Property.Engine]

theorem exists_node_of_isMark {e : Element} (h : e.IsWellFormed) (hm : e.isMark = true) :
    ∃ n, e.toNodes = [n] ∧ n.group? = e.group? ∧ n.reference? = e.reference? := by
  cases e with
  | backreference i =>
    have hi : i ≠ 0 := Nat.pos_iff_ne_zero.mp h.isValid
    exact ⟨_, rfl, rfl, if_neg hi⟩
  | namedBackreference name => exact ⟨_, rfl, rfl, rfl⟩
  | composite k es =>
    cases k with
    | capture | namedCapture name => exact ⟨_, rfl, rfl, rfl⟩
    | _ => cases hm
  | _ => cases hm

theorem startsAt_of_node {e : Element} (h : e.IsWellFormed) (hm : e.isMark = true) {n : Node}
    (hn : e.toNodes = [n]) {cs : List Char} (hs : n.StartsAt cs) : e.StartsAt cs := by
  obtain ⟨m, hnodes, hg, hr⟩ := exists_node_of_isMark h hm
  obtain rfl : n = m := by simpa [hn] using hnodes
  have ht : n.text = e.text := by rw [← textAll_toNodes h, hn, textAll_singleton]
  exact ⟨ht ▸ hs.1, hg.symm.trans hs.2.1, hr.symm.trans hs.2.2⟩

theorem forall₂_startsAt {ms : List Element} (hw : ∀ m ∈ ms, m.IsWellFormed)
    (hm : ∀ m ∈ ms, m.isMark = true) {found : List (List Char)}
    (h : List.Forall₂ Node.StartsAt (ms.flatMap toNodes) found) :
    List.Forall₂ StartsAt ms found := by
  induction ms generalizing found with
  | nil =>
    cases h
    exact .nil
  | cons m ms ih =>
    have hwm := hw m List.mem_cons_self
    have hmm := hm m List.mem_cons_self
    obtain ⟨n, hn, -⟩ := exists_node_of_isMark hwm hmm
    rw [List.flatMap_cons, hn] at h
    cases h with
    | cons hs hrest =>
      exact .cons (startsAt_of_node hwm hmm hn hs)
        (ih (fun m h ↦ hw m (List.mem_cons_of_mem _ h)) (fun m h ↦ hm m (List.mem_cons_of_mem _ h))
          hrest)

/-- A scan of the text of a pattern finds the groups and the references of its tree, each where
its own text starts. -/
theorem startsAt_marks (h : ∀ e ∈ es, e.IsWellFormed) :
    List.Forall₂ StartsAt (marks es) (Scan.marks (patternText es)) := by
  have hs := Disjunction.marks_text (isWellFormed_toDisjunction h)
  rw [flatMap_marksAll_toDisjunction h, text_toDisjunction h] at hs
  refine forall₂_startsAt (fun m hm ↦ ?_) (fun m hm ↦ List.of_mem_filter hm) hs
  have hmem := List.mem_of_mem_filter hm
  rw [nodesAll_eq_flatMap, List.mem_flatMap] at hmem
  obtain ⟨e, he, hn⟩ := hmem
  exact (h e he).of_mem_nodes m hn

end Element

namespace Scan

theorem openings_eq (cs : List Char) :
    openings cs = (marks cs).filter fun s ↦ (opened? s).isSome := by
  rw [marks, List.filter_filter, openings]
  refine List.filter_congr fun s _ ↦ ?_
  cases h : (opened? s).isSome <;> simp [isMark, h]

theorem references_eq (cs : List Char) : references cs = (marks cs).filterMap reference? := by
  rw [marks, List.filterMap_filter, references]
  refine List.filterMap_congr fun s _ ↦ ?_
  cases h : reference? s <;> simp [isMark, h]

end Scan

namespace Element

variable {es : List Element}

theorem startsAt_openings [Property.Engine] (h : ∀ e ∈ es, e.IsWellFormed) :
    List.Forall₂ StartsAt ((nodesAll es).filter fun n ↦ n.group?.isSome)
      (Scan.openings (patternText es)) := by
  have hcaptures : (marks es).filter (fun n ↦ n.group?.isSome) =
      (nodesAll es).filter fun n ↦ n.group?.isSome := by
    rw [marks, List.filter_filter]
    refine List.filter_congr fun n _ ↦ ?_
    cases hn : n.group?.isSome <;> simp [isMark, hn]
  rw [Scan.openings_eq, ← hcaptures]
  refine List.rel_filter (fun n cs hs ↦ ?_) (startsAt_marks h)
  change n.group?.isSome = true ↔ (Scan.opened? cs).isSome = true
  rw [hs.2.1]

theorem filterMap_opened? {ms : List Element} {found : List (List Char)}
    (h : List.Forall₂ StartsAt ms found) : found.filterMap Scan.opened? = groups ms := by
  induction h with
  | nil => rfl
  | cons hs _ ih => rw [groups, List.filterMap_cons, List.filterMap_cons, ih, hs.2.1, groups]

theorem filterMap_reference? {ms : List Element} {found : List (List Char)}
    (h : List.Forall₂ StartsAt ms found) :
    found.filterMap Scan.reference? = ms.filterMap reference? := by
  induction h with
  | nil => rfl
  | cons hs _ ih => rw [List.filterMap_cons, List.filterMap_cons, ih, hs.2.2]

theorem groups_openings [Property.Engine] (h : ∀ e ∈ es, e.IsWellFormed) :
    (Scan.openings (patternText es)).filterMap Scan.opened? = groups (nodesAll es) := by
  rw [filterMap_opened? (startsAt_openings h), groups, groups, List.filterMap_filter]
  refine List.filterMap_congr fun n _ ↦ ?_
  cases n.group? <;> simp

theorem references_patternText [Property.Engine] (h : ∀ e ∈ es, e.IsWellFormed) :
    Scan.references (patternText es) = (nodesAll es).filter isReference := by
  rw [Scan.references_eq, filterMap_reference? (startsAt_marks h), marks, List.filterMap_filter]
  induction nodesAll es with
  | nil => rfl
  | cons n ns ih =>
    rw [List.filterMap_cons, List.filter_cons, ih]
    cases hn : n.isReference <;> simp [isMark, reference?, hn]

end Element

end PatternBuilder

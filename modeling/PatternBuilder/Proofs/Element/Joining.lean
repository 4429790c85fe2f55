import PatternBuilder.Proofs.Element.Translation

namespace PatternBuilder

namespace Node

theorem endsInNumber_append {ns ms : List Node} (h : ms ≠ []) :
    endsInNumber (ns ++ ms) = endsInNumber ms := by
  simp only [endsInNumber, List.getLast?_append]
  cases hm : ms.getLast? with
  | none => exact absurd (List.getLast?_eq_none_iff.mp hm) h
  | some m => rfl

theorem join_cons_of_flatten_eq_nil (ns : List Node) {rest : List (List Node)}
    (h : rest.flatten = []) : join (ns :: rest) = ns ++ join rest := by
  simp [join, h, beginsWithDigit]

theorem join_eq_nil_iff {nss : List (List Node)} : join nss = [] ↔ nss.flatten = [] := by
  induction nss with
  | nil => simp [join]
  | cons ns rest ih =>
    rw [List.flatten_cons, List.append_eq_nil_iff, ← ih, join, List.append_eq_nil_iff]
    refine and_congr_left fun _ ↦ ?_
    split
    · rename_i h
      simp only [List.cons_ne_nil, false_iff]
      rintro rfl
      simp [endsInNumber] at h
    · rfl

theorem beginsWithDigit_join {nss : List (List Node)} (h : beginsWithDigit nss.flatten = false) :
    beginsWithDigit (join nss) = false := by
  induction nss with
  | nil => rfl
  | cons ns rest ih =>
    rw [join]
    split
    · rfl
    · cases ns with
      | nil => exact ih h
      | cons n ns => exact h

variable [Property.Engine]

theorem areWellFormed_append {ns ms : List Node} (hn : AreWellFormed ns) (hm : AreWellFormed ms)
    (h : endsInNumber ns = true → beginsWithDigit ms = false) : AreWellFormed (ns ++ ms) := by
  induction ns with
  | nil => exact hm
  | cons n ns ih =>
    obtain ⟨hn, hf, hns⟩ := hn
    cases ns with
    | nil => exact ⟨hn, fun hv ↦ h (by simpa [endsInNumber] using hv), hm⟩
    | cons n' ns =>
      exact ⟨hn, hf, ih hns fun he ↦ h (by simpa [endsInNumber] using he)⟩

theorem areWellFormed_singleton {n : Node} (h : n.IsWellFormed) : AreWellFormed [n] :=
  ⟨h, fun _ ↦ rfl, trivial⟩

theorem areWellFormed_plain {ns : List Node} (h : AreWellFormed ns) :
    (group .plain [ns]).IsWellFormed :=
  ⟨trivial, by simp, h, trivial⟩

theorem areWellFormed_join {nss : List (List Node)} (h : ∀ ns ∈ nss, AreWellFormed ns) :
    AreWellFormed (join nss) := by
  induction nss with
  | nil => trivial
  | cons ns rest ih =>
    have ih := ih fun ms hms ↦ h ms (List.mem_cons_of_mem ns hms)
    have hns := h ns List.mem_cons_self
    rw [join]
    split
    · exact areWellFormed_append (areWellFormed_singleton (areWellFormed_plain hns)) ih
        fun he ↦ absurd he (by simp [endsInNumber, isNumber])
    · rename_i hsplit
      refine areWellFormed_append hns ih fun he ↦ beginsWithDigit_join ?_
      simpa [he] using hsplit

theorem areWellFormed_of_forall {ns : List Node}
    (h : ∀ n ∈ ns, n.IsWellFormed ∧ n.isNumber = false) : AreWellFormed ns := by
  induction ns with
  | nil => trivial
  | cons n ns ih =>
    obtain ⟨hn, hv⟩ := h n List.mem_cons_self
    exact ⟨hn, fun hv' ↦ absurd hv' (by simp [hv]), ih fun m hm ↦ h m (List.mem_cons_of_mem n hm)⟩

theorem areWellFormedBranches_iff {d : List (List Node)} :
    AreWellFormedBranches d ↔ ∀ ns ∈ d, AreWellFormed ns := by
  induction d with
  | nil => simp [AreWellFormedBranches]
  | cons ns d ih => simp [AreWellFormedBranches, ih]

end Node

namespace Element

open Node

theorem isNumber_node (k : Composite) (ps : List Part) : (k.node ps).isNumber = false := by
  cases k with
  | anyOf => simp only [Composite.node, Part.anyOf]; split <;> rfl
  | anythingBut => simp only [Composite.node, Part.anythingBut]; split <;> rfl
  | _ => rfl

theorem flatten_parts_eq_nil {es : List Element}
    (h : ∀ e ∈ es, (e.toNodes = [] ↔ e.isInvisible = true)) :
    ((parts es).map Part.nodes).flatten = [] ↔ allInvisible es = true := by
  induction es with
  | nil => simp [parts, allInvisible]
  | cons e es ih =>
    have ih := ih fun f hf ↦ h f (List.mem_cons_of_mem e hf)
    simp only [parts, List.map_cons, List.flatten_cons, List.append_eq_nil_iff, allInvisible,
      Bool.and_eq_true, ih, h e List.mem_cons_self]

variable [Property.Engine]

theorem toNodes_eq_nil {e : Element} (h : e.IsWellFormed) :
    e.toNodes = [] ↔ e.isInvisible = true := by
  induction e with
  | atom a => cases a <;> simp [toNodes, isInvisible]
  | string s =>
    have hs : 2 ≤ s.toList.length := h.isValid
    simp only [toNodes, isInvisible, List.map_eq_nil_iff]
    refine ⟨fun hn ↦ ?_, fun hn ↦ absurd hn (by decide)⟩
    rw [hn] at hs
    simp at hs
  | subexpression es ih =>
    rw [toNodes, isInvisible, Part.sequence, join_eq_nil_iff]
    exact flatten_parts_eq_nil fun e he ↦ ih e he (h.of_mem he)
  | _ => simp [toNodes, isInvisible]

theorem endsInNumber_sequence {es : List Element} (hw : ∀ e ∈ es, e.IsWellFormed)
    (h : ∀ e ∈ es, Node.endsInNumber e.toNodes = e.endsInNumber) :
    Node.endsInNumber (Part.sequence (parts es)) = lastEndsInNumber es := by
  induction es with
  | nil => rfl
  | cons e es ih =>
    have ih := ih (fun f hf ↦ hw f (List.mem_cons_of_mem e hf))
      fun f hf ↦ h f (List.mem_cons_of_mem e hf)
    have hnil : ((parts es).map Part.nodes).flatten = [] ↔ allInvisible es = true :=
      flatten_parts_eq_nil fun f hf ↦ toNodes_eq_nil (hw f (List.mem_cons_of_mem e hf))
    rw [lastEndsInNumber]
    split
    · rename_i hi
      have hf := hnil.mpr hi
      rw [Part.sequence, parts, List.map_cons, join_cons_of_flatten_eq_nil _ hf,
        join_eq_nil_iff.mpr hf, List.append_nil, h e List.mem_cons_self]
    · rename_i hi
      have hne : join ((parts es).map Part.nodes) ≠ [] :=
        fun hj ↦ hi (hnil.mp (join_eq_nil_iff.mp hj))
      rw [← ih, Part.sequence, parts, List.map_cons, join, endsInNumber_append hne]
      rfl

theorem endsInNumber_toNodes {e : Element} (h : e.IsWellFormed) :
    Node.endsInNumber e.toNodes = e.endsInNumber := by
  induction e with
  | atom a => cases a <;> rfl
  | string s =>
    have hn : ∀ n ∈ (s.toList.map Node.char).getLast?, n.isNumber = false := by
      intro n hn
      obtain ⟨c, -, rfl⟩ := List.mem_map.mp (List.mem_of_getLast? hn)
      rfl
    change (s.toList.map Node.char).getLast?.any isNumber = false
    cases hl : (s.toList.map Node.char).getLast? with
    | none => rfl
    | some n => exact hn n hl
  | composite k es => exact isNumber_node k (parts es)
  | subexpression es ih =>
    rw [toNodes, Element.endsInNumber]
    exact endsInNumber_sequence (fun e he ↦ h.of_mem he) fun e he ↦ ih e he (h.of_mem he)
  | _ => rfl

end Element

end PatternBuilder

import PatternBuilder.Proofs.Element.Translation

namespace PatternBuilder

namespace Node

/-- Something is collected from nodes: from one after the other, and from inside the groups that
only hold nodes together or test them, but not from characters and bracket classes. -/
structure Collects {α : Type} (f : List Node → List α) : Prop where
  append : ∀ ns ms, f (ns ++ ms) = f ns ++ f ms
  plain : ∀ d, f [group .plain d] = d.flatMap f
  look : ∀ l d, f [group (.look l) d] = d.flatMap f
  char : ∀ c, f [char c] = []
  set : ∀ negated items, f [set negated items] = []

namespace Collects

variable {α : Type} {f : List Node → List α}

theorem nil (h : Collects f) : f [] = [] := List.append_right_eq_self.mp (h.append [] []).symm

theorem eq_nil_of_forall (h : Collects f) {ns : List Node} (hn : ∀ n ∈ ns, f [n] = []) :
    f ns = [] := by
  induction ns with
  | nil => exact h.nil
  | cons n ns ih =>
    rw [← List.singleton_append, h.append, hn n List.mem_cons_self,
      ih fun m hm ↦ hn m (List.mem_cons_of_mem n hm)]
    rfl

theorem join (h : Collects f) (nss : List (List Node)) : f (join nss) = nss.flatMap f := by
  induction nss with
  | nil => exact h.nil
  | cons ns rest ih =>
    rw [Node.join, h.append, ih, List.flatMap_cons]
    split
    · rw [h.plain, List.flatMap_singleton]
    · rfl

theorem single (h : Collects f) (grouped : Bool) (ns : List Node) :
    f [single grouped ns] = f ns := by
  unfold Node.single
  split
  · rfl
  · rw [h.plain, List.flatMap_singleton]

theorem classItems (h : Collects f) {e : Element} (he : e.classItems?.isNone = false) :
    f e.toNodes = [] := by
  cases e with
  | char c => exact h.char c
  | range a b | anyOfChars s => exact h.set _ _
  | atom a =>
    cases a with
    | backspace => exact h.set _ _
    | _ => cases he
  | _ => cases he

theorem string (h : Collects f) (s : String) : f (Element.string s).toNodes = [] := by
  refine h.eq_nil_of_forall fun n hn ↦ ?_
  obtain ⟨c, -, rfl⟩ := List.mem_map.mp hn
  exact h.char c

theorem anythingButString (h : Collects f) (s : String) :
    f (Element.anythingButString s).toNodes = [] := by
  rw [Element.toNodes, h.plain, List.flatMap_singleton]
  refine h.eq_nil_of_forall fun n hn ↦ ?_
  obtain ⟨c, -, rfl⟩ := List.mem_map.mp hn
  exact h.set _ _

variable (es : List Element)

theorem alternatives (h : Collects f) :
    (Part.alternatives (Element.parts es)).flatMap f = es.flatMap fun e ↦ f e.toNodes := by
  induction es with
  | nil => rfl
  | cons e es ih =>
    rw [List.flatMap_cons, ← ih, Element.parts, Part.alternatives, List.filter_cons]
    cases he : e.classItems?.isNone with
    | true => rfl
    | false =>
      rw [h.classItems he]
      rfl

theorem sequence (h : Collects f) :
    f (Part.sequence (Element.parts es)) = es.flatMap fun e ↦ f e.toNodes := by
  rw [Part.sequence, h.join, Element.parts_eq_map, List.map_map, List.flatMap_map]
  rfl

theorem anyOf (h : Collects f) :
    f [Part.anyOf (Element.parts es)] = es.flatMap fun e ↦ f e.toNodes := by
  rw [← h.alternatives, Part.anyOf]
  cases Part.alternatives (Element.parts es) with
  | nil => exact h.set _ _
  | cons ns d =>
    cases Part.items (Element.parts es) with
    | nil => exact h.plain _
    | cons i is => simp [h.plain, h.set]

theorem anythingBut (h : Collects f) :
    f [Part.anythingBut (Element.parts es)] = es.flatMap fun e ↦ f e.toNodes := by
  have hpair (n m : Node) : f [n, m] = f [n] ++ f [m] := h.append [n] [m]
  rw [← h.alternatives, Part.anythingBut]
  cases Part.alternatives (Element.parts es) with
  | nil => exact h.set _ _
  | cons ns d => cases Part.items (Element.parts es) <;> simp [h.plain, hpair, h.look, h.set]

theorem toDisjunction (h : Collects f) :
    (Element.toDisjunction es).flatMap f = es.flatMap fun e ↦ f e.toNodes := by
  rw [← h.sequence, Element.toDisjunction]
  cases Part.sequence (Element.parts es) with
  | nil => simp [h.plain, h.nil]
  | cons n ns => exact List.flatMap_singleton _ _

end Collects

end Node

end PatternBuilder

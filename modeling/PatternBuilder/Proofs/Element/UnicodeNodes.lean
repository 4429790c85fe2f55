import PatternBuilder.Element.Nodes
import PatternBuilder.Proofs.Element.Translation

namespace PatternBuilder

def ClassItem.needsUnicode : ClassItem → Bool
  | range a b => isAstral a || isAstral b
  | _ => false

namespace Node

mutual

def needsUnicode : Node → Bool
  | code .point _ | property _ _ => true
  | set _ items => items.any ClassItem.needsUnicode
  | group _ d => branchesNeedUnicode d
  | repeated _ n => needsUnicode n
  | _ => false

def anyNeedsUnicode : List Node → Bool
  | [] => false
  | n :: ns => needsUnicode n || anyNeedsUnicode ns

def branchesNeedUnicode : List (List Node) → Bool
  | [] => false
  | ns :: d => anyNeedsUnicode ns || branchesNeedUnicode d

end

theorem anyNeedsUnicode_eq_any (ns : List Node) : anyNeedsUnicode ns = ns.any needsUnicode := by
  induction ns with
  | nil => rfl
  | cons n ns ih => rw [anyNeedsUnicode, ih, List.any_cons]

theorem any_needsUnicode_singleton (n : Node) : [n].any needsUnicode = n.needsUnicode :=
  Bool.or_false _

theorem branchesNeedUnicode_eq_any (d : List (List Node)) :
    branchesNeedUnicode d = d.any fun ns ↦ ns.any needsUnicode := by
  induction d with
  | nil => rfl
  | cons ns d ih => rw [branchesNeedUnicode, ih, anyNeedsUnicode_eq_any, List.any_cons]

theorem needsUnicode_set (negated : Bool) (items : List ClassItem) :
    (set negated items).needsUnicode = items.any ClassItem.needsUnicode := rfl

theorem needsUnicode_group (k : GroupKind) (d : List (List Node)) :
    (group k d).needsUnicode = d.any fun ns ↦ ns.any needsUnicode := by
  rw [needsUnicode, branchesNeedUnicode_eq_any]

theorem needsUnicode_enclosed (k : GroupKind) (ns : List Node) :
    (group k [ns]).needsUnicode = ns.any needsUnicode := by
  rw [needsUnicode_group, List.any_cons, List.any_nil, Bool.or_false]

theorem any_needsUnicode_join (nss : List (List Node)) :
    (join nss).any needsUnicode = nss.any fun ns ↦ ns.any needsUnicode := by
  induction nss with
  | nil => rfl
  | cons ns rest ih =>
    rw [join, List.any_append, ih, List.any_cons]
    split
    · rw [any_needsUnicode_singleton, needsUnicode_enclosed]
    · rfl

theorem needsUnicode_single (grouped : Bool) (ns : List Node) :
    (single grouped ns).needsUnicode = ns.any needsUnicode := by
  unfold single
  split
  · exact (any_needsUnicode_singleton _).symm
  · exact needsUnicode_enclosed .plain ns

end Node

def Disjunction.needsUnicode (d : Disjunction) : Bool := d.any fun ns ↦ ns.any Node.needsUnicode

namespace Element

open Node

theorem requiresUnicode_eq_or (e : Element) :
    e.requiresUnicode = (e.isUnicodeOnly || e.children.any requiresUnicode) := by
  rw [requiresUnicode, nodes_eq_cons, List.any_cons, nodesAll_eq_flatMap, List.any_flatMap]
  rfl

theorem any_needsUnicode_of_classItems {e : Element} {items : List ClassItem}
    (h : e.classItems? = some items) :
    e.toNodes.any needsUnicode = items.any ClassItem.needsUnicode := by
  cases e with
  | char c | range a b | anyOfChars s =>
    cases h
    simp [toNodes, needsUnicode, ClassItem.needsUnicode]
  | atom a =>
    cases a with
    | backspace =>
      cases h
      rfl
    | _ => cases h
  | _ => cases h

variable {es : List Element}

theorem any_needsUnicode_parts (es : List Element) :
    ((Part.alternatives (parts es)).any (fun ns ↦ ns.any needsUnicode) ||
        (Part.items (parts es)).any ClassItem.needsUnicode) =
      es.any fun e ↦ e.toNodes.any needsUnicode := by
  induction es with
  | nil => rfl
  | cons e es ih =>
    rw [List.any_cons, ← ih, parts, Part.items, List.flatMap_cons, List.any_append,
      Part.alternatives, List.filter_cons]
    cases h : e.classItems? with
    | none =>
      rw [Option.isNone_none, if_pos rfl, List.map_cons, List.any_cons, Bool.or_assoc]
      rfl
    | some items =>
      rw [any_needsUnicode_of_classItems h, Bool.or_left_comm]
      rfl

theorem any_needsUnicode_sequence (es : List Element) :
    (Part.sequence (parts es)).any needsUnicode = es.any fun e ↦ e.toNodes.any needsUnicode := by
  rw [Part.sequence, any_needsUnicode_join, parts_eq_map, List.map_map, List.any_map]
  rfl

theorem needsUnicode_anyOf (es : List Element) :
    (Part.anyOf (parts es)).needsUnicode = es.any fun e ↦ e.toNodes.any needsUnicode := by
  rw [← any_needsUnicode_parts, Part.anyOf]
  cases Part.alternatives (parts es) with
  | nil => rfl
  | cons ns d =>
    cases Part.items (parts es) with
    | nil => rw [needsUnicode_group, List.any_nil, Bool.or_false]
    | cons i is => simp [needsUnicode_group, needsUnicode_set, Bool.or_assoc]

theorem needsUnicode_anythingBut (es : List Element) :
    (Part.anythingBut (parts es)).needsUnicode = es.any fun e ↦ e.toNodes.any needsUnicode := by
  rw [← any_needsUnicode_parts, Part.anythingBut]
  cases Part.alternatives (parts es) with
  | nil => rfl
  | cons ns d =>
    cases Part.items (parts es) <;>
      simp [needsUnicode_group, needsUnicode_set, ClassItem.needsUnicode]

theorem needsUnicode_node (k : Composite) (es : List Element) :
    (k.node (parts es)).needsUnicode = es.any fun e ↦ e.toNodes.any needsUnicode := by
  cases k with
  | anyOf => exact needsUnicode_anyOf es
  | anythingBut => exact needsUnicode_anythingBut es
  | _ => rw [Composite.node, needsUnicode_enclosed, any_needsUnicode_sequence]

theorem any_congr_toNodes (h : ∀ e ∈ es, e.toNodes.any needsUnicode = e.requiresUnicode) :
    (es.any fun e ↦ e.toNodes.any needsUnicode) = es.any requiresUnicode := by
  induction es with
  | nil => rfl
  | cons e es ih =>
    rw [List.any_cons, List.any_cons, h e List.mem_cons_self,
      ih fun f hf ↦ h f (List.mem_cons_of_mem e hf)]

/-- The nodes that an element stands for ask for unicode mode just if the element does. -/
theorem any_needsUnicode_toNodes (e : Element) :
    e.toNodes.any needsUnicode = e.requiresUnicode := by
  induction e with
  | quantified q e ih =>
    rw [toNodes, any_needsUnicode_singleton, needsUnicode, needsUnicode_single, ih,
      requiresUnicode_eq_or (.quantified q e), children, List.any_cons, List.any_nil,
      Bool.or_false]
    rfl
  | composite k es ih =>
    rw [toNodes, any_needsUnicode_singleton, needsUnicode_node, any_congr_toNodes ih,
      requiresUnicode_eq_or]
    rfl
  | subexpression es ih =>
    rw [toNodes, any_needsUnicode_sequence, any_congr_toNodes ih, requiresUnicode_eq_or]
    rfl
  | atom a => cases a <;> rfl
  | code form digits => cases form <;> rfl
  | range a b | anythingButRange a b =>
    simp [toNodes, needsUnicode_set, ClassItem.needsUnicode, requiresUnicode_eq_or, isUnicodeOnly,
      children]
  | string s => simp [toNodes, needsUnicode, requiresUnicode_eq_or, isUnicodeOnly, children]
  | anyOfChars s | anythingButChars s | anythingButString s =>
    simp [toNodes, needsUnicode_enclosed, needsUnicode_set, ClassItem.needsUnicode,
      requiresUnicode_eq_or, isUnicodeOnly, children]
  | _ => rfl

theorem needsUnicode_toDisjunction (es : List Element) :
    (toDisjunction es).needsUnicode = (nodesAll es).any isUnicodeOnly := by
  have hall : (nodesAll es).any isUnicodeOnly = es.any requiresUnicode := by
    rw [nodesAll_eq_flatMap, List.any_flatMap]
    rfl
  rw [hall, ← any_congr_toNodes fun e _ ↦ any_needsUnicode_toNodes e,
    ← any_needsUnicode_sequence, Disjunction.needsUnicode, toDisjunction]
  cases Part.sequence (parts es) with
  | nil => rfl
  | cons n ns => exact Bool.or_false _

end Element

end PatternBuilder

import PatternBuilder.Element.Basic

namespace PatternBuilder

namespace Element

mutual

/-- Every element of the tree in preorder, with its depth below the given one. -/
def outline (depth : Nat) : Element → List (Nat × Element)
  | quantified q e => (depth, quantified q e) :: outline (depth + 1) e
  | composite k es => (depth, composite k es) :: outlineAll (depth + 1) es
  | subexpression es => (depth, subexpression es) :: outlineAll (depth + 1) es
  | e => [(depth, e)]

def outlineAll (depth : Nat) : List Element → List (Nat × Element)
  | [] => []
  | e :: es => outline depth e ++ outlineAll depth es

end

mutual

def nodes : Element → List Element
  | quantified q e => quantified q e :: nodes e
  | composite k es => composite k es :: nodesAll es
  | subexpression es => subexpression es :: nodesAll es
  | e => [e]

def nodesAll : List Element → List Element
  | [] => []
  | e :: es => nodes e ++ nodesAll es

end

theorem nodes_eq_cons (e : Element) : nodes e = e :: nodesAll e.children := by
  cases e <;> simp [nodes, nodesAll, children]

theorem nodesAll_eq_flatMap (es : List Element) : nodesAll es = es.flatMap nodes := by
  induction es with
  | nil => rfl
  | cons e es ih => simp [nodesAll, ih]

theorem forall_nodes_iff {P : Element → Prop} {e : Element} :
    (∀ n ∈ e.nodes, P n) ↔ P e ∧ ∀ c ∈ e.children, ∀ n ∈ c.nodes, P n := by
  simp only [nodes_eq_cons e, nodesAll_eq_flatMap, List.mem_cons, List.mem_flatMap]
  constructor
  · exact fun h ↦ ⟨h e (.inl rfl), fun c hc n hn ↦ h n (.inr ⟨c, hc, hn⟩)⟩
  · rintro ⟨he, hc⟩ n (rfl | ⟨c, hm, hn⟩)
    · exact he
    · exact hc c hm n hn

theorem forall_nodesAll_iff {P : Element → Prop} {es : List Element} :
    (∀ n ∈ nodesAll es, P n) ↔ ∀ e ∈ es, ∀ n ∈ e.nodes, P n := by
  simp only [nodesAll_eq_flatMap, List.mem_flatMap]
  constructor
  · exact fun h e he n hn ↦ h n ⟨e, he, hn⟩
  · rintro h n ⟨e, he, hn⟩
    exact h e he n hn

theorem mem_nodes_trans {m n e : Element} (hm : m ∈ n.nodes) (hn : n ∈ e.nodes) :
    m ∈ e.nodes := by
  induction e using induction_of_children with
  | h e ih =>
    rw [nodes_eq_cons, nodesAll_eq_flatMap, List.mem_cons, List.mem_flatMap] at hn ⊢
    rcases hn with rfl | ⟨c, hc, hn⟩
    · rwa [nodes_eq_cons, nodesAll_eq_flatMap, List.mem_cons, List.mem_flatMap] at hm
    · exact .inr ⟨c, hc, ih c hc hn⟩

@[simp]
theorem nodesAll_append (es fs : List Element) :
    nodesAll (es ++ fs) = nodesAll es ++ nodesAll fs := by
  simp [nodesAll_eq_flatMap]

theorem map_snd_outlineAll {es : List Element}
    (h : ∀ e ∈ es, ∀ depth, (outline depth e).map Prod.snd = nodes e) (depth : Nat) :
    (outlineAll depth es).map Prod.snd = nodesAll es := by
  induction es with
  | nil => rfl
  | cons e es ih => simp_all [outlineAll, nodesAll]

theorem map_snd_outline (e : Element) (depth : Nat) :
    (outline depth e).map Prod.snd = nodes e := by
  induction e generalizing depth with
  | quantified q e ih => simp [outline, nodes, ih]
  | composite k es ih => simp [outline, nodes, map_snd_outlineAll ih]
  | subexpression es ih => simp [outline, nodes, map_snd_outlineAll ih]
  | _ => rfl

def requiresUnicode (e : Element) : Bool := e.nodes.any isUnicodeOnly

end Element

end PatternBuilder

import PatternBuilder.Proofs.Element.Collecting
import PatternBuilder.Proofs.Element.ReadBack
import PatternBuilder.Proofs.Grammar.Operands

namespace PatternBuilder

namespace Node

theorem operandsAll_append (ns ms : List Node) :
    operandsAll (ns ++ ms) = operandsAll ns ++ operandsAll ms := by
  induction ns with
  | nil => rfl
  | cons n ns ih => rw [List.cons_append, operandsAll, operandsAll, ih, List.append_assoc]

theorem operandsAll_singleton (n : Node) : operandsAll [n] = n.operands := List.append_nil _

theorem branchOperands_eq_flatMap (d : List (List Node)) :
    branchOperands d = d.flatMap operandsAll := by
  induction d with
  | nil => rfl
  | cons ns d ih => rw [branchOperands, ih, List.flatMap_cons]

theorem operandsAll_group (k : GroupKind) (d : List (List Node)) :
    operandsAll [group k d] = d.flatMap operandsAll := by
  rw [operandsAll_singleton, operands, branchOperands_eq_flatMap]

theorem collects_operandsAll : Collects operandsAll where
  append := operandsAll_append
  plain := operandsAll_group .plain
  look l := operandsAll_group (.look l)
  char _ := rfl
  set _ _ := rfl

end Node

namespace Element

open Node

def operandText (e : Element) : List Char := if e.needsGroup then groupText e.text else e.text

mutual

/-- Each quantifier of the tree with the text of what it is bound to, in the order in which the
quantified elements end. -/
def operands : Element → List (Quantifier × List Char)
  | quantified q e => operands e ++ [(q, e.operandText)]
  | composite _ es | subexpression es => operandsAll es
  | _ => []

def operandsAll : List Element → List (Quantifier × List Char)
  | [] => []
  | e :: es => operands e ++ operandsAll es

end

variable {es : List Element}

theorem operandsAll_node (k : Composite) (es : List Element) :
    Node.operandsAll [k.node (parts es)] = es.flatMap fun e ↦ Node.operandsAll e.toNodes := by
  cases k with
  | anyOf => exact collects_operandsAll.anyOf es
  | anythingBut => exact collects_operandsAll.anythingBut es
  | _ =>
    rw [Composite.node, operandsAll_group, List.flatMap_singleton, collects_operandsAll.sequence]

theorem flatMap_operandsAll (h : ∀ e ∈ es, Node.operandsAll e.toNodes = e.operands) :
    (es.flatMap fun e ↦ Node.operandsAll e.toNodes) = operandsAll es := by
  induction es with
  | nil => rfl
  | cons e es ih =>
    rw [List.flatMap_cons, h e List.mem_cons_self, ih fun f hf ↦ h f (List.mem_cons_of_mem e hf),
      operandsAll]

theorem operandsAll_toNodes [Property.Engine] {e : Element} (h : e.IsWellFormed) :
    Node.operandsAll e.toNodes = e.operands := by
  induction e with
  | atom a => cases a <;> rfl
  | string s => exact collects_operandsAll.string s
  | anythingButString s => exact collects_operandsAll.anythingButString s
  | quantified q e ih =>
    have he : e.IsWellFormed := h.of_mem (by simp [children])
    have hq : e.isQuantifiable = true := h.isValid.2.1
    rw [toNodes, operandsAll_singleton, Node.operands, ← operandsAll_singleton,
      collects_operandsAll.single, ih he, text_single hq (textAll_toNodes he)]
    rfl
  | composite k es ih =>
    rw [toNodes, operandsAll_node, flatMap_operandsAll fun e he ↦ ih e he (h.of_mem he), operands]
  | subexpression es ih =>
    rw [toNodes, collects_operandsAll.sequence,
      flatMap_operandsAll fun e he ↦ ih e he (h.of_mem he), operands]
  | _ => rfl

/-- With every escape on its own, each quantifier in the text of a pattern applies to the text of
the element that it is bound to. -/
theorem operands_toDisjunction [Property.Engine] (h : ∀ e ∈ es, e.IsWellFormed) :
    Token.operands (branchTokens (toDisjunction es)) = operandsAll es := by
  rw [Disjunction.operands_tokens (isWellFormed_toDisjunction h), branchOperands_eq_flatMap,
    collects_operandsAll.toDisjunction, flatMap_operandsAll fun e he ↦ operandsAll_toNodes (h e he)]

end Element

end PatternBuilder

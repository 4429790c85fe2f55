import PatternBuilder.Proofs.Expression.Heads
import PatternBuilder.Proofs.Grammar.Writing

namespace PatternBuilder

theorem isUpper_iff {c : Char} : c.isUpper = true ↔ 65 ≤ c.toNat ∧ c.toNat ≤ 90 :=
  decide_eq_true_iff

theorem isAlpha_eq (c : Char) : c.isAlpha = (c.isUpper || c.isLower) := rfl

theorem toUpper_eq_self {c : Char} (h : c.isUpper = true) : c.toUpper = c := by
  have h := isUpper_iff.mp h
  have hn : ¬('a'.val ≤ c.val ∧ c.val ≤ 'z'.val) := by
    rintro ⟨ha, -⟩
    have ha : 97 ≤ c.toNat := UInt32.le_iff_toNat_le.mp ha
    omega
  exact dif_neg hn

theorem isUpper_toUpper {c : Char} (h : c.isAlpha = true) : c.toUpper.isUpper = true := by
  unfold Char.toUpper
  split
  · rename_i hc
    have ha : 97 ≤ c.toNat := UInt32.le_iff_toNat_le.mp hc.1
    have hz : c.toNat ≤ 122 := UInt32.le_iff_toNat_le.mp hc.2
    rw [isUpper_iff]
    simp only [Char.toNat, UInt32.toNat_add] at ha hz ⊢
    have hd : ('A'.val - 'a'.val).toNat = 2 ^ 32 - 32 := rfl
    omega
  · rename_i hc
    rw [isAlpha_eq, Bool.or_eq_true] at h
    refine h.resolve_right fun hl ↦ hc ?_
    exact (Bool.and_eq_true_iff.mp hl).imp of_decide_eq_true of_decide_eq_true

def Quantifier.IsValid : Quantifier → Prop
  | exactly n | atLeast n _ => 0 < n
  | between x y _ => x < y
  | _ => True

theorem Quantifier.IsValid.isWellFormed {q : Quantifier} (h : q.IsValid) : q.IsWellFormed := by
  cases q with
  | between x y lazy => exact Nat.le_of_lt h
  | _ => trivial

namespace Element

variable [Property.Engine]

/-- The argument of the element is acceptable, whatever the elements below it hold. -/
def IsValid : Element → Prop
  | string s => 2 ≤ s.toList.length
  | range a b | anythingButRange a b => a < b
  | anyOfChars s | anythingButChars s | anythingButString s => s ≠ ""
  | controlChar c => c.isUpper = true
  | code form digits => isHexOfLength digits form.lengths = true
  | property _ name => Property.isAccepted name = true
  | backreference i => 0 < i
  | namedBackreference name | composite (.namedCapture name) _ => isGroupName name = true
  | quantified q e => q.IsValid ∧ e.isQuantifiable = true ∧ e.isQuantified = false
  | _ => True

def IsWellFormed (e : Element) : Prop := ∀ n ∈ e.nodes, n.IsValid

theorem isWellFormed_iff {e : Element} :
    e.IsWellFormed ↔ e.IsValid ∧ ∀ c ∈ e.children, c.IsWellFormed := forall_nodes_iff

theorem IsWellFormed.of_mem {e : Element} (h : e.IsWellFormed) {c : Element}
    (hc : c ∈ e.children) : c.IsWellFormed := (isWellFormed_iff.mp h).2 c hc

theorem IsWellFormed.isValid {e : Element} (h : e.IsWellFormed) : e.IsValid :=
  (isWellFormed_iff.mp h).1

theorem IsWellFormed.of_mem_nodes {e : Element} (h : e.IsWellFormed) :
    ∀ n ∈ e.nodes, n.IsWellFormed := fun _ hn m hm ↦ h m (mem_nodes_trans hm hn)

end Element

end PatternBuilder

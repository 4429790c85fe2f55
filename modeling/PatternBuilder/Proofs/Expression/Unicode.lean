import PatternBuilder.Proofs.Expression.Tree

namespace PatternBuilder

namespace Flags

theorem union_empty (s : Flags) : s.union {} = s :=
  ext_contains fun f ↦ by cases f <;> simp [union, contains]

theorem union_insert (s t : Flags) (f : Flag) : s.union (t.insert f) = (s.union t).insert f :=
  ext_contains fun g ↦ by
    rw [contains_union, contains_insert, contains_insert, contains_union]
    cases s.contains g <;> cases f == g <;> rfl

theorem union_assoc (s t u : Flags) : (s.union t).union u = s.union (t.union u) :=
  ext_contains fun f ↦ by simp [Bool.or_assoc]

theorem insert_eq_self {s : Flags} {f : Flag} (h : s.contains f = true) : s.insert f = s :=
  ext_contains fun g ↦ by
    rw [contains_insert]
    cases hfg : f == g with
    | false => rfl
    | true =>
      rw [← beq_iff_eq.mp hfg, h]
      rfl

end Flags

namespace Element

theorem isUnicodeOnly_head (e : Element) : e.head.isUnicodeOnly = e.isUnicodeOnly := by
  cases e <;> rfl

theorem requiresUnicode_eq_any_heads (e : Element) :
    e.requiresUnicode = (heads [e]).any isUnicodeOnly := by
  rw [heads, nodesAll, nodesAll, List.append_nil, List.any_map, requiresUnicode]
  exact congrArg (List.any e.nodes) (funext isUnicodeOnly_head).symm

theorem any_heads_quantifiedBy (e : Element) (q : Option Quantifier) :
    (heads [e.quantifiedBy q]).any isUnicodeOnly = e.requiresUnicode := by
  rw [heads_quantifiedBy, requiresUnicode_eq_any_heads, List.any_append]
  cases q <;> rfl

theorem requiresUnicode_subexpression (es : List Element) :
    (subexpression es).requiresUnicode = (heads es).any isUnicodeOnly := by
  rw [requiresUnicode_eq_any_heads, heads_subexpression, List.any_cons]
  rfl

end Element

def Call.requests (f : Flag) : Call → Bool
  | setFlag g => g == f
  | splice other options => !options.ignoreFlags && other.flags.contains f
  | _ => false

theorem Call.requests_of_leaf? [Property.Engine] {c : Call} {el : Element} (hc : c.leaf? = some el)
    (f : Flag) :
    c.requests f = false := by
  cases c with
  | setFlag | splice => cases hc
  | _ => rfl

namespace Expression

variable {c : Call}

theorem flags_setUnicodeFor (e : Expression) (el : Element) :
    (e.setUnicodeFor el).flags =
      if el.requiresUnicode then e.flags.insert .unicode else e.flags := by
  unfold setUnicodeFor
  split <;> rfl

theorem level_setUnicodeFor (e : Expression) (el : Element) :
    (e.setUnicodeFor el).level = e.level := by
  unfold setUnicodeFor
  split <;> rfl

theorem frames_setUnicodeFor (e : Expression) (el : Element) :
    (e.setUnicodeFor el).frames = e.frames := by
  unfold setUnicodeFor
  split <;> rfl

/-- Unicode mode is on if a node asks for it. -/
def HasUnicode (e : Expression) : Prop :=
  ∀ n ∈ e.heads, n.isUnicodeOnly = true → e.flags.contains .unicode = true

theorem contains_setUnicodeFor (e : Expression) (el : Element) (f : Flag) :
    (e.setUnicodeFor el).flags.contains f =
      (e.flags.contains f || (f == .unicode && el.requiresUnicode)) := by
  rw [flags_setUnicodeFor]
  cases el.requiresUnicode with
  | false => simp
  | true =>
    rw [if_pos rfl, Flags.contains_insert, Bool.and_true, Bool.or_comm, Bool.beq_comm]

theorem contains_apply [Property.Engine] {e e' : Expression} (h : e.apply c = .ok e') (f : Flag) :
    e'.flags.contains f = (e.flags.contains f || c.requests f ||
      (f == .unicode && (Element.heads (e.addition c)).any Element.isUnicodeOnly)) := by
  cases apply_eq_ok.mp h with
  | setFlag g =>
    rw [setFlag, Flags.contains_insert, Bool.or_comm]
    simp [Call.requests, addition, Element.heads_nil]
  | leaf hc =>
    rw [contains_setUnicodeFor, addition_of_leaf? hc, Element.any_heads_quantifiedBy,
      Call.requests_of_leaf? hc, Bool.or_false]
    rfl
  | anchor | close | quantify =>
    simp [Call.requests, addition, Element.heads, Element.nodesAll, Element.nodes, Element.head,
      Element.isUnicodeOnly]
  | openComposite =>
    rw [addition, Element.any_heads_quantifiedBy]
    simp [Call.requests, Element.requiresUnicode, Element.nodes, Element.nodesAll,
      Element.isUnicodeOnly]
  | @splice other options =>
    rw [contains_setUnicodeFor, addition, Element.any_heads_quantifiedBy]
    refine congrArg (· || _) ?_
    change (if options.ignoreFlags then e.flags else e.flags.union other.flags).contains f = _
    cases hf : options.ignoreFlags <;> simp [Call.requests, hf]

theorem HasUnicode.apply [Property.Engine] {e e' : Expression} (hu : e.HasUnicode)
    (h : e.apply c = .ok e') :
    e'.HasUnicode := by
  intro n hn hun
  rw [contains_apply h, Bool.or_eq_true, Bool.or_eq_true]
  rw [heads_apply h, List.mem_append] at hn
  rcases hn with hn | hn
  · exact .inl (.inl (hu n hn hun))
  · exact .inr (Bool.and_eq_true_iff.mpr ⟨rfl, List.any_eq_true.mpr ⟨n, hn, hun⟩⟩)

theorem HasUnicode.run [Property.Engine] {e e' : Expression} (hu : e.HasUnicode) {cs : List Call}
    (h : e.run cs = .ok e') : e'.HasUnicode :=
  run_preserves HasUnicode.apply hu h

theorem HasUnicode.contains {e : Expression} (hu : e.HasUnicode) (hf : e.frames = [])
    (h : (Element.subexpression e.level.elements).requiresUnicode = true) :
    e.flags.contains .unicode = true := by
  rw [Element.requiresUnicode_subexpression, ← heads_of_frames_nil hf, List.any_eq_true] at h
  obtain ⟨n, hn, hun⟩ := h
  exact hu n hn hun

end Expression

end PatternBuilder

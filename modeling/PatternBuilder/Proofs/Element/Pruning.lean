import PatternBuilder.Element.Source
import PatternBuilder.Proofs.Expression.Heads

namespace PatternBuilder

def Composite.isChoice : Composite → Bool
  | anyOf | anythingBut => true
  | _ => false

namespace Element

mutual

/-- The element without those below it that are not written; `choices` keeps them where they are
the members of a choice. -/
def prune (choices : Bool) : Element → Element
  | quantified q e => quantified q (prune choices e)
  | composite kind es => composite kind (pruneAll choices (choices && kind.isChoice) es)
  | subexpression es => subexpression (pruneAll choices false es)
  | e => e

def pruneAll (choices keep : Bool) : List Element → List Element
  | [] => []
  | e :: es =>
    if !keep && e.isInvisible then pruneAll choices keep es
    else prune choices e :: pruneAll choices keep es

end

variable {choices keep : Bool} {e f : Element} {es : List Element}

theorem pruneAll_cons_of_invisible (h : e.isInvisible = true) :
    pruneAll choices false (e :: es) = pruneAll choices false es := by
  simp [pruneAll, h]

theorem pruneAll_cons_of_visible (h : e.isInvisible = false) :
    pruneAll choices keep (e :: es) = prune choices e :: pruneAll choices keep es := by
  simp [pruneAll, h]

theorem pruneAll_true (es : List Element) :
    pruneAll choices true es = es.map (prune choices) := by
  induction es with
  | nil => rfl
  | cons e es ih => simp [pruneAll, ih]

theorem pruneAll_append (es fs : List Element) :
    pruneAll choices keep (es ++ fs) = pruneAll choices keep es ++ pruneAll choices keep fs := by
  induction es with
  | nil => rfl
  | cons e es ih =>
    rw [List.cons_append, pruneAll, pruneAll, ih]
    split <;> rfl

theorem allInvisible_pruneAll (h : ∀ e ∈ es, (prune choices e).isInvisible = e.isInvisible) :
    allInvisible (pruneAll choices false es) = allInvisible es := by
  induction es with
  | nil => rfl
  | cons e es ih =>
    have ih := ih fun f hf ↦ h f (List.mem_cons_of_mem e hf)
    cases hv : e.isInvisible with
    | true => rw [pruneAll_cons_of_invisible hv, ih, allInvisible, hv, Bool.true_and]
    | false =>
      rw [pruneAll_cons_of_visible hv, allInvisible, allInvisible, h e List.mem_cons_self, hv,
        Bool.false_and, Bool.false_and]

theorem isInvisible_prune (e : Element) : (prune choices e).isInvisible = e.isInvisible := by
  induction e with
  | subexpression es ih =>
    rw [prune, isInvisible, isInvisible]
    exact allInvisible_pruneAll ih
  | _ => rfl

theorem pruneAll_singleton_congr (h : prune choices e = prune choices f) :
    pruneAll choices keep [e] = pruneAll choices keep [f] := by
  have hv : e.isInvisible = f.isInvisible :=
    (isInvisible_prune e).symm.trans ((congrArg isInvisible h).trans (isInvisible_prune f))
  simp only [pruneAll, h, hv]

theorem lastEndsInNumber_of_allInvisible (hes : allInvisible es = true)
    (h : ∀ e ∈ es, e.isInvisible = true → e.endsInNumber = false) :
    lastEndsInNumber es = false := by
  cases es with
  | nil => rfl
  | cons e es =>
    rw [allInvisible, Bool.and_eq_true] at hes
    rw [lastEndsInNumber, if_pos hes.2]
    exact h e List.mem_cons_self hes.1

theorem endsInNumber_of_isInvisible (h : e.isInvisible = true) : e.endsInNumber = false := by
  induction e with
  | noop => rfl
  | subexpression es ih =>
    rw [isInvisible] at h
    rw [endsInNumber]
    exact lastEndsInNumber_of_allInvisible h ih
  | _ => cases h

theorem lastEndsInNumber_pruneAll
    (h : ∀ e ∈ es, (prune choices e).endsInNumber = e.endsInNumber) :
    lastEndsInNumber (pruneAll choices false es) = lastEndsInNumber es := by
  induction es with
  | nil => rfl
  | cons e es ih =>
    have ih := ih fun f hf ↦ h f (List.mem_cons_of_mem e hf)
    cases hv : e.isInvisible with
    | true =>
      rw [pruneAll_cons_of_invisible hv, ih, lastEndsInNumber, endsInNumber_of_isInvisible hv]
      split
      · rename_i hes
        exact lastEndsInNumber_of_allInvisible hes fun f _ ↦ endsInNumber_of_isInvisible
      · rfl
    | false =>
      rw [pruneAll_cons_of_visible hv, lastEndsInNumber, lastEndsInNumber, ih,
        allInvisible_pruneAll fun f _ ↦ isInvisible_prune f, h e List.mem_cons_self]

theorem endsInNumber_prune (e : Element) : (prune choices e).endsInNumber = e.endsInNumber := by
  induction e with
  | subexpression es ih =>
    rw [prune, endsInNumber, endsInNumber]
    exact lastEndsInNumber_pruneAll ih
  | _ => rfl

theorem needsGroup_prune (e : Element) : (prune choices e).needsGroup = e.needsGroup := by
  cases e <;> rfl

theorem classBody?_prune (e : Element) : (prune choices e).classBody? = e.classBody? := by
  cases e <;> rfl

theorem sequenceText_of_allInvisible (hes : allInvisible es = true)
    (h : ∀ e ∈ es, e.isInvisible = true → e.text = []) : Piece.sequence (pieces es) = [] := by
  induction es with
  | nil => rfl
  | cons e es ih =>
    rw [allInvisible, Bool.and_eq_true] at hes
    rw [pieces, Piece.sequence, ih hes.2 fun f hf ↦ h f (List.mem_cons_of_mem e hf),
      endsInNumber_of_isInvisible hes.1, h e List.mem_cons_self hes.1]
    rfl

theorem text_of_isInvisible (h : e.isInvisible = true) : e.text = [] := by
  induction e with
  | noop => rfl
  | subexpression es ih =>
    rw [isInvisible] at h
    rw [text]
    exact sequenceText_of_allInvisible h ih
  | _ => cases h

theorem flatMap_text_pruneAll (h : ∀ e ∈ es, (prune choices e).text = e.text) :
    (pieces (pruneAll choices false es)).flatMap Piece.text = (pieces es).flatMap Piece.text := by
  induction es with
  | nil => rfl
  | cons e es ih =>
    have ih := ih fun f hf ↦ h f (List.mem_cons_of_mem e hf)
    cases hv : e.isInvisible with
    | true =>
      rw [pruneAll_cons_of_invisible hv, ih, pieces, List.flatMap_cons, text_of_isInvisible hv,
        List.nil_append]
    | false =>
      rw [pruneAll_cons_of_visible hv, pieces, pieces, List.flatMap_cons, List.flatMap_cons, ih,
        h e List.mem_cons_self]

theorem sequence_pruneAll (h : ∀ e ∈ es, (prune choices e).text = e.text) :
    Piece.sequence (pieces (pruneAll choices false es)) = Piece.sequence (pieces es) := by
  induction es with
  | nil => rfl
  | cons e es ih =>
    have h' : ∀ f ∈ es, (prune choices f).text = f.text :=
      fun f hf ↦ h f (List.mem_cons_of_mem e hf)
    cases hv : e.isInvisible with
    | true =>
      rw [pruneAll_cons_of_invisible hv, ih h', pieces, Piece.sequence,
        endsInNumber_of_isInvisible hv, text_of_isInvisible hv]
      rfl
    | false =>
      rw [pruneAll_cons_of_visible hv, pieces, pieces, Piece.sequence, Piece.sequence, ih h',
        flatMap_text_pruneAll h', endsInNumber_prune, h e List.mem_cons_self]

theorem fused_map_prune (es : List Element) :
    Piece.fused (pieces (es.map (prune choices))) = Piece.fused (pieces es) := by
  simp only [Piece.fused, pieces_eq_map, List.flatMap_map, classBody?_prune]

theorem unfused_map_prune (h : ∀ e ∈ es, (prune choices e).text = e.text) :
    Piece.unfused (pieces (es.map (prune choices))) = Piece.unfused (pieces es) := by
  induction es with
  | nil => rfl
  | cons e es ih =>
    have ih := ih fun f hf ↦ h f (List.mem_cons_of_mem e hf)
    simp only [Piece.unfused, List.map_cons, pieces, List.filter_cons, classBody?_prune] at ih ⊢
    split
    · rw [List.map_cons, List.map_cons, ih, h e List.mem_cons_self]
    · exact ih

theorem text_pruneAll (h : ∀ e ∈ es, (prune true e).text = e.text) (kind : Composite) :
    kind.text (pieces (pruneAll true kind.isChoice es)) = kind.text (pieces es) := by
  cases kind with
  | anyOf =>
    simp only [Composite.text, Composite.isChoice, pruneAll_true, Piece.anyOf, fused_map_prune,
      unfused_map_prune h]
  | anythingBut =>
    simp only [Composite.text, Composite.isChoice, pruneAll_true, Piece.anythingBut,
      fused_map_prune, unfused_map_prune h]
  | _ => simp only [Composite.text, Composite.isChoice, sequence_pruneAll h]

/-- Elements that are not written make no difference in a sequence, wherever it stands. -/
theorem text_prune (e : Element) : (prune true e).text = e.text := by
  induction e with
  | quantified q e ih => rw [prune, text, text, ih, needsGroup_prune]
  | composite kind es ih =>
    rw [prune, text, text]
    exact text_pruneAll ih kind
  | subexpression es ih =>
    rw [prune, text, text]
    exact sequence_pruneAll ih
  | _ => rfl

theorem patternText_pruneAll (es : List Element) :
    patternText (pruneAll true false es) = patternText es := by
  rw [patternText, sequenceText, sequence_pruneAll fun e _ ↦ text_prune e, patternText,
    sequenceText]

def isTelling : Element → Bool
  | noop | subexpression _ => false
  | _ => true

theorem filter_heads_of_allInvisible (hes : allInvisible es = true)
    (h : ∀ e ∈ es, e.isInvisible = true → (heads [e]).filter isTelling = []) :
    (heads es).filter isTelling = [] := by
  induction es with
  | nil => rfl
  | cons e es ih =>
    rw [allInvisible, Bool.and_eq_true] at hes
    rw [← List.singleton_append, heads_append, List.filter_append, h e List.mem_cons_self hes.1,
      ih hes.2 fun f hf ↦ h f (List.mem_cons_of_mem e hf), List.append_nil]

theorem filter_heads_of_isInvisible (h : e.isInvisible = true) :
    (heads [e]).filter isTelling = [] := by
  induction e with
  | noop => rfl
  | subexpression es ih =>
    rw [isInvisible] at h
    rw [heads_subexpression, List.filter_cons_of_neg (by simp [isTelling])]
    exact filter_heads_of_allInvisible h ih
  | _ => cases h

theorem filter_heads_pruneAll (h : ∀ e ∈ es, (heads [prune choices e]).filter isTelling =
    (heads [e]).filter isTelling) :
    (heads (pruneAll choices keep es)).filter isTelling = (heads es).filter isTelling := by
  induction es with
  | nil => rfl
  | cons e es ih =>
    have ih := ih fun f hf ↦ h f (List.mem_cons_of_mem e hf)
    rw [← List.singleton_append, heads_append, List.filter_append, ← ih, pruneAll_append,
      heads_append, List.filter_append]
    refine congrArg (· ++ _) ?_
    rw [pruneAll]
    split
    · rename_i hv
      rw [filter_heads_of_isInvisible (Bool.and_eq_true_iff.mp hv).2]
      rfl
    · exact h e List.mem_cons_self

theorem filter_heads_prune (e : Element) :
    (heads [prune choices e]).filter isTelling = (heads [e]).filter isTelling := by
  induction e with
  | quantified q e ih =>
    rw [prune, heads_singleton, heads_singleton]
    exact congrArg (_ :: ·) ih
  | composite kind es ih =>
    rw [prune, heads_composite, heads_composite]
    exact congrArg (_ :: ·) (filter_heads_pruneAll ih)
  | subexpression es ih =>
    rw [prune, heads_subexpression, heads_subexpression]
    exact filter_heads_pruneAll ih
  | _ => rfl

end Element

end PatternBuilder

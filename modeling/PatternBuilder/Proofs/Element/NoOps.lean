import Mathlib.Logic.Relation
import PatternBuilder.Proofs.Element.Decimals
import PatternBuilder.Proofs.Element.Pruning

namespace PatternBuilder

namespace Element

/-- What stands for nothing: a placeholder, or an expression in place that is made of nothing
else. -/
inductive IsNoOp : Element → Prop
  | noop : IsNoOp noop
  | subexpression {es : List Element} (h : ∀ e ∈ es, IsNoOp e) : IsNoOp (subexpression es)

mutual

/-- A new element is put in at one place: between the elements of the list, unless the list is
`fixed`, or into a sequence below one of them. -/
inductive Inserts (new : Element) : Bool → List Element → List Element → Prop
  | here (before after : List Element) :
      Inserts new false (before ++ after) (before ++ new :: after)
  | inside {fixed : Bool} (before after : List Element) {e f : Element}
      (h : InsertsBelow new e f) : Inserts new fixed (before ++ e :: after) (before ++ f :: after)

/-- A new element is put into a sequence below the element. The members of a choice are no
sequence, but there may be sequences below them. -/
inductive InsertsBelow (new : Element) : Element → Element → Prop
  | quantified (q : Quantifier) {e f : Element} (h : InsertsBelow new e f) :
      InsertsBelow new (.quantified q e) (.quantified q f)
  | composite (kind : Composite) {es fs : List Element} (h : Inserts new kind.isChoice es fs) :
      InsertsBelow new (.composite kind es) (.composite kind fs)
  | subexpression {es fs : List Element} (h : Inserts new false es fs) :
      InsertsBelow new (.subexpression es) (.subexpression fs)

end

/-- Any number of elements that stand for nothing are put in, one after the other. -/
def Insertions {α : Type} (step : Element → α → α → Prop) : α → α → Prop :=
  Relation.ReflTransGen fun x y ↦ ∃ new : Element, new.IsNoOp ∧ step new x y

variable {new e f : Element} {es fs : List Element} {fixed : Bool}

theorem allInvisible_eq_true : allInvisible es = true ↔ ∀ e ∈ es, e.isInvisible = true := by
  induction es with
  | nil => exact iff_of_true rfl fun _ h ↦ absurd h List.not_mem_nil
  | cons e es ih => rw [allInvisible, Bool.and_eq_true, ih, List.forall_mem_cons]

theorem isNoOp_iff : e.IsNoOp ↔ e.isInvisible = true := by
  constructor
  · intro h
    induction h with
    | noop => rfl
    | subexpression _ ih => exact allInvisible_eq_true.mpr ih
  · intro h
    induction e with
    | noop => exact .noop
    | subexpression es ih =>
      have hes := allInvisible_eq_true.mp h
      exact .subexpression fun e he ↦ ih e he (hes e he)
    | _ => cases h

theorem pruneAll_replace {choices keep : Bool} (h : prune choices e = prune choices f)
    (before after : List Element) :
    pruneAll choices keep (before ++ e :: after) =
      pruneAll choices keep (before ++ f :: after) := by
  rw [← List.singleton_append, ← List.singleton_append (x := f), pruneAll_append, pruneAll_append,
    pruneAll_append, pruneAll_append, pruneAll_singleton_congr h]

mutual

/-- Wherever it was put, what stands for nothing is gone again once the tree is pruned. -/
theorem Inserts.pruneAll_eq {es fs : List Element} {fixed : Bool} (hn : new.IsNoOp) :
    Inserts new fixed es fs → pruneAll true fixed es = pruneAll true fixed fs
  | .here before after => by
    rw [pruneAll_append, pruneAll_append, pruneAll_cons_of_invisible (isNoOp_iff.mp hn)]
  | .inside before after h => pruneAll_replace (h.prune_eq hn) before after

theorem InsertsBelow.prune_eq {e f : Element} (hn : new.IsNoOp) :
    InsertsBelow new e f → prune true e = prune true f
  | .quantified q h => congrArg (Element.quantified q) (h.prune_eq hn)
  | .composite kind h => congrArg (Element.composite kind) (h.pruneAll_eq hn)
  | .subexpression h => congrArg Element.subexpression (h.pruneAll_eq hn)

end

theorem pruneAll_eq_of_insertions (h : Insertions (Inserts · fixed) es fs) :
    pruneAll true fixed es = pruneAll true fixed fs := by
  induction h with
  | refl => rfl
  | tail _ h ih =>
    obtain ⟨new, hn, h⟩ := h
    exact ih.trans (h.pruneAll_eq hn)

theorem patternText_congr (h : pruneAll true false es = pruneAll true false fs) :
    patternText fs = patternText es := by
  rw [← patternText_pruneAll fs, ← h, patternText_pruneAll]

/-- However many elements that stand for nothing are put in, and wherever, the pattern stays the
same, with the groups around its numbers and the one that stands for a pattern without text. -/
theorem patternText_of_insertions (h : Insertions (Inserts · false) es fs) :
    patternText fs = patternText es :=
  patternText_congr (pruneAll_eq_of_insertions h)

theorem patternText_of_insertions_behind_number :
    ∃ es fs, Insertions (Inserts · false) es fs ∧
      es = [subexpression [backreference 1], char '0', quantified .optional (composite .anyOf
        [char 'x', composite .group [atom .nullByte, char '1']])] ∧
      fs = [subexpression [backreference 1, noop], subexpression [noop], char '0',
        quantified .optional (composite .anyOf
          [char 'x', composite .group [atom .nullByte, subexpression [], char '1']])] ∧
      String.ofList (patternText fs) = "(?:\\1)0(?:(?:(?:\\0)1)|[x])?" ∧
      patternText fs = patternText es := by
  let number (es : List Element) := subexpression (backreference 1 :: es)
  let choice (es : List Element) := quantified .optional (composite .anyOf
    [char 'x', composite .group ([atom .nullByte] ++ es)])
  have hlast : Inserts noop false [number [], char '0', choice [char '1']]
      [number [noop], char '0', choice [char '1']] :=
    .inside [] _ (.subexpression (.here [backreference 1] []))
  have hbetween : Inserts (subexpression [noop]) false
      [number [noop], char '0', choice [char '1']]
      [number [noop], subexpression [noop], char '0', choice [char '1']] :=
    .here [number [noop]] _
  have hinside : Inserts (subexpression []) false
      [number [noop], subexpression [noop], char '0', choice [char '1']]
      [number [noop], subexpression [noop], char '0', choice [subexpression [], char '1']] :=
    .inside [_, _, _] [] (.quantified .optional
      (.composite .anyOf (.inside [_] [] (.composite .group (.here [atom .nullByte] _)))))
  have hnoop : (subexpression [noop]).IsNoOp := .subexpression (by simpa using IsNoOp.noop)
  have hempty : (subexpression []).IsNoOp := .subexpression (by simp)
  have h : Insertions (Inserts · false) [number [], char '0', choice [char '1']]
      [number [noop], subexpression [noop], char '0', choice [subexpression [], char '1']] :=
    ((Relation.ReflTransGen.single ⟨_, .noop, hlast⟩).tail ⟨_, hnoop, hbetween⟩).tail
      ⟨_, hempty, hinside⟩
  exact ⟨_, _, h, rfl, rfl, by decide, patternText_of_insertions h⟩

theorem exists_endsInNumber (h : lastEndsInNumber es = true) :
    ∃ e ∈ es, e.endsInNumber = true := by
  induction es with
  | nil => cases h
  | cons e es ih =>
    rw [lastEndsInNumber] at h
    split at h
    · exact ⟨e, List.mem_cons_self, h⟩
    · obtain ⟨f, hf, hn⟩ := ih h
      exact ⟨f, List.mem_cons_of_mem e hf, hn⟩

theorem endsInNumber_of_text_eq_nil (h : e.text = []) : e.endsInNumber = false := by
  induction e with
  | atom a => cases a <;> first | rfl | cases h
  | backreference i => cases h
  | subexpression es ih =>
    rw [text, Piece.sequence_eq_nil_iff, flatMap_text_pieces, List.flatMap_eq_nil_iff] at h
    rw [endsInNumber, Bool.eq_false_iff]
    intro hlast
    obtain ⟨e, he, hn⟩ := exists_endsInNumber hlast
    exact Bool.eq_false_iff.mp (ih e he (h e he)) hn
  | _ => rfl

theorem sequenceText_cons (h : e.endsInNumber = false) (es : List Element) :
    sequenceText (e :: es) = e.text ++ sequenceText es := by
  rw [sequenceText, pieces, Piece.sequence, h]
  rfl

theorem sequenceText_singleton (e : Element) : sequenceText [e] = e.text := by
  simp [sequenceText, pieces, Piece.sequence, startsWithDigit]

/-- What is written as nothing without standing for nothing, such as an empty text, hides that an
expression in place ends in a number. -/
theorem patternText_number_hidden (ht : e.text = []) (hv : e.isInvisible = false) :
    patternText [subexpression [backreference 1, e], char '0'] = "\\10".toList := by
  have hlast : (subexpression [backreference 1, e]).endsInNumber = false := by
    have hends := endsInNumber_of_text_eq_nil ht
    simp [endsInNumber, lastEndsInNumber, allInvisible, hv, hends]
  have hnumber : (subexpression [backreference 1, e]).text = ['\\', '1'] := by
    have hempty : startsWithDigit ((pieces [e]).flatMap Piece.text) = false := by
      simp [flatMap_text_pieces, ht, startsWithDigit]
    rw [text, pieces, Piece.sequence, hempty, Bool.and_false]
    exact congrArg (['\\', '1'] ++ ·) ((sequenceText_singleton e).trans ht)
  rw [patternText, sequenceText_cons hlast, hnumber]
  rfl

theorem isNoOp_iff_forall_inserts : new.IsNoOp ↔
    ∀ es fs, Inserts new false es fs → patternText fs = patternText es := by
  constructor
  · exact fun hn es fs h ↦ patternText_congr (h.pruneAll_eq hn)
  intro h
  have htext : new.text = [] := by
    have hbehind : patternText [char 'a', new] = 'a' :: new.text := by
      rw [patternText, sequenceText_cons rfl, sequenceText_singleton]
      rfl
    have hsame := h [char 'a'] _ (.here [char 'a'] [])
    rw [List.singleton_append, hbehind] at hsame
    exact List.tail_eq_of_cons_eq hsame
  by_contra hn
  have hhidden := patternText_number_hidden htext (Bool.eq_false_iff.mpr (mt isNoOp_iff.mpr hn))
  have hprotected : patternText [subexpression [backreference 1], char '0'] =
      "(?:\\1)0".toList := by decide
  have hsame := h [subexpression [backreference 1], char '0'] _
    (.inside [] _ (.subexpression (.here [backreference 1] [])))
  rw [hprotected] at hsame
  exact absurd (hhidden.symm.trans hsame) (by decide)

theorem Insertions.lift {α β : Type} {step : Element → α → α → Prop}
    {step' : Element → β → β → Prop} {x y : α} (h : Insertions step x y) (g : α → β)
    (hg : ∀ new x y, step new x y → step' new (g x) (g y)) : Insertions step' (g x) (g y) := by
  refine Relation.ReflTransGen.lift g ?_ _ _ h
  rintro x y ⟨new, hn, hs⟩
  exact ⟨new, hn, hg new x y hs⟩

theorem Inserts.cons (h : Inserts new fixed es fs) (e : Element) :
    Inserts new fixed (e :: es) (e :: fs) := by
  cases h with
  | here before after => exact .here (e :: before) after
  | inside before after h => exact .inside (e :: before) after h

theorem insertions_pruneAll_of (h : ∀ e ∈ es, Insertions InsertsBelow (prune true e) e)
    (fixed : Bool) : Insertions (Inserts · fixed) (pruneAll true fixed es) es := by
  induction es with
  | nil => exact .refl
  | cons e es ih =>
    have ih := ih fun f hf ↦ h f (List.mem_cons_of_mem e hf)
    rw [pruneAll]
    split
    · rename_i hv
      obtain ⟨hfixed, hv⟩ := Bool.and_eq_true_iff.mp hv
      obtain rfl : fixed = false := by simpa using hfixed
      exact ih.tail ⟨e, isNoOp_iff.mpr hv, .here [] es⟩
    · have hrest := ih.lift (prune true e :: ·) fun _ _ _ hi ↦ hi.cons _
      have hfirst : Insertions (Inserts · fixed) (prune true e :: es) (e :: es) :=
        (h e List.mem_cons_self).lift (· :: es) fun _ _ _ hi ↦ .inside [] es hi
      exact hrest.trans hfirst

theorem insertions_prune (e : Element) : Insertions InsertsBelow (prune true e) e := by
  induction e with
  | quantified q e ih => exact ih.lift (Element.quantified q) fun _ _ _ hi ↦ .quantified q hi
  | composite kind es ih =>
    have hes := insertions_pruneAll_of ih kind.isChoice
    exact hes.lift (Element.composite kind) fun _ _ _ hi ↦ .composite kind hi
  | subexpression es ih =>
    have hes := insertions_pruneAll_of ih false
    exact hes.lift Element.subexpression fun _ _ _ hi ↦ .subexpression hi
  | _ => exact .refl

theorem insertions_pruneAll (es : List Element) :
    Insertions (Inserts · false) (pruneAll true false es) es :=
  insertions_pruneAll_of (fun e _ ↦ insertions_prune e) false

/-- Pruning undoes insertions and nothing more: two trees are pruned to the same just if both come
from one tree by insertions. -/
theorem pruneAll_eq_iff : pruneAll true false es = pruneAll true false fs ↔
    ∃ gs, Insertions (Inserts · false) gs es ∧ Insertions (Inserts · false) gs fs := by
  constructor
  · exact fun h ↦ ⟨_, insertions_pruneAll es, h ▸ insertions_pruneAll fs⟩
  · rintro ⟨gs, hes, hfs⟩
    exact (pruneAll_eq_of_insertions hes).symm.trans (pruneAll_eq_of_insertions hfs)

end Element

end PatternBuilder

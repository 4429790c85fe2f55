import PatternBuilder.Proofs.Expression.Tree

namespace PatternBuilder

def Call.spliced? : Call → Option Expression
  | splice other _ => some other
  | _ => none

namespace Element

variable {gs : List (Option String)}

theorem allResolve_quantifiedBy {el : Element} (q : Option Quantifier) :
    AllResolve gs (heads [el.quantifiedBy q]) ↔ AllResolve gs (heads [el]) := by
  rw [heads_quantifiedBy]
  cases q with
  | none => rfl
  | some q => simp [quantifierHead, AllResolve, Resolves, group?]

theorem allResolve_singleton {n : Element} : AllResolve gs [n] ↔ n.Resolves gs :=
  and_iff_left trivial

end Element

namespace Expression

/-- What comes from the empty expression by finitely many steps, each of which may put in
another such expression. -/
inductive Reachable [Property.Engine] : Expression → Prop
  | empty : Reachable empty
  | step {e e' : Expression} {c : Call} (he : Reachable e)
      (hc : ∀ other, c.spliced? = some other → Reachable other) (h : e.apply c = .ok e') :
      Reachable e'

/-- The registry knows the groups of the tree, and every reference finds its group there. -/
structure Consistent (e : Expression) : Prop where
  records : e.registry.Records e.heads
  resolves : Element.AllResolve [] e.heads

variable {e e' : Expression}

theorem Reachable.run [Property.Engine] (he : e.Reachable) (cs : List Call)
    (hc : ∀ c ∈ cs, ∀ other, c.spliced? = some other → other.Reachable)
    (h : e.run cs = .ok e') : e'.Reachable := by
  induction cs generalizing e with
  | nil =>
    cases h
    exact he
  | cons c cs ih =>
    obtain ⟨e₁, h₁, hrest⟩ := run_cons.mp h
    exact ih (.step he (hc c List.mem_cons_self) h₁) (fun d hd ↦
      hc d (List.mem_cons_of_mem _ hd)) hrest

theorem Reachable.adopt_heads [Property.Engine] (h : e.Reachable) :
    e.heads.foldlM Registry.adopt {} = .ok e.registry := by
  induction h with
  | empty => rfl
  | step _ _ h ih =>
    rw [heads_apply h]
    exact foldlM_append_eq_ok.mpr ⟨_, ih, adopt_addition h⟩

theorem Consistent.resolves_of_finds (he : e.Consistent) {el : Element} (h : e.Finds el) :
    el.Resolves (Element.groups e.heads) := by
  cases el with
  | backreference i =>
    obtain ⟨hi, hle⟩ := h
    refine ⟨hi, ?_⟩
    rw [← he.records.captureCount_eq]
    exact hle
  | namedBackreference name =>
    have hn : name ∈ e.groupNames := h
    rwa [groupNames, he.records.names_eq, List.reduceOption_mem_iff] at hn
  | _ => trivial

variable [Property.Engine]

theorem Consistent.addition (he : e.Consistent) {c : Call}
    (hc : ∀ other, c.spliced? = some other → other.Consistent) (h : e.apply c = .ok e') :
    Element.AllResolve (Element.groups e.heads) (Element.heads (e.addition c)) := by
  cases apply_eq_ok.mp h with
  | setFlag f | close | quantify => trivial
  | @leaf _ el hl _ hr =>
    rw [addition_of_leaf? hl, Element.allResolve_quantifiedBy,
      Element.heads_of_isLeaf (Call.isLeaf_of_leaf? hl), Element.allResolve_singleton]
    exact he.resolves_of_finds hr
  | anchor => exact Element.allResolve_singleton.mpr trivial
  | openComposite =>
    exact (Element.allResolve_quantifiedBy _).mpr (Element.allResolve_singleton.mpr trivial)
  | @splice other options _ hf =>
    have ho : Element.AllResolve [] (Element.heads other.level.elements) := by
      simpa [heads, tree, hf, treeFrom] using (hc other rfl).resolves
    refine (Element.allResolve_quantifiedBy _).mpr ?_
    rw [Element.heads_subexpression]
    refine ⟨trivial, ?_⟩
    simpa [splicedElements, Element.heads_relocateAll, Element.group?] using
      ho.relocate options e.captureCount he.records.captureCount_eq.symm

theorem Consistent.apply (he : e.Consistent) {c : Call}
    (hc : ∀ other, c.spliced? = some other → other.Consistent) (h : e.apply c = .ok e') :
    e'.Consistent where
  records := by
    rw [heads_apply h]
    exact he.records.foldlM (adopt_addition h)
  resolves := by
    rw [heads_apply h, Element.allResolve_append]
    exact ⟨he.resolves, he.addition hc h⟩

theorem Reachable.consistent (h : e.Reachable) : e.Consistent := by
  induction h with
  | empty => exact ⟨.nil, trivial⟩
  | step _ _ h ih ihc => exact ih.apply ihc h

end Expression

end PatternBuilder

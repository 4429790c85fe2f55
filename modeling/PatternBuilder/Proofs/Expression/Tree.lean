import PatternBuilder.Proofs.Expression.Steps
import PatternBuilder.Proofs.Expression.Records

namespace PatternBuilder

namespace Expression

/-- The elements inside the innermost open composite, followed outwards: every open composite
stands in its place as if it ended here. -/
def treeFrom (elements : List Element) : List Frame → List Element
  | [] => elements
  | ⟨kind, outer⟩ :: frames =>
    treeFrom (outer.elements ++ [(Element.composite kind elements).quantifiedBy outer.pending])
      frames

def tree (e : Expression) : List Element := treeFrom e.level.elements e.frames

/-- The nodes of the tree in preorder, each by itself. -/
def heads (e : Expression) : List Element := Element.heads e.tree

/-- The capture groups level by level: what an open composite is, then what it holds. -/
def groups (e : Expression) : List (Option String) :=
  e.levels.flatMap fun (kind, level) ↦
    (kind.bind fun k ↦ (Element.composite k []).group?).toList ++
      Element.groups (Element.nodesAll level.elements)

def elements (e : Expression) : List Element := e.levels.flatMap fun (_, level) ↦ level.elements

def allNodes (e : Expression) : List Element := Element.nodesAll e.elements

/-- What a step adds behind everything that is there already. -/
def addition [Property.Engine] (e : Expression) : Call → List Element
  | .setFlag _ | .close | .quantify _ => []
  | .atom a => [(Element.atom a).quantifiedBy e.level.pending]
  | .boundary b => [(Element.boundary b).quantifiedBy e.level.pending]
  | .anchor a => [.anchor a]
  | .literal l => (l.element.toOption.map (·.quantifiedBy e.level.pending)).toList
  | .backreference i => [(Element.backreference i).quantifiedBy e.level.pending]
  | .namedBackreference name => [(Element.namedBackreference name).quantifiedBy e.level.pending]
  | .openComposite kind => [(Element.composite kind []).quantifiedBy e.level.pending]
  | .splice other options =>
    [(Element.subexpression (e.splicedElements other options)).quantifiedBy e.level.pending]

theorem heads_treeFrom_append (es fs : List Element) (frames : List Frame) :
    Element.heads (treeFrom (es ++ fs) frames) =
      Element.heads (treeFrom es frames) ++ Element.heads fs := by
  induction frames generalizing es fs with
  | nil => exact Element.heads_append es fs
  | cons frame frames ih =>
    obtain ⟨kind, outer⟩ := frame
    have hc : Element.heads [(Element.composite kind (es ++ fs)).quantifiedBy outer.pending] =
        Element.heads [(Element.composite kind es).quantifiedBy outer.pending] ++
          Element.heads fs := by
      rw [Element.heads_quantifiedBy, Element.heads_quantifiedBy, Element.heads_composite,
        Element.heads_composite, Element.heads_append, List.append_assoc, List.cons_append]
    -- the innermost elements come last in preorder, however many composites are open
    rw [treeFrom, ih, hc, ← List.append_assoc, ← ih, treeFrom]

variable {e e' : Expression}

theorem heads_of_frames_nil (h : e.frames = []) : e.heads = Element.heads e.level.elements := by
  rw [heads, tree, h, treeFrom]

theorem elements_of_frames_nil (hf : e.frames = []) : e.elements = e.level.elements := by
  simp [elements, levels, hf, levelsFrom]

theorem heads_push (e : Expression) (el : Element) :
    (e.push el).heads = e.heads ++ Element.heads [el.quantifiedBy e.level.pending] :=
  heads_treeFrom_append _ _ _

theorem heads_setUnicodeFor (e : Expression) (el : Element) :
    (e.setUnicodeFor el).heads = e.heads := by
  unfold setUnicodeFor
  split <;> rfl

theorem registry_setUnicodeFor (e : Expression) (el : Element) :
    (e.setUnicodeFor el).registry = e.registry := by
  unfold setUnicodeFor
  split <;> rfl

theorem addition_of_leaf? [Property.Engine] {c : Call} {el : Element} (hc : c.leaf? = some el) :
    e.addition c = [el.quantifiedBy e.level.pending] := by
  cases c with
  | literal l =>
    rw [addition, toOption_eq_some.mp hc]
    rfl
  | atom a | boundary b | backreference i | namedBackreference name =>
    cases hc
    rfl
  | _ => cases hc

/-- Every step only adds nodes behind those that are there. -/
theorem heads_apply [Property.Engine] {c : Call} (h : e.apply c = .ok e') :
    e'.heads = e.heads ++ Element.heads (e.addition c) := by
  cases apply_eq_ok.mp h with
  | setFlag f => exact (List.append_nil _).symm
  | leaf hc =>
    rw [heads_setUnicodeFor, heads_push, addition_of_leaf? hc]
  | anchor => exact heads_treeFrom_append _ _ _
  | openComposite => exact heads_treeFrom_append _ _ _
  | close hf =>
    -- the composite stood in its place before it was closed
    simp only [addition, heads, tree, hf, treeFrom, Level.push, Element.heads, Element.nodesAll,
      List.map_nil, List.append_nil]
  | quantify => exact (List.append_nil _).symm
  | splice =>
    rw [heads_setUnicodeFor, heads_push]
    rfl

/-- The nodes of the outcome of a splice: those of the host, then the relocated ones. -/
theorem heads_splice [Property.Engine] {other : Expression} {options : SpliceOptions}
    (h : e.splice other options = .ok e') :
    e'.heads = e.heads ++ Element.quantifierHead e.level.pending ++
      [Element.subexpression []] ++
        other.heads.map (Element.relocate options e.captureCount) := by
  obtain ⟨hf, -⟩ := splice_eq_ok.mp h
  have ho := heads_of_frames_nil hf
  have ha := heads_apply (c := .splice other options) h
  rw [addition, Element.heads_quantifiedBy, Element.heads_subexpression, splicedElements,
    Element.heads_relocateAll, ← ho] at ha
  simpa using ha

theorem foldlM_splicedElements {other : Expression} (hf : other.frames = []) (e : Expression)
    (options : SpliceOptions) (r : Registry) :
    (Element.nodesAll (e.splicedElements other options)).foldlM Registry.adopt r =
      (other.heads.map (Element.relocate options e.captureCount)).foldlM Registry.adopt r := by
  rw [← Registry.foldlM_adopt_heads, splicedElements, Element.heads_relocateAll,
    heads_of_frames_nil hf]

/-- The registry takes note of what a step adds, in the order of the nodes. -/
theorem adopt_addition [Property.Engine] {c : Call} (h : e.apply c = .ok e') :
    (Element.heads (e.addition c)).foldlM Registry.adopt e.registry = .ok e'.registry := by
  cases apply_eq_ok.mp h with
  | setFlag f => rfl
  | leaf hc =>
    have hl := Call.isLeaf_of_leaf? hc
    rw [addition_of_leaf? hc, Registry.foldlM_adopt_quantifiedBy, Element.heads_of_isLeaf hl,
      registry_setUnicodeFor]
    exact Registry.foldlM_adopt_singleton.mpr ((Element.isBare_of_isLeaf hl).adopt _)
  | anchor hr => exact Registry.foldlM_adopt_singleton.mpr (Registry.addAnchor_eq_ok.mp hr)
  | openComposite hr =>
    refine (Registry.foldlM_adopt_quantifiedBy _ _ _).trans ?_
    exact Registry.foldlM_adopt_singleton.mpr hr
  | close => rfl
  | quantify => rfl
  | splice hf hp hr =>
    rw [← Registry.foldlM_adopt_heads] at hr
    rw [registry_setUnicodeFor]
    exact (Registry.foldlM_adopt_quantifiedBy _ _ _).trans
      ((congrArg (List.foldlM _ _) (Element.heads_subexpression _)).trans hr)

theorem heads_run [Property.Engine] {cs : List Call} (h : e.run cs = .ok e') :
    ∃ ns, e'.heads = e.heads ++ ns ∧ ns.foldlM Registry.adopt e.registry = .ok e'.registry := by
  induction cs generalizing e with
  | nil =>
    cases h
    exact ⟨[], (List.append_nil _).symm, rfl⟩
  | cons c cs ih =>
    obtain ⟨e₁, h₁, hrest⟩ := run_cons.mp h
    obtain ⟨ns, hns, hr⟩ := ih hrest
    refine ⟨Element.heads (e.addition c) ++ ns, ?_, ?_⟩
    · rw [hns, heads_apply h₁, List.append_assoc]
    · exact foldlM_append_eq_ok.mpr ⟨e₁.registry, adopt_addition h₁, hr⟩

theorem groups_treeFrom (level : Level) (frames : List Frame) :
    Element.groups (Element.heads (treeFrom level.elements frames)) =
      (levelsFrom level frames).reverse.flatMap fun (kind, level) ↦
        (kind.bind fun k ↦ (Element.composite k []).group?).toList ++
          Element.groups (Element.nodesAll level.elements) := by
  induction frames generalizing level with
  | nil => simp [treeFrom, levelsFrom, Element.groups_heads]
  | cons frame frames ih =>
    obtain ⟨kind, outer⟩ := frame
    rw [treeFrom, heads_treeFrom_append, Element.groups_append, ih outer, levelsFrom,
      List.reverse_cons, List.flatMap_append, Element.heads_quantifiedBy, Element.heads_composite,
      Element.groups_append, Element.groups_quantifierHead, Element.groups_cons,
      Element.groups_heads]
    simp

theorem filter_heads {p : Element → Bool} (hq : ∀ q, p (.quantified q .noop) = false)
    (hc : ∀ kind, p (.composite kind []) = false) (e : Expression) :
    e.heads.filter p = (e.allNodes.map Element.head).filter p := by
  have hwaiting (q : Option Quantifier) : (Element.quantifierHead q).filter p = [] := by
    cases q with
    | none => rfl
    | some q => exact List.filter_cons_of_neg (by simp [hq])
  have hlevels (level : Level) (frames : List Frame) :
      (Element.heads (treeFrom level.elements frames)).filter p =
        (Element.heads ((levelsFrom level frames).reverse.flatMap fun (_, l) ↦
          l.elements)).filter p := by
    induction frames generalizing level with
    | nil => simp [treeFrom, levelsFrom]
    | cons frame frames ih =>
      obtain ⟨kind, outer⟩ := frame
      rw [treeFrom, heads_treeFrom_append, List.filter_append, ih outer, levelsFrom,
        List.reverse_cons, List.flatMap_append, Element.heads_append, List.filter_append,
        Element.heads_quantifiedBy, Element.heads_composite, List.filter_append, hwaiting,
        List.nil_append, List.filter_cons_of_neg (by simp [hc])]
      simp
  exact hlevels e.level e.frames

theorem groups_heads (e : Expression) : Element.groups e.heads = e.groups :=
  groups_treeFrom e.level e.frames

end Expression

end PatternBuilder

import PatternBuilder.Proofs.Expression.Reachable

namespace PatternBuilder

namespace Element

def HasValidName : Element → Prop
  | namedBackreference name | composite (.namedCapture name) _ => isGroupName name = true
  | _ => True

theorem hasValidName_head {n : Element} : n.head.HasValidName ↔ n.HasValidName := by
  cases n with
  | composite kind es => cases kind <;> rfl
  | _ => rfl

variable [Property.Engine]

theorem IsValid.relocate {options : SpliceOptions} {offset : Nat} {n : Element} (h : n.IsValid)
    (hn : (n.relocate options offset).HasValidName) : (n.relocate options offset).IsValid := by
  cases n with
  | anchor a => cases ha : options.ignoreAnchors <;> simp [Element.relocate, ha, IsValid]
  | backreference i => exact Nat.add_pos_left h offset
  | namedBackreference name => exact hn
  | quantified q e =>
    obtain ⟨hq, hqe, hqd⟩ := h
    exact ⟨hq, (moved_relocate options offset e).isQuantifiable.trans hqe,
      (moved_relocate options offset e).isQuantified.trans hqd⟩
  | composite kind es =>
    cases kind with
    | namedCapture name => exact hn
    | _ => trivial
  | _ => exact h

theorem forall_isWellFormed_iff {es : List Element} :
    (∀ e ∈ es, e.IsWellFormed) ↔ ∀ n ∈ nodesAll es, n.IsValid := forall_nodesAll_iff.symm

theorem isWellFormed_relocateAll {options : SpliceOptions} {offset : Nat} {es : List Element}
    (h : ∀ e ∈ es, e.IsWellFormed)
    (hn : ∀ n ∈ heads (relocateAll options offset es), n.HasValidName) :
    ∀ e ∈ relocateAll options offset es, e.IsWellFormed := by
  rw [forall_isWellFormed_iff] at h ⊢
  intro m hm
  have hv : m.HasValidName := hasValidName_head.mp (hn _ (List.mem_map_of_mem hm))
  rw [nodesAll_relocate, List.mem_map] at hm
  obtain ⟨n, hmem, rfl⟩ := hm
  exact (h n hmem).relocate hv

theorem isValid_composite_iff {kind : Composite} {es : List Element} :
    (composite kind es).IsValid ↔ (composite kind es).HasValidName := by
  cases kind <;> rfl

theorem isWellFormed_of_children_nil {e : Element} (h : e.IsValid) (hc : e.children = []) :
    e.IsWellFormed := by
  rw [isWellFormed_iff, hc]
  exact ⟨h, fun c hc ↦ absurd hc List.not_mem_nil⟩

end Element

structure Level.IsWellFormed [Property.Engine] (l : Level) : Prop where
  elements : ∀ e ∈ l.elements, e.IsWellFormed
  pending : ∀ q, l.pending = some q → q.IsValid

namespace Level.IsWellFormed

variable {l : Level} {el : Element}

variable [Property.Engine]

theorem empty : ({} : Level).IsWellFormed where
  elements _ h := absurd h List.not_mem_nil
  pending _ h := nomatch h

theorem place (h : l.IsWellFormed) (he : el.IsWellFormed) : (l.place el).IsWellFormed where
  elements f hf := by
    rcases List.mem_append.mp hf with hf | hf
    · exact h.elements f hf
    · exact List.mem_singleton.mp hf ▸ he
  pending := h.pending

theorem push (h : l.IsWellFormed) (he : el.IsWellFormed) (ha : l.Admits el)
    (hq : el.isQuantified = false) : (l.push el).IsWellFormed where
  elements f hf := by
    rcases List.mem_append.mp hf with hf | hf
    · exact h.elements f hf
    · rw [List.mem_singleton.mp hf]
      cases hp : l.pending with
      | none => exact he
      | some q =>
        have hqe : el.isQuantifiable = true := ha.resolve_left (by simp [hp])
        exact Element.isWellFormed_iff.mpr
          ⟨⟨h.pending q hp, hqe, hq⟩, fun c hc ↦ List.mem_singleton.mp hc ▸ he⟩
  pending _ h := nomatch h

end Level.IsWellFormed

namespace Expression

variable {e e' : Expression}

theorem countError?_eq_none {q : Quantifier} : countError? q = none ↔ q.IsValid := by
  cases q with
  | exactly n => cases n <;> simp [countError?, Quantifier.IsValid]
  | atLeast n lazy => cases n <;> simp [countError?, Quantifier.IsValid]
  | _ => simp [countError?, Quantifier.IsValid]

theorem Consistent.hasValidName (h : e.Consistent) : ∀ n ∈ e.heads, n.HasValidName := by
  intro n hn
  have hv : ∀ name, some name ∈ Element.groups e.heads → isGroupName name = true := by
    intro name hname
    refine h.records.valid name ?_
    rwa [h.records.names_eq, List.reduceOption_mem_iff]
  obtain ⟨before, after, hb⟩ := List.append_of_mem hn
  have hg : Element.groups e.heads =
      Element.groups before ++ (n.group?.toList ++ Element.groups after) := by
    rw [hb, Element.groups_append, Element.groups_cons]
  cases n with
  | namedBackreference name =>
    exact hv name (hg ▸ List.mem_append_left _ (h.resolves.resolves hb))
  | composite kind es =>
    cases kind with
    | namedCapture name => exact hv name (by simp [hg, Element.group?])
    | _ => trivial
  | _ => trivial

variable [Property.Engine]

structure IsWellFormed (e : Expression) : Prop where
  level : e.level.IsWellFormed
  frames : ∀ f ∈ e.frames, (Element.composite f.kind []).IsValid ∧ f.outer.IsWellFormed

theorem IsWellFormed.push (h : e.IsWellFormed) {el : Element} (hel : el.IsWellFormed)
    (ha : e.level.Admits el) (hq : el.isQuantified = false) : (e.push el).IsWellFormed :=
  ⟨h.level.push hel ha hq, h.frames⟩

theorem IsWellFormed.setUnicodeFor (h : e.IsWellFormed) (el : Element) :
    (e.setUnicodeFor el).IsWellFormed := by
  unfold Expression.setUnicodeFor
  split <;> exact ⟨h.level, h.frames⟩

theorem isValid_of_leaf? {c : Call} {el : Element} (hl : c.leaf? = some el) (hr : e.Finds el)
    (hn : el.HasValidName) : el.IsValid := by
  cases el with
  | backreference i => exact hr.1
  | namedBackreference name => exact hn
  | _ => exact Call.isValid_of_leaf? hl rfl

/-- Every step keeps the elements well-formed, if the names of the outcome are valid. -/
theorem IsWellFormed.apply (he : e.IsWellFormed) {c : Call} (h : e.apply c = .ok e')
    (hc : ∀ other, c.spliced? = some other → other.IsWellFormed)
    (hn : ∀ n ∈ e'.heads, n.HasValidName) : e'.IsWellFormed := by
  -- what the step adds is part of the outcome
  have hadd : ∀ n ∈ Element.heads (e.addition c), n.HasValidName := by
    intro n hmem
    refine hn n ?_
    rw [heads_apply h]
    exact List.mem_append_right _ hmem
  cases apply_eq_ok.mp h with
  | setFlag f => exact ⟨he.level, he.frames⟩
  | @leaf _ el hl ha hr =>
    have hleaf := Call.isLeaf_of_leaf? hl
    have hv : el.IsValid := by
      refine isValid_of_leaf? hl hr (hadd el ?_)
      rw [addition_of_leaf? hl]
      refine Element.mem_heads_quantifiedBy _ ?_
      rw [Element.heads_of_isLeaf hleaf]
      exact List.mem_cons_self
    have hbare := Element.isBare_of_isLeaf hleaf
    have hw := Element.isWellFormed_of_children_nil hv hbare.children
    exact (he.push hw ha hbare.isQuantified).setUnicodeFor el
  | anchor =>
    exact ⟨he.level.place (Element.isWellFormed_of_children_nil trivial rfl), he.frames⟩
  | @openComposite kind _ hr =>
    refine ⟨.empty, fun f hf ↦ ?_⟩
    rcases List.mem_cons.mp hf with rfl | hf
    · have hv : (Element.composite kind []).HasValidName :=
        hadd _ (Element.mem_heads_quantifiedBy _ List.mem_cons_self)
      exact ⟨Element.isValid_composite_iff.mpr hv, he.level⟩
    · exact he.frames f hf
  | @close kind outer frames hf _ ha =>
    obtain ⟨hk, ho⟩ := he.frames ⟨kind, outer⟩ (hf ▸ List.mem_cons_self)
    have hw : (Element.composite kind e.level.elements).IsWellFormed :=
      Element.isWellFormed_iff.mpr ⟨by cases kind <;> exact hk, he.level.elements⟩
    exact ⟨ho.push hw ha rfl, fun f hmem ↦ he.frames f (hf ▸ List.mem_cons_of_mem _ hmem)⟩
  | @quantify q hq _ =>
    refine ⟨⟨he.level.elements, fun q' hq' ↦ ?_⟩, he.frames⟩
    rw [← Option.some.inj hq']
    exact countError?_eq_none.mp hq
  | @splice other options _ hf _ _ =>
    have hw : (Element.subexpression (e.splicedElements other options)).IsWellFormed := by
      refine Element.isWellFormed_iff.mpr ⟨trivial, ?_⟩
      refine Element.isWellFormed_relocateAll (hc other rfl).level.elements fun n hmem ↦ ?_
      refine hadd n (Element.mem_heads_quantifiedBy _ ?_)
      rw [Element.heads_subexpression]
      exact List.mem_cons_of_mem _ hmem
    refine IsWellFormed.setUnicodeFor (IsWellFormed.push ?_ hw (.inr rfl) rfl) _
    exact ⟨he.level, he.frames⟩

theorem Reachable.isWellFormed (h : e.Reachable) : e.IsWellFormed := by
  induction h with
  | empty => exact ⟨.empty, fun _ h ↦ absurd h List.not_mem_nil⟩
  | step he hc h ih ihc =>
    -- the registry of the outcome has checked its names already
    exact ih.apply h ihc (Reachable.step he hc h).consistent.hasValidName

end Expression

end PatternBuilder

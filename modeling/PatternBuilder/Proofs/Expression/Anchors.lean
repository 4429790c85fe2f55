import PatternBuilder.Proofs.Element.Anchors
import PatternBuilder.Proofs.Expression.Compile
import PatternBuilder.Proofs.Expression.Relocation

namespace PatternBuilder

open Element

namespace Registry

def hasAnchor (r : Registry) : Anchor → Bool
  | .start => r.hasStart
  | .finish => r.hasEnd

def anchors (r : Registry) : List Anchor := [.start, .finish].filter r.hasAnchor

variable {r r' : Registry} {n : Element} {ns : List Element}

theorem anchors_congr (hs : r'.hasStart = r.hasStart) (he : r'.hasEnd = r.hasEnd) :
    r'.anchors = r.anchors := by
  have h : r'.hasAnchor = r.hasAnchor := by
    funext a
    cases a with
    | start => exact hs
    | finish => exact he
  rw [anchors, h, anchors]

theorem anchors_adoptAnchor {a : Anchor} (h : r.adoptAnchor a = .ok r') :
    r'.anchors = r.anchors ++ [a] := by
  cases a with
  | start =>
    -- nothing is set yet, or the start would come after the end
    obtain ⟨hs, he, rfl⟩ := adoptAnchor_start_eq_ok.mp h
    simp [anchors, List.filter, hasAnchor, hs, he]
  | finish =>
    obtain ⟨he, rfl⟩ := adoptAnchor_finish_eq_ok.mp h
    cases hs : r.hasStart <;> simp [anchors, List.filter, hasAnchor, hs, he]

theorem anchors_openComposite {kind : Composite} (h : r.openComposite kind = .ok r') :
    r'.anchors = r.anchors := by
  cases kind with
  | namedCapture name =>
    obtain ⟨r₁, hr, rfl⟩ := map_eq_ok.mp h
    obtain ⟨-, -, rfl⟩ := addName_eq_ok.mp hr
    exact anchors_congr rfl rfl
  | _ =>
    cases h
    exact anchors_congr rfl rfl

theorem anchors_adopt (h : r.adopt n = .ok r') :
    r'.anchors = r.anchors ++ Element.anchors [n] := by
  cases n with
  | anchor a => exact anchors_adoptAnchor h
  | composite kind es =>
    have hsame := anchors_openComposite h
    rw [hsame, Element.anchors, List.filterMap_cons_none rfl, List.filterMap_nil, List.append_nil]
  | _ =>
    cases h
    exact (List.append_nil _).symm

theorem anchors_foldlM (h : ns.foldlM adopt r = .ok r') :
    r'.anchors = r.anchors ++ Element.anchors ns := by
  induction ns generalizing r with
  | nil =>
    cases h
    exact (List.append_nil _).symm
  | cons n ns ih =>
    obtain ⟨r₁, hr, hrest⟩ := bind_eq_ok.mp h
    rw [ih hrest, anchors_adopt hr, List.append_assoc, ← anchors_append, List.singleton_append]

theorem anchors_sublist (r : Registry) : r.anchors.Sublist [.start, .finish] :=
  List.filter_sublist

theorem count_anchors (r : Registry) (a : Anchor) : r.anchors.count a = (r.hasAnchor a).toNat := by
  cases a <;> cases hs : r.hasStart <;> cases he : r.hasEnd <;>
    simp [anchors, List.filter, hasAnchor, hs, he]

end Registry

namespace Element

theorem anchor?_head (n : Element) : n.head.anchor? = n.anchor? := by cases n <;> rfl

theorem anchors_map_relocate (options : SpliceOptions) (offset : Nat) (ns : List Element) :
    anchors (ns.map (relocate options offset)) =
      if options.ignoreAnchors then [] else anchors ns := by
  rw [anchors, List.filterMap_map, anchors]
  have hmoved (n : Element) : (n.relocate options offset).anchor? =
      if options.ignoreAnchors then none else n.anchor? := (moved_relocate options offset n).anchor?
  cases hi : options.ignoreAnchors <;> simp [hmoved, hi]

theorem anchors_filter (ns : List Element) :
    anchors (ns.filter fun n ↦ n.anchor?.isSome) = anchors ns := by
  rw [anchors, List.filterMap_filter, anchors]
  refine List.filterMap_congr fun n _ ↦ ?_
  cases h : n.anchor? <;> simp

theorem start_before_finish {ns : List Element} (h : (anchors ns).Sublist [.start, .finish])
    {i j : Nat} (hi : ns[i]? = some (.anchor .start)) (hj : ns[j]? = some (.anchor .finish)) :
    i < j := by
  have hpairs : (anchors ns).Pairwise fun a b ↦ a = .start ∧ b = .finish :=
    List.Pairwise.sublist h (by simp)
  rw [anchors, List.pairwise_filterMap, List.pairwise_iff_getElem] at hpairs
  obtain ⟨hil, hin⟩ := List.getElem?_eq_some_iff.mp hi
  obtain ⟨hjl, hjn⟩ := List.getElem?_eq_some_iff.mp hj
  by_contra hle
  rcases Nat.lt_or_eq_of_le (Nat.le_of_not_lt hle) with hlt | rfl
  · have hswapped := hpairs j i hjl hil hlt .finish (by simp [hjn, anchor?]) .start
      (by simp [hin, anchor?])
    exact absurd hswapped.1 (by decide)
  · rw [hi] at hj
    cases hj

end Element

namespace Expression

variable {e : Expression}

theorem Reachable.anchors_heads [Property.Engine] (h : e.Reachable) :
    Element.anchors e.heads = e.registry.anchors :=
  (Registry.anchors_foldlM h.adopt_heads).symm

theorem anchors_heads_eq (e : Expression) :
    Element.anchors e.heads = Element.anchors e.allNodes := by
  rw [← anchors_filter e.heads, filter_heads (fun _ ↦ rfl) (fun _ ↦ rfl), anchors_filter,
    Element.anchors, List.filterMap_map, Element.anchors]
  exact congrArg (List.filterMap · e.allNodes) (funext anchor?_head)

theorem Reachable.anchors_source [Property.Engine] (h : e.Reachable) {p : Pattern}
    (hp : e.compile = .ok p) :
    Scan.anchors p.source.toList = Element.anchors e.allNodes := by
  obtain ⟨hf, -, rfl⟩ := compile_eq_ok.mp hp
  rw [String.toList_ofList, anchors_patternText h.isWellFormed.level.elements, allNodes,
    elements_of_frames_nil hf]

/-- An anchor is taken note of just if the levels hold it, and then they hold it once, the start
before the end. So does the source of a finished expression, where each anchor of the levels is
written and no other. -/
theorem anchors_set_once [Property.Engine] (h : e.Reachable) :
    (∀ a, (e.registry.hasAnchor a = true ↔ (Element.anchors e.allNodes).count a = 1) ∧
        (e.registry.hasAnchor a = false ↔ (Element.anchors e.allNodes).count a = 0)) ∧
      (∀ i j : Nat, e.allNodes[i]? = some (Element.anchor .start) →
        e.allNodes[j]? = some (Element.anchor .finish) → i < j) ∧
      ∀ p, e.compile = .ok p →
        Scan.anchors p.source.toList = Element.anchors e.allNodes ∧
          (∀ a, (Scan.anchors p.source.toList).count a ≤ 1) ∧
          (Scan.anchors p.source.toList).Sublist [.start, .finish] := by
  have hnodes : Element.anchors e.allNodes = e.registry.anchors := by
    rw [← anchors_heads_eq, h.anchors_heads]
  have hsub : (Element.anchors e.allNodes).Sublist [.start, .finish] := by
    rw [hnodes]
    exact e.registry.anchors_sublist
  refine ⟨?_, ?_, ?_⟩
  · intro a
    rw [hnodes, Registry.count_anchors]
    cases e.registry.hasAnchor a <;> simp
  · intro i j hi hj
    exact start_before_finish hsub hi hj
  · intro p hp
    rw [h.anchors_source hp]
    refine ⟨rfl, ?_, hsub⟩
    intro a
    rw [hnodes, Registry.count_anchors]
    exact Bool.toNat_le _

theorem anchors_set_once_beside_class :
    ∃ _ : Property.Engine, ∃ other e p,
      empty.run [.openComposite .capture, .literal (.anythingButChars "^$"),
        .anchor .finish, .close] = .ok other ∧
      empty.run [.anchor .start, .openComposite .group, .splice other (.keeping "x"), .close] =
        .ok e ∧
      e.Reachable ∧ e.compile = .ok p ∧ p.source = "^(?:([^\\^\\$]$))" ∧
      Scan.anchors p.source.toList = [.start, .finish] ∧
      (Element.anchors e.allNodes).count .finish = 1 := by
  let engine : Property.Engine := default
  have ho := Reachable.empty.run [.openComposite .capture, .literal (.anythingButChars "^$"),
    .anchor .finish, .close] (by simp [Call.spliced?]) rfl
  have he := Reachable.empty.run [.anchor .start, .openComposite .group,
    .splice _ (.keeping "x"), .close] (by simp [Call.spliced?]; exact ho) rfl
  have h := anchors_set_once he
  refine ⟨engine, _, _, _, rfl, rfl, he, rfl, rfl, ?_, ?_⟩
  · exact (h.2.2 _ rfl).1.trans rfl
  · exact (h.1 .finish).1.mp rfl

end Expression

end PatternBuilder

import PatternBuilder.Proofs.Expression.Adoption
import PatternBuilder.Proofs.Expression.Hygiene

namespace PatternBuilder

open Element

namespace Registry

def nameConflict? (r : Registry) (name : String) : Option BuildError :=
  if !isGroupName name then some (.invalidGroupName name)
  else if r.names.contains name then some (.duplicateGroupName name)
  else none

def anchorConflict? (r : Registry) : Anchor → Option BuildError
  | .start =>
    if r.hasStart then some .hostStartDefined
    else if r.hasEnd then some .hostEndDefined
    else none
  | .finish => if r.hasEnd then some .hostEndDefined else none

/-- What speaks against a node of a spliced expression, in view of the host alone. -/
def conflict? (r : Registry) (options : SpliceOptions) : Element → Option BuildError
  | .anchor a => if options.ignoreAnchors then none else r.anchorConflict? a
  | .composite (.namedCapture name) _ => r.nameConflict? (options.scope ++ name)
  | _ => none

end Registry

namespace Element

/-- Neither node stands in the way of the other: they bring different names, and of two anchors
the first is the start and the second the end. -/
structure Apart (m n : Element) : Prop where
  names : ∀ name, m.group? = some (some name) → n.group? ≠ some (some name)
  anchors : ∀ a b, m.anchor? = some a → n.anchor? = some b → a = .start ∧ b = .finish

theorem pairwise_apart {ns : List Element} (hd : (groups ns).reduceOption.Nodup)
    (ha : (anchors ns).Sublist [.start, .finish]) : ns.Pairwise Apart := by
  have hnames : ns.Pairwise fun m n ↦
      ∀ g, m.group? = some g → ∀ g', n.group? = some g' →
        ∀ name, g = some name → ∀ name', g' = some name' → name ≠ name' := by
    rwa [List.reduceOption, List.Nodup, List.pairwise_filterMap, groups,
      List.pairwise_filterMap] at hd
  have hanchors : (anchors ns).Pairwise fun a b ↦ a = .start ∧ b = .finish :=
    List.Pairwise.sublist ha (by simp)
  rw [anchors, List.pairwise_filterMap] at hanchors
  refine (hnames.and hanchors).imp ?_
  rintro m n ⟨hg, ha⟩
  refine ⟨fun name hm hn ↦ ?_, fun a b hm hn ↦ ha a hm b hn⟩
  exact hg _ hm _ hn name rfl name rfl rfl

end Element

namespace Registry

variable {r r' : Registry} {m n : Element} {ns : List Element} {options : SpliceOptions}
  {offset : Nat} {error : BuildError}

theorem addName_eq_error {name : String} (hn : name ≠ "") :
    r.addName name = .error error ↔ r.nameConflict? name = some error := by
  have he : ¬name.isEmpty = true := mt String.isEmpty_iff.mp hn
  simp only [addName, nameConflict?, if_neg he]
  split
  · simp
  · split <;> simp

theorem adoptAnchor_eq_error {a : Anchor} :
    r.adoptAnchor a = .error error ↔ r.anchorConflict? a = some error := by
  cases a <;> cases hs : r.hasStart <;> cases he : r.hasEnd <;>
    simp [adoptAnchor, anchorConflict?, hs, he]

theorem adopt_relocate_eq_error (hn : ∀ name, n.group? = some (some name) → name ≠ "") :
    r.adopt (n.relocate options offset) = .error error ↔ r.conflict? options n = some error := by
  cases n with
  | anchor a =>
    cases hi : options.ignoreAnchors with
    | true => simp [relocate, hi, adopt, conflict?]
    | false => simpa [relocate, hi, adopt, conflict?] using adoptAnchor_eq_error
  | composite kind es =>
    cases kind with
    | namedCapture name =>
      have hne : options.scope ++ name ≠ "" := by
        simpa using fun _ ↦ hn name rfl
      simp only [relocate, adopt, openComposite, conflict?]
      rw [← addName_eq_error hne]
      cases r.addName (options.scope ++ name) <;> simp [Except.map]
    | _ => simp [relocate, adopt, openComposite, conflict?]
  | _ => simp [relocate, adopt, conflict?]

theorem exists_adopt_relocate (offset : Nat)
    (hn : ∀ name, n.group? = some (some name) → name ≠ "")
    (hc : r.conflict? options n = none) : ∃ r', r.adopt (n.relocate options offset) = .ok r' := by
  cases ha : r.adopt (n.relocate options offset) with
  | ok r' => exact ⟨r', rfl⟩
  | error error =>
    rw [(adopt_relocate_eq_error hn).mp ha] at hc
    cases hc

theorem hasAnchor_iff (r : Registry) (a : Anchor) : r.hasAnchor a = true ↔ a ∈ r.anchors := by
  cases a <;> cases hs : r.hasStart <;> cases he : r.hasEnd <;>
    simp [anchors, List.filter, hasAnchor, hs, he]

theorem hasAnchor_adopt {a : Anchor} (hm : m.anchor? ≠ some a)
    (hr : r.adopt (m.relocate options offset) = .ok r') : r'.hasAnchor a = r.hasAnchor a := by
  have hnew : a ∉ Element.anchors [m.relocate options offset] := by
    rw [← List.map_singleton, anchors_map_relocate]
    cases options.ignoreAnchors <;> simp [Element.anchors, hm]
  rw [Bool.eq_iff_iff, hasAnchor_iff, anchors_adopt hr, List.mem_append, hasAnchor_iff]
  exact or_iff_left hnew

theorem mem_names_adopt {name : String} (hm : m.group? ≠ some (some name))
    (hr : r.adopt (m.relocate options offset) = .ok r') :
    options.scope ++ name ∈ r'.names ↔ options.scope ++ name ∈ r.names := by
  obtain ⟨-, hnames, -⟩ := adopt_groups hr
  rw [hnames, List.mem_append]
  refine or_iff_left ?_
  rw [← List.map_singleton, groups_map_relocate, List.reduceOption_mem_iff, List.mem_map]
  rintro ⟨g, hg, hname⟩
  obtain ⟨name', rfl, hsame⟩ := Option.map_eq_some_iff.mp hname
  rw [String.append_right_inj] at hsame
  simp [groups] at hg
  exact hm (hsame ▸ hg)

theorem conflict?_adopt (h : Apart m n) (hr : r.adopt (m.relocate options offset) = .ok r') :
    r'.conflict? options n = r.conflict? options n := by
  cases n with
  | anchor b =>
    have hfinish : r'.hasEnd = r.hasEnd := hasAnchor_adopt (a := .finish)
      (fun hm ↦ absurd (h.anchors _ b hm rfl).1 (by decide)) hr
    cases b with
    | start =>
      have hstart : r'.hasStart = r.hasStart := hasAnchor_adopt (a := .start)
        (fun hm ↦ absurd (h.anchors _ _ hm rfl).2 (by decide)) hr
      simp [conflict?, anchorConflict?, hstart, hfinish]
    | finish => simp [conflict?, anchorConflict?, hfinish]
  | composite kind es =>
    cases kind with
    | namedCapture name =>
      have hmem := mem_names_adopt (fun hm ↦ h.names name hm rfl) hr
      simp [conflict?, nameConflict?, hmem]
    | _ => rfl
  | _ => rfl

/-- By induction over the nodes: each is taken note of until one is in conflict with the registry
as it was before the first. -/
theorem foldlM_relocate_eq_error (hp : ns.Pairwise Apart)
    (hv : ∀ n ∈ ns, ∀ name, n.group? = some (some name) → name ≠ "") :
    (ns.map (relocate options offset)).foldlM adopt r = .error error ↔
      ns.findSome? (r.conflict? options) = some error := by
  induction ns generalizing r with
  | nil => simp [pure, Except.pure]
  | cons n ns ih =>
    obtain ⟨hn, hp⟩ := List.pairwise_cons.mp hp
    have hvn := hv n List.mem_cons_self
    rw [List.map_cons, List.foldlM_cons, List.findSome?_cons]
    cases hc : r.conflict? options n with
    | some error' =>
      rw [(adopt_relocate_eq_error hvn).mpr hc]
      simp [bind, Except.bind]
    | none =>
      obtain ⟨r₁, hr⟩ := exists_adopt_relocate offset hvn hc
      have hsame : ns.findSome? (r.conflict? options) = ns.findSome? (r₁.conflict? options) := by
        rw [← List.head?_filterMap, ← List.head?_filterMap,
          List.filterMap_congr fun m hm ↦ (conflict?_adopt (hn m hm) hr).symm]
      rw [hr, hsame]
      exact ih hp fun m hm ↦ hv m (List.mem_cons_of_mem n hm)

end Registry

namespace Expression

variable {other : Expression}

theorem conflict?_head (r : Registry) (options : SpliceOptions) (n : Element) :
    r.conflict? options n.head = r.conflict? options n := by
  cases n with
  | composite kind es => cases kind <;> rfl
  | _ => rfl

theorem Reachable.pairwise_apart [Property.Engine] (h : other.Reachable) :
    other.heads.Pairwise Apart :=
  Element.pairwise_apart h.consistent.nodup_names (h.anchors_heads ▸ other.registry.anchors_sublist)

theorem Reachable.name_ne_empty [Property.Engine] (h : other.Reachable) :
    ∀ n ∈ other.heads, ∀ name, n.group? = some (some name) → name ≠ "" := by
  intro n hn name hg hempty
  have hmem : some name ∈ Element.groups other.heads := List.mem_filterMap.mpr ⟨n, hn, hg⟩
  rw [← List.reduceOption_mem_iff, ← h.consistent.records.names_eq] at hmem
  have hvalid := h.consistent.records.valid name hmem
  rw [hempty] at hvalid
  exact absurd hvalid (by decide)

theorem findSome?_conflict?_heads (hf : other.frames = []) (r : Registry)
    (options : SpliceOptions) : other.heads.findSome? (r.conflict? options) =
      (nodesAll other.level.elements).findSome? (r.conflict? options) := by
  rw [heads_of_frames_nil hf, Element.heads, List.findSome?_map]
  exact congrArg (List.findSome? · _) (funext (conflict?_head r options))

theorem splice_eq_error {e : Expression} {options : SpliceOptions} {error : BuildError}
    (hf : other.frames = []) (hp : other.level.pending = none) :
    e.splice other options = .error error ↔
      (other.heads.map (relocate options e.captureCount)).foldlM Registry.adopt e.registry =
        .error error := by
  have hfinished : other.finishedElements .unfinishedSubexpression = .ok other.level.elements :=
    finishedElements_eq_ok.mpr ⟨hf, hp, rfl⟩
  rw [← foldlM_splicedElements hf, splicedElements, splice, hfinished]
  simp only [bind, Except.bind]
  cases (nodesAll (relocateAll options e.captureCount other.level.elements)).foldlM
    Registry.adopt e.registry <;> simp [pure, Except.pure]

/-- Nothing may be open in the spliced expression, then nothing may wait in it, and then the first
of its nodes that is in conflict with the host as it was before decides; if there is none, the
splice is possible. -/
theorem splice_refused_by_first_conflict [Property.Engine] (ho : other.Reachable) (e : Expression)
    (options : SpliceOptions) :
    (∀ frame frames, other.frames = frame :: frames →
      e.splice other options = .error (.unfinishedSubexpression frame.kind)) ∧
    (∀ q, other.frames = [] → other.level.pending = some q →
      e.splice other options = .error (.danglingQuantifier none q)) ∧
    (other.frames = [] → other.level.pending = none →
      (∀ error, e.splice other options = .error error ↔
        (nodesAll other.level.elements).findSome? (e.registry.conflict? options) = some error) ∧
      ((∃ e', e.splice other options = .ok e') ↔
        ∀ n ∈ nodesAll other.level.elements, e.registry.conflict? options n = none)) := by
  refine ⟨fun frame frames hf ↦ ?_, fun q hf hp ↦ ?_, fun hf hp ↦ ?_⟩
  · simp [splice, finishedElements, hf, bind, Except.bind]
  · simp [splice, finishedElements, hf, hp, bind, Except.bind]
  · have hrefused (error : BuildError) : e.splice other options = .error error ↔
        (nodesAll other.level.elements).findSome? (e.registry.conflict? options) =
          some error := by
      rw [splice_eq_error hf hp,
        Registry.foldlM_relocate_eq_error ho.pairwise_apart ho.name_ne_empty,
        findSome?_conflict?_heads hf]
    refine ⟨hrefused, ?_⟩
    rw [← List.findSome?_eq_none_iff]
    cases hs : e.splice other options with
    | ok e' =>
      have hnone (error : BuildError) := mt (hrefused error).mpr
      simpa [hs, Option.eq_none_iff_forall_ne_some] using hnone
    | error error => simp [(hrefused error).mp hs]

/-- The host has an end and a group `xn`. The spliced expression brings a start, a name that
becomes `xn`, and an end: all but the group around the name are in conflict, and the start comes
first. -/
theorem splice_refused_by_start :
    ∃ _ : Property.Engine, ∃ host other,
      empty.run [.openComposite (.namedCapture "xn"), .close, .anchor .finish] =
        .ok host ∧
      empty.run [.anchor .start, .openComposite .group, .openComposite (.namedCapture "n"),
        .close, .close, .anchor .finish] = .ok other ∧
      (nodesAll other.level.elements).map
          (host.registry.conflict? { scope := "x", ignoreAnchors := false }) =
        [some .hostEndDefined, none, some (.duplicateGroupName "xn"), some .hostEndDefined] ∧
      host.splice other { scope := "x", ignoreAnchors := false } = .error .hostEndDefined := by
  let engine : Property.Engine := default
  let host : Expression := {
    level := { elements := [.composite (.namedCapture "xn") [], .anchor .finish] }
    registry := { names := ["xn"], captureCount := 1, hasEnd := true } }
  let other : Expression := {
    level := { elements := [.anchor .start,
      .composite .group [.composite (.namedCapture "n") []], .anchor .finish] }
    registry := { names := ["n"], captureCount := 1, hasStart := true, hasEnd := true } }
  have hr : empty.run [.anchor .start, .openComposite .group, .openComposite (.namedCapture "n"),
      .close, .close, .anchor .finish] = .ok other := rfl
  have ho : other.Reachable := Reachable.empty.run _ (by simp [Call.spliced?]) hr
  refine ⟨engine, host, other, rfl, hr, rfl, ?_⟩
  obtain ⟨-, -, hdecided⟩ := splice_refused_by_first_conflict ho host
    { scope := "x", ignoreAnchors := false }
  exact ((hdecided rfl rfl).1 .hostEndDefined).mpr rfl

end Expression

end PatternBuilder

import Mathlib.Data.List.ReduceOption
import PatternBuilder.Proofs.Expression.Heads
import PatternBuilder.Proofs.Expression.Operations

namespace PatternBuilder

open Element

namespace Registry

variable {r r' : Registry} {ns : List Element} {n : Element}

theorem adopt_head (r : Registry) (n : Element) : r.adopt n.head = r.adopt n := by
  cases n <;> rfl

theorem foldlM_adopt_heads (es : List Element) (r : Registry) :
    (heads es).foldlM adopt r = (nodesAll es).foldlM adopt r := by
  rw [heads, List.foldlM_map]
  exact congrArg (List.foldlM · r (nodesAll es)) (funext₂ adopt_head)

theorem foldlM_adopt_quantifiedBy (el : Element) (q : Option Quantifier) (r : Registry) :
    (heads [el.quantifiedBy q]).foldlM adopt r = (heads [el]).foldlM adopt r := by
  rw [heads_quantifiedBy]
  cases q <;> rfl

theorem foldlM_adopt_singleton {n : Element} {r r' : Registry} :
    [n].foldlM adopt r = .ok r' ↔ r.adopt n = .ok r' := by
  rw [List.foldlM_cons]
  cases r.adopt n <;> simp [bind, Except.bind, pure, Except.pure]

theorem addName_eq_ok {name : String} :
    r.addName name = .ok r' ↔ isGroupName name = true ∧ name ∉ r.names ∧
      r' = { r with names := r.names ++ [name] } := by
  unfold addName
  split
  · rename_i he
    rw [String.isEmpty_iff] at he
    subst he
    simp [isGroupName, isGroupNameList]
  · split
    · simp_all
    · split <;> simp_all [@eq_comm _ r']

theorem addAnchor_eq_ok {a : Anchor} : r.addAnchor a = .ok r' ↔ r.adoptAnchor a = .ok r' := by
  cases a <;> cases hs : r.hasStart <;> cases he : r.hasEnd <;>
    simp [addAnchor, adoptAnchor, hs, he]

theorem adoptAnchor_start_eq_ok :
    r.adoptAnchor .start = .ok r' ↔
      r.hasStart = false ∧ r.hasEnd = false ∧ r' = { r with hasStart := true } := by
  cases hs : r.hasStart <;> cases he : r.hasEnd <;> simp [adoptAnchor, hs, he, @eq_comm _ r']

theorem adoptAnchor_finish_eq_ok :
    r.adoptAnchor .finish = .ok r' ↔ r.hasEnd = false ∧ r' = { r with hasEnd := true } := by
  cases he : r.hasEnd <;> simp [adoptAnchor, he, @eq_comm _ r']

theorem adoptAnchor_names {a : Anchor} (h : r.adoptAnchor a = .ok r') :
    r'.names = r.names ∧ r'.captureCount = r.captureCount := by
  cases a <;> cases hs : r.hasStart <;> cases he : r.hasEnd <;> simp [adoptAnchor, hs, he] at h <;>
    simp [← h]

theorem adopt_groups (h : r.adopt n = .ok r') :
    r'.captureCount = r.captureCount + (groups [n]).length ∧
      r'.names = r.names ++ (groups [n]).reduceOption ∧
      ∀ name ∈ (groups [n]).reduceOption, isGroupName name = true ∧ name ∉ r.names := by
  cases n with
  | anchor a =>
    obtain ⟨hn, hc⟩ := adoptAnchor_names h
    simp [groups, group?, hn, hc, List.reduceOption]
  | composite kind es =>
    cases kind with
    | capture =>
      cases h
      simp [groups, group?, addCapture, List.reduceOption]
    | namedCapture name =>
      obtain ⟨r₁, hr, rfl⟩ := map_eq_ok.mp h
      obtain ⟨hg, hn, rfl⟩ := addName_eq_ok.mp hr
      simp [groups, group?, addCapture, List.reduceOption, hg, hn]
    | _ => cases h; simp [groups, group?, List.reduceOption]
  | _ => cases h; simp [groups, group?, List.reduceOption]

theorem foldlM_adopt_groups (h : ns.foldlM adopt r = .ok r') :
    r'.captureCount = r.captureCount + (groups ns).length ∧
      r'.names = r.names ++ (groups ns).reduceOption := by
  induction ns generalizing r with
  | nil =>
    cases h
    exact ⟨rfl, (List.append_nil _).symm⟩
  | cons n ns ih =>
    obtain ⟨r₁, hr, hrest⟩ := bind_eq_ok.mp h
    obtain ⟨hc, hn, -⟩ := adopt_groups hr
    obtain ⟨hcs, hns⟩ := ih hrest
    have hg : groups (n :: ns) = groups [n] ++ groups ns := groups_append [n] ns
    rw [hg, List.length_append, List.reduceOption_append, hcs, hns, hc, hn, Nat.add_assoc,
      List.append_assoc]
    exact ⟨rfl, rfl⟩

/-- The registry counts the groups of the nodes and knows their names, each once. -/
structure Records (r : Registry) (ns : List Element) : Prop where
  captureCount_eq : r.captureCount = (groups ns).length
  names_eq : r.names = (groups ns).reduceOption
  nodup : r.names.Nodup
  valid : ∀ name ∈ r.names, isGroupName name = true

theorem Records.nil : ({} : Registry).Records [] :=
  ⟨rfl, rfl, List.nodup_nil, fun _ h ↦ absurd h List.not_mem_nil⟩

theorem Records.adopt (h : r.Records ns) (ha : r.adopt n = .ok r') : r'.Records (ns ++ [n]) := by
  obtain ⟨hc, hn, hnew⟩ := adopt_groups ha
  have hg : (groups (ns ++ [n])).reduceOption = r.names ++ (groups [n]).reduceOption := by
    rw [groups_append, List.reduceOption_append, h.names_eq]
  refine ⟨?_, hn.trans hg.symm, ?_, ?_⟩
  · rw [hc, h.captureCount_eq, groups_append, List.length_append]
  · rw [hn, List.nodup_append]
    refine ⟨h.nodup, ?_, ?_⟩
    · rcases hg : n.group? with _ | _ | name <;> simp [groups, hg, List.reduceOption]
    · intro a ha b hb hab
      exact (hnew b hb).2 (hab ▸ ha)
  · intro name hname
    rw [hn, List.mem_append] at hname
    rcases hname with hname | hname
    · exact h.valid name hname
    · exact (hnew name hname).1

theorem Records.foldlM {ms : List Element} (h : r.Records ns)
    (ha : ms.foldlM Registry.adopt r = .ok r') : r'.Records (ns ++ ms) := by
  induction ms generalizing r ns with
  | nil =>
    cases ha
    rwa [List.append_nil]
  | cons m ms ih =>
    obtain ⟨r₁, hr, hrest⟩ := bind_eq_ok.mp ha
    simpa using ih (h.adopt hr) hrest

theorem Records.names_relocate {s : Registry} (h : s.Records ns) (options : SpliceOptions)
    (offset : Nat) : (groups (ns.map (relocate options offset))).reduceOption =
      s.names.map (options.scope ++ ·) := by
  rw [groups_map_relocate, List.reduceOption_map, ← h.names_eq]

/-- Nodes that move into a host bring all of their groups, under names in the scope. -/
theorem Records.foldlM_relocate {s : Registry} (h : s.Records ns) {options : SpliceOptions}
    {offset : Nat} (ha : (ns.map (relocate options offset)).foldlM Registry.adopt r = .ok r') :
    r'.captureCount = r.captureCount + s.captureCount ∧
      r'.names = r.names ++ s.names.map (options.scope ++ ·) := by
  obtain ⟨hc, hn⟩ := foldlM_adopt_groups ha
  rw [groups_map_relocate, List.length_map, ← h.captureCount_eq] at hc
  rw [h.names_relocate] at hn
  exact ⟨hc, hn⟩

end Registry

end PatternBuilder

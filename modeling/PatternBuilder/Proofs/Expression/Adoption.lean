import PatternBuilder.Proofs.Expression.Anchors
import PatternBuilder.Proofs.Expression.Unicode

namespace PatternBuilder

open Element

namespace Registry

variable {r r' : Registry} {n : Element} {ns : List Element}

/-- The nodes bring valid names that are new, each once, and no anchor that is set already or
comes too late. -/
structure Admits (r : Registry) (ns : List Element) : Prop where
  valid : ∀ name ∈ (groups ns).reduceOption, isGroupName name = true
  fresh : ∀ name ∈ (groups ns).reduceOption, name ∉ r.names
  nodup : (groups ns).reduceOption.Nodup
  anchors : (r.anchors ++ Element.anchors ns).Sublist [.start, .finish]

theorem exists_adoptAnchor_iff {a : Anchor} :
    (∃ r', r.adoptAnchor a = .ok r') ↔ (r.anchors ++ [a]).Sublist [.start, .finish] := by
  cases a <;> cases hs : r.hasStart <;> cases he : r.hasEnd <;>
    simp [adoptAnchor, anchors, List.filter, hasAnchor, hs, he] <;> decide

theorem admits_iff_of_names_nil (hn : (groups ns).reduceOption = []) :
    r.Admits ns ↔ (r.anchors ++ Element.anchors ns).Sublist [.start, .finish] := by
  constructor
  · intro h
    exact h.anchors
  · intro h
    refine ⟨?_, ?_, ?_, h⟩ <;> simp [hn]

theorem exists_adopt_iff : (∃ r', r.adopt n = .ok r') ↔ r.Admits [n] := by
  have hsilent (hn : (groups [n]).reduceOption = []) (ha : Element.anchors [n] = []) :
      r.Admits [n] := by
    rw [admits_iff_of_names_nil hn, ha, List.append_nil]
    exact r.anchors_sublist
  cases n with
  | anchor a =>
    have ha : r.Admits [.anchor a] ↔ (r.anchors ++ [a]).Sublist [.start, .finish] :=
      admits_iff_of_names_nil rfl
    rw [ha]
    exact exists_adoptAnchor_iff
  | composite kind es =>
    cases kind with
    | namedCapture name =>
      constructor
      · intro h
        obtain ⟨r', hr⟩ := h
        obtain ⟨r₁, hr₁, -⟩ := map_eq_ok.mp hr
        obtain ⟨hv, hn, -⟩ := addName_eq_ok.mp hr₁
        refine ⟨?_, ?_, List.pairwise_singleton _ name, ?_⟩
        · exact List.forall_mem_singleton.mpr hv
        · exact List.forall_mem_singleton.mpr hn
        · exact (List.append_nil r.anchors).symm ▸ r.anchors_sublist
      · intro h
        have hv := h.valid name List.mem_cons_self
        have hn := h.fresh name List.mem_cons_self
        exact ⟨_, map_eq_ok.mpr ⟨_, addName_eq_ok.mpr ⟨hv, hn, rfl⟩, rfl⟩⟩
    | _ => exact ⟨fun _ ↦ hsilent rfl rfl, fun _ ↦ ⟨_, rfl⟩⟩
  | _ => exact ⟨fun _ ↦ hsilent rfl rfl, fun _ ↦ ⟨r, rfl⟩⟩

theorem admits_cons_iff :
    r.Admits (n :: ns) ↔ ∃ r₁, r.adopt n = .ok r₁ ∧ r₁.Admits ns := by
  have hg : groups (n :: ns) = groups [n] ++ groups ns := groups_append [n] ns
  have ha : Element.anchors (n :: ns) = Element.anchors [n] ++ Element.anchors ns :=
    anchors_append [n] ns
  constructor
  · intro h
    obtain ⟨hv, hf, hd, hs⟩ := h
    rw [hg, List.reduceOption_append] at hv hf hd
    rw [ha, ← List.append_assoc] at hs
    have hhead : r.Admits [n] := by
      refine ⟨fun name hn ↦ hv name ?_, fun name hn ↦ hf name ?_, ?_, ?_⟩
      · exact List.mem_append_left _ hn
      · exact List.mem_append_left _ hn
      · exact (List.nodup_append.mp hd).1
      · exact (List.sublist_append_left _ _).trans hs
    obtain ⟨r₁, hr⟩ := exists_adopt_iff.mpr hhead
    obtain ⟨-, hnames, -⟩ := adopt_groups hr
    refine ⟨r₁, hr, fun name hn ↦ hv name ?_, fun name hn ↦ ?_, ?_, ?_⟩
    · exact List.mem_append_right _ hn
    · rw [hnames, List.mem_append, not_or]
      exact ⟨hf name (List.mem_append_right _ hn),
        fun hmem ↦ (List.nodup_append.mp hd).2.2 name hmem name hn rfl⟩
    · exact (List.nodup_append.mp hd).2.1
    · rw [anchors_adopt hr]
      exact hs
  · intro h
    obtain ⟨r₁, hr, hv, hf, hd, hs⟩ := h
    obtain ⟨hv₁, hf₁, hd₁, -⟩ := exists_adopt_iff.mp ⟨r₁, hr⟩
    obtain ⟨-, hnames, -⟩ := adopt_groups hr
    rw [hnames] at hf
    rw [anchors_adopt hr, List.append_assoc, ← ha] at hs
    refine ⟨?_, ?_, ?_, hs⟩
    · rw [hg, List.reduceOption_append, List.forall_mem_append]
      exact ⟨hv₁, hv⟩
    · rw [hg, List.reduceOption_append, List.forall_mem_append]
      exact ⟨hf₁, fun name hn hmem ↦ hf name hn (List.mem_append_left _ hmem)⟩
    · rw [hg, List.reduceOption_append, List.nodup_append]
      refine ⟨hd₁, hd, ?_⟩
      intro name hn name' hn' heq
      subst heq
      exact hf name hn' (List.mem_append_right _ hn)

/-- By induction over the nodes: what is left has to fit to what the registry knows by then. -/
theorem exists_foldlM_adopt_iff : (∃ r', ns.foldlM adopt r = .ok r') ↔ r.Admits ns := by
  induction ns generalizing r with
  | nil =>
    rw [admits_iff_of_names_nil rfl]
    exact ⟨fun _ ↦ (List.append_nil r.anchors).symm ▸ r.anchors_sublist, fun _ ↦ ⟨r, rfl⟩⟩
  | cons n ns ih =>
    rw [admits_cons_iff]
    constructor
    · intro h
      obtain ⟨r', hr⟩ := h
      obtain ⟨r₁, hn, hns⟩ := bind_eq_ok.mp hr
      exact ⟨r₁, hn, ih.mp ⟨r', hns⟩⟩
    · intro h
      obtain ⟨r₁, hn, hns⟩ := h
      obtain ⟨r', hr⟩ := ih.mpr hns
      exact ⟨r', bind_eq_ok.mpr ⟨r₁, hn, hr⟩⟩

end Registry

namespace Expression

variable {e e' other : Expression} {options : SpliceOptions}

theorem exists_splice_iff : (∃ e', e.splice other options = .ok e') ↔
    other.frames = [] ∧ other.level.pending = none ∧
      e.registry.Admits (other.heads.map (relocate options e.captureCount)) := by
  rw [← Registry.exists_foldlM_adopt_iff]
  constructor
  · intro h
    obtain ⟨e', he⟩ := h
    obtain ⟨hf, hp, r, hr, -⟩ := splice_eq_ok.mp he
    rw [foldlM_splicedElements hf] at hr
    exact ⟨hf, hp, r, hr⟩
  · intro h
    obtain ⟨hf, hp, r, hr⟩ := h
    rw [← foldlM_splicedElements hf] at hr
    exact ⟨_, splice_eq_ok.mpr ⟨hf, hp, r, hr, rfl⟩⟩

theorem frames_splice (h : e.splice other options = .ok e') : e'.frames = e.frames := by
  obtain ⟨-, -, r, -, rfl⟩ := splice_eq_ok.mp h
  rw [frames_setUnicodeFor]
  rfl

theorem level_splice (h : e.splice other options = .ok e') :
    e'.level = e.level.push (.subexpression (e.splicedElements other options)) := by
  obtain ⟨-, -, r, -, rfl⟩ := splice_eq_ok.mp h
  rw [level_setUnicodeFor]
  rfl

theorem pending_splice (h : e.splice other options = .ok e') : e'.level.pending = none := by
  rw [level_splice h]
  rfl

theorem elements_splice (hp : e.level.pending = none) (h : e.splice other options = .ok e') :
    e'.level.elements =
      e.level.elements ++ [.subexpression (e.splicedElements other options)] := by
  rw [level_splice h, Level.push, hp]
  rfl

theorem adopt_splice (h : e.splice other options = .ok e') :
    (other.heads.map (relocate options e.captureCount)).foldlM Registry.adopt e.registry =
      .ok e'.registry := by
  obtain ⟨hf, -, r, hr, rfl⟩ := splice_eq_ok.mp h
  rw [← foldlM_splicedElements hf, registry_setUnicodeFor]
  exact hr

theorem contains_splice [Property.Engine] (h : e.splice other options = .ok e') (f : Flag) :
    e'.flags.contains f =
      (e.flags.contains f || (!options.ignoreFlags && other.flags.contains f) ||
        (f == .unicode && other.heads.any isUnicodeOnly)) := by
  obtain ⟨hf, -⟩ := splice_eq_ok.mp h
  rw [contains_apply (c := .splice other options) h, addition, any_heads_quantifiedBy,
    requiresUnicode_subexpression, splicedElements, heads_relocateAll, ← heads_of_frames_nil hf,
    any_isUnicodeOnly_relocate]
  rfl

end Expression

end PatternBuilder

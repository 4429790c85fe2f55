import Mathlib.Data.List.Nodup
import PatternBuilder.Proofs.Expression.Adoption
import PatternBuilder.Proofs.Expression.Compile
import PatternBuilder.Proofs.Expression.InPlace

namespace PatternBuilder

namespace Element

mutual

/-- The elements that an element stands for where it is not repeated: a splice stands for what it
holds. -/
def flatten : Element → List Element
  | quantified q e => [quantified q (flattenBelow e)]
  | composite kind es => [composite kind (flattenAll es)]
  | subexpression es => flattenAll es
  | e => [e]

/-- The same of an element that is repeated, which has to stay one element. -/
def flattenBelow : Element → Element
  | quantified q e => quantified q (flattenBelow e)
  | composite kind es => composite kind (flattenAll es)
  | subexpression es => subexpression (flattenAll es)
  | e => e

def flattenAll : List Element → List Element
  | [] => []
  | e :: es => flatten e ++ flattenAll es

end

theorem flattenAll_append (es fs : List Element) :
    flattenAll (es ++ fs) = flattenAll es ++ flattenAll fs := by
  induction es with
  | nil => rfl
  | cons e es ih => rw [List.cons_append, flattenAll, flattenAll, ih, List.append_assoc]

theorem flattenAll_subexpression (es fs : List Element) :
    flattenAll (subexpression es :: fs) = flattenAll (es ++ fs) := by
  rw [flattenAll, flatten, flattenAll_append]

theorem patternText_subexpression (es : List Element) :
    patternText [subexpression es] = patternText es := by
  have h : sequenceText [subexpression es] = sequenceText es := by
    simp [sequenceText, pieces, Piece.sequence, text, startsWithDigit]
  rw [patternText, h, patternText]

end Element

open Element

namespace Expression

/-- Two outcomes of putting something into a host, which may differ in how deep the new elements
are spliced. -/
structure AlikeIn (host e e' : Expression) : Prop where
  flags : e.flags = e'.flags
  registry : e.registry = e'.registry
  frames : e.frames = e'.frames
  pending : e.level.pending = e'.level.pending
  elements : ∃ new new', e.level.elements = host.level.elements ++ new ∧
    e'.level.elements = host.level.elements ++ new' ∧ flattenAll new = flattenAll new'

variable {a b ba c cb e e' : Expression} {inner outer : SpliceOptions}

section

variable [Property.Engine]

theorem Reachable.hasUnicode (h : e.Reachable) : e.HasUnicode := by
  induction h with
  | empty => exact fun n hn ↦ absurd hn List.not_mem_nil
  | step _ _ h ih => exact ih.apply h

theorem splice_empty (h : e.Reachable) (hf : e.frames = []) (hp : e.level.pending = none) :
    ∃ e', empty.splice e (.keeping "") = .ok e' ∧ e'.registry = e.registry ∧
      e'.flags = e.flags ∧ e'.frames = [] ∧
      e'.level = ⟨[.subexpression e.level.elements], none⟩ := by
  have hsame (es : List Element) : es.map (relocate (.keeping "") empty.captureCount) = es :=
    (List.map_congr_left fun n _ ↦ relocate_keeping_empty n).trans (List.map_id es)
  have hadmits :
      empty.registry.Admits (e.heads.map (relocate (.keeping "") empty.captureCount)) := by
    rw [hsame, ← Registry.exists_foldlM_adopt_iff]
    exact ⟨_, h.adopt_heads⟩
  obtain ⟨e', he⟩ := exists_splice_iff.mpr ⟨hf, hp, hadmits⟩
  refine ⟨e', he, ?_, ?_, ?_, ?_⟩
  · have hadopt := adopt_splice he
    rw [hsame] at hadopt
    exact Except.ok.inj (hadopt.symm.trans h.adopt_heads)
  · rw [flags_splice h.hasUnicode hf he]
    exact Flags.ext_contains fun f ↦ by rw [Flags.contains_union]; cases f <;> rfl
  · exact frames_splice he
  · rw [level_splice he, splicedElements, relocateAll_eq_map, hsame]
    rfl

theorem captureCount_splice (hb : b.Reachable) (h : c.splice b outer = .ok cb) :
    cb.captureCount = c.captureCount + b.captureCount :=
  (hb.consistent.records.foldlM_relocate (adopt_splice h)).1

/-- What fits into a host behind an expression fits into that expression too. -/
theorem admits_of_host (ha : a.Reachable) (hb : b.Reachable)
    (hv : ∀ name ∈ a.groupNames, isGroupName (inner.scope ++ name) = true)
    (hi : outer.ignoreAnchors = inner.ignoreAnchors) {base offset : Nat} {r r₁ : Registry}
    (h₁ : (b.heads.map (relocate outer base)).foldlM Registry.adopt r = .ok r₁)
    (h : r₁.Admits (a.heads.map (relocate (outer.around inner) offset))) :
    b.registry.Admits (a.heads.map (relocate inner b.captureCount)) := by
  have hnames : r₁.names = r.names ++ b.groupNames.map (outer.scope ++ ·) :=
    (hb.consistent.records.foldlM_relocate h₁).2
  have hnamed (options : SpliceOptions) (offset : Nat) :=
    ha.consistent.records.names_relocate options offset
  have hscope : (outer.scope ++ ·) ∘ (inner.scope ++ ·) = ((outer.around inner).scope ++ ·) :=
    funext fun _ ↦ String.append_assoc.symm
  refine ⟨?_, ?_, ?_, ?_⟩
  · rw [hnamed, List.forall_mem_map]
    exact hv
  · rw [hnamed, List.forall_mem_map]
    intro name hname hmem
    have hfresh := h.fresh
    rw [hnamed, List.forall_mem_map] at hfresh
    refine hfresh name hname ?_
    rw [hnames, ← congrFun hscope name]
    exact List.mem_append_right _ (List.mem_map_of_mem hmem)
  · -- the names differ in the outer host, where all of them have one more text in front
    have hnodup := h.nodup
    rw [hnamed] at hnodup ⊢
    refine List.Nodup.of_map (outer.scope ++ ·) ?_
    rwa [List.map_map, hscope]
  · have hanchors := h.anchors
    have hboth : (outer.around inner).ignoreAnchors = inner.ignoreAnchors := by
      simp [SpliceOptions.around, hi]
    rw [Registry.anchors_foldlM h₁, anchors_map_relocate, anchors_map_relocate, hboth, hi,
      hb.anchors_heads, List.append_assoc] at hanchors
    rw [anchors_map_relocate]
    -- either no anchor comes along, or the outer host has taken all of them, in the same order
    cases hs : inner.ignoreAnchors with
    | true =>
      rw [if_pos rfl, List.append_nil]
      exact b.registry.anchors_sublist
    | false =>
      rw [hs] at hanchors
      exact (List.sublist_append_right _ _).trans hanchors

theorem heads_map_splice (hp : b.level.pending = none) (h : b.splice a inner = .ok ba)
    (base : Nat) :
    ba.heads.map (relocate outer base) = b.heads.map (relocate outer base) ++
      .subexpression [] ::
        a.heads.map (relocate (outer.around inner) (base + b.captureCount)) := by
  have htwice : relocate outer base ∘ relocate inner b.captureCount =
      relocate (outer.around inner) (base + b.captureCount) :=
    funext (relocate_relocate outer inner b.captureCount base)
  rw [heads_splice h, hp, List.map_append, List.map_append, List.map_append, List.map_map, htwice]
  simp [quantifierHead, relocate, relocateAll]

theorem foldlM_adopt_splice (hp : b.level.pending = none) (h : b.splice a inner = .ok ba)
    (base : Nat) {r r' : Registry} :
    (ba.heads.map (relocate outer base)).foldlM Registry.adopt r = .ok r' ↔
      ∃ r₁, (b.heads.map (relocate outer base)).foldlM Registry.adopt r = .ok r₁ ∧
        (a.heads.map (relocate (outer.around inner) (base + b.captureCount))).foldlM
          Registry.adopt r₁ = .ok r' := by
  rw [heads_map_splice hp h, foldlM_append_eq_ok]
  rfl

/-- Splicing what was spliced into succeeds where splicing one after the other does. -/
theorem exists_splice_splice_iff (ha : a.Reachable) (hb : b.Reachable) (haf : a.frames = [])
    (hap : a.level.pending = none) (hbf : b.frames = []) (hbp : b.level.pending = none)
    (hv : ∀ name ∈ a.groupNames, isGroupName (inner.scope ++ name) = true)
    (hi : outer.ignoreAnchors = inner.ignoreAnchors) :
    (∃ e, (b.splice a inner >>= fun ba ↦ c.splice ba outer) = .ok e) ↔
      ∃ e', (c.splice b outer >>= fun cb ↦ cb.splice a (outer.around inner)) = .ok e' := by
  constructor
  · intro h
    obtain ⟨e, he⟩ := h
    obtain ⟨ba, hba, hc⟩ := bind_eq_ok.mp he
    obtain ⟨r₁, hr₁, hr⟩ := (foldlM_adopt_splice hbp hba _).mp (adopt_splice hc)
    obtain ⟨cb, hcb⟩ := exists_splice_iff.mpr
      ⟨hbf, hbp, Registry.exists_foldlM_adopt_iff.mp ⟨r₁, hr₁⟩⟩
    obtain rfl : r₁ = cb.registry := Except.ok.inj (hr₁.symm.trans (adopt_splice hcb))
    rw [← captureCount_splice hb hcb] at hr
    obtain ⟨e', he'⟩ := exists_splice_iff.mpr
      ⟨haf, hap, Registry.exists_foldlM_adopt_iff.mp ⟨_, hr⟩⟩
    exact ⟨e', bind_eq_ok.mpr ⟨cb, hcb, he'⟩⟩
  · intro h
    obtain ⟨e', he'⟩ := h
    obtain ⟨cb, hcb, hc⟩ := bind_eq_ok.mp he'
    have hadopt := adopt_splice hc
    rw [captureCount_splice hb hcb] at hadopt
    obtain ⟨ba, hba⟩ := exists_splice_iff.mpr ⟨haf, hap, admits_of_host ha hb hv hi
      (adopt_splice hcb) (Registry.exists_foldlM_adopt_iff.mp ⟨_, hadopt⟩)⟩
    have hboth := (foldlM_adopt_splice hbp hba _).mpr ⟨_, adopt_splice hcb, hadopt⟩
    obtain ⟨e, he⟩ := exists_splice_iff.mpr ⟨(frames_splice hba).trans hbf,
      pending_splice hba, Registry.exists_foldlM_adopt_iff.mp ⟨_, hboth⟩⟩
    exact ⟨e, bind_eq_ok.mpr ⟨ba, hba, he⟩⟩

theorem alikeIn_splice_splice (hb : b.Reachable) (hbp : b.level.pending = none)
    (hcp : c.level.pending = none) (hba : b.splice a inner = .ok ba)
    (he : c.splice ba outer = .ok e) (hcb : c.splice b outer = .ok cb)
    (he' : cb.splice a (outer.around inner) = .ok e')
    (hi : outer.ignoreFlags = inner.ignoreFlags) : AlikeIn c e e' where
  flags := by
    refine Flags.ext_contains fun f ↦ ?_
    have hany : ba.heads.any isUnicodeOnly =
        (b.heads.any isUnicodeOnly || a.heads.any isUnicodeOnly) := by
      rw [heads_splice hba, hbp, List.any_append, any_isUnicodeOnly_relocate, List.any_append,
        List.any_append]
      simp [quantifierHead, isUnicodeOnly]
    have hboth : (outer.around inner).ignoreFlags = inner.ignoreFlags := by
      simp [SpliceOptions.around, hi]
    rw [contains_splice he, contains_splice hba, contains_splice he', contains_splice hcb, hany,
      hboth, hi]
    cases f == Flag.unicode <;> cases inner.ignoreFlags <;> grind
  registry := by
    obtain ⟨r₁, hr₁, hr⟩ := (foldlM_adopt_splice hbp hba _).mp (adopt_splice he)
    obtain rfl : r₁ = cb.registry := Except.ok.inj (hr₁.symm.trans (adopt_splice hcb))
    rw [← captureCount_splice hb hcb, adopt_splice he'] at hr
    exact (Except.ok.inj hr).symm
  frames := by rw [frames_splice he, frames_splice he', frames_splice hcb]
  pending := by rw [pending_splice he, pending_splice he']
  elements := by
    have hlast : relocateAll outer c.captureCount (b.splicedElements a inner) =
        cb.splicedElements a (outer.around inner) := by
      rw [splicedElements, relocateAll_relocateAll, splicedElements, captureCount_splice hb hcb]
    have hnested : c.splicedElements ba outer = c.splicedElements b outer ++
        [.subexpression (cb.splicedElements a (outer.around inner))] := by
      rw [splicedElements, elements_splice hbp hba, relocateAll_append, ← hlast]
      rfl
    have hnew := elements_splice hcp he
    have hnew' := elements_splice (pending_splice hcb) he'
    rw [elements_splice hcp hcb, List.append_assoc] at hnew'
    refine ⟨_, _, hnew, hnew', ?_⟩
    rw [hnested, flattenAll_subexpression, List.append_nil, List.singleton_append,
      flattenAll_subexpression]

/-- The empty expression is the unit of splicing, and splicing is associative. -/
theorem splice_unit_assoc :
    (∀ {e : Expression} {p : Pattern}, e.Reachable → e.compile = .ok p →
      ∃ e', empty.splice e (.keeping "") = .ok e' ∧ e'.compile = .ok p ∧
        e'.registry = e.registry) ∧
    ∀ {a b c : Expression} {x y : String} {f s : Bool}, a.Reachable → a.frames = [] →
      a.level.pending = none → b.Reachable → b.frames = [] → b.level.pending = none →
      c.level.pending = none → (∀ name ∈ a.groupNames, isGroupName (x ++ name) = true) →
      ((∃ e, (b.splice a ⟨x, f, s⟩ >>= fun ba ↦ c.splice ba ⟨y, f, s⟩) = .ok e) ↔
        ∃ e', (c.splice b ⟨y, f, s⟩ >>= fun cb ↦ cb.splice a ⟨y ++ x, f, s⟩) = .ok e') ∧
      ∀ e e', (b.splice a ⟨x, f, s⟩ >>= fun ba ↦ c.splice ba ⟨y, f, s⟩) = .ok e →
        (c.splice b ⟨y, f, s⟩ >>= fun cb ↦ cb.splice a ⟨y ++ x, f, s⟩) = .ok e' →
        AlikeIn c e e' := by
  constructor
  · intro e p h hp
    obtain ⟨hf, hpending, rfl⟩ := compile_eq_ok.mp hp
    obtain ⟨e', he, hr, hflags, hframes, hlevel⟩ := splice_empty h hf hpending
    refine ⟨e', he, compile_eq_ok.mpr ⟨hframes, ?_, ?_⟩, hr⟩
    · rw [hlevel]
    · rw [hlevel, patternText_subexpression, hflags]
  · intro a b c x y f s ha haf hap hb hbf hbp hcp hv
    have hboth : SpliceOptions.around ⟨y, f, s⟩ ⟨x, f, s⟩ = ⟨y ++ x, f, s⟩ := by
      simp [SpliceOptions.around]
    rw [← hboth]
    refine ⟨exists_splice_splice_iff ha hb haf hap hbf hbp hv rfl, ?_⟩
    intro e e' he he'
    obtain ⟨ba, hba, hc⟩ := bind_eq_ok.mp he
    obtain ⟨cb, hcb, ha'⟩ := bind_eq_ok.mp he'
    exact alikeIn_splice_splice hb hbp hcp hba hc hcb ha' rfl

end

theorem splice_unit_assoc_in_open_group :
    ∃ _ : Property.Engine, ∃ a b c e e' p,
      empty.run [.openComposite (.namedCapture "n"),
        .literal (.code .point "1F600"), .close, .namedBackreference "n"] = .ok a ∧
      empty.run [.anchor .start, .openComposite .capture, .atom .word, .close,
        .backreference 1] = .ok b ∧
      empty.run [.openComposite .capture, .atom .digit] = .ok c ∧
      (b.splice a ⟨"x", false, false⟩ >>= fun ba ↦ c.splice ba ⟨"y", false, false⟩) = .ok e ∧
      (c.splice b ⟨"y", false, false⟩ >>= fun cb ↦
        cb.splice a ⟨"y" ++ "x", false, false⟩) = .ok e' ∧
      AlikeIn c e e' ∧ e.registry = ⟨["yxn"], 3, true, false⟩ ∧
      b.compile = .ok p ∧ p.source = "^(\\w)\\1" ∧
      ∃ b', empty.splice b (.keeping "") = .ok b' ∧ b'.compile = .ok p ∧
        b'.registry = b.registry := by
  let engine : Property.Engine := default
  let a : Expression := {
    level := { elements := [.composite (.namedCapture "n") [.code .point "1F600"],
      .namedBackreference "n"] }
    flags := { unicode := true }
    registry := { names := ["n"], captureCount := 1 } }
  let b : Expression := {
    level := { elements := [.anchor .start, .composite .capture [.atom .word],
      .backreference 1] }
    registry := { captureCount := 1, hasStart := true } }
  let c : Expression := {
    level := { elements := [.atom .digit] }
    frames := [⟨.capture, {}⟩]
    registry := { captureCount := 1 } }
  have ha : a.Reachable := Reachable.empty.run [.openComposite (.namedCapture "n"),
    .literal (.code .point "1F600"), .close, .namedBackreference "n"]
    (by simp [Call.spliced?]) rfl
  have hb : b.Reachable := Reachable.empty.run [.anchor .start, .openComposite .capture,
    .atom .word, .close, .backreference 1] (by simp [Call.spliced?]) rfl
  have hv : ∀ name ∈ a.groupNames, isGroupName ("x" ++ name) = true := by decide
  have he : (b.splice a ⟨"x", false, false⟩ >>= fun ba ↦ c.splice ba ⟨"y", false, false⟩) =
    .ok _ := rfl
  have he' : (c.splice b ⟨"y", false, false⟩ >>= fun cb ↦
    cb.splice a ⟨"y" ++ "x", false, false⟩) = .ok _ := rfl
  refine ⟨engine, a, b, c, _, _, _, rfl, rfl, rfl, he, he', ?_, rfl, rfl, rfl, ?_⟩
  · exact (splice_unit_assoc.2 ha rfl rfl hb rfl rfl rfl hv).2 _ _ he he'
  · exact splice_unit_assoc.1 hb rfl

end Expression

end PatternBuilder

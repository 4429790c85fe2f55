import PatternBuilder.Proofs.Element.Pruning
import PatternBuilder.Proofs.Expression.Relocation
import PatternBuilder.Proofs.Expression.Records
import PatternBuilder.Proofs.Expression.Unicode

namespace PatternBuilder

namespace Registry

/-- The same groups, and no anchor that the other registry lacks. -/
structure FewerAnchors (s r : Registry) : Prop where
  names : s.names = r.names
  captureCount : s.captureCount = r.captureCount
  start : s.hasStart = true → r.hasStart = true
  finish : s.hasEnd = true → r.hasEnd = true

variable {r r' s : Registry}

theorem FewerAnchors.refl (r : Registry) : r.FewerAnchors r := ⟨rfl, rfl, id, id⟩

theorem FewerAnchors.adoptAnchor (h : s.FewerAnchors r) {a : Anchor}
    (hr : r.adoptAnchor a = .ok r') : ∃ s', s.adoptAnchor a = .ok s' ∧ s'.FewerAnchors r' := by
  obtain ⟨hn, hc, hstart, hfinish⟩ := h
  cases a with
  | start =>
    obtain ⟨hs, he, rfl⟩ := adoptAnchor_start_eq_ok.mp hr
    have hs' := Bool.eq_false_iff.mpr (mt hstart (Bool.eq_false_iff.mp hs))
    have he' := Bool.eq_false_iff.mpr (mt hfinish (Bool.eq_false_iff.mp he))
    exact ⟨_, adoptAnchor_start_eq_ok.mpr ⟨hs', he', rfl⟩, hn, hc, fun _ ↦ rfl, hfinish⟩
  | finish =>
    obtain ⟨he, rfl⟩ := adoptAnchor_finish_eq_ok.mp hr
    have he' := Bool.eq_false_iff.mpr (mt hfinish (Bool.eq_false_iff.mp he))
    exact ⟨_, adoptAnchor_finish_eq_ok.mpr ⟨he', rfl⟩, hn, hc, hstart, fun _ ↦ rfl⟩

theorem FewerAnchors.addAnchor (h : s.FewerAnchors r) {a : Anchor}
    (hr : r.addAnchor a = .ok r') : s.FewerAnchors r' := by
  have hr := addAnchor_eq_ok.mp hr
  obtain ⟨hn, hc, hstart, hfinish⟩ := h
  cases a with
  | start =>
    obtain ⟨-, -, rfl⟩ := adoptAnchor_start_eq_ok.mp hr
    exact ⟨hn, hc, fun _ ↦ rfl, hfinish⟩
  | finish =>
    obtain ⟨-, rfl⟩ := adoptAnchor_finish_eq_ok.mp hr
    exact ⟨hn, hc, hstart, fun _ ↦ rfl⟩

theorem FewerAnchors.openComposite (h : s.FewerAnchors r) {kind : Composite}
    (hr : r.openComposite kind = .ok r') :
    ∃ s', s.openComposite kind = .ok s' ∧ s'.FewerAnchors r' := by
  obtain ⟨hn, hc, hstart, hfinish⟩ := h
  cases kind with
  | capture =>
    cases hr
    exact ⟨_, rfl, hn, congrArg (· + 1) hc, hstart, hfinish⟩
  | namedCapture name =>
    obtain ⟨r₁, hname, rfl⟩ := map_eq_ok.mp hr
    obtain ⟨hv, hnew, rfl⟩ := addName_eq_ok.mp hname
    rw [← hn] at hnew
    refine ⟨_, map_eq_ok.mpr ⟨_, addName_eq_ok.mpr ⟨hv, hnew, rfl⟩, rfl⟩, ?_⟩
    exact ⟨congrArg (· ++ [name]) hn, congrArg (· + 1) hc, hstart, hfinish⟩
  | _ =>
    cases hr
    exact ⟨s, rfl, hn, hc, hstart, hfinish⟩

theorem FewerAnchors.adopt (h : s.FewerAnchors r) {n : Element} (hr : r.adopt n = .ok r') :
    ∃ s', s.adopt n = .ok s' ∧ s'.FewerAnchors r' := by
  cases n with
  | anchor a => exact h.adoptAnchor hr
  | composite kind es => exact h.openComposite hr
  | _ =>
    cases hr
    exact ⟨s, rfl, h⟩

theorem FewerAnchors.foldlM_adopt (h : s.FewerAnchors r) {ns : List Element}
    (hr : ns.foldlM Registry.adopt r = .ok r') :
    ∃ s', ns.foldlM Registry.adopt s = .ok s' ∧ s'.FewerAnchors r' := by
  induction ns generalizing r s with
  | nil =>
    cases hr
    exact ⟨s, rfl, h⟩
  | cons n ns ih =>
    obtain ⟨r₁, hr₁, hrest⟩ := bind_eq_ok.mp hr
    obtain ⟨s₁, hs₁, h₁⟩ := h.adopt hr₁
    obtain ⟨s', hs', h'⟩ := ih h₁ hrest
    exact ⟨s', bind_eq_ok.mpr ⟨s₁, hs₁, hs'⟩, h'⟩

end Registry

section

variable (choices : Bool) (options : SpliceOptions) (offset : Nat)

/-- What a level leaves behind once it is spliced. -/
def Level.residue (keep : Bool) (l : Level) : List Element × Option Quantifier :=
  (Element.pruneAll choices keep (Element.relocateAll options offset l.elements), l.pending)

/-- The same composites are open, and the levels leave the same behind. -/
inductive SameResidue : Level → List Frame → Level → List Frame → Prop
  | outermost {l m : Level}
      (h : l.residue choices options offset false = m.residue choices options offset false) :
      SameResidue l [] m []
  | inside {l m outer outer' : Level} {kind : Composite} {frames frames' : List Frame}
      (h : l.residue choices options offset (choices && kind.isChoice) =
        m.residue choices options offset (choices && kind.isChoice))
      (ho : SameResidue outer frames outer' frames') :
      SameResidue l (⟨kind, outer⟩ :: frames) m (⟨kind, outer'⟩ :: frames')

end

namespace Level

variable {choices keep : Bool} {options : SpliceOptions} {offset : Nat} {l m : Level}
  {el fl : Element}

theorem residue_place
    (h : l.residue choices options offset keep = m.residue choices options offset keep)
    (hel : (el.relocate options offset).prune choices =
      (fl.relocate options offset).prune choices) :
    (l.place el).residue choices options offset keep =
      (m.place fl).residue choices options offset keep := by
  obtain ⟨he, hp⟩ := Prod.mk.inj h
  simp only [residue, place, Element.relocateAll_append, Element.pruneAll_append, he,
    Element.relocateAll_singleton, Element.pruneAll_singleton_congr hel]
  exact congrArg (Prod.mk _) hp

theorem residue_push
    (h : l.residue choices options offset keep = m.residue choices options offset keep)
    (hel : (el.relocate options offset).prune choices =
      (fl.relocate options offset).prune choices) :
    (l.push el).residue choices options offset keep =
      (m.push fl).residue choices options offset keep := by
  obtain ⟨he, hp⟩ := Prod.mk.inj h
  have hq : ((el.quantifiedBy l.pending).relocate options offset).prune choices =
      ((fl.quantifiedBy m.pending).relocate options offset).prune choices := by
    rw [hp, Element.relocate_quantifiedBy, Element.relocate_quantifiedBy]
    cases m.pending with
    | none => exact hel
    | some q => exact congrArg (Element.quantified q) hel
  simp only [residue, push, Element.relocateAll_append, Element.pruneAll_append, he,
    Element.relocateAll_singleton, Element.pruneAll_singleton_congr hq]

end Level

namespace SameResidue

variable {choices : Bool} {options : SpliceOptions} {offset : Nat} {l m l' m' : Level}
  {frames frames' : List Frame}

theorem refl (l : Level) (frames : List Frame) :
    SameResidue choices options offset l frames l frames := by
  induction frames generalizing l with
  | nil => exact .outermost rfl
  | cons frame frames ih => exact .inside rfl (ih frame.outer)

theorem pending (h : SameResidue choices options offset l frames m frames') :
    l.pending = m.pending := by
  cases h with
  | outermost h => exact (Prod.mk.inj h).2
  | inside h => exact (Prod.mk.inj h).2

theorem update (h : SameResidue choices options offset l frames m frames')
    (hu : ∀ keep,
      l.residue choices options offset keep = m.residue choices options offset keep →
      l'.residue choices options offset keep = m'.residue choices options offset keep) :
    SameResidue choices options offset l' frames m' frames' := by
  cases h with
  | outermost h => exact .outermost (hu _ h)
  | inside h ho => exact .inside (hu _ h) ho

theorem push (h : SameResidue choices options offset l frames m frames') {el fl : Element}
    (hel : (el.relocate options offset).prune choices =
      (fl.relocate options offset).prune choices) :
    SameResidue choices options offset (l.push el) frames (m.push fl) frames' :=
  h.update fun _ hr ↦ Level.residue_push hr hel

end SameResidue

namespace Expression

/-- What has been built leaves the same behind on both sides, though the second side may lack some
of the anchors. -/
structure Alike (choices : Bool) (options : SpliceOptions) (offset : Nat) (e b : Expression) :
    Prop where
  levels : SameResidue choices options offset e.level e.frames b.level b.frames
  flags : e.flags = b.flags
  registry : b.registry.FewerAnchors e.registry

namespace Alike

variable {choices : Bool} {options : SpliceOptions} {offset : Nat} {e b e' : Expression} {c : Call}

theorem push (h : Alike choices options offset e b) {el fl : Element}
    (hel : (el.relocate options offset).prune choices =
      (fl.relocate options offset).prune choices) :
    Alike choices options offset (e.push el) (b.push fl) :=
  ⟨h.levels.push hel, h.flags, h.registry⟩

theorem setUnicodeFor (h : Alike choices options offset e b) {el fl : Element}
    (hu : el.requiresUnicode = fl.requiresUnicode) :
    Alike choices options offset (e.setUnicodeFor el) (b.setUnicodeFor fl) where
  levels := by
    rw [level_setUnicodeFor, level_setUnicodeFor, frames_setUnicodeFor, frames_setUnicodeFor]
    exact h.levels
  flags := by rw [flags_setUnicodeFor, flags_setUnicodeFor, hu, h.flags]
  registry := by
    rw [registry_setUnicodeFor, registry_setUnicodeFor]
    exact h.registry

theorem admits (h : Alike choices options offset e b) {el : Element} (ha : e.level.Admits el) :
    b.level.Admits el := by
  rw [Level.Admits, ← h.levels.pending]
  exact ha

theorem finds (h : Alike choices options offset e b) {el : Element} (hf : e.Finds el) :
    b.Finds el := by
  cases el with
  | backreference i =>
    have hcount : b.captureCount = e.captureCount := h.registry.captureCount
    exact ⟨hf.1, hcount ▸ hf.2⟩
  | namedBackreference name =>
    change name ∈ b.registry.names
    rw [h.registry.names]
    exact hf
  | _ => trivial

theorem splicedElements_eq (h : Alike choices options offset e b) (other : Expression)
    (spliceOptions : SpliceOptions) :
    b.splicedElements other spliceOptions = e.splicedElements other spliceOptions :=
  congrArg (Element.relocateAll spliceOptions · other.level.elements) h.registry.captureCount

theorem apply [Property.Engine] (h : Alike choices options offset e b) (hc : e.apply c = .ok e') :
    ∃ b', b.apply c = .ok b' ∧ Alike choices options offset e' b' := by
  cases apply_eq_ok.mp hc with
  | setFlag f => exact ⟨_, rfl, h.levels, congrArg (·.insert f) h.flags, h.registry⟩
  | leaf hl ha hf =>
    refine ⟨_, apply_eq_ok.mpr (.leaf hl (h.admits ha) (h.finds hf)), ?_⟩
    exact (h.push rfl).setUnicodeFor rfl
  | anchor hr =>
    obtain ⟨s, hs, hfewer⟩ := h.registry.adoptAnchor (Registry.addAnchor_eq_ok.mp hr)
    refine ⟨_, apply_eq_ok.mpr (.anchor (Registry.addAnchor_eq_ok.mpr hs)), ?_, h.flags, hfewer⟩
    exact h.levels.update fun _ hl ↦ Level.residue_place hl rfl
  | openComposite hr =>
    obtain ⟨s, hs, hfewer⟩ := h.registry.openComposite hr
    exact ⟨_, apply_eq_ok.mpr (.openComposite hs), .inside rfl h.levels, h.flags, hfewer⟩
  | @close kind outer frames hf hp ha =>
    have hlevels := h.levels
    rw [hf] at hlevels
    generalize hb : b.frames = bframes at hlevels
    cases hlevels with
    | @inside _ _ _ outer' _ _ frames' hl ho =>
      have hadmits : outer'.Admits (.composite kind b.level.elements) := by
        rw [Level.Admits, ← ho.pending]
        exact ha
      have hpending : b.level.pending = none := h.levels.pending.symm.trans hp
      refine ⟨_, apply_eq_ok.mpr (.close hb hpending hadmits), ?_, h.flags, h.registry⟩
      refine ho.push ?_
      rw [Element.relocate_composite, Element.relocate_composite, Element.prune, Element.prune]
      have hchoice : (kind.inScope options.scope).isChoice = kind.isChoice := by cases kind <;> rfl
      rw [hchoice, (Prod.mk.inj hl).1]
  | quantify hq hp =>
    refine ⟨_, apply_eq_ok.mpr (.quantify hq (h.levels.pending.symm.trans hp)), ?_, h.flags,
      h.registry⟩
    exact h.levels.update fun _ hl ↦ congrArg (fun r ↦ (r.1, _)) hl
  | @splice other spliceOptions r hf hp hr =>
    obtain ⟨s, hs, hfewer⟩ := h.registry.foldlM_adopt hr
    rw [← h.splicedElements_eq] at hs
    refine ⟨_, apply_eq_ok.mpr (.splice hf hp hs), ?_⟩
    rw [h.splicedElements_eq]
    refine (Alike.push (e := { e with registry := r, flags := _ })
      (b := { b with registry := s, flags := _ }) ⟨h.levels, ?_, hfewer⟩ rfl).setUnicodeFor rfl
    simp only [h.flags]

theorem run [Property.Engine] (h : Alike choices options offset e b) {cs : List Call}
    (hc : e.run cs = .ok e') :
    ∃ b', b.run cs = .ok b' ∧ Alike choices options offset e' b' := by
  induction cs generalizing e b with
  | nil =>
    cases hc
    exact ⟨b, rfl, h⟩
  | cons c cs ih =>
    obtain ⟨e₁, he, hrest⟩ := run_cons.mp hc
    obtain ⟨b₁, hb, h₁⟩ := h.apply he
    obtain ⟨b', hb', h'⟩ := ih h₁ hrest
    exact ⟨b', run_cons.mpr ⟨b₁, hb, hb'⟩, h'⟩

end Alike

end Expression

end PatternBuilder

import PatternBuilder.Proofs.Expression.Compile
import PatternBuilder.Proofs.Expression.Residue

namespace PatternBuilder

namespace Registry

theorem adopt_of_not_isTelling {n : Element} (h : n.isTelling = false) (r : Registry) :
    r.adopt n = .ok r := by
  cases n <;> first | rfl | cases h

theorem foldlM_adopt_filter (ns : List Element) (r : Registry) :
    (ns.filter Element.isTelling).foldlM adopt r = ns.foldlM adopt r := by
  induction ns generalizing r with
  | nil => rfl
  | cons n ns ih =>
    cases h : n.isTelling with
    | true =>
      rw [List.filter_cons_of_pos h, List.foldlM_cons, List.foldlM_cons]
      exact congrArg (_ >>= ·) (funext ih)
    | false =>
      rw [List.filter_cons_of_neg (by simp [h]), List.foldlM_cons, adopt_of_not_isTelling h, ih]
      rfl

end Registry

namespace Element

variable {choices keep : Bool} {es fs : List Element}

theorem filter_heads_congr (h : pruneAll choices keep es = pruneAll choices keep fs) :
    (heads es).filter isTelling = (heads fs).filter isTelling := by
  calc (heads es).filter isTelling
    _ = (heads (pruneAll choices keep es)).filter isTelling :=
      (filter_heads_pruneAll fun e _ ↦ filter_heads_prune e).symm
    _ = (heads (pruneAll choices keep fs)).filter isTelling := by rw [h]
    _ = (heads fs).filter isTelling := filter_heads_pruneAll fun e _ ↦ filter_heads_prune e

theorem foldlM_adopt_congr (h : pruneAll choices keep es = pruneAll choices keep fs)
    (r : Registry) :
    (nodesAll es).foldlM Registry.adopt r = (nodesAll fs).foldlM Registry.adopt r := by
  rw [← Registry.foldlM_adopt_heads, ← Registry.foldlM_adopt_filter, filter_heads_congr h,
    Registry.foldlM_adopt_filter, Registry.foldlM_adopt_heads]

theorem any_filter_isTelling (ns : List Element) :
    (ns.filter isTelling).any isUnicodeOnly = ns.any isUnicodeOnly := by
  have htelling (n : Element) : (n.isTelling && n.isUnicodeOnly) = n.isUnicodeOnly := by
    cases n <;> rfl
  rw [List.any_filter, funext htelling]

end Element

def Call.isAnchor : Call → Bool
  | anchor _ => true
  | _ => false

namespace Expression

variable {choices : Bool} {options : SpliceOptions} {offset : Nat}
  {e e' b host other bare : Expression}

def inChoice (e : Expression) : Bool := e.frames.head?.any (·.kind.isChoice)

/-- Whether no step of the run sets an anchor as a member of a choice. -/
def anchorsInSequences [Property.Engine] (e : Expression) : List Call → Bool
  | [] => true
  | c :: cs => !(c.isAnchor && e.inChoice) && (e.apply c).toOption.all (anchorsInSequences · cs)

theorem anchorsInSequences_cons [Property.Engine] {c : Call} {cs : List Call}
    (h : e.apply c = .ok e') :
    e.anchorsInSequences (c :: cs) = true ↔
      (c.isAnchor = true → e.inChoice = false) ∧ e'.anchorsInSequences cs = true := by
  cases hc : c.isAnchor <;> simp [anchorsInSequences, hc, h, Except.toOption]

theorem residue_place_anchor (hi : options.ignoreAnchors = true) (l : Level) (a : Anchor) :
    (l.place (.anchor a)).residue choices options offset false =
      l.residue choices options offset false := by
  have hnoop : (Element.anchor a).relocate options offset = .noop := by
    simp [Element.relocate, hi]
  simp only [Level.residue, Level.place, Element.relocateAll_append,
    Element.relocateAll_singleton, hnoop, Element.pruneAll_append]
  exact congrArg (·, l.pending) (List.append_nil _)

/-- An anchor in a sequence leaves nothing behind that the other side lacks. -/
theorem Alike.addAnchor [Property.Engine] (h : Alike choices options offset e b)
    (hi : options.ignoreAnchors = true) (hc : choices = true → e.inChoice = false) {a : Anchor}
    (ha : e.apply (.anchor a) = .ok e') : Alike choices options offset e' b := by
  obtain ⟨r, hr, rfl⟩ := addAnchor_eq_ok.mp ha
  refine ⟨?_, h.flags, h.registry.addAnchor hr⟩
  have hlevels := h.levels
  unfold inChoice at hc
  change SameResidue choices options offset (e.level.place (.anchor a)) e.frames b.level b.frames
  generalize e.frames = frames at hlevels hc
  generalize b.frames = frames' at hlevels
  cases hlevels with
  | outermost hl => exact .outermost ((residue_place_anchor hi e.level a).trans hl)
  | @inside _ _ _ _ kind _ _ hl ho =>
    have hkeep : (choices && kind.isChoice) = false := by
      cases choices with
      | true => exact hc rfl
      | false => rfl
    refine .inside ?_ ho
    rw [hkeep] at hl ⊢
    exact (residue_place_anchor hi e.level a).trans hl

theorem Alike.run_without_anchors [Property.Engine] (h : Alike choices options offset e b)
    (hi : options.ignoreAnchors = true) {cs : List Call}
    (hs : choices = true → e.anchorsInSequences cs = true) (hr : e.run cs = .ok e') :
    ∃ b', b.run (cs.filter (!·.isAnchor)) = .ok b' ∧ Alike choices options offset e' b' := by
  induction cs generalizing e b with
  | nil =>
    cases hr
    exact ⟨b, rfl, h⟩
  | cons c cs ih =>
    obtain ⟨e₁, he, hrest⟩ := run_cons.mp hr
    have hs₁ (hchoices : choices = true) := (anchorsInSequences_cons he).mp (hs hchoices)
    cases hc : c.isAnchor with
    | true =>
      rw [List.filter_cons_of_neg (by simp [hc])]
      obtain ⟨a, rfl⟩ : ∃ a, c = .anchor a := by cases c <;> first | exact ⟨_, rfl⟩ | cases hc
      have h₁ := h.addAnchor hi (fun hchoices ↦ (hs₁ hchoices).1 rfl) he
      exact ih h₁ (fun hchoices ↦ (hs₁ hchoices).2) hrest
    | false =>
      rw [List.filter_cons_of_pos (by simp [hc])]
      obtain ⟨b₁, hb, h₁⟩ := h.apply he
      obtain ⟨b', hb', h'⟩ := ih h₁ (fun hchoices ↦ (hs₁ hchoices).2) hrest
      exact ⟨b', run_cons.mpr ⟨b₁, hb, hb'⟩, h'⟩

theorem Alike.of_frames_nil (h : Alike choices options offset e b) (hf : e.frames = []) :
    b.frames = [] ∧
      Element.pruneAll choices false (Element.relocateAll options offset e.level.elements) =
        Element.pruneAll choices false
          (Element.relocateAll options offset b.level.elements) := by
  have hlevels := h.levels
  rw [hf] at hlevels
  generalize b.frames = frames at hlevels
  cases hlevels with
  | outermost hl => exact ⟨rfl, (Prod.mk.inj hl).1⟩

theorem splice_congr {other' spliced : Expression} (hf : other'.frames = [])
    (hp : other'.level.pending = none) (hflags : other.flags = other'.flags)
    (hes : Element.pruneAll choices false (host.splicedElements other options) =
      Element.pruneAll choices false (host.splicedElements other' options))
    (hs : host.splice other options = .ok spliced) :
    ∃ spliced', host.splice other' options = .ok spliced' ∧
      spliced.registry = spliced'.registry ∧ Alike choices (.keeping "") 0 spliced spliced' := by
  obtain ⟨-, -, r, hr, rfl⟩ := splice_eq_ok.mp hs
  rw [Element.foldlM_adopt_congr hes] at hr
  let flags (o : Expression) := if options.ignoreFlags then host.flags else host.flags.union o.flags
  have hbefore : Alike choices (.keeping "") 0 { host with registry := r, flags := flags other }
      { host with registry := r, flags := flags other' } :=
    ⟨.refl _ _, by simp only [flags, hflags], .refl r⟩
  have hel : ((Element.subexpression (host.splicedElements other options)).relocate
        (.keeping "") 0).prune choices =
      ((Element.subexpression (host.splicedElements other' options)).relocate
        (.keeping "") 0).prune choices := by
    rw [Element.relocate_keeping_empty, Element.relocate_keeping_empty, Element.prune,
      Element.prune, hes]
  have hunicode : (Element.subexpression (host.splicedElements other options)).requiresUnicode =
      (Element.subexpression (host.splicedElements other' options)).requiresUnicode := by
    rw [Element.requiresUnicode_subexpression, Element.requiresUnicode_subexpression,
      ← Element.any_filter_isTelling, Element.filter_heads_congr hes,
      Element.any_filter_isTelling]
  refine ⟨_, splice_eq_ok.mpr ⟨hf, hp, r, hr, rfl⟩, ?_, (hbefore.push hel).setUnicodeFor hunicode⟩
  rw [registry_setUnicodeFor, registry_setUnicodeFor]
  rfl

/-- Where the members of choices are kept, what is left behind decides the pattern. -/
theorem Alike.compile_eq {p p' : Pattern} (h : Alike true (.keeping "") 0 e b)
    (hp : e.compile = .ok p) (hp' : b.compile = .ok p') : p = p' := by
  obtain ⟨hf, -, rfl⟩ := compile_eq_ok.mp hp
  obtain ⟨-, -, rfl⟩ := compile_eq_ok.mp hp'
  have hes := (h.of_frames_nil hf).2
  rw [Element.relocateAll_eq_self _ _ fun e _ ↦ Element.relocate_keeping_empty e,
    Element.relocateAll_eq_self _ _ fun e _ ↦ Element.relocate_keeping_empty e] at hes
  rw [← Element.patternText_pruneAll e.level.elements, hes, Element.patternText_pruneAll, h.flags]

/-- An expression can be spliced without its anchors just if it can be spliced without having been
given any, and the host takes note of the same. The pattern is the same too, unless an anchor was
the member of a choice: there the empty alternative stays in its place. -/
theorem splice_without_anchors [Property.Engine] {calls : List Call}
    (hr : empty.run calls = .ok other) (hf : other.frames = []) (hp : other.level.pending = none) :
    ∃ bare, empty.run (calls.filter (!·.isAnchor)) = .ok bare ∧
      ∀ (host : Expression) (options : SpliceOptions), options.ignoreAnchors = true →
        ((∃ e, host.splice other options = .ok e) ↔ ∃ b, host.splice bare options = .ok b) ∧
        ∀ e b, host.splice other options = .ok e → host.splice bare options = .ok b →
          e.flags = b.flags ∧ e.registry = b.registry ∧
          (empty.anchorsInSequences calls = true → ∀ more e' b' p p', e.run more = .ok e' →
            b.run more = .ok b' → e'.compile = .ok p → b'.compile = .ok p' →
            p.source = p'.source) := by
  have hstart (choices : Bool) (options : SpliceOptions) (offset : Nat) :
      Alike choices options offset empty empty :=
    ⟨.refl _ _, rfl, .refl _⟩
  obtain ⟨bare, hbare, -⟩ := (hstart false {} 0).run_without_anchors rfl (nofun) hr
  refine ⟨bare, hbare, ?_⟩
  intro host options hi
  have hlike (choices : Bool) (hs : choices = true → empty.anchorsInSequences calls = true) :
      Alike choices options host.captureCount other bare := by
    obtain ⟨b, hb, h⟩ := (hstart choices options host.captureCount).run_without_anchors hi hs hr
    obtain rfl : bare = b := Except.ok.inj (hbare.symm.trans hb)
    exact h
  have halike := hlike false (nofun)
  obtain ⟨hf', hes⟩ := halike.of_frames_nil hf
  have hp' : bare.level.pending = none := halike.levels.pending.symm.trans hp
  refine ⟨⟨?_, ?_⟩, ?_⟩
  · rintro ⟨e, he⟩
    obtain ⟨b, hb, -⟩ := splice_congr hf' hp' halike.flags hes he
    exact ⟨b, hb⟩
  · rintro ⟨b, hb⟩
    obtain ⟨e, he, -⟩ := splice_congr hf hp halike.flags.symm hes.symm hb
    exact ⟨e, he⟩
  · intro e b he hb
    obtain ⟨b₀, hb₀, hreg, hafter⟩ := splice_congr hf' hp' halike.flags hes he
    obtain rfl : b = b₀ := Except.ok.inj (hb.symm.trans hb₀)
    refine ⟨hafter.flags, hreg, ?_⟩
    intro hs more e' b' p p' he' hb' hpe hpb
    have hes := ((hlike true fun _ ↦ hs).of_frames_nil hf).2
    obtain ⟨b₁, hb₁, -, hkept⟩ := splice_congr hf' hp' halike.flags hes he
    obtain rfl : b = b₁ := Except.ok.inj (hb.symm.trans hb₁)
    obtain ⟨b₂, hb₂, hrun⟩ := hkept.run he'
    obtain rfl : b' = b₂ := Except.ok.inj (hb'.symm.trans hb₂)
    rw [hrun.compile_eq hpe hpb]

theorem splice_without_anchors_around_choice :
    ∃ _ : Property.Engine, ∃ host other bare e b p p',
      empty.run [.atom .digit, .quantify .optional] = .ok host ∧
      empty.run [.anchor .start, .openComposite .anyOf, .literal (.char 'a'), .atom .word, .close,
        .openComposite .capture, .anchor .finish, .close] = .ok other ∧
      empty.run [.openComposite .anyOf, .literal (.char 'a'), .atom .word, .close,
        .openComposite .capture, .close] = .ok bare ∧
      host.splice other {} = .ok e ∧ host.splice bare {} = .ok b ∧
      e.compile = .ok p ∧ b.compile = .ok p' ∧ e.registry = b.registry ∧ p.source = p'.source := by
  let engine : Property.Engine := default
  have hr : empty.run [.anchor .start, .openComposite .anyOf, .literal (.char 'a'), .atom .word,
    .close, .openComposite .capture, .anchor .finish, .close] = .ok _ := rfl
  obtain ⟨bare, hbare, h⟩ := splice_without_anchors hr rfl rfl
  cases hbare
  obtain ⟨hspliced, hsame⟩ :=
    h { level := { elements := [.atom .digit], pending := some .optional } } {} rfl
  obtain ⟨b, hb⟩ := hspliced.mp ⟨_, rfl⟩
  obtain ⟨-, hregistry, hsource⟩ := hsame _ b rfl hb
  cases hb
  exact ⟨engine, _, _, _, _, _, _, _, rfl, rfl, rfl, rfl, rfl, rfl, rfl, hregistry,
    hsource rfl [] _ _ _ _ rfl rfl rfl rfl⟩

theorem dropped_anchor_stays_in_choice :
    ∃ calls : List Call,
      calls = [.openComposite .anythingBut, .anchor .start, .literal (.char 'a'), .close] ∧
      calls.filter (!·.isAnchor) = [.openComposite .anythingBut, .literal (.char 'a'), .close] ∧
      ∀ _ : Property.Engine, ∃ other bare e b p p', empty.run calls = .ok other ∧
        empty.run (calls.filter (!·.isAnchor)) = .ok bare ∧
        empty.splice other {} = .ok e ∧ empty.splice bare {} = .ok b ∧
        e.compile = .ok p ∧ b.compile = .ok p' ∧
        p.source = "(?:(?!)[^a])" ∧ p'.source = "[^a]" := by
  refine ⟨_, rfl, rfl, fun _ ↦ ?_⟩
  exact ⟨_, _, _, _, _, _, rfl, rfl, rfl, rfl, rfl, rfl, rfl, rfl⟩

end Expression

end PatternBuilder

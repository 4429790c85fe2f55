import Mathlib.Data.List.Infix
import PatternBuilder.Proofs.Expression.Unicode

namespace PatternBuilder

namespace Expression

variable {e e' : Expression} {below : List Frame}

section

variable [Property.Engine]

theorem frames_apply {c : Call} (h : e.apply c = .ok e') :
    e'.frames = e.frames ∨ (∃ kind, e'.frames = ⟨kind, e.level⟩ :: e.frames) ∨
      ∃ frame, e.frames = frame :: e'.frames := by
  cases apply_eq_ok.mp h with
  | setFlag | anchor | quantify => exact .inl rfl
  | leaf | splice => exact .inl (frames_setUnicodeFor _ _)
  | @openComposite kind => exact .inr (.inl ⟨kind, rfl⟩)
  | close hf => exact .inr (.inr ⟨_, hf⟩)

/-- A step that leaves the stack at least as high as some lower part of it leaves that part as it
was. -/
theorem suffix_frames_apply {c : Call} (hb : below <:+ e.frames) (h : e.apply c = .ok e')
    (hdeep : below.length ≤ e'.frames.length) : below <:+ e'.frames := by
  obtain hsame | ⟨kind, hopened⟩ | ⟨frame, hclosed⟩ := frames_apply h
  · rwa [hsame]
  · rw [hopened]
    exact hb.trans (List.suffix_cons _ _)
  · rw [hclosed, List.suffix_cons_iff] at hb
    rcases hb with rfl | hb
    · rw [List.length_cons] at hdeep
      omega
    · exact hb

theorem suffix_frames_run {cs : List Call} (hb : below <:+ e.frames) (h : e.run cs = .ok e')
    (hdeep : ∀ before, before <+: cs → ∀ m, e.run before = .ok m →
      below.length ≤ m.frames.length) : below <:+ e'.frames := by
  induction cs generalizing e with
  | nil =>
    cases h
    exact hb
  | cons c cs ih =>
    obtain ⟨e₁, h₁, hrest⟩ := run_cons.mp h
    have hone : e.run [c] = .ok e₁ := run_cons.mpr ⟨e₁, h₁, rfl⟩
    have hb₁ := suffix_frames_apply hb h₁ (hdeep [c] (List.prefix_append [c] cs) e₁ hone)
    refine ih hb₁ hrest fun before hbefore m hm ↦ ?_
    exact hdeep (c :: before) (List.cons_prefix_cons.mpr ⟨rfl, hbefore⟩) m
      (run_cons.mpr ⟨e₁, h₁, hm⟩)

/-- Whatever is built while the opened composite stays open, its closing adds one element to the
level around it: the composite with all that was built, bound to the quantifier that waited there.
The levels further out are as before. -/
theorem bracket_adds_one_element {kind : Composite} {cs : List Call}
    {opened inner closed : Expression} (ho : e.apply (.openComposite kind) = .ok opened)
    (hr : opened.run cs = .ok inner)
    (hdeep : ∀ before, before <+: cs → ∀ m, opened.run before = .ok m →
      e.frames.length < m.frames.length)
    (hc : inner.apply .close = .ok closed) (hl : closed.frames.length = e.frames.length) :
    inner.frames = ⟨kind, e.level⟩ :: e.frames ∧ closed.frames = e.frames ∧
      closed.level.pending = none ∧
      closed.level.elements = e.level.elements ++
        [(Element.composite kind inner.level.elements).quantifiedBy e.level.pending] := by
  obtain ⟨r, -, rfl⟩ := openComposite_eq_ok.mp ho
  have hb : ⟨kind, e.level⟩ :: e.frames <:+ inner.frames :=
    suffix_frames_run (List.suffix_refl _) hr hdeep
  obtain ⟨kind', outer, frames, hf, -, -, rfl⟩ := close_eq_ok.mp hc
  -- what was closed is the last that stood on the composite opened here, so it is that one
  have hinner : inner.frames = ⟨kind, e.level⟩ :: e.frames := by
    refine (hb.eq_of_length ?_).symm
    rw [hf, List.length_cons, List.length_cons]
    exact congrArg (· + 1) hl.symm
  rw [hinner, List.cons.injEq, Frame.mk.injEq] at hf
  obtain ⟨⟨rfl, rfl⟩, rfl⟩ := hf
  exact ⟨hinner, rfl, rfl, rfl⟩

end

theorem bracket_adds_one_element_around_splice :
    ∃ _ : Property.Engine, ∃ e opened inner closed other,
      empty.run [.quantify (.exactly 2), .openComposite .group, .atom .digit,
        .quantify .optional] = .ok e ∧
      empty.run [.openComposite .capture, .anchor .finish, .close, .backreference 1] = .ok other ∧
      e.apply (.openComposite (.namedCapture "n")) = .ok opened ∧
      opened.run [.anchor .start, .quantify (.oneOrMore true), .openComposite .anyOf,
        .literal (.char 'a'), .close, .splice other {}] = .ok inner ∧
      inner.apply .close = .ok closed ∧ closed.frames = e.frames ∧
      closed.level.elements = [.atom .digit, .quantified .optional
        (.composite (.namedCapture "n") inner.level.elements)] := by
  let engine : Property.Engine := default
  let e : Expression := {
    level := { elements := [.atom .digit], pending := some .optional }
    frames := [⟨.group, { pending := some (.exactly 2) }⟩] }
  let other : Expression := {
    level := { elements := [.composite .capture [.anchor .finish], .backreference 1] }
    registry := { captureCount := 1, hasEnd := true } }
  let opened : Expression := {
    frames := ⟨.namedCapture "n", e.level⟩ :: e.frames
    registry := { names := ["n"], captureCount := 1 } }
  let inner : Expression := {
    level := { elements := [.anchor .start,
      .quantified (.oneOrMore true) (.composite .anyOf [.char 'a']),
      .subexpression [.composite .capture [.noop], .backreference 2]] }
    frames := opened.frames
    registry := { names := ["n"], captureCount := 2, hasStart := true } }
  have ho : e.apply (.openComposite (.namedCapture "n")) = .ok opened := rfl
  have hr : opened.run [.anchor .start, .quantify (.oneOrMore true), .openComposite .anyOf,
      .literal (.char 'a'), .close, .splice other {}] = .ok inner := rfl
  refine ⟨engine, e, opened, inner, _, other, rfl, rfl, ho, hr, rfl, ?_⟩
  have hdeep : ∀ before, before <+: [.anchor .start, .quantify (.oneOrMore true),
      .openComposite .anyOf, .literal (.char 'a'), .close, .splice other {}] →
      ∀ m, opened.run before = .ok m → e.frames.length < m.frames.length := by
    intro before hbefore m hm
    have hmem := (List.mem_inits _ _).mpr hbefore
    simp only [List.inits, List.map, List.mem_cons, List.not_mem_nil, or_false] at hmem
    rcases hmem with rfl | rfl | rfl | rfl | rfl | rfl | rfl <;> cases hm <;> decide
  obtain ⟨-, hframes, -, helements⟩ := bracket_adds_one_element ho hr hdeep rfl rfl
  exact ⟨hframes, helements⟩

end Expression

end PatternBuilder

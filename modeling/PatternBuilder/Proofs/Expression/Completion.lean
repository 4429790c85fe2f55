import PatternBuilder.Proofs.Expression.Compile
import PatternBuilder.Proofs.Expression.Unicode

namespace PatternBuilder

/-- A quantifier waits for the open composite, and cannot be bound to it when it is closed. -/
def Frame.IsBlocked (f : Frame) : Prop := f.kind.isLook = true ∧ f.outer.pending ≠ none

namespace Expression

variable {e e' : Expression}

def IsBlocked (e : Expression) : Prop := ∃ f ∈ e.frames, f.IsBlocked

theorem admits_composite_iff {kind : Composite} {outer : Level} {es : List Element} :
    outer.Admits (.composite kind es) ↔ ¬(⟨kind, outer⟩ : Frame).IsBlocked := by
  cases hk : kind.isLook <;> simp [Level.Admits, Frame.IsBlocked, Element.isQuantifiable, hk]

/-- No step reaches the level below the open composite, and the composite itself is never closed. -/
theorem IsBlocked.apply [Property.Engine] {c : Call} (hb : e.IsBlocked) (h : e.apply c = .ok e') :
    e'.IsBlocked := by
  obtain ⟨f, hf, hblocked⟩ := hb
  cases apply_eq_ok.mp h with
  | setFlag | anchor | quantify => exact ⟨f, hf, hblocked⟩
  | leaf | splice =>
    refine ⟨f, ?_, hblocked⟩
    rw [frames_setUnicodeFor]
    exact hf
  | openComposite => exact ⟨f, List.mem_cons_of_mem _ hf, hblocked⟩
  | close hframes _ ha =>
    rw [hframes, List.mem_cons] at hf
    rcases hf with rfl | hf
    · exact absurd hblocked (admits_composite_iff.mp ha)
    · exact ⟨f, hf, hblocked⟩

theorem IsBlocked.run [Property.Engine] {cs : List Call} (hb : e.IsBlocked)
    (h : e.run cs = .ok e') : e'.IsBlocked :=
  run_preserves IsBlocked.apply hb h

theorem IsBlocked.compile_ne_ok (hb : e.IsBlocked) (p : Pattern) : e.compile ≠ .ok p := by
  intro h
  obtain ⟨f, hf, -⟩ := hb
  rw [(compile_eq_ok.mp h).1] at hf
  exact List.not_mem_nil hf

def closingCalls (e : Expression) : List Call :=
  (if e.level.pending.isSome then [.atom .anyChar] else []) ++ e.frames.map fun _ ↦ .close

/-- Closing the innermost composite binds what waits around it, so that only the outermost of the
levels has to be settled beforehand. -/
theorem exists_run_close [Property.Engine] {frames : List Frame} (hf : e.frames = frames)
    (hp : e.level.pending = none) (hb : ¬e.IsBlocked) :
    ∃ e', e.run (frames.map fun _ ↦ .close) = .ok e' ∧ e'.frames = [] ∧
      e'.level.pending = none := by
  induction frames generalizing e with
  | nil => exact ⟨e, rfl, hf, hp⟩
  | cons frame frames ih =>
    obtain ⟨kind, outer⟩ := frame
    have hadmits : outer.Admits (.composite kind e.level.elements) := by
      rw [admits_composite_iff]
      intro hblocked
      exact hb ⟨_, hf ▸ List.mem_cons_self, hblocked⟩
    have hclose := apply_eq_ok.mpr (Step.close hf hp hadmits)
    obtain ⟨e', hrun, hfinished⟩ := ih (e := { e with
        level := outer.push (.composite kind e.level.elements), frames }) rfl rfl (by
      rintro ⟨f, hmem, hblocked⟩
      exact hb ⟨f, hf ▸ List.mem_cons_of_mem _ hmem, hblocked⟩)
    exact ⟨e', run_cons.mpr ⟨_, hclose, hrun⟩, hfinished⟩

theorem exists_run_closingCalls [Property.Engine] (hb : ¬e.IsBlocked) :
    ∃ e', e.run e.closingCalls = .ok e' ∧ e'.frames = [] ∧ e'.level.pending = none := by
  cases hp : e.level.pending with
  | none =>
    rw [closingCalls, hp]
    exact exists_run_close rfl hp hb
  | some q =>
    obtain ⟨e', hrun, hfinished⟩ :=
      exists_run_close (e := e.push (.atom .anyChar)) rfl rfl hb
    rw [closingCalls, hp]
    exact ⟨e', run_cons.mpr ⟨_, rfl, hrun⟩, hfinished⟩

theorem spliced?_of_mem_closingCalls {c : Call} (hc : c ∈ e.closingCalls) : c.spliced? = none := by
  rw [closingCalls, List.mem_append] at hc
  rcases hc with hc | hc
  · split at hc
    · rw [List.mem_singleton.mp hc]
      rfl
    · exact absurd hc List.not_mem_nil
  · obtain ⟨_, -, rfl⟩ := List.mem_map.mp hc
    rfl

/-- An expression can be finished just if no lookaround was opened behind a waiting quantifier;
behind such a one no continuation leads to a pattern, whatever it splices. -/
theorem finishes_iff_not_isBlocked [Property.Engine] (e : Expression) :
    ((∃ cs e' p, (∀ c ∈ cs, ∀ other, c.spliced? = some other → other.Reachable) ∧
        e.run cs = .ok e' ∧ e'.compile = .ok p) ↔ ¬e.IsBlocked) ∧
      (e.IsBlocked → ∀ cs e', e.run cs = .ok e' → ∀ p, e'.compile ≠ .ok p) := by
  have hnever : e.IsBlocked → ∀ cs e', e.run cs = .ok e' → ∀ p, e'.compile ≠ .ok p :=
    fun hb cs e' hrun ↦ (hb.run hrun).compile_ne_ok
  refine ⟨⟨?_, ?_⟩, hnever⟩
  · rintro ⟨cs, e', p, -, hrun, hcompile⟩ hb
    exact hnever hb cs e' hrun p hcompile
  · intro hb
    obtain ⟨e', hrun, hf, hp⟩ := exists_run_closingCalls hb
    refine ⟨e.closingCalls, e', _, ?_, hrun, compile_eq_ok.mpr ⟨hf, hp, rfl⟩⟩
    intro c hc other hs
    rw [spliced?_of_mem_closingCalls hc] at hs
    cases hs

theorem finishes_behind_group_not_behind_lookaround :
    ∃ _ : Property.Engine,
      (∃ e, empty.run [.quantify .optional, .openComposite .group, .openComposite (.look .ahead),
          .quantify (.exactly 2)] = .ok e ∧
        ∃ cs e' p, e.run cs = .ok e' ∧ e'.compile = .ok p) ∧
      ∃ e, empty.run [.quantify .optional, .openComposite (.look .ahead),
          .openComposite .group] = .ok e ∧
        ∀ cs e', e.run cs = .ok e' → ∀ p, e'.compile ≠ .ok p := by
  let engine : Property.Engine := default
  refine ⟨engine, ?_, ?_⟩
  · let e : Expression := {
      level := { pending := some (.exactly 2) }
      frames := [⟨.look .ahead, {}⟩, ⟨.group, { pending := some .optional }⟩] }
    have hb : ¬e.IsBlocked := by simp [e, IsBlocked, Frame.IsBlocked, Composite.isLook]
    obtain ⟨cs, e', p, -, h⟩ := (finishes_iff_not_isBlocked e).1.mpr hb
    exact ⟨e, rfl, cs, e', p, h⟩
  · let e : Expression := {
      frames := [⟨.group, {}⟩, ⟨.look .ahead, { pending := some .optional }⟩] }
    have hb : e.IsBlocked := by simp [e, IsBlocked, Frame.IsBlocked, Composite.isLook]
    exact ⟨e, rfl, (finishes_iff_not_isBlocked e).2 hb⟩

end Expression

end PatternBuilder

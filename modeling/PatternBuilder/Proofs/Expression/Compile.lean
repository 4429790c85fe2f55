import PatternBuilder.Expression.Compile
import PatternBuilder.Proofs.Element.ReadBack
import PatternBuilder.Proofs.Expression.WellFormed

namespace PatternBuilder

namespace Expression

variable {e : Expression}

theorem compile_eq_ok {p : Pattern} :
    e.compile = .ok p ↔ e.frames = [] ∧ e.level.pending = none ∧
      p = ⟨String.ofList (Element.patternText e.level.elements), e.flags⟩ := by
  simp only [compile, map_eq_ok, finishedElements_eq_ok]
  constructor
  · rintro ⟨_, ⟨hf, hp, rfl⟩, rfl⟩
    exact ⟨hf, hp, rfl⟩
  · rintro ⟨hf, hp, rfl⟩
    exact ⟨_, ⟨hf, hp, rfl⟩, rfl⟩

/-- The source of a pattern is the text of the nodes that the elements stand for, and the whole
of it is read as just these. -/
theorem read_source [Property.Engine] {p : Pattern} (he : e.Reachable) (h : e.compile = .ok p) :
    p.source.toList = (Element.toDisjunction e.level.elements).text ∧
      Disjunction.read p.source.toList = .ok (Element.toDisjunction e.level.elements) := by
  obtain ⟨-, -, rfl⟩ := compile_eq_ok.mp h
  have hw := he.isWellFormed.level.elements
  rw [String.toList_ofList]
  exact ⟨(Element.text_toDisjunction hw).symm, Element.read_patternText hw⟩

theorem read_source_reference_before_digit :
    ∃ _ : Property.Engine, ∃ e p,
      empty.run [.openComposite .capture, .atom .digit, .close, .backreference 1,
        .literal (.char '5')] = .ok e ∧ e.compile = .ok p ∧ p.source = "(\\d)(?:\\1)5" ∧
      Disjunction.read p.source.toList = .ok [[.group .capture [[.atom .digit]],
        .group .plain [[.number 1]], .char '5']] := by
  let engine : Property.Engine := default
  refine ⟨engine, _, _, rfl, rfl, rfl, ?_⟩
  have hr := Reachable.empty.run [.openComposite .capture, .atom .digit, .close,
    .backreference 1, .literal (.char '5')] (by simp [Call.spliced?]) rfl
  exact (read_source hr rfl).2

end Expression

end PatternBuilder

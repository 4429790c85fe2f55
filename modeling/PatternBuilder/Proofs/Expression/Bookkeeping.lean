import PatternBuilder.Proofs.Element.Marks
import PatternBuilder.Proofs.Expression.Compile

namespace PatternBuilder

namespace Element

theorem Resolves.append {gs : List (Option String)} {n : Element} (h : n.Resolves gs)
    (hs : List (Option String)) : n.Resolves (gs ++ hs) := by
  cases n with
  | backreference i =>
    refine ⟨h.1, ?_⟩
    rw [List.length_append]
    exact Nat.le_trans h.2 (Nat.le_add_right _ _)
  | namedBackreference name => exact List.mem_append_left _ h
  | _ => trivial

theorem head_of_isReference {n : Element} (h : n.isReference = true) : n.head = n := by
  cases n <;> first | rfl | cases h

end Element

namespace Expression

variable {e : Expression}

section

variable [Property.Engine]

theorem Reachable.resolves (h : e.Reachable) {n : Element} (hn : n ∈ e.heads) :
    n.Resolves (Element.groups e.heads) := by
  obtain ⟨before, after, hb⟩ := List.append_of_mem hn
  have hr := (h.consistent.resolves.resolves hb).append (Element.groups (n :: after))
  rwa [← Element.groups_append, ← hb] at hr

theorem Reachable.scan_source (h : e.Reachable) {p : Pattern} (hc : e.compile = .ok p) :
    List.Forall₂ Element.StartsAt
        ((Element.nodesAll e.level.elements).filter fun n ↦ n.group?.isSome)
        (Scan.openings p.source.toList) ∧
      (Scan.openings p.source.toList).filterMap Scan.opened? = Element.groups e.heads ∧
      Scan.references p.source.toList =
        (Element.nodesAll e.level.elements).filter Element.isReference := by
  obtain ⟨hf, -, rfl⟩ := compile_eq_ok.mp hc
  have hw := h.isWellFormed.level.elements
  rw [heads_of_frames_nil hf, Element.groups_heads, String.toList_ofList]
  exact ⟨Element.startsAt_openings hw, Element.groups_openings hw,
    Element.references_patternText hw⟩

/-- The number of capture groups and their names are those of the tree, open composites included,
and every reference comes after its group. In the source of a finished expression the capturing
parentheses are the groups of the tree, each at the start of its own text, and every number and
name that refers to a group refers to one of them. -/
theorem capture_bookkeeping (h : e.Reachable) :
    e.captureCount = e.groups.length ∧
      e.groupNames = e.groups.reduceOption ∧ e.groupNames.Nodup ∧
      (∀ name ∈ e.groupNames, isGroupName name = true) ∧
      (∀ before n after, e.heads = before ++ n :: after → n.Resolves (Element.groups before)) ∧
      ∀ p, e.compile = .ok p →
        List.Forall₂ Element.StartsAt
            ((Element.nodesAll e.level.elements).filter fun n ↦ n.group?.isSome)
            (Scan.openings p.source.toList) ∧
          (Scan.openings p.source.toList).length = e.captureCount ∧
          ((Scan.openings p.source.toList).filterMap Scan.opened?).reduceOption = e.groupNames ∧
          ∀ n ∈ Scan.references p.source.toList,
            n.Resolves ((Scan.openings p.source.toList).filterMap Scan.opened?) := by
  obtain ⟨hrec, hres⟩ := h.consistent
  have hcount : e.captureCount = e.groups.length := groups_heads e ▸ hrec.captureCount_eq
  have hnames : e.groupNames = e.groups.reduceOption := groups_heads e ▸ hrec.names_eq
  refine ⟨hcount, hnames, hrec.nodup, hrec.valid, fun _ _ _ hb ↦ hres.resolves hb, fun p hp ↦ ?_⟩
  obtain ⟨hstart, hopened, href⟩ := h.scan_source hp
  refine ⟨hstart, ?_, ?_, fun n hn ↦ ?_⟩
  · rw [← hstart.length_eq, hcount, ← groups_heads,
      heads_of_frames_nil (compile_eq_ok.mp hp).1, Element.groups_heads, Element.groups,
      List.length_filterMap_eq_countP, List.countP_eq_length_filter]
  · rw [hopened, groups_heads, hnames]
  · rw [href, List.mem_filter] at hn
    rw [hopened]
    refine h.resolves ?_
    rw [heads_of_frames_nil (compile_eq_ok.mp hp).1, ← Element.head_of_isReference hn.2]
    exact List.mem_map_of_mem hn.1

end

theorem capture_bookkeeping_after_splice :
    ∃ _ : Property.Engine, ∃ other e p,
      empty.run [.openComposite (.namedCapture "a"), .atom .word, .close,
        .backreference 1] = .ok other ∧
      empty.run [.openComposite .capture, .atom .digit, .close,
        .splice other { scope := "x" }] = .ok e ∧
      e.compile = .ok p ∧ p.source = "(\\d)(?<xa>\\w)\\2" ∧
      (Scan.openings p.source.toList).length = 2 ∧ e.groupNames = ["xa"] := by
  let engine : Property.Engine := default
  refine ⟨engine, _, _, _, rfl, rfl, rfl, rfl, ?_⟩
  have ho := Reachable.empty.run [.openComposite (.namedCapture "a"), .atom .word, .close,
    .backreference 1] (by simp [Call.spliced?]) rfl
  have he := Reachable.empty.run [.openComposite .capture, .atom .digit, .close,
    .splice _ { scope := "x" }] (by simp [Call.spliced?]; exact ho) rfl
  have hb := capture_bookkeeping he
  exact ⟨(hb.2.2.2.2.2 _ rfl).2.1.trans rfl, hb.2.1.trans rfl⟩

end Expression

end PatternBuilder

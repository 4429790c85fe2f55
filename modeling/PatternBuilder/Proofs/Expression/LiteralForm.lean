import PatternBuilder.Proofs.Element.GivenCharacters
import PatternBuilder.Proofs.Expression.Compile
import PatternBuilder.Proofs.Grammar.Slashes

namespace PatternBuilder

namespace Flags

theorem sublist_letters (s : Flags) : s.letters.Sublist "dgimsuy".toList := by
  have hall : Flag.all.map Flag.letter = "dgimsuy".toList := rfl
  rw [← hall]
  exact List.filter_sublist.map Flag.letter

theorem letters_inj {s t : Flags} (h : s.letters = t.letters) : s = t := by
  have hinj : Function.Injective Flag.letter := fun f g hfg ↦ by
    rw [← Option.some_inj, ← Flag.ofLetter?_letter f, ← Flag.ofLetter?_letter g, hfg]
  have hlist : s.toList = t.toList := List.map_injective_iff.mpr hinj h
  refine ext_contains fun f ↦ ?_
  rw [Bool.eq_iff_iff, ← mem_toList, ← mem_toList, hlist]

end Flags

theorem Disjunction.read_star_ne_ok [Property.Engine] (cs : List Char) (d : Disjunction) :
    read ('*' :: cs) ≠ .ok d := by
  obtain ⟨q, rest, hq⟩ : ∃ q rest, Token.read '*' cs = .ok (.repetition q, rest) := by
    cases cs with
    | nil => exact ⟨_, _, rfl⟩
    | cons c cs =>
      by_cases hc : c = '?'
      · subst hc
        exact ⟨_, _, rfl⟩
      · exact ⟨.zeroOrMore false, c :: cs, by simp [Token.read, Token.readLazy, hc]⟩
  rw [read, Token.all_cons hq]
  intro h
  cases hall : Token.all rest <;> rw [hall] at h <;> cases h

theorem Element.patternText_ne_nil (es : List Element) : patternText es ≠ [] := by
  unfold patternText
  split
  · exact List.cons_ne_nil _ _
  · assumption

namespace Pattern

theorem toList_literal (p : Pattern) :
    p.literal.toList = '/' :: (p.source.toList ++ '/' :: p.flags.letters) := by
  simp [literal]

end Pattern

namespace Expression

variable {e e' : Expression} {p p' : Pattern}

theorem toList_source (h : e.compile = .ok p) :
    p.source.toList = Element.patternText e.level.elements := by
  rw [(compile_eq_ok.mp h).2.2, String.toList_ofList]

theorem upToSlash?_source [Property.Engine] (he : e.Reachable) (h : e.compile = .ok p)
    (rest : List Char) :
    Scan.upToSlash? (p.source.toList ++ '/' :: rest) = some (p.source.toList, rest) := by
  have hw := he.isWellFormed.level.elements
  rw [toList_source h, ← Element.text_toDisjunction hw]
  exact (Disjunction.passes_text (Element.isWellFormed_toDisjunction hw)).upToSlash?_append rest

theorem eq_of_literal_eq [Property.Engine] (he : e.Reachable) (h : e.compile = .ok p)
    (he' : e'.Reachable) (h' : e'.compile = .ok p') (hl : p.literal = p'.literal) : p = p' := by
  have hchars := congrArg String.toList hl
  rw [Pattern.toList_literal, Pattern.toList_literal, List.cons.injEq] at hchars
  have hsplit := congrArg Scan.upToSlash? hchars.2
  rw [upToSlash?_source he h, upToSlash?_source he' h', Option.some_inj, Prod.mk.injEq,
    String.toList_inj] at hsplit
  cases p
  cases p'
  exact Pattern.mk.injEq .. ▸ ⟨hsplit.1, Flags.letters_inj hsplit.2⟩

/-- The literal form is a slash, a source that does not make it a comment, the first slash that no
backslash takes with it, and the letters of the flags; so it tells the pattern. -/
theorem literal_splits [Property.Engine] (he : e.Reachable) (h : e.compile = .ok p) :
    e.toLiteral = .ok p.literal ∧
      (p.source.toList ≠ [] ∧ p.source.toList.head? ≠ some '*') ∧
      (∃ cs, p.literal.toList = '/' :: cs ∧
        Scan.upToSlash? cs = some (p.source.toList, p.flags.letters)) ∧
      p.flags.letters.Sublist "dgimsuy".toList ∧
      ∀ (e' : Expression) (p' : Pattern), e'.Reachable → e'.compile = .ok p' →
        p'.literal = p.literal → p' = p := by
  have hw := he.isWellFormed.level.elements
  refine ⟨by rw [toLiteral, h, Except.map], ⟨?_, ?_⟩, ⟨_, p.toList_literal, ?_⟩,
    p.flags.sublist_letters, ?_⟩
  · rw [toList_source h]
    exact Element.patternText_ne_nil _
  · intro hstar
    obtain ⟨cs, hcs⟩ := List.head?_eq_some_iff.mp hstar
    have hread := Element.read_patternText hw
    rw [← toList_source h, hcs] at hread
    exact Disjunction.read_star_ne_ok cs _ hread
  · exact upToSlash?_source he h _
  · exact fun e' p' he' h' hl ↦ eq_of_literal_eq he' h' he h hl

theorem literal_splits_at_escaped_slashes :
    ∃ _ : Property.Engine, ∃ e p,
      empty.run [.quantify .optional, .literal (.string "*/\\"),
        .literal (.anyOfChars "/]\\"), .setFlag .sticky, .setFlag .global] = .ok e ∧
      e.compile = .ok p ∧ p.literal = "/(?:\\*\\/\\\\)?[\\/\\]\\\\]/gy" ∧
      ∃ cs, p.literal.toList = '/' :: cs ∧
        Scan.upToSlash? cs = some ("(?:\\*\\/\\\\)?[\\/\\]\\\\]".toList, ['g', 'y']) := by
  let engine : Property.Engine := default
  refine ⟨engine, _, _, rfl, rfl, by decide, ?_⟩
  have hr := Reachable.empty.run [.quantify .optional, .literal (.string "*/\\"),
    .literal (.anyOfChars "/]\\"), .setFlag .sticky, .setFlag .global] (by simp [Call.spliced?]) rfl
  exact (literal_splits hr rfl).2.2.1

theorem count_literal [Property.Engine] (he : e.Reachable) (h : e.compile = .ok p) {c : Char}
    (hc : c ∈ lineTerminators) :
    p.literal.toList.count c =
      ((Element.nodesAll e.level.elements).flatMap Element.given).count c := by
  have hi := isInline_eq_false_iff.mpr hc
  have hletters : p.flags.letters.all isInline = true := by
    have hall : "dgimsuy".toList.all isInline = true := rfl
    rw [List.all_eq_true] at hall ⊢
    exact fun d hd ↦ hall d (p.flags.sublist_letters.mem hd)
  rw [Pattern.toList_literal, count_cons hi rfl, List.count_append, count_cons hi rfl,
    count_inline hi hletters, toList_source h,
    Element.count_patternText hi he.isWellFormed.level.elements, Nat.add_zero]

/-- Line terminators are not escaped: the literal form holds each as often as it was given, and
fits on one line only if none was. -/
theorem literal_on_one_line_iff [Property.Engine] (he : e.Reachable) (h : e.compile = .ok p) :
    (∀ c ∈ lineTerminators, p.literal.toList.count c =
      ((Element.nodesAll e.level.elements).flatMap Element.given).count c) ∧
    ((∀ c ∈ lineTerminators, c ∉ p.literal.toList) ↔
      ∀ n ∈ Element.nodesAll e.level.elements, ∀ c ∈ n.given, c ∉ lineTerminators) := by
  have hcount := fun c hc ↦ count_literal he h (c := c) hc
  refine ⟨hcount, ?_⟩
  constructor
  · intro hl n hn c hc hm
    refine hl c hm (List.count_pos_iff.mp ?_)
    rw [hcount c hm, List.count_pos_iff]
    exact List.mem_flatMap_of_mem hn hc
  · intro hn c hm hc
    have hpos := List.count_pos_iff.mpr hc
    rw [hcount c hm, List.count_pos_iff] at hpos
    obtain ⟨n, hmem, hg⟩ := List.mem_flatMap.mp hpos
    exact hn n hmem c hg hm

theorem literal_on_one_line_of_newline_escape :
    ∃ _ : Property.Engine, ∃ e p,
      empty.run [.atom .newline, .literal (.anythingButChars "a/\t")] = .ok e ∧
      e.compile = .ok p ∧ p.literal = "/\\n[^a\\/\t]/" ∧
      ∀ c ∈ lineTerminators, c ∉ p.literal.toList := by
  let engine : Property.Engine := default
  let e : Expression :=
    { level := { elements := [.atom .newline, .anythingButChars "a/\t"] } }
  have hrun : empty.run [.atom .newline, .literal (.anythingButChars "a/\t")] = .ok e := rfl
  have hr : e.Reachable := Reachable.empty.run _ (by simp [Call.spliced?]) hrun
  have hgiven : ∀ n ∈ Element.nodesAll e.level.elements, ∀ c ∈ n.given, c ∉ lineTerminators := by
    simp [e, Element.nodesAll, Element.nodes, Element.given, lineTerminators]
  exact ⟨engine, e, _, hrun, rfl, by decide, (literal_on_one_line_iff hr rfl).2.mpr hgiven⟩

theorem line_feed_is_written_raw :
    ∃ c ∈ lineTerminators, c = '\n' ∧ ∀ _ : Property.Engine, ∃ e p,
      empty.run [.literal (.char c)] = .ok e ∧ e.compile = .ok p ∧
        p.literal = "/\n/" ∧ c ∈ p.literal.toList :=
  ⟨'\n', by decide, rfl, fun _ ↦ ⟨_, _, rfl, rfl, by decide, by decide⟩⟩

end Expression

end PatternBuilder

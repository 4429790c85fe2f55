import PatternBuilder.Proofs.Element.Choices
import PatternBuilder.Proofs.Element.Pruning
import PatternBuilder.Proofs.Element.Validity
import PatternBuilder.Proofs.Grammar.Decimals

namespace PatternBuilder

theorem toUpper_ne_backslash {c : Char} (h : c ≠ '\\') : c.toUpper ≠ '\\' := by
  by_cases hl : c.isLower = true
  · have hu : c.toUpper.isUpper = true := isUpper_toUpper (by rw [isAlpha_eq, hl, Bool.or_true])
    intro hc
    rw [hc] at hu
    exact absurd hu (by decide)
  · have hn : ¬('a'.val ≤ c.val ∧ c.val ≤ 'z'.val) := fun hc ↦
      hl (Bool.and_eq_true_iff.mpr (hc.imp decide_eq_true decide_eq_true))
    have hc : c.toUpper = c := dif_neg hn
    rwa [hc]

namespace Piece

variable {ps : List Piece}

theorem sequence_eq_nil_iff : sequence ps = [] ↔ ps.flatMap text = [] := by
  induction ps with
  | nil => rfl
  | cons p ps ih =>
    rw [sequence, List.flatMap_cons, List.append_eq_nil_iff, List.append_eq_nil_iff, ih]
    refine and_congr_left fun hps ↦ ?_
    rw [hps, startsWithDigit, Bool.and_false]
    rfl

theorem startsWithDigit_sequence (h : startsWithDigit (ps.flatMap text) = false) :
    startsWithDigit (sequence ps) = false := by
  induction ps with
  | nil => rfl
  | cons p ps ih =>
    rw [sequence]
    split
    · rfl
    · cases hp : p.text with
      | nil =>
        rw [List.flatMap_cons, hp] at h
        exact ih h
      | cons c cs =>
        rw [List.flatMap_cons, hp] at h
        exact h

end Piece

namespace Element

/-- The argument is there, and where it is written as it is, it holds no backslash. -/
def HasPlainArgument : Element → Prop
  | string s => s ≠ ""
  | controlChar c => c ≠ '\\'
  | code _ s | property _ s | namedBackreference s | composite (.namedCapture s) _ =>
    '\\' ∉ s.toList
  | _ => True

def decimal? : Element → Option Nat
  | backreference i => some i
  | atom .nullByte => some 0
  | _ => none

def decimals (ns : List Element) : List Nat := ns.filterMap decimal?

theorem decimals_append (ns ms : List Element) : decimals (ns ++ ms) = decimals ns ++ decimals ms :=
  List.filterMap_append

variable {e : Element} {es : List Element}

theorem escapeChar_ne_nil (p : Place) (c : Char) : p.escapeChar c ≠ [] := by
  unfold Place.escapeChar
  split <;> exact List.cons_ne_nil _ _

theorem text_composite_ne_nil (kind : Composite) (ps : List Piece) : kind.text ps ≠ [] := by
  cases kind with
  | anyOf =>
    rw [Composite.text, Piece.anyOf]
    split <;> exact List.cons_ne_nil _ _
  | anythingBut =>
    rw [Composite.text, Piece.anythingBut]
    split <;> exact List.cons_ne_nil _ _
  | look l => cases l <;> exact List.cons_ne_nil _ _
  | _ => exact List.cons_ne_nil _ _

theorem escape_ne_nil (p : Place) {cs : List Char} (h : cs ≠ []) : p.escape cs ≠ [] := by
  cases cs with
  | nil => exact absurd rfl h
  | cons c cs => exact List.append_ne_nil_of_left_ne_nil (escapeChar_ne_nil p c) _

theorem allInvisible_iff (h : ∀ e ∈ es, e.text = [] ↔ e.isInvisible = true) :
    allInvisible es = true ↔ es.flatMap text = [] := by
  rw [List.flatMap_eq_nil_iff]
  induction es with
  | nil => simp [allInvisible]
  | cons e es ih =>
    have ih := ih fun f hf ↦ h f (List.mem_cons_of_mem e hf)
    rw [allInvisible, Bool.and_eq_true, ih, ← h e List.mem_cons_self, List.forall_mem_cons]

theorem text_eq_nil_iff (h : ∀ n ∈ e.nodes, n.HasPlainArgument) :
    e.text = [] ↔ e.isInvisible = true := by
  have hvisible {f : Element} (hi : f.isInvisible = false) (ht : f.text ≠ []) :
      f.text = [] ↔ f.isInvisible = true := iff_of_false ht (Bool.eq_false_iff.mp hi)
  induction e with
  | atom a => cases a <;> exact hvisible rfl (List.cons_ne_nil _ _)
  | boundary b => cases b <;> exact hvisible rfl (List.cons_ne_nil _ _)
  | anchor a => cases a <;> exact hvisible rfl (List.cons_ne_nil _ _)
  | noop => exact iff_of_true rfl rfl
  | char c => exact hvisible rfl (escapeChar_ne_nil _ c)
  | string s =>
    have hs : s ≠ "" := (forall_nodes_iff.mp h).1
    exact hvisible rfl (escape_ne_nil _ (by simpa using hs))
  | code form digits => cases form <;> exact hvisible rfl (List.cons_ne_nil _ _)
  | property negated name => cases negated <;> exact hvisible rfl (List.cons_ne_nil _ _)
  | quantified q e =>
    have hq : q.suffix ≠ [] := by cases q <;> exact List.cons_ne_nil _ _
    exact hvisible rfl (List.append_ne_nil_of_right_ne_nil _ hq)
  | composite kind es => exact hvisible rfl (text_composite_ne_nil kind _)
  | subexpression es ih =>
    have hes := (forall_nodes_iff.mp h).2
    rw [text, Piece.sequence_eq_nil_iff, flatMap_text_pieces, isInvisible]
    exact (allInvisible_iff fun e he ↦ ih e he (hes e he)).symm
  | _ => exact hvisible rfl (List.cons_ne_nil _ _)

open Scan (Spells)

theorem spells_sequence (hv : ∀ e ∈ es, e.text = [] ↔ e.isInvisible = true)
    (h : ∀ e ∈ es, Spells e.text (decimals e.nodes) e.endsInNumber) :
    Spells (Piece.sequence (pieces es)) (decimals (nodesAll es)) (lastEndsInNumber es) := by
  induction es with
  | nil => exact .nil
  | cons e es ih =>
    have hv' : ∀ f ∈ es, f.text = [] ↔ f.isInvisible = true :=
      fun f hf ↦ hv f (List.mem_cons_of_mem e hf)
    have hrest := ih hv' fun f hf ↦ h f (List.mem_cons_of_mem e hf)
    have hfirst := h e List.mem_cons_self
    have hnil : allInvisible es = true ↔ Piece.sequence (pieces es) = [] := by
      rw [allInvisible_iff hv', Piece.sequence_eq_nil_iff, flatMap_text_pieces]
    rw [nodesAll, decimals_append, pieces, Piece.sequence, lastEndsInNumber]
    split
    · rename_i hs
      have hd := (Bool.and_eq_true_iff.mp hs).2
      have hvisible : ¬allInvisible es = true := by
        rw [hnil, Piece.sequence_eq_nil_iff]
        intro hempty
        rw [hempty] at hd
        cases hd
      rw [if_neg hvisible]
      exact hfirst.group.append_of_silent hrest
    · rename_i hs
      split
      · rename_i hi
        -- nothing follows, and nothing has no numbers
        have hempty := hnil.mp hi
        rw [hempty] at hrest ⊢
        have hnone : decimals (nodesAll es) = [] := List.map_eq_nil_iff.mp
          (hrest.decimals_eq.symm.trans Spells.nil.decimals_eq)
        rw [hnone, List.append_nil, List.append_nil]
        exact hfirst
      · rename_i hi
        refine hfirst.append hrest fun he ↦ ⟨mt hnil.mpr hi, Piece.startsWithDigit_sequence ?_⟩
        simpa [he] using hs

theorem readsChoices_spells :
    ReadsChoices (fun t ns ↦ ∃ ends, Spells t ns ends) (Spells · · false) (Spells · [] false) where
  stands ht := ⟨false, ht⟩
  group := fun ⟨_, ht⟩ ↦ ht.group
  bracket negated _ ht := ht.bracket negated
  alternation := Spells.alternation
  exclusion := fun ⟨_, ht⟩ hu ↦ by
    have hlook := ht.enclosed Lookaround.notAhead.opening ')' (by decide) (by decide)
    exact ⟨false, by simpa using hlook.append_of_silent hu⟩
  nil := .nil
  append := .append_of_silent
  hyphen := .plain (by decide)
  escape c hc := by
    have hd : ['b', 's', 'S'].all (!·.isDigit) = true := rfl
    exact .escape (by simpa using List.all_eq_true.mp hd c hc)
  escapeChar := .escapeChar .bracket

theorem decimals_of_isFusable (e : Element) (h : e.isFusable = true) : decimals e.nodes = [] := by
  cases e with
  | char c | range a b | anyOfChars s => rfl
  | atom a => cases a <;> first | rfl | cases h
  | _ => cases h

theorem spells_composite (kind : Composite) (ha : (composite kind es).HasPlainArgument)
    (hv : ∀ e ∈ es, e.text = [] ↔ e.isInvisible = true)
    (h : ∀ e ∈ es, Spells e.text (decimals e.nodes) e.endsInNumber) :
    Spells (kind.text (pieces es)) (decimals (nodesAll es)) false := by
  have hseq := spells_sequence hv h
  have hmembers (e) (he : e ∈ es) : ∃ ends, Spells e.text (decimals e.nodes) ends :=
    ⟨e.endsInNumber, h e he⟩
  cases kind with
  | anyOf => exact readsChoices_spells.anyOf decimals_of_isFusable hmembers
  | anythingBut => exact readsChoices_spells.anythingBut decimals_of_isFusable hmembers
  | group => exact hseq.group
  | capture => exact hseq.enclosed ['('] ')' (by decide) (by decide)
  | namedCapture name =>
    have hname : '\\' ∉ name.toList := ha
    have hopening : '\\' ∉ '(' :: '?' :: '<' :: name.toList ++ ['>'] := by simp [hname]
    have hall := hseq.enclosed _ ')' hopening (by decide)
    simpa [Composite.text] using hall
  | look l => cases l <;> exact hseq.enclosed _ ')' (by decide) (by decide)

theorem spells_argument {letter : Char} (hl : letter.isDigit = false) {cs : List Char}
    (h : '\\' ∉ cs) : Spells ('\\' :: letter :: cs) [] false :=
  (Spells.escape hl).append_of_silent (.plain h)

/-- The text of an element stands for the numbers among its nodes, whatever follows it. -/
theorem spells_text (h : ∀ n ∈ e.nodes, n.HasPlainArgument) :
    Spells e.text (decimals e.nodes) e.endsInNumber := by
  induction e with
  | atom a =>
    cases a with
    | anyChar => exact .plain (by decide)
    | backspace => exact (Spells.escape (c := 'b') rfl).bracket false
    | nullByte => exact .number 0
    | _ => exact .escape rfl
  | boundary b => cases b <;> exact .escape rfl
  | anchor a => cases a <;> exact .plain (by decide)
  | noop => exact .nil
  | char c => exact .escapeChar .literal c
  | string s => exact .flatMap fun c _ ↦ .escapeChar .literal c
  | range a b => exact (Spells.rangeBody a b).bracket false
  | anyOfChars s => exact (Spells.flatMap fun c _ ↦ .escapeChar .bracket c).bracket false
  | anythingButChars s => exact (Spells.flatMap fun c _ ↦ .escapeChar .bracket c).bracket true
  | anythingButString s =>
    exact (Spells.flatMap fun c _ ↦ (Spells.escapeChar .bracket c).bracket true).group
  | anythingButRange a b => exact (Spells.rangeBody a b).bracket true
  | controlChar c =>
    have hc : c ≠ '\\' := (forall_nodes_iff.mp h).1
    exact spells_argument rfl (by simpa using (toUpper_ne_backslash hc).symm)
  | code form digits =>
    have hd : '\\' ∉ digits.toList := (forall_nodes_iff.mp h).1
    cases form with
    | byte | unit => exact spells_argument rfl hd
    | point => exact spells_argument rfl (by simp [hd])
  | property negated name =>
    have hname : '\\' ∉ name.toList := (forall_nodes_iff.mp h).1
    cases negated <;> exact spells_argument rfl (by simp [hname])
  | backreference i => exact .number i
  | namedBackreference name =>
    have hname : '\\' ∉ name.toList := (forall_nodes_iff.mp h).1
    exact spells_argument rfl (by simp [hname])
  | quantified q e ih =>
    have he := ih ((forall_nodes_iff.mp h).2 e List.mem_cons_self)
    have hsuffix : Spells q.suffix [] false := .plain (Token.not_mem_suffix rfl (by decide) q)
    have hfirst : q.suffix ≠ [] ∧ startsWithDigit q.suffix = false := by
      cases q <;> exact ⟨List.cons_ne_nil _ _, rfl⟩
    have hgrouped : ∃ ends, Spells (if e.needsGroup then groupText e.text else e.text)
        (decimals e.nodes) ends := by
      split
      · exact ⟨_, he.group⟩
      · exact ⟨_, he⟩
    obtain ⟨ends, hgrouped⟩ := hgrouped
    have hall := hgrouped.append hsuffix fun _ ↦ hfirst
    rwa [List.append_nil] at hall
  | composite kind es ih =>
    obtain ⟨ha, hes⟩ := forall_nodes_iff.mp h
    exact spells_composite kind ha (fun e he ↦ text_eq_nil_iff (hes e he))
      fun e he ↦ ih e he (hes e he)
  | subexpression es ih =>
    have hes := (forall_nodes_iff.mp h).2
    exact spells_sequence (fun e he ↦ text_eq_nil_iff (hes e he)) fun e he ↦ ih e he (hes e he)

theorem spells_sequenceText (h : ∀ n ∈ nodesAll es, n.HasPlainArgument) :
    Spells (sequenceText es) (decimals (nodesAll es)) (lastEndsInNumber es) := by
  have hes := forall_nodesAll_iff.mp h
  exact spells_sequence (fun e he ↦ text_eq_nil_iff (hes e he)) fun e he ↦ spells_text (hes e he)

/-- Where no number stands in front of a digit, no group is put in. -/
theorem sequenceText_eq_flatMap (h : ∀ before e after, es = before ++ e :: after →
    e.endsInNumber = true → startsWithDigit (after.flatMap text) = false) :
    sequenceText es = es.flatMap text := by
  induction es with
  | nil => rfl
  | cons e es ih =>
    have hrest := ih fun before f after hf ↦ h (e :: before) f after (by rw [hf]; rfl)
    rw [sequenceText] at hrest ⊢
    rw [pieces, Piece.sequence, hrest, List.flatMap_cons, flatMap_text_pieces]
    split
    · rename_i hs
      obtain ⟨he, hd⟩ := Bool.and_eq_true_iff.mp hs
      exact absurd hd (Bool.eq_false_iff.mp (h [] e es rfl he))
    · rfl

/-- What is written below the element as one sequence; the members of a choice are not. -/
def sequence? : Element → Option (List Element)
  | subexpression es => some es
  | composite kind es => if kind.isChoice then none else some es
  | _ => none

theorem sequence?_eq_some {fs : List Element} (h : e.sequence? = some fs) : e.children = fs := by
  cases e with
  | subexpression es => exact Option.some.inj h
  | composite kind es =>
    simp only [sequence?, Option.ite_none_left_eq_some, Option.some.injEq] at h
    exact h.2
  | _ => cases h

/-- The sequences that are written for the elements: their own, and those below them. -/
def sequences (es : List Element) : List (List Element) :=
  es :: (nodesAll es).filterMap sequence?

theorem forall_of_mem_sequences {P : Element → Prop} (h : ∀ n ∈ nodesAll es, P n)
    {fs : List Element} (hfs : fs ∈ sequences es) : ∀ n ∈ nodesAll fs, P n := by
  rcases List.mem_cons.mp hfs with rfl | hfs
  · exact h
  · obtain ⟨e, he, hs⟩ := List.mem_filterMap.mp hfs
    obtain rfl := sequence?_eq_some hs
    rw [nodesAll_eq_flatMap, List.mem_flatMap] at he
    obtain ⟨f, hf, he⟩ := he
    intro n hn
    refine forall_nodesAll_iff.mp h f hf n (mem_nodes_trans ?_ he)
    rw [nodes_eq_cons]
    exact List.mem_cons_of_mem e hn

/-- The decimal escapes of a pattern are those that its elements stand for, in their order; and a
group is put in only where a number would run on into a digit. -/
theorem decimals_patternText (h : ∀ n ∈ nodesAll es, n.HasPlainArgument) :
    Scan.decimals (patternText es) = (decimals (nodesAll es)).map Quantifier.decimal ∧
      ∀ fs ∈ sequences es,
        (∀ before e after, fs = before ++ e :: after → Scan.endsInDecimal e.text = true →
          startsWithDigit (after.flatMap text) = false) →
        sequenceText fs = fs.flatMap text := by
  constructor
  · have hseq := (spells_sequenceText h).decimals_eq
    rw [← hseq, patternText]
    split
    · rename_i hempty
      rw [hempty, Spells.nil.decimals_eq]
      exact Spells.nil.group.decimals_eq
    · rfl
  · intro fs hfs hsafe
    have hplain := forall_nodesAll_iff.mp (forall_of_mem_sequences h hfs)
    refine sequenceText_eq_flatMap fun before e after hsplit he ↦ hsafe before e after hsplit ?_
    have hmem : e ∈ fs := by
      rw [hsplit]
      exact List.mem_append_right before List.mem_cons_self
    rw [(spells_text (hplain e hmem)).endsInDecimal_eq, he]

theorem decimals_patternText_between_digits :
    ∃ es, String.ofList (patternText es) = "(?:\\12)3?(?:\\0ab)" ∧
      Scan.decimals (patternText es) = [['1', '2'], ['0']] ∧
      [atom .nullByte, string "ab"] ∈ sequences es ∧
      sequenceText [atom .nullByte, string "ab"] = "\\0ab".toList := by
  let es := [subexpression [backreference 12, noop], noop, quantified .optional (char '3'),
    composite .group [atom .nullByte, string "ab"]]
  have hplain : ∀ n ∈ nodesAll es, n.HasPlainArgument := by
    simp [es, nodesAll, nodes, HasPlainArgument]
  have hmem : [atom .nullByte, string "ab"] ∈ sequences es := by
    simp [es, sequences, nodesAll, nodes, sequence?, Composite.isChoice]
  obtain ⟨hdecimals, hsequence⟩ := decimals_patternText hplain
  refine ⟨es, by decide, hdecimals, hmem, hsequence _ hmem fun before e after h _ ↦ ?_⟩
  cases before with
  | nil =>
    cases h
    rfl
  | cons f before =>
    cases before with
    | nil =>
      cases h
      rfl
    | cons g before => simp at h

end Element

end PatternBuilder

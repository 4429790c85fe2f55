import PatternBuilder.Proofs.Element.Choices
import PatternBuilder.Proofs.Element.Validity
import PatternBuilder.Proofs.Expression.Coherence
import PatternBuilder.Proofs.Grammar.TokenReading

namespace PatternBuilder

namespace Scan

/-- Where a scan stands: outside of bracket classes, right behind the bracket that opens one, or
further inside. -/
inductive Site where
  | outside
  | opened
  | inside
  deriving DecidableEq

def Site.after (c : Char) : Site → Site
  | outside => if c = '[' then opened else outside
  | opened | inside => if c = ']' then outside else inside

def Site.afterEscape : Site → Site
  | outside => outside
  | opened | inside => inside

def anchor? (c : Char) : Option Anchor :=
  if c = '^' then some .start else if c = '$' then some .finish else none

/-- The anchors in a text: the carets and dollar signs that are neither escaped nor, in the case of
a caret, the mark that negates a class. -/
def anchorsFrom (site : Site) : List Char → List Anchor
  | [] => []
  | '\\' :: _ :: cs => anchorsFrom site.afterEscape cs
  | c :: cs =>
    (if site = .opened ∧ c = '^' then [] else (anchor? c).toList) ++ anchorsFrom (site.after c) cs

def anchors (cs : List Char) : List Anchor := anchorsFrom .outside cs

def isSilent (c : Char) : Bool := c != '\\' && c != '[' && c != '^' && c != '$'

/-- Outside of classes, the text stands for the given anchors, whatever follows it. -/
def Writes (t : List Char) (as : List Anchor) : Prop :=
  ∀ rest, anchors (t ++ rest) = as ++ anchors rest

/-- Inside a class, the text neither ends the class nor stands for an anchor. -/
def StaysInside (t : List Char) : Prop :=
  ∀ site rest, site ≠ .outside →
    ∃ site', site' ≠ .outside ∧ anchorsFrom site (t ++ rest) = anchorsFrom site' rest

variable {t u : List Char} {as bs : List Anchor}

theorem anchorsFrom_cons (site : Site) {c : Char} (h : c ≠ '\\') (cs : List Char) :
    anchorsFrom site (c :: cs) =
      (if site = .opened ∧ c = '^' then [] else (anchor? c).toList) ++
        anchorsFrom (site.after c) cs := by
  rw [anchorsFrom]
  simp [h]

theorem all_isSilent {p : Char → Bool} {cs : List Char} (h : cs.all p = true)
    (hs : p '\\' = false) (hb : p '[' = false) (hc : p '^' = false) (hd : p '$' = false) :
    cs.all isSilent = true := by
  rw [List.all_eq_true] at h ⊢
  intro c hmem
  have hne {d : Char} (hd : p d = false) : (c != d) = true := by
    rw [bne_iff_ne]
    rintro rfl
    exact Bool.false_ne_true (hd.symm.trans (h c hmem))
  simp only [isSilent, hne hs, hne hb, hne hc, hne hd, Bool.and_self]

theorem anchors_silent {c : Char} (h : isSilent c = true) (cs : List Char) :
    anchors (c :: cs) = anchors cs := by
  simp only [isSilent, Bool.and_eq_true, bne_iff_ne] at h
  obtain ⟨⟨⟨hs, hb⟩, hc⟩, hd⟩ := h
  rw [anchors, anchorsFrom_cons .outside hs]
  simp [anchor?, hc, hd, Site.after, hb, anchors]

namespace Writes

theorem nil : Writes [] [] := fun _ ↦ rfl

theorem append (ht : Writes t as) (hu : Writes u bs) : Writes (t ++ u) (as ++ bs) := by
  intro rest
  rw [List.append_assoc, ht, hu, List.append_assoc]

theorem silent (h : t.all isSilent = true) : Writes t [] := by
  intro rest
  induction t with
  | nil => rfl
  | cons c t ih =>
    rw [List.all_cons, Bool.and_eq_true] at h
    rw [List.cons_append, anchors_silent h.1, ih h.2]

theorem enclosed (before after : List Char) (hb : before.all isSilent = true)
    (h : Writes t as) (ha : after.all isSilent = true) : Writes (before ++ t ++ after) as := by
  have hall := ((silent hb).append h).append (silent ha)
  rwa [List.nil_append, List.append_nil] at hall

theorem escape (c : Char) (h : t.all isSilent = true) : Writes ('\\' :: c :: t) [] := by
  intro rest
  have hskip : anchors ('\\' :: c :: (t ++ rest)) = anchors (t ++ rest) := rfl
  exact hskip.trans (silent h rest)

theorem flatMap {α : Type} {xs : List α} {f : α → List Char} (h : ∀ x ∈ xs, Writes (f x) []) :
    Writes (xs.flatMap f) [] := flatMap_of_append (P := (Writes · [])) nil append h

theorem group (h : Writes t as) : Writes (groupText t) as :=
  enclosed ['(', '?', ':'] [')'] rfl h rfl

theorem escapeChar (c : Char) : Writes (Place.literal.escapeChar c) [] := by
  unfold Place.escapeChar
  split
  · exact escape c rfl
  · rename_i h
    have hplain : [c].all (fun c ↦ !Place.literal.isSpecial c) = true := by simp [h]
    exact silent (all_isSilent hplain rfl rfl rfl rfl)

theorem alternation {ts : List (List Char)} {ass : List (List Anchor)}
    (h : List.Forall₂ Writes ts ass) : Writes (alternation ts) ass.flatten := by
  induction h with
  | nil => exact nil
  | @cons t as ts ass ht hts ih =>
    cases hts with
    | nil =>
      rw [List.flatten_cons, List.flatten_nil, List.append_nil]
      exact ht
    | cons => exact ht.append ((silent (t := ['|']) rfl).append ih)

end Writes

namespace StaysInside

theorem append (ht : StaysInside t) (hu : StaysInside u) : StaysInside (t ++ u) := by
  intro site rest hs
  obtain ⟨site₁, hs₁, h₁⟩ := ht site (u ++ rest) hs
  obtain ⟨site₂, hs₂, h₂⟩ := hu site₁ rest hs₁
  exact ⟨site₂, hs₂, by rw [List.append_assoc, h₁, h₂]⟩

theorem nil : StaysInside [] := fun site _ hs ↦ ⟨site, hs, rfl⟩

theorem flatMap {α : Type} {xs : List α} {f : α → List Char} (h : ∀ x ∈ xs, StaysInside (f x)) :
    StaysInside (xs.flatMap f) := flatMap_of_append nil append h

theorem escape (c : Char) : StaysInside ['\\', c] := by
  intro site rest hs
  refine ⟨.inside, by decide, ?_⟩
  cases site with
  | outside => exact absurd rfl hs
  | opened | inside => rfl

theorem plain {c : Char} (h : Place.bracket.isSpecial c = false) : StaysInside [c] := by
  intro site rest hs
  have hne {d : Char} (hd : Place.bracket.isSpecial d = true) : c ≠ d := by
    rintro rfl
    exact Bool.false_ne_true (h.symm.trans hd)
  have hafter : site.after c = .inside := by
    cases site with
    | outside => exact absurd rfl hs
    | opened | inside => exact if_neg (hne rfl)
  refine ⟨.inside, by decide, ?_⟩
  rw [List.singleton_append, anchorsFrom_cons site (hne rfl), hafter]
  simp [anchor?, hne (d := '^') rfl, hne (d := '$') rfl]

theorem escapeChar (c : Char) : StaysInside (Place.bracket.escapeChar c) := by
  unfold Place.escapeChar
  split
  · exact escape c
  · exact plain (Bool.eq_false_iff.mpr ‹_›)

theorem hyphen : StaysInside ['-'] := by
  intro site rest hs
  refine ⟨.inside, by decide, ?_⟩
  cases site with
  | outside => exact absurd rfl hs
  | opened | inside => rfl

theorem rangeBody (first last : Char) : StaysInside (rangeBody first last) :=
  (escapeChar first).append (hyphen.append (escapeChar last))

end StaysInside

theorem Writes.bracket (negated : Bool) (h : StaysInside t) : Writes (classText negated t) [] := by
  intro rest
  have hclose (site : Site) (hs : site ≠ .outside) :
      anchorsFrom site (']' :: rest) = anchors rest := by
    cases site with
    | outside => exact absurd rfl hs
    | opened | inside => rfl
  have hbody (site : Site) (hs : site ≠ .outside) :
      anchorsFrom site (t ++ ']' :: rest) = anchors rest := by
    obtain ⟨site', hs', ht⟩ := h site (']' :: rest) hs
    rw [ht, hclose site' hs']
  cases negated with
  | true =>
    have hopen : anchors ('[' :: '^' :: (t ++ ']' :: rest)) =
        anchorsFrom .inside (t ++ ']' :: rest) := rfl
    simpa [classText, hopen] using hbody .inside (by decide)
  | false =>
    have hopen : anchors ('[' :: (t ++ ']' :: rest)) = anchorsFrom .opened (t ++ ']' :: rest) := rfl
    simpa [classText, hopen] using hbody .opened (by decide)

end Scan

namespace Element

open Scan

theorem all_isSilent_between {cs : List Char} {first last : Char}
    (hf : isSilent first = true) (h : cs.all isSilent = true) (hl : isSilent last = true) :
    (first :: cs ++ [last]).all isSilent = true := by
  simp [hf, h, hl, List.all_append]

theorem all_isSilent_decimal (n : Nat) : (Quantifier.decimal n).all isSilent = true := by
  refine all_isSilent (p := Char.isDigit) (List.all_eq_true.mpr fun c hc ↦ ?_) rfl rfl rfl rfl
  exact Token.isDigit_of_mem_decimal hc

theorem all_isSilent_suffix (q : Quantifier) : q.suffix.all isSilent = true := by
  have hlazy (lazy : Bool) : (Quantifier.lazyMark lazy).all isSilent = true := by
    cases lazy <;> rfl
  cases q <;> simp [Quantifier.suffix, hlazy, all_isSilent_decimal, isSilent]

theorem writes_code {form : CodeForm} {digits : String}
    (h : isHexOfLength digits form.lengths = true) : Writes (form.text digits.toList) [] := by
  have hd : digits.toList.all isSilent = true :=
    all_isSilent (Bool.and_eq_true_iff.mp h).2 rfl rfl rfl rfl
  cases form with
  | byte | unit => exact .escape _ hd
  | point => exact .escape _ (all_isSilent_between rfl hd rfl)

theorem writes_backreference (i : Nat) : Writes ('\\' :: Quantifier.decimal i) [] := by
  have hd := all_isSilent_decimal i
  obtain ⟨c, cs, hc⟩ := List.exists_cons_of_ne_nil (Token.decimal_ne_nil i)
  rw [hc, List.all_cons, Bool.and_eq_true] at hd
  rw [hc]
  exact .escape c hd.2

variable {es : List Element}

theorem writes_sequence (h : ∀ e ∈ es, Writes e.text (anchors e.nodes)) :
    Writes (Piece.sequence (pieces es)) (anchors (nodesAll es)) := by
  induction es with
  | nil => exact .nil
  | cons e es ih =>
    have hrest := ih fun f hf ↦ h f (List.mem_cons_of_mem e hf)
    have hfirst := h e List.mem_cons_self
    rw [nodesAll, anchors_append, pieces, Piece.sequence]
    refine Writes.append ?_ hrest
    split
    · exact hfirst.group
    · exact hfirst

theorem readsChoices_writes : ReadsChoices Writes Writes StaysInside where
  stands := id
  group := .group
  alternation := .alternation
  exclusion ht hu := by
    simpa using (ht.enclosed Lookaround.notAhead.opening [')'] rfl rfl).append hu
  bracket negated _ := .bracket negated
  nil := .nil
  append := .append
  hyphen := .hyphen
  escape c _ := .escape c
  escapeChar := .escapeChar

theorem anchors_of_isFusable (e : Element) (h : e.isFusable = true) : anchors e.nodes = [] := by
  cases e with
  | char c | range a b | anyOfChars s | atom a => rfl
  | _ => cases h

variable [Property.Engine]

theorem writes_composite (kind : Composite) (hv : (composite kind es).IsValid)
    (h : ∀ e ∈ es, Writes e.text (anchors e.nodes)) :
    Writes (kind.text (pieces es)) (anchors (nodesAll es)) := by
  have hseq := writes_sequence h
  cases kind with
  | anyOf => exact readsChoices_writes.anyOf anchors_of_isFusable h
  | anythingBut => exact readsChoices_writes.anythingBut anchors_of_isFusable h
  | group => exact hseq.group
  | capture => exact hseq.enclosed ['('] [')'] rfl rfl
  | namedCapture name =>
    have hname : name.toList.all isSilent = true :=
      all_isSilent (Token.all_of_isGroupName hv) rfl rfl rfl rfl
    have hopening : ('(' :: '?' :: '<' :: name.toList ++ ['>']).all isSilent = true := by
      simp [hname, isSilent]
    have hall := hseq.enclosed _ [')'] hopening rfl
    simpa [Composite.text] using hall
  | look l => cases l <;> exact hseq.enclosed _ [')'] rfl rfl

theorem writes_text {e : Element} (h : e.IsWellFormed) : Writes e.text (anchors e.nodes) := by
  induction e with
  | atom a =>
    cases a with
    | anyChar => exact .silent rfl
    | backspace => exact .bracket false (.escape 'b')
    | _ => exact .escape _ rfl
  | boundary b => cases b <;> exact .escape _ rfl
  | anchor a => cases a <;> exact fun _ ↦ rfl
  | noop => exact .nil
  | char c => exact .escapeChar c
  | string s => exact .flatMap fun c _ ↦ .escapeChar c
  | range a b => exact .bracket false (.rangeBody a b)
  | anyOfChars s => exact .bracket false (.flatMap fun c _ ↦ .escapeChar c)
  | anythingButChars s => exact .bracket true (.flatMap fun c _ ↦ .escapeChar c)
  | anythingButString s =>
    exact (Writes.flatMap fun c _ ↦ .bracket true (.escapeChar c)).group
  | anythingButRange a b => exact .bracket true (.rangeBody a b)
  | controlChar c =>
    have hup : c.isUpper = true := h.isValid
    have hc : [c.toUpper].all Char.isUpper = true := by
      rw [toUpper_eq_self hup, List.all_cons, hup]
      rfl
    exact .escape 'c' (all_isSilent hc rfl rfl rfl rfl)
  | code form digits => exact writes_code h.isValid
  | property negated name =>
    have hname : name.toList.all isSilent = true :=
      all_isSilent (Token.all_of_isAccepted h.isValid) rfl rfl rfl rfl
    cases negated <;> exact .escape _ (all_isSilent_between rfl hname rfl)
  | backreference i => exact writes_backreference i
  | namedBackreference name =>
    have hname : name.toList.all isSilent = true :=
      all_isSilent (Token.all_of_isGroupName h.isValid) rfl rfl rfl rfl
    exact .escape 'k' (all_isSilent_between rfl hname rfl)
  | quantified q e ih =>
    have he := ih (h.of_mem (by simp [children]))
    have hgrouped : Writes (if e.needsGroup then groupText e.text else e.text)
        (anchors e.nodes) := by
      split
      · exact he.group
      · exact he
    have hall := hgrouped.append (.silent (all_isSilent_suffix q))
    rw [List.append_nil] at hall
    exact hall
  | composite kind es ih =>
    exact writes_composite kind h.isValid fun e he ↦ ih e he (h.of_mem he)
  | subexpression es ih => exact writes_sequence fun e he ↦ ih e he (h.of_mem he)

theorem anchors_patternText (h : ∀ e ∈ es, e.IsWellFormed) :
    Scan.anchors (patternText es) = anchors (nodesAll es) := by
  have hseq := writes_sequence fun e he ↦ writes_text (h e he)
  have hall : Scan.anchors (sequenceText es) = anchors (nodesAll es) := by
    have hend := hseq []
    rwa [List.append_nil, show Scan.anchors [] = [] from rfl, List.append_nil] at hend
  rw [← hall, patternText]
  -- a group that stands for an empty text holds no anchor
  cases sequenceText es <;> rfl

end Element

end PatternBuilder

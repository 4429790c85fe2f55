import PatternBuilder.Proofs.Grammar.RoundTrip
import PatternBuilder.Proofs.Grammar.Scanning

namespace PatternBuilder

namespace Node

open Scan Token

def group? : Node → Option (Option String)
  | group .capture _ => some none
  | group (.named name) _ => some (some name)
  | _ => none

def reference? : Node → Option Element
  | number v => if v = 0 then none else some (.backreference v)
  | namedReference name => some (.namedBackreference name)
  | _ => none

def isMark (n : Node) : Bool := n.group?.isSome || n.reference?.isSome

mutual

def marks : Node → List Node
  | group k d => [group k d].filter isMark ++ branchMarks d
  | repeated _ n => marks n
  | n => [n].filter isMark

def marksAll : List Node → List Node
  | [] => []
  | n :: ns => marks n ++ marksAll ns

def branchMarks : List (List Node) → List Node
  | [] => []
  | ns :: d => marksAll ns ++ branchMarks d

end

theorem branchMarks_eq_flatMap (d : List (List Node)) : branchMarks d = d.flatMap marksAll := by
  induction d with
  | nil => rfl
  | cons ns d ih => rw [branchMarks, ih, List.flatMap_cons]

theorem marks_leaf {n : Node} (h : n.isLeaf = true) : n.marks = [n].filter isMark := by
  cases n <;> first | rfl | cases h

def StartsAt (n : Node) (cs : List Char) : Prop :=
  n.text <+: cs ∧ n.group? = opened? cs ∧ n.reference? = Scan.reference? cs

/-- What a scan finds of the node, whatever follows its text. -/
def Shows [Property.Engine] (n : Node) : Prop :=
  n.IsWellFormed → ∀ rest : List Char,
    (n.isNumber = true → PatternBuilder.startsWithDigit rest = false) →
    ∃ found, Scan.marks (n.text ++ rest) = found ++ Scan.marks rest ∧
      List.Forall₂ StartsAt n.marks found

theorem all_isPlain {p : Char → Bool} {cs : List Char} (h : cs.all p = true)
    (hs : p '\\' = false) (hb : p '[' = false) (hp : p '(' = false) : cs.all isPlain = true := by
  rw [List.all_eq_true] at h ⊢
  intro c hc
  have hne {d : Char} (hd : p d = false) : (c != d) = true := by
    rw [bne_iff_ne]
    rintro rfl
    exact Bool.false_ne_true (hd.symm.trans (h c hc))
  rw [isPlain, hne hs, hne hb, hne hp]
  rfl

theorem all_isPlain_braces {cs : List Char} (h : cs.all isPlain = true) :
    ('{' :: cs ++ ['}']).all isPlain = true := by
  rw [List.cons_append, List.all_cons, List.all_append, h]
  rfl

theorem marks_code {form : CodeForm} {ds : List Char} (h : form.IsWellFormed ds)
    (rest : List Char) : Scan.marks (form.text ds ++ rest) = Scan.marks rest := by
  have hp (hd : ds.all isHexDigit = true) : ds.all isPlain = true := all_isPlain hd rfl rfl rfl
  cases form with
  | byte => exact (marks_escape_plain rfl (by decide) _).trans (marks_plain_append (hp h.2) rest)
  | unit => exact (marks_escape_plain rfl (by decide) _).trans (marks_plain_append (hp h.2) rest)
  | point =>
    exact (marks_escape_plain rfl (by decide) _).trans
      (marks_plain_append (all_isPlain_braces (hp h.2.1)) rest)

theorem marks_property [Property.Engine] (negated : Bool) {name : String}
    (h : Property.isAccepted name = true) (rest : List Char) :
    Scan.marks ((property negated name).leafText ++ rest) = Scan.marks rest := by
  have hp := all_isPlain_braces (all_isPlain (all_of_isAccepted h) rfl rfl rfl)
  cases negated <;>
    exact (marks_escape_plain rfl (by decide) _).trans (marks_plain_append hp rest)

theorem marks_char (c : Char) (rest : List Char) :
    Scan.marks ((char c).leafText ++ rest) = Scan.marks rest := by
  rw [leafText, Place.escapeChar]
  split
  · rename_i h
    have hk : c ≠ 'k' := by rintro rfl; exact absurd h (by decide)
    exact marks_escape_plain (isDigit_special h) hk rest
  · rename_i h
    have hne {d : Char} (hd : Place.literal.isSpecial d = true) : (c != d) = true := by
      rw [bne_iff_ne]
      rintro rfl
      exact h hd
    refine marks_plain ?_ rest
    rw [isPlain, hne rfl, hne rfl, hne rfl]
    rfl

theorem marks_leafText [Property.Engine] {n : Node} (hl : n.isLeaf = true) (hw : n.IsWellFormed)
    (hr : n.reference? = none) (rest : List Char) (hd : n.isNumber = false) :
    Scan.marks (n.leafText ++ rest) = Scan.marks rest := by
  cases n with
  | char c => exact marks_char c rest
  | atom a =>
    cases a with
    | backspace => exact absurd rfl hw.1
    | nullByte => exact absurd rfl hw.2
    | anyChar => exact marks_plain rfl rest
    | _ => exact marks_escape_plain rfl (by decide) rest
  | boundary b => cases b <;> exact marks_escape_plain rfl (by decide) rest
  | anchor a => cases a <;> exact marks_plain rfl rest
  | control c =>
    have hp : [c].all isPlain = true :=
      all_isPlain (p := Char.isAlpha) (by rw [List.all_cons, hw]; rfl) rfl rfl rfl
    exact (marks_escape_plain rfl (by decide) _).trans (marks_plain_append hp rest)
  | code form ds => exact marks_code hw rest
  | property negated name => exact marks_property negated hw rest
  | number v => cases hd
  | namedReference name => cases hr
  | set negated items => exact marks_class negated hw rest
  | group k d => cases hl
  | repeated q n => cases hl

theorem marks_number (v : Nat) {rest : List Char}
    (hd : PatternBuilder.startsWithDigit rest = false) :
    Scan.marks ((number v).leafText ++ rest) =
        [(number v).leafText ++ rest].filter Scan.isMark ++ Scan.marks rest ∧
      Scan.reference? ((number v).leafText ++ rest) = (number v).reference? := by
  obtain ⟨c, cs, hc⟩ := List.exists_cons_of_ne_nil (decimal_ne_nil v)
  have hdigits : ∀ d ∈ c :: cs, d.isDigit = true := fun d hd ↦ isDigit_of_mem_decimal (hc ▸ hd)
  have hp : cs.all isPlain = true := by
    refine all_isPlain (p := Char.isDigit) (List.all_eq_true.mpr fun d hd ↦ ?_) rfl rfl rfl
    exact hdigits d (List.mem_cons_of_mem c hd)
  have hk : c ≠ 'k' := by
    rintro rfl
    exact absurd (hdigits 'k' List.mem_cons_self) (by decide)
  have hv := numberValue_decimal v
  have ht : (c :: (cs ++ rest)).takeWhile Char.isDigit = c :: cs := takeWhile_digits hdigits hd
  rw [hc] at hv
  rw [leafText, hc]
  constructor
  · exact (marks_escape c (cs ++ rest)).trans (congrArg _ (marks_plain_append hp rest))
  · exact reference?_escape hk ((congrArg numberValue ht).trans hv)

theorem StartsAt.forall₂ {n : Node} {cs : List Char} (h : n.StartsAt cs) :
    List.Forall₂ StartsAt ([n].filter isMark) ([cs].filter Scan.isMark) := by
  have hm : Scan.isMark cs = n.isMark := by rw [Scan.isMark, isMark, h.2.1, h.2.2]
  cases hn : n.isMark with
  | false => simp [hm, hn]
  | true => simpa [hm, hn] using h

theorem marks_namedReference {name : String} (h : isGroupName name = true) (rest : List Char) :
    Scan.marks ((namedReference name).leafText ++ rest) =
        [(namedReference name).leafText ++ rest].filter Scan.isMark ++ Scan.marks rest ∧
      Scan.reference? ((namedReference name).leafText ++ rest) =
        (namedReference name).reference? := by
  have hn := all_of_isGroupName h
  have hp : ('<' :: name.toList ++ ['>']).all isPlain = true := by
    rw [List.cons_append, List.all_cons, List.all_append, all_isPlain hn rfl rfl rfl]
    rfl
  have ht := takeWhile_ne_append (not_mem_of_all hn (c := '>') rfl) rest
  constructor
  · exact (marks_escape 'k' _).trans (congrArg _ (marks_plain_append hp rest))
  · simp [leafText, Scan.reference?, Node.reference?, ht]

theorem shows_leaf [Property.Engine] {n : Node} (hl : n.isLeaf = true) : n.Shows := by
  intro hw rest hd
  rw [text_leaf hl, marks_leaf hl]
  have hbegins : n.text <+: n.leafText ++ rest := text_leaf hl ▸ List.prefix_append _ rest
  cases n with
  | number v =>
    obtain ⟨hm, hr⟩ := marks_number v (hd rfl)
    exact ⟨_, hm, StartsAt.forall₂ ⟨hbegins, rfl, hr.symm⟩⟩
  | namedReference name =>
    obtain ⟨hm, hr⟩ := marks_namedReference hw rest
    exact ⟨_, hm, StartsAt.forall₂ ⟨hbegins, rfl, hr.symm⟩⟩
  | group k d => cases hl
  | repeated q n => cases hl
  | _ => exact ⟨[], marks_leafText hl hw rfl rest rfl, .nil⟩

theorem marks_textAll [Property.Engine] {ns : List Node} (h : ∀ n ∈ ns, n.Shows)
    (hw : AreWellFormed ns) {rest : List Char} (hd : PatternBuilder.startsWithDigit rest = false) :
    ∃ found, Scan.marks (textAll ns ++ rest) = found ++ Scan.marks rest ∧
      List.Forall₂ StartsAt (marksAll ns) found := by
  induction ns with
  | nil => exact ⟨[], rfl, .nil⟩
  | cons n ns ih =>
    obtain ⟨hn, hf, hns⟩ := hw
    obtain ⟨found, hfound, hall⟩ := ih (fun m hm ↦ h m (List.mem_cons_of_mem n hm)) hns
    obtain ⟨own, hown, hstart⟩ := h n List.mem_cons_self hn (textAll ns ++ rest)
      fun hv ↦ startsWithDigit_textAll_append (hf hv) hd
    refine ⟨own ++ found, ?_, List.rel_append hstart hall⟩
    rw [textAll_cons, List.append_assoc, hown, hfound, List.append_assoc]

theorem marks_branches [Property.Engine] {d : List (List Node)} (h : ∀ ns ∈ d, ∀ n ∈ ns, n.Shows)
    (hw : AreWellFormedBranches d) {rest : List Char}
    (hd : PatternBuilder.startsWithDigit rest = false) :
    ∃ found, Scan.marks ((branchTokens d).flatMap Token.text ++ rest) =
        found ++ Scan.marks rest ∧
      List.Forall₂ StartsAt (branchMarks d) found := by
  induction d with
  | nil => exact ⟨[], rfl, .nil⟩
  | cons ns d ih =>
    have hns := h ns List.mem_cons_self
    cases d with
    | nil =>
      obtain ⟨found, hfound, hall⟩ := marks_textAll hns hw.1 hd
      exact ⟨found, hfound, by simpa [branchMarks] using hall⟩
    | cons ms d =>
      obtain ⟨found, hfound, hall⟩ := ih (fun ns hns ↦ h ns (List.mem_cons_of_mem _ hns)) hw.2
      have hbar : PatternBuilder.startsWithDigit
          ('|' :: ((branchTokens (ms :: d)).flatMap Token.text ++ rest)) = false := rfl
      obtain ⟨own, hown, hstart⟩ := marks_textAll hns hw.1 hbar
      refine ⟨own ++ found, ?_, List.rel_append hstart hall⟩
      rw [marks_plain rfl, hfound] at hown
      rw [branchTokens_cons_cons, List.flatMap_append, List.flatMap_cons, List.append_assoc,
        List.append_assoc, List.append_assoc]
      exact hown

theorem all_isPlain_decimal (v : Nat) : (Quantifier.decimal v).all isPlain = true :=
  all_isPlain (p := Char.isDigit) (List.all_eq_true.mpr fun _ hd ↦ isDigit_of_mem_decimal hd) rfl
    rfl rfl

theorem all_isPlain_suffix (q : Quantifier) : q.suffix.all isPlain = true := by
  have hlazy (lazy : Bool) : (Quantifier.lazyMark lazy).all isPlain = true := by
    cases lazy <;> rfl
  cases q <;> simp [Quantifier.suffix, hlazy, all_isPlain_decimal, isPlain]

theorem marks_opening (k : GroupKind) (hk : k.IsWellFormed) (cs : List Char) :
    Scan.marks (k.opening ++ cs) =
      [k.opening ++ cs].filter Scan.isMark ++ Scan.marks cs := by
  cases k with
  | plain => exact (marks_open _).trans (congrArg _ (@marks_plain_append ['?', ':'] rfl cs))
  | capture => exact marks_open cs
  | named name =>
    have hp : ('?' :: '<' :: name.toList ++ ['>']).all isPlain = true := by
      rw [List.cons_append, List.cons_append, List.all_cons, List.all_cons, List.all_append,
        all_isPlain (all_of_isGroupName hk) rfl rfl rfl]
      rfl
    exact (marks_open _).trans (congrArg _ (marks_plain_append hp cs))
  | look l =>
    cases l with
    | ahead => exact (marks_open _).trans (congrArg _ (@marks_plain_append ['?', '='] rfl cs))
    | notAhead => exact (marks_open _).trans (congrArg _ (@marks_plain_append ['?', '!'] rfl cs))
    | behind =>
      exact (marks_open _).trans (congrArg _ (@marks_plain_append ['?', '<', '='] rfl cs))
    | notBehind =>
      exact (marks_open _).trans (congrArg _ (@marks_plain_append ['?', '<', '!'] rfl cs))

theorem opened?_opening {k : GroupKind} (hk : k.IsWellFormed) (d : Disjunction) {cs : List Char}
    (h : cs.head? ≠ some '?') : opened? (k.opening ++ cs) = (group k d).group? := by
  cases k with
  | plain => rfl
  | capture =>
    rw [GroupKind.opening, List.singleton_append]
    unfold opened?
    split <;> simp_all [Node.group?]
  | named name =>
    have ht := takeWhile_ne_append (not_mem_of_all (all_of_isGroupName hk) (c := '>') rfl) cs
    have hname : isGroupNameList name.toList = true := hk
    simp [GroupKind.opening, opened?, ht, hname, Node.group?]
  | look l => cases l <;> simp [GroupKind.opening, Lookaround.opening, opened?, Node.group?,
      isGroupNameList, isNameStart]

theorem startsAt_group {k : GroupKind} (hk : k.IsWellFormed) (d : Disjunction) {rest : List Char}
    (h : ((branchTokens d).flatMap Token.text ++ ')' :: rest).head? ≠ some '?') :
    (group k d).StartsAt
      (k.opening ++ ((branchTokens d).flatMap Token.text ++ ')' :: rest)) := by
  refine ⟨⟨rest, ?_⟩, (opened?_opening hk d h).symm, ?_⟩
  · simp [text, tokens, Token.text]
  · cases k with
    | look l => cases l <;> rfl
    | _ => rfl

theorem shows [Property.Engine] (n : Node) : n.Shows := by
  induction n using Node.induction with
  | leaf n hl => exact shows_leaf hl
  | group k d ih =>
    intro hw rest hd
    obtain ⟨hk, -, hb⟩ := hw
    -- inside the group it is the closing parenthesis that follows, not `rest`
    have hclose : (')' :: rest).head? ≠ some '?' := by simp
    obtain ⟨found, hfound, hall⟩ := @marks_branches _ d ih hb (')' :: rest) rfl
    have hstart := (startsAt_group hk d (head?_branches_append (d := d) hclose)).forall₂
    rw [marks_plain rfl] at hfound
    refine ⟨_, ?_, List.rel_append hstart hall⟩
    have ht : (group k d).text ++ rest =
        k.opening ++ ((branchTokens d).flatMap Token.text ++ ')' :: rest) := by
      simp [text, tokens, Token.text]
    rw [ht, marks_opening k hk, hfound, List.append_assoc]
  | repeated q n ih =>
    intro hw rest hd
    obtain ⟨-, -, hn⟩ := hw
    have hdigit : PatternBuilder.startsWithDigit (q.suffix ++ rest) = false := by
      cases q <;> rfl
    obtain ⟨found, hfound, hall⟩ := ih hn (q.suffix ++ rest) fun _ ↦ hdigit
    refine ⟨found, ?_, hall⟩
    rw [text_repeated, List.append_assoc, hfound, marks_plain_append (all_isPlain_suffix q)]

end Node

theorem Disjunction.marks_text [Property.Engine] {d : Disjunction} (h : d.IsWellFormed) :
    List.Forall₂ Node.StartsAt (d.flatMap Node.marksAll) (Scan.marks d.text) := by
  obtain ⟨found, hfound, hall⟩ := @Node.marks_branches _ d (fun _ _ n _ ↦ n.shows) h.2 [] rfl
  rw [List.append_nil, show Scan.marks [] = [] from rfl, List.append_nil] at hfound
  rwa [Disjunction.text, hfound, ← Node.branchMarks_eq_flatMap]

end PatternBuilder

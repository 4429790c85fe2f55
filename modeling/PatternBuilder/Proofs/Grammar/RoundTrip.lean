import PatternBuilder.Proofs.Grammar.Tokens

namespace PatternBuilder

namespace Node

open Token

/-- The text of a node starts with a character of its own, and never like a quantifier that
could be taken for the mark of a lazy one. -/
theorem text_eq_cons (n : Node) :
    ∃ c cs, n.text = c :: cs ∧ c ≠ '?' ∧ c.isDigit = n.startsWithDigit := by
  induction n using Node.induction with
  | leaf n hl =>
    rw [text_leaf hl]
    cases n with
    | char c =>
      simp only [leafText, Place.escapeChar, Node.startsWithDigit]
      split
      · rename_i h
        exact ⟨'\\', [c], rfl, by decide, (isDigit_special h).symm⟩
      · rename_i h
        exact ⟨c, [], rfl, fun hc ↦ h (hc ▸ by decide), rfl⟩
    | atom a => cases a <;> exact ⟨_, _, rfl, by decide, rfl⟩
    | boundary b => cases b <;> exact ⟨_, _, rfl, by decide, rfl⟩
    | anchor a => cases a <;> exact ⟨_, _, rfl, by decide, rfl⟩
    | code form ds => cases form <;> exact ⟨_, _, rfl, by decide, rfl⟩
    | property negated name => cases negated <;> exact ⟨_, _, rfl, by decide, rfl⟩
    | set negated items => cases negated <;> exact ⟨_, _, rfl, by decide, rfl⟩
    | control c => exact ⟨_, _, rfl, by decide, rfl⟩
    | number v => exact ⟨_, _, rfl, by decide, rfl⟩
    | namedReference name => exact ⟨_, _, rfl, by decide, rfl⟩
    | group k d => cases hl
    | repeated q n => cases hl
  | group k d ih =>
    cases k with
    | look l => cases l <;> exact ⟨_, _, rfl, by decide, rfl⟩
    | _ => exact ⟨_, _, rfl, by decide, rfl⟩
  | repeated q n ih =>
    obtain ⟨c, cs, ht, hq, hd⟩ := ih
    refine ⟨c, cs ++ q.suffix, ?_, hq, hd⟩
    rw [text, tokens, List.flatMap_append, ← text, ht]
    simp [Token.text]

theorem startsWithDigit_textAll (ns : List Node) :
    PatternBuilder.startsWithDigit (textAll ns) = beginsWithDigit ns := by
  cases ns with
  | nil => rfl
  | cons n ns =>
    obtain ⟨c, cs, ht, -, hd⟩ := n.text_eq_cons
    rw [textAll_cons, ht]
    exact hd

theorem head?_textAll_append {ns : List Node} {rest : List Char} (h : rest.head? ≠ some '?') :
    (textAll ns ++ rest).head? ≠ some '?' := by
  cases ns with
  | nil => exact h
  | cons n ns =>
    obtain ⟨c, cs, ht, hq, -⟩ := n.text_eq_cons
    rw [textAll_cons, ht]
    simpa using hq

theorem startsWithDigit_textAll_append {ns : List Node} {rest : List Char}
    (hn : beginsWithDigit ns = false) (h : PatternBuilder.startsWithDigit rest = false) :
    PatternBuilder.startsWithDigit (textAll ns ++ rest) = false := by
  cases ns with
  | nil => exact h
  | cons n ns =>
    obtain ⟨c, cs, ht, -, hd⟩ := n.text_eq_cons
    rw [textAll_cons, ht]
    exact hd.trans hn

theorem map_append_map {ts us : List Token} (r : Except ReadError (List Token)) :
    (r.map (us ++ ·)).map (ts ++ ·) = r.map (ts ++ us ++ ·) := by
  cases r with
  | error e => rfl
  | ok vs => exact congrArg Except.ok (List.append_assoc ts us vs).symm

/-- What holds of the text of each node: its tokens are read in front of any text that cannot be
taken for a part of it. -/
def ReadsBack [Property.Engine] (n : Node) : Prop :=
  n.IsWellFormed → ∀ rest : List Char, (n.isRepeatable = false → rest.head? ≠ some '?') →
    (n.isNumber = true → PatternBuilder.startsWithDigit rest = false) →
    Token.all (n.text ++ rest) = (Token.all rest).map (n.tokens ++ ·)

theorem all_textAll [Property.Engine] {ns : List Node} (h : ∀ n ∈ ns, n.ReadsBack)
    (hw : AreWellFormed ns) {rest : List Char} (hq : rest.head? ≠ some '?')
    (hd : PatternBuilder.startsWithDigit rest = false) :
    Token.all (textAll ns ++ rest) = (Token.all rest).map (tokensAll ns ++ ·) := by
  induction ns with
  | nil =>
    cases hr : Token.all rest with
    | error e => simp [textAll, tokensAll, hr, Except.map]
    | ok ts => simp [textAll, tokensAll, hr, Except.map]
  | cons n ns ih =>
    obtain ⟨hn, hf, hns⟩ := hw
    have ih := ih (fun m hm ↦ h m (List.mem_cons_of_mem n hm)) hns
    have hread := h n List.mem_cons_self hn (textAll ns ++ rest) (fun _ ↦ head?_textAll_append hq)
      fun hv ↦ startsWithDigit_textAll_append (hf hv) hd
    rw [textAll_cons, List.append_assoc, hread, ih, map_append_map, tokensAll]

theorem all_branches [Property.Engine] {d : List (List Node)} (h : ∀ ns ∈ d, ∀ n ∈ ns, n.ReadsBack)
    (hw : AreWellFormedBranches d) {rest : List Char} (hq : rest.head? ≠ some '?')
    (hd : PatternBuilder.startsWithDigit rest = false) :
    Token.all ((branchTokens d).flatMap Token.text ++ rest) =
      (Token.all rest).map (branchTokens d ++ ·) := by
  induction d with
  | nil => cases hr : Token.all rest <;> simp [branchTokens, hr, Except.map]
  | cons ns d ih =>
    have hns := all_textAll (h ns List.mem_cons_self) hw.1 hq hd
    cases d with
    | nil => exact hns
    | cons ms d =>
      have ih := ih (fun ns hns ↦ h ns (List.mem_cons_of_mem _ hns)) hw.2
      have hbar : ('|' :: ((branchTokens (ms :: d)).flatMap Token.text ++ rest)).head? ≠
          some '?' := by simp
      have hb := all_textAll (h ns List.mem_cons_self) hw.1 hbar rfl
      rw [all_cons (t := .bar) rfl, ih] at hb
      have ht : (branchTokens (ns :: ms :: d)).flatMap Token.text ++ rest =
          textAll ns ++ '|' :: ((branchTokens (ms :: d)).flatMap Token.text ++ rest) := by
        simp [branchTokens, textAll, Token.text]
      rw [ht, hb]
      cases Token.all rest <;> simp [branchTokens, Except.map]

theorem head?_branches_append {d : List (List Node)} {rest : List Char}
    (h : rest.head? ≠ some '?') :
    ((branchTokens d).flatMap Token.text ++ rest).head? ≠ some '?' := by
  match d with
  | [] => exact h
  | [ns] => exact head?_textAll_append h
  | ns :: ms :: d =>
    have hb : ('|' :: ((branchTokens (ms :: d)).flatMap Token.text ++ rest)).head? ≠ some '?' := by
      simp
    have ht := @head?_textAll_append ns _ hb
    simpa [branchTokens_cons_cons, textAll, Token.text] using ht

variable [Property.Engine]

theorem readsBack (n : Node) : n.ReadsBack := by
  induction n using Node.induction with
  | leaf n hl =>
    intro hw rest hq hd
    rw [text_leaf hl, tokens_leaf hl]
    exact all_leafText hl hw hd
  | group k d ih =>
    intro hw rest hq hd
    obtain ⟨hk, -, hb⟩ := hw
    have hclose : (')' :: rest).head? ≠ some '?' := by simp
    have hbody := all_branches ih hb hclose rfl
    have hopen := all_opening hk (head?_branches_append (d := d) hclose)
    have ht : (group k d).text ++ rest =
        k.opening ++ ((branchTokens d).flatMap Token.text ++ ')' :: rest) := by
      simp [text, tokens, Token.text]
    rw [ht, hopen, hbody, all_cons (t := .closing) rfl]
    cases Token.all rest <;> simp [tokens, Except.map]
  | repeated q n ih =>
    intro hw rest hq hd
    obtain ⟨hcounts, hr, hn⟩ := hw
    have ht : (repeated q n).text ++ rest = n.text ++ (q.suffix ++ rest) := by
      simp [text, tokens, Token.text]
    have hdigit : PatternBuilder.startsWithDigit (q.suffix ++ rest) = false := by
      cases q <;> rfl
    -- the suffix may start with `?`, as the node before it does not end in a suffix of its own
    rw [ht, ih hn _ (fun h ↦ by simp [h] at hr) (fun _ ↦ hdigit), all_suffix hcounts (hq rfl)]
    cases Token.all rest <;> simp [tokens, Except.map]

/-- What holds of the tokens of each node: put together they make that node. -/
def Assembles (n : Node) : Prop :=
  n.IsWellFormed → ∀ r : Reader,
    n.tokens.foldlM Reader.step r = .ok { r with level := r.level.push n }

theorem foldlM_tokensAll {ns : List Node} (h : ∀ n ∈ ns, n.Assembles) (hw : AreWellFormed ns)
    (r : Reader) :
    (tokensAll ns).foldlM Reader.step r =
      .ok { r with level := { r.level with growing := ns.reverse ++ r.level.growing } } := by
  induction ns generalizing r with
  | nil => rfl
  | cons n ns ih =>
    obtain ⟨hn, -, hns⟩ := hw
    have ih := ih (fun m hm ↦ h m (List.mem_cons_of_mem n hm)) hns
      { r with level := r.level.push n }
    rw [tokensAll, List.foldlM_append, h n List.mem_cons_self hn r]
    refine ih.trans ?_
    simp [Branches.push]

theorem foldlM_branchTokens {d : List (List Node)} (h : ∀ ns ∈ d, ∀ n ∈ ns, n.Assembles)
    (hd : d ≠ []) (hw : AreWellFormedBranches d) (finished : List (List Node))
    (outer : List (GroupKind × Branches)) :
    ∃ b : Branches, b.toDisjunction = finished ++ d ∧
      (branchTokens d).foldlM Reader.step ⟨⟨finished, []⟩, outer⟩ = .ok ⟨b, outer⟩ := by
  induction d generalizing finished with
  | nil => exact absurd rfl hd
  | cons ns d ih =>
    have hns := foldlM_tokensAll (h ns List.mem_cons_self) hw.1 ⟨⟨finished, []⟩, outer⟩
    cases d with
    | nil =>
      refine ⟨⟨finished, ns.reverse⟩, by simp [Branches.toDisjunction], ?_⟩
      simpa [branchTokens] using hns
    | cons ms d =>
      obtain ⟨b, hb, hf⟩ := ih (fun ns hns ↦ h ns (List.mem_cons_of_mem _ hns)) (by simp) hw.2
        (finished ++ [ns])
      refine ⟨b, by simpa using hb, ?_⟩
      rw [branchTokens_cons_cons, List.foldlM_append, hns, ← hf]
      simp [bind, Except.bind, Reader.step, Branches.split]

theorem assembles (n : Node) : n.Assembles := by
  induction n using Node.induction with
  | leaf n hl =>
    intro hw r
    rw [tokens_leaf hl]
    rfl
  | group k d ih =>
    intro hw r
    obtain ⟨-, hd, hb⟩ := hw
    obtain ⟨b, hb, hf⟩ := foldlM_branchTokens ih hd hb [] ((k, r.level) :: r.outer)
    have hopen : Reader.step r (.opening k) = .ok ⟨{}, (k, r.level) :: r.outer⟩ := rfl
    rw [tokens, List.cons_append, List.foldlM_cons, hopen]
    simp only [bind, Except.bind]
    rw [List.foldlM_append, hf]
    simp [bind, Except.bind, Reader.step, hb, pure, Except.pure]
  | repeated q n ih =>
    intro hw r
    obtain ⟨-, hr, hn⟩ := hw
    rw [tokens, List.foldlM_append, ih hn r]
    simp [bind, Except.bind, Reader.step, Branches.push, Branches.repeatLast, hr, Except.map,
      pure, Except.pure]

end Node

namespace Disjunction

theorem all_text [Property.Engine] {d : Disjunction} (h : d.IsWellFormed) :
    Token.all d.text = .ok (Node.branchTokens d) := by
  have hb := @Node.all_branches _ d (fun _ _ n _ ↦ n.readsBack) h.2 [] (by simp) rfl
  simpa [text, Token.all, Except.map] using hb

/-- Reading the text of a well-formed disjunction gives the disjunction back. -/
theorem read_text [Property.Engine] {d : Disjunction} (h : d.IsWellFormed) :
    read d.text = .ok d := by
  obtain ⟨b, hb, hf⟩ := Node.foldlM_branchTokens (fun _ _ n _ ↦ n.assembles) h.1 h.2 [] []
  simp only [read, all_text h, ofTokens, bind, Except.bind]
  rw [show ({} : Reader) = ⟨⟨[], []⟩, []⟩ from rfl, hf]
  simpa [Reader.finish] using hb

end Disjunction

end PatternBuilder

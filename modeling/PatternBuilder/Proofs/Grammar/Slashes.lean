import PatternBuilder.Proofs.Grammar.TokenReading

namespace PatternBuilder

namespace Scan

/-- The text up to the first slash that no backslash takes with it, and the text behind it. -/
def upToSlash? : List Char → Option (List Char × List Char)
  | [] => none
  | '/' :: cs => some ([], cs)
  | ['\\'] => none
  | '\\' :: c :: cs => (upToSlash? cs).map fun (found, rest) ↦ ('\\' :: c :: found, rest)
  | c :: cs => (upToSlash? cs).map fun (found, rest) ↦ (c :: found, rest)

/-- A scan that starts in front of the text passes over the whole of it. -/
def Passes (t : List Char) : Prop :=
  ∀ rest, upToSlash? (t ++ rest) = (upToSlash? rest).map fun (found, rest) ↦ (t ++ found, rest)

namespace Passes

variable {t u : List Char}

theorem upToSlash?_append (h : Passes t) (rest : List Char) :
    upToSlash? (t ++ '/' :: rest) = some (t, rest) := by
  simp [h ('/' :: rest), upToSlash?]

theorem nil : Passes [] := by
  intro rest
  cases h : upToSlash? rest <;> simp [h]

theorem append (ht : Passes t) (hu : Passes u) : Passes (t ++ u) := by
  intro rest
  rw [List.append_assoc, ht, hu, Option.map_map]
  refine congrArg (Option.map · _) (funext fun found ↦ ?_)
  simp

theorem escape (c : Char) : Passes ['\\', c] := fun _ ↦ rfl

theorem plain (hs : '\\' ∉ t) (hd : '/' ∉ t) : Passes t := by
  induction t with
  | nil => exact nil
  | cons c t ih =>
    have hc : Passes [c] := by
      intro rest
      have hcs := List.ne_of_not_mem_cons hs
      have hcd := List.ne_of_not_mem_cons hd
      rw [List.singleton_append, upToSlash?]
      · rfl
      · exact fun h ↦ hcd h.symm
      · exact fun h _ ↦ hcs h.symm
      · exact fun _ _ h _ ↦ hcs h.symm
    exact hc.append (ih (List.not_mem_of_not_mem_cons hs) (List.not_mem_of_not_mem_cons hd))

theorem of_all {p : Char → Bool} (h : t.all p = true) (hs : p '\\' = false)
    (hd : p '/' = false) : Passes t :=
  plain (Token.not_mem_of_all h hs) (Token.not_mem_of_all h hd)

theorem flatMap {α : Type} {xs : List α} {f : α → List Char} (h : ∀ x ∈ xs, Passes (f x)) :
    Passes (xs.flatMap f) := flatMap_of_append nil append h

theorem escapeChar (p : Place) (c : Char) : Passes (p.escapeChar c) := by
  unfold Place.escapeChar
  split
  · exact escape c
  · rename_i h
    have hplain : [c].all (fun c ↦ !p.isSpecial c) = true := by simp [h]
    cases p <;> exact of_all hplain rfl rfl

theorem rangeBody (first last : Char) : Passes (rangeBody first last) :=
  (escapeChar .bracket first).append
    ((plain (t := ['-']) (by decide) (by decide)).append (escapeChar .bracket last))

theorem bracket (negated : Bool) (h : Passes t) : Passes (classText negated t) := by
  have hclose : Passes [']'] := plain (by decide) (by decide)
  cases negated with
  | false => exact (plain (t := ['[']) (by decide) (by decide)).append (h.append hclose)
  | true => exact (plain (t := ['[', '^']) (by decide) (by decide)).append (h.append hclose)

theorem atom (a : Atom) : Passes a.text := by
  cases a with
  | anyChar => exact plain (by decide) (by decide)
  | backspace => exact bracket false (escape 'b')
  | _ => exact escape _

theorem classItem (i : ClassItem) : Passes i.text := by
  cases i with
  | char c => exact escapeChar .bracket c
  | range a b => exact rangeBody a b
  | atom a =>
    cases a with
    | backspace => exact escape 'b'
    | anyChar => exact atom .anyChar
    | _ => exact escape _

theorem suffix (q : Quantifier) : Passes q.suffix :=
  plain (Token.not_mem_suffix rfl (by decide) q) (Token.not_mem_suffix rfl (by decide) q)

theorem opening {k : GroupKind} (h : k.IsWellFormed) : Passes k.opening := by
  cases k with
  | plain | capture => exact plain (by decide) (by decide)
  | named name =>
    have hname : Passes name.toList := of_all (Token.all_of_isGroupName h) rfl rfl
    exact (plain (t := ['(', '?', '<']) (by decide) (by decide)).append
      (hname.append (plain (t := ['>']) (by decide) (by decide)))
  | look l => cases l <;> exact plain (by decide) (by decide)

theorem escapeWith (letter first last : Char) (hf : first ∉ ['\\', '/'])
    (hl : last ∉ ['\\', '/']) (h : Passes t) :
    Passes ('\\' :: letter :: first :: t ++ [last]) := by
  have hmark {c : Char} (hc : c ∉ ['\\', '/']) : Passes [c] := by
    simp only [List.mem_cons, List.not_mem_nil, or_false, not_or] at hc
    exact plain (by simpa using Ne.symm hc.1) (by simpa using Ne.symm hc.2)
  exact (escape letter).append ((hmark hf).append (h.append (hmark hl)))

theorem code {form : CodeForm} {ds : List Char} (h : form.IsWellFormed ds) :
    Passes (form.text ds) := by
  cases form with
  | byte | unit => exact (escape _).append (of_all h.2 rfl rfl)
  | point => exact escapeWith 'u' '{' '}' (by decide) (by decide) (of_all h.2.1 rfl rfl)

theorem leafText [Property.Engine] {n : Node} (hl : n.isLeaf = true) (h : n.IsWellFormed) :
    Passes n.leafText := by
  cases n with
  | char c => exact escapeChar .literal c
  | atom a => exact atom a
  | boundary b => cases b <;> exact escape _
  | anchor a => cases a <;> exact plain (by decide) (by decide)
  | control c =>
    have hc : [c].all Char.isAlpha = true := by simpa [Node.IsWellFormed] using h
    exact (escape 'c').append (of_all hc rfl rfl)
  | code form ds => exact code h
  | property negated name =>
    have hname : Passes name.toList := of_all (Token.all_of_isAccepted h) rfl rfl
    cases negated <;> exact escapeWith _ '{' '}' (by decide) (by decide) hname
  | number v =>
    obtain ⟨c, cs, hv⟩ := List.exists_cons_of_ne_nil (Token.decimal_ne_nil v)
    have hcs : ∀ d ∈ cs, d.isDigit = true := fun d hd ↦
      Token.isDigit_of_mem_decimal (n := v) (hv ▸ List.mem_cons_of_mem c hd)
    rw [Node.leafText, hv]
    exact (escape c).append (of_all (List.all_eq_true.mpr hcs) rfl rfl)
  | namedReference name =>
    exact escapeWith 'k' '<' '>' (by decide) (by decide)
      (of_all (Token.all_of_isGroupName h) rfl rfl)
  | set negated items => exact bracket negated (flatMap fun i _ ↦ classItem i)
  | group k d => cases hl
  | repeated q n => cases hl

end Passes

end Scan

def Token.IsWellFormed [Property.Engine] : Token → Prop
  | leaf n => n.isLeaf = true ∧ n.IsWellFormed
  | opening k => k.IsWellFormed
  | repetition q => q.IsWellFormed
  | closing | bar => True

theorem Scan.Passes.token [Property.Engine] {t : Token} (h : t.IsWellFormed) : Passes t.text := by
  cases t with
  | leaf n => exact leafText h.1 h.2
  | opening k => exact opening h
  | closing | bar => exact plain (by decide) (by decide)
  | repetition q => exact suffix q

namespace Node

variable [Property.Engine]

theorem isWellFormed_of_mem_tokensAll {ns : List Node} (hw : AreWellFormed ns)
    (h : ∀ n ∈ ns, n.IsWellFormed → ∀ t ∈ n.tokens, t.IsWellFormed) :
    ∀ t ∈ tokensAll ns, t.IsWellFormed := by
  induction ns with
  | nil => exact fun t ht ↦ absurd ht List.not_mem_nil
  | cons n ns ih =>
    obtain ⟨hn, -, hns⟩ := hw
    intro t ht
    rcases List.mem_append.mp ht with ht | ht
    · exact h n List.mem_cons_self hn t ht
    · exact ih hns (fun m hm ↦ h m (List.mem_cons_of_mem n hm)) t ht

theorem isWellFormed_of_mem_branchTokens {d : List (List Node)} (hw : AreWellFormedBranches d)
    (h : ∀ ns ∈ d, ∀ n ∈ ns, n.IsWellFormed → ∀ t ∈ n.tokens, t.IsWellFormed) :
    ∀ t ∈ branchTokens d, t.IsWellFormed := by
  induction d with
  | nil => exact fun t ht ↦ absurd ht List.not_mem_nil
  | cons ns d ih =>
    have hns := isWellFormed_of_mem_tokensAll hw.1 (h ns List.mem_cons_self)
    cases d with
    | nil => exact hns
    | cons ms d =>
      have ih := ih hw.2 fun ls hls ↦ h ls (List.mem_cons_of_mem ns hls)
      rw [branchTokens_cons_cons]
      intro t ht
      rcases List.mem_append.mp ht with ht | ht
      · exact hns t ht
      · rcases List.mem_cons.mp ht with rfl | ht
        · trivial
        · exact ih t ht

theorem isWellFormed_of_mem_tokens {n : Node} (hw : n.IsWellFormed) :
    ∀ t ∈ n.tokens, t.IsWellFormed := by
  induction n using Node.induction with
  | leaf n hl =>
    rw [tokens_leaf hl]
    intro t ht
    rw [List.mem_singleton.mp ht]
    exact ⟨hl, hw⟩
  | group k d ih =>
    have hd := isWellFormed_of_mem_branchTokens hw.2.2 fun ns hns n hn h ↦ ih ns hns n hn h
    intro t ht
    rw [tokens, List.cons_append, List.mem_cons, List.mem_append, List.mem_singleton] at ht
    rcases ht with rfl | ht | rfl
    · exact hw.1
    · exact hd t ht
    · trivial
  | repeated q n ih =>
    intro t ht
    rw [tokens, List.mem_append, List.mem_singleton] at ht
    rcases ht with ht | rfl
    · exact ih hw.2.2 t ht
    · exact hw.1

end Node

theorem Disjunction.isWellFormed_of_mem_tokens [Property.Engine] {d : Disjunction}
    (h : d.IsWellFormed) :
    ∀ t ∈ Node.branchTokens d, t.IsWellFormed :=
  Node.isWellFormed_of_mem_branchTokens h.2 fun _ _ _ _ ↦ Node.isWellFormed_of_mem_tokens

theorem Disjunction.passes_text [Property.Engine] {d : Disjunction} (h : d.IsWellFormed) :
    Scan.Passes d.text :=
  .flatMap fun t ht ↦ .token (isWellFormed_of_mem_tokens h t ht)

end PatternBuilder

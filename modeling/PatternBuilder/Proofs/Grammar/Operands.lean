import Mathlib.Data.List.Forall2
import Mathlib.Data.List.Infix
import PatternBuilder.Proofs.Grammar.RoundTrip

namespace PatternBuilder

/-- A scan of tokens for the texts that quantifiers apply to. -/
structure OperandScan where
  previous : Option Token := none
  /-- The text of the atom or group that ends here, if there is one. -/
  last : List Char := []
  /-- The text of the level so far, with the parenthesis that opens it. -/
  level : List Char := []
  outer : List (List Char) := []
  found : List (Quantifier × List Char) := []

namespace OperandScan

def step (joins : Token → Token → Bool) (s : OperandScan) (t : Token) : OperandScan :=
  match t with
  | .leaf _ =>
    { s with
      previous := some t
      last := (if s.previous.any (joins · t) then s.last else []) ++ t.text
      level := s.level ++ t.text }
  | .bar => { s with previous := some t, last := [], level := s.level ++ t.text }
  | .repetition q =>
    { s with
      previous := some t
      last := []
      level := s.level ++ t.text
      found := s.found ++ [(q, s.last)] }
  | .opening _ =>
    { s with previous := some t, last := [], level := t.text, outer := s.level :: s.outer }
  | .closing =>
    { s with
      previous := some t
      last := s.level ++ t.text
      level := s.outer.headD [] ++ (s.level ++ t.text)
      outer := s.outer.tail }

def run (joins : Token → Token → Bool) (ts : List Token) (s : OperandScan) : OperandScan :=
  ts.foldl (step joins) s

theorem run_append (joins : Token → Token → Bool) (ts us : List Token) (s : OperandScan) :
    run joins (ts ++ us) s = run joins us (run joins ts s) := List.foldl_append

theorem run_concat (joins : Token → Token → Bool) (ts : List Token) (t : Token)
    (s : OperandScan) : run joins (ts ++ [t]) s = (run joins ts s).step joins t :=
  run_append joins ts [t] s

def plain (ts : List Token) (s : OperandScan) : OperandScan := run (fun _ _ ↦ false) ts s

theorem plain_append (ts us : List Token) (s : OperandScan) :
    plain (ts ++ us) s = plain us (plain ts s) := run_append _ ts us s

theorem plain_concat (ts : List Token) (t : Token) (s : OperandScan) :
    plain (ts ++ [t]) s = (plain ts s).step (fun _ _ ↦ false) t := run_concat _ ts t s

/-- A scan has passed over a text and found what it should. -/
structure Passed (s s' : OperandScan) (text : List Char) (found : List (Quantifier × List Char)) :
    Prop where
  level : s'.level = s.level ++ text
  outer : s'.outer = s.outer
  found : s'.found = s.found ++ found

theorem Passed.refl (s : OperandScan) : Passed s s [] [] :=
  ⟨(List.append_nil _).symm, rfl, (List.append_nil _).symm⟩

theorem Passed.trans {s s' s'' : OperandScan} {t t' : List Char}
    {f f' : List (Quantifier × List Char)} (h : Passed s s' t f) (h' : Passed s' s'' t' f') :
    Passed s s'' (t ++ t') (f ++ f') :=
  ⟨by rw [h'.level, h.level, List.append_assoc], h'.outer.trans h.outer,
    by rw [h'.found, h.found, List.append_assoc]⟩

end OperandScan

namespace Token

def isPair (t u : Token) : Bool := (pair? t u).isSome

def operands (ts : List Token) : List (Quantifier × List Char) :=
  (OperandScan.plain ts {}).found

/-- Each quantifier with the text that it applies to in unicode mode, where a unit that can lead
a pair and one behind it that can trail it are one atom. -/
def pairedOperands (ts : List Token) : List (Quantifier × List Char) :=
  (OperandScan.run isPair ts {}).found

theorem exists_of_isPair {t u : Token} (h : isPair t u = true) :
    ∃ first second, t = leaf (.code .unit first) ∧ u = leaf (.code .unit second) ∧
      hexValue first < 0xDC00 ∧ 0xDC00 ≤ hexValue second := by
  unfold isPair pair? at h
  split at h
  · rename_i first second
    simp only at h
    split at h
    · rename_i hr
      exact ⟨first, second, rfl, rfl, hr.2.1, hr.2.2.1⟩
    · cases h
  · cases h

/-- The unit that leads a pair does not trail another. -/
theorem isPair_eq_false_of_isPair {s t u : Token} (h : isPair t u = true) : isPair s t = false := by
  obtain ⟨first, _, rfl, -, hlt, -⟩ := exists_of_isPair h
  rw [Bool.eq_false_iff]
  intro hs
  obtain ⟨_, second, -, heq, -, hle⟩ := exists_of_isPair hs
  cases heq
  omega

theorem isPair_eq_false_of_ne {u : Token} (h : ∀ ds, u ≠ leaf (.code .unit ds)) (t : Token) :
    isPair t u = false := by
  rw [Bool.eq_false_iff]
  intro hp
  obtain ⟨_, second, -, rfl, -⟩ := exists_of_isPair hp
  exact h second rfl

theorem text_ne_nil_of_isPair {t u : Token} (h : isPair t u = true) : t.text ≠ [] := by
  obtain ⟨first, _, rfl, -⟩ := exists_of_isPair h
  exact List.cons_ne_nil _ _

def lead (ts : List Token) : List Char :=
  match ts.dropLast.getLast?, ts.getLast? with
  | some t, some u => if isPair t u then t.text else []
  | _, _ => []

theorem lead_concat_concat (ts : List Token) (t u : Token) :
    lead (ts ++ [t] ++ [u]) = if isPair t u then t.text else [] := by
  rw [lead, List.dropLast_concat, List.getLast?_concat, List.getLast?_concat]

theorem lead_singleton (u : Token) : lead [u] = [] := rfl

theorem lead_concat_eq_nil {u : Token} (h : ∀ t, isPair t u = false) (ts : List Token) :
    lead (ts ++ [u]) = [] := by
  obtain rfl | ⟨ts, t, rfl⟩ := ts.eq_nil_or_concat'
  · exact lead_singleton u
  · rw [lead_concat_concat, h, if_neg Bool.false_ne_true]

theorem suffix_concat_concat {ts : List Token} {t u t' u' : Token} :
    [t', u'] <:+ ts ++ [t] ++ [u] ↔ t' = t ∧ u' = u := by
  rw [← List.reverse_prefix]
  simp [and_comm]

theorem lead_eq_nil_iff {ts : List Token} :
    lead ts = [] ↔ ∀ t u, [t, u] <:+ ts → isPair t u = false := by
  obtain rfl | ⟨ts, u, rfl⟩ := ts.eq_nil_or_concat'
  · simp [lead]
  obtain rfl | ⟨ts, t, rfl⟩ := ts.eq_nil_or_concat'
  · refine iff_of_true rfl fun t u h ↦ ?_
    exact absurd h.length_le (by simp)
  · rw [lead_concat_concat]
    constructor
    · intro h t' u' hsuffix
      obtain ⟨rfl, rfl⟩ := suffix_concat_concat.mp hsuffix
      by_contra hp
      rw [Bool.not_eq_false] at hp
      rw [if_pos hp] at h
      exact text_ne_nil_of_isPair hp h
    · intro h
      rw [h t u (suffix_concat_concat.mpr ⟨rfl, rfl⟩), if_neg Bool.false_ne_true]

end Token

namespace OperandScan

/-- What a scan that knows of pairs has in common with one that does not. -/
structure Agrees (ts : List Token) (s u : OperandScan) : Prop where
  previous_left : s.previous = ts.getLast?
  previous_right : u.previous = ts.getLast?
  level : u.level = s.level
  outer : u.outer = s.outer
  last : u.last = Token.lead ts ++ s.last
  last_leaf : ∀ n, ts.getLast? = some (.leaf n) → s.last = n.leafText

namespace Agrees

variable {ts : List Token} {s u : OperandScan}

theorem lead_concat (h : Agrees ts s u) (t : Token) :
    Token.lead (ts ++ [t]) = if u.previous.any (Token.isPair · t) then u.last else [] := by
  rw [h.previous_right, h.last]
  obtain rfl | ⟨ts, t', rfl⟩ := ts.eq_nil_or_concat'
  · rfl
  rw [Token.lead_concat_concat, List.getLast?_concat, Option.any_some]
  split
  · rename_i hp
    -- a unit that leads a pair trails no other, so it is the whole atom before
    obtain ⟨first, _, rfl, -⟩ := Token.exists_of_isPair hp
    rw [Token.lead_concat_eq_nil fun _ ↦ Token.isPair_eq_false_of_isPair hp,
      h.last_leaf _ List.getLast?_concat]
    rfl
  · rfl

theorem step (h : Agrees ts s u) (t : Token) :
    Agrees (ts ++ [t]) (s.step (fun _ _ ↦ false) t) (u.step Token.isPair t) := by
  have hlead := h.lead_concat t
  have hnone (ht : ∀ ds, t ≠ .leaf (.code .unit ds)) : Token.lead (ts ++ [t]) = [] :=
    Token.lead_concat_eq_nil (Token.isPair_eq_false_of_ne ht) ts
  cases t with
  | leaf n =>
    refine ⟨List.getLast?_concat.symm, List.getLast?_concat.symm, ?_, h.outer, ?_, ?_⟩
    · exact congrArg (· ++ _) h.level
    · rw [hlead]
      simp [OperandScan.step]
    · intro m hm
      obtain rfl : n = m := by simpa using hm
      simp [OperandScan.step, Token.text]
  | bar | repetition | opening | closing =>
    refine ⟨List.getLast?_concat.symm, List.getLast?_concat.symm, ?_, ?_, ?_, by simp⟩
    all_goals simp [OperandScan.step, h.level, h.outer, hnone]

theorem run (ts : List Token) :
    Agrees ts (OperandScan.plain ts {}) (OperandScan.run Token.isPair ts {}) := by
  induction ts using List.reverseRecOn with
  | nil => exact ⟨rfl, rfl, rfl, rfl, rfl, nofun⟩
  | append_singleton ts t ih =>
    rw [plain_concat, run_concat]
    exact ih.step t

theorem lead_eq (h : Agrees ts s u) :
    Token.lead ts = [] ∨
      ∃ t v, Token.isPair t v = true ∧ s.last = v.text ∧ Token.lead ts = t.text := by
  obtain rfl | ⟨ts, v, rfl⟩ := ts.eq_nil_or_concat'
  · exact .inl rfl
  obtain rfl | ⟨ts, t, rfl⟩ := ts.eq_nil_or_concat'
  · exact .inl rfl
  rw [Token.lead_concat_concat]
  split
  · rename_i hp
    obtain ⟨_, second, -, rfl, -⟩ := Token.exists_of_isPair hp
    exact .inr ⟨t, _, hp, h.last_leaf _ List.getLast?_concat, rfl⟩
  · exact .inl rfl

end Agrees

end OperandScan

namespace Token

open OperandScan

/-- What is found in unicode mode for an operand: the operand, or if that is a unit that can trail
a pair, perhaps the unit in front of it as well. -/
def OrLed (found operand : Quantifier × List Char) : Prop :=
  found = operand ∨ ∃ t u, isPair t u = true ∧ operand.2 = u.text ∧
    found = (operand.1, t.text ++ operand.2)

theorem operands_concat (ts : List Token) {t : Token} (h : ∀ q, t ≠ .repetition q) :
    operands (ts ++ [t]) = operands ts ∧ pairedOperands (ts ++ [t]) = pairedOperands ts := by
  simp only [operands, pairedOperands, plain_concat, run_concat]
  cases t with
  | repetition q => exact absurd rfl (h q)
  | _ => exact ⟨rfl, rfl⟩

theorem operands_concat_repetition (ts : List Token) (q : Quantifier) :
    ∃ last, operands (ts ++ [.repetition q]) = operands ts ++ [(q, last)] ∧
      pairedOperands (ts ++ [.repetition q]) = pairedOperands ts ++ [(q, lead ts ++ last)] ∧
      (lead ts = [] ∨ ∃ t u, isPair t u = true ∧ last = u.text ∧ lead ts = t.text) := by
  have ha := Agrees.run ts
  simp only [operands, pairedOperands, plain_concat, run_concat]
  exact ⟨_, rfl, by rw [← ha.last]; rfl, ha.lead_eq⟩

theorem forall₂_orLed (ts : List Token) :
    List.Forall₂ OrLed (pairedOperands ts) (operands ts) := by
  induction ts using List.reverseRecOn with
  | nil => exact .nil
  | append_singleton ts t ih =>
    by_cases ht : ∃ q, t = .repetition q
    · obtain ⟨q, rfl⟩ := ht
      obtain ⟨last, ho, hp, hl⟩ := operands_concat_repetition ts q
      rw [ho, hp]
      refine List.rel_append ih (.cons ?_ .nil)
      rcases hl with hl | ⟨t, u, htu, rfl, hl⟩
      · exact .inl (by rw [hl]; rfl)
      · exact .inr ⟨t, u, htu, rfl, by rw [hl]⟩
    · obtain ⟨ho, hp⟩ := operands_concat ts (not_exists.mp ht)
      rwa [ho, hp]

/-- Quantifiers apply to the same texts in unicode mode, unless a pair of units stands in front of
one of them. -/
theorem pairedOperands_eq_iff (ts : List Token) :
    pairedOperands ts = operands ts ↔
      ∀ t u q, [t, u, .repetition q] <:+: ts → isPair t u = false := by
  induction ts using List.reverseRecOn with
  | nil => exact iff_of_true rfl fun t u q h ↦ absurd h.length_le (by simp)
  | append_singleton ts v ih =>
    -- only a quantifier at the end can complete a pair with a quantifier behind it
    have hends (t u : Token) (q : Quantifier) : [t, u, .repetition q] <:+: ts ++ [v] ↔
        (v = .repetition q ∧ [t, u] <:+ ts) ∨ [t, u, .repetition q] <:+: ts := by
      rw [List.infix_concat_iff, ← List.reverse_prefix, ← @List.reverse_prefix _ [t, u]]
      simp [eq_comm]
    by_cases hv : ∃ q, v = .repetition q
    · obtain ⟨q, rfl⟩ := hv
      obtain ⟨last, ho, hp, -⟩ := operands_concat_repetition ts q
      have hlead : (q, lead ts ++ last) = (q, last) ↔
          ∀ t u, [t, u] <:+ ts → isPair t u = false := by
        rw [← lead_eq_nil_iff, Prod.mk.injEq, List.append_left_eq_self]
        exact and_iff_right rfl
      rw [ho, hp, List.append_singleton_inj, ih, hlead]
      constructor
      · intro h t u r htu
        rcases (hends t u r).mp htu with ⟨-, hend⟩ | hinside
        · exact h.2 t u hend
        · exact h.1 t u r hinside
      · intro h
        exact ⟨fun t u r htu ↦ h t u r ((hends t u r).mpr (.inr htu)),
          fun t u htu ↦ h t u q ((hends t u q).mpr (.inl ⟨rfl, htu⟩))⟩
    · obtain ⟨ho, hp⟩ := operands_concat ts (not_exists.mp hv)
      have hinside (t u : Token) (q : Quantifier) : [t, u, .repetition q] <:+: ts ++ [v] ↔
          [t, u, .repetition q] <:+: ts := by
        rw [hends, or_iff_right fun h ↦ hv ⟨q, h.1⟩]
      rw [ho, hp, ih]
      simp only [hinside]

end Token

namespace Node

open OperandScan

mutual

/-- Each repetition in a node with the text of what is repeated, in the order in which the
repetitions end. -/
def operands : Node → List (Quantifier × List Char)
  | group _ d => branchOperands d
  | repeated q n => operands n ++ [(q, n.text)]
  | _ => []

def operandsAll : List Node → List (Quantifier × List Char)
  | [] => []
  | n :: ns => operands n ++ operandsAll ns

def branchOperands : List (List Node) → List (Quantifier × List Char)
  | [] => []
  | ns :: d => operandsAll ns ++ branchOperands d

end

theorem operands_leaf {n : Node} (h : n.isLeaf = true) : n.operands = [] := by
  cases n <;> first | rfl | cases h

variable [Property.Engine]

/-- What a scan makes of a node: its repetitions are found, and its text comes last. -/
def Scans (n : Node) : Prop :=
  n.IsWellFormed → ∀ s, Passed s (plain n.tokens s) n.text n.operands ∧
    (n.isRepeatable = true → (plain n.tokens s).last = n.text)

theorem passed_tokensAll {ns : List Node} (h : ∀ n ∈ ns, n.Scans) (hw : AreWellFormed ns)
    (s : OperandScan) : Passed s (plain (tokensAll ns) s) (textAll ns) (operandsAll ns) := by
  induction ns generalizing s with
  | nil => exact .refl s
  | cons n ns ih =>
    obtain ⟨hn, -, hns⟩ := hw
    have ih := ih (fun m hm ↦ h m (List.mem_cons_of_mem n hm)) hns (plain n.tokens s)
    rw [tokensAll, plain_append, textAll_cons]
    exact (h n List.mem_cons_self hn s).1.trans ih

theorem passed_branchTokens {d : List (List Node)} (h : ∀ ns ∈ d, ∀ n ∈ ns, n.Scans)
    (hw : AreWellFormedBranches d) (s : OperandScan) :
    Passed s (plain (branchTokens d) s) ((branchTokens d).flatMap Token.text)
      (branchOperands d) := by
  induction d generalizing s with
  | nil => exact .refl s
  | cons ns d ih =>
    have hns := passed_tokensAll (h ns List.mem_cons_self) hw.1 s
    have ih := ih (fun ms hms ↦ h ms (List.mem_cons_of_mem ns hms)) hw.2
    cases d with
    | nil => simpa [branchTokens, branchOperands, textAll] using hns
    | cons ms d =>
      have hbar (s : OperandScan) : Passed s (plain [.bar] s) ['|'] [] :=
        ⟨rfl, rfl, (List.append_nil _).symm⟩
      have hall := hns.trans ((hbar _).trans (ih _))
      rw [branchTokens_cons_cons, ← List.singleton_append, plain_append, plain_append]
      simpa [branchOperands, textAll, Token.text] using hall

theorem scans (n : Node) : n.Scans := by
  induction n using Node.induction with
  | leaf n hl =>
    intro hw s
    rw [tokens_leaf hl, text_leaf hl, operands_leaf hl]
    refine ⟨⟨rfl, rfl, (List.append_nil _).symm⟩, fun _ ↦ ?_⟩
    simp [plain, OperandScan.run, OperandScan.step, Token.text]
  | group k d ih =>
    intro hw s
    obtain ⟨-, -, hb⟩ := hw
    -- inside the group the level starts anew, and the outer one waits
    have hbody := passed_branchTokens ih hb (s.step (fun _ _ ↦ false) (.opening k))
    have hscan : plain (group k d).tokens s =
        (plain (branchTokens d) (s.step (fun _ _ ↦ false) (.opening k))).step
          (fun _ _ ↦ false) .closing := by
      rw [tokens, List.cons_append, plain, OperandScan.run, List.foldl_cons, List.foldl_append]
      rfl
    have ht : (group k d).text = k.opening ++ (branchTokens d).flatMap Token.text ++ [')'] := by
      simp [text, tokens, Token.text]
    rw [hscan, ht]
    generalize plain (branchTokens d) (s.step (fun _ _ ↦ false) (.opening k)) = s' at hbody ⊢
    obtain ⟨hlevel, houter, hfound⟩ := hbody
    simp only [OperandScan.step, Token.text] at hlevel houter
    refine ⟨⟨?_, ?_, hfound⟩, fun _ ↦ ?_⟩
    · rw [OperandScan.step, hlevel, houter]
      rfl
    · rw [OperandScan.step, houter]
      rfl
    · rw [OperandScan.step, hlevel]
      rfl
  | repeated q n ih =>
    intro hw s
    obtain ⟨-, hr, hn⟩ := hw
    obtain ⟨hpassed, hlast⟩ := ih hn s
    refine ⟨?_, fun h ↦ absurd h Bool.false_ne_true⟩
    rw [tokens, plain_append, text_repeated]
    refine hpassed.trans ⟨rfl, rfl, ?_⟩
    rw [← hlast hr]
    rfl

end Node

/-- With every escape on its own, the quantifiers in the text of a disjunction apply to what is
repeated in it. -/
theorem Disjunction.operands_tokens [Property.Engine] {d : Disjunction} (h : d.IsWellFormed) :
    Token.operands (Node.branchTokens d) = Node.branchOperands d :=
  (Node.passed_branchTokens (fun _ _ n _ ↦ n.scans) h.2 {}).found

end PatternBuilder

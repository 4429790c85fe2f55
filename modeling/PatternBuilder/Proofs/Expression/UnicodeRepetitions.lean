import PatternBuilder.Proofs.Element.Operands
import PatternBuilder.Proofs.Expression.Compile

namespace PatternBuilder

namespace Expression

variable {e : Expression} {p : Pattern}

theorem all_source [Property.Engine] (h : e.Reachable) (hp : e.compile = .ok p) :
    Token.all p.source.toList =
      .ok (Node.branchTokens (Element.toDisjunction e.level.elements)) := by
  rw [(read_source h hp).1,
    Disjunction.all_text (Element.isWellFormed_toDisjunction h.isWellFormed.level.elements)]

/-- In unicode mode each quantifier of the source applies to the text of the element that it is
bound to, or to that and a unit in front of it which makes a pair with it. They all apply to just
these texts if and only if no pair of units stands in front of a quantifier. -/
theorem quantifiers_keep_operands_iff [Property.Engine] (h : e.Reachable) (hp : e.compile = .ok p) :
    ∃ ts, Token.all p.source.toList = .ok ts ∧ ts.flatMap Token.text = p.source.toList ∧
      List.Forall₂ Token.OrLed (Token.pairedOperands ts)
        (Element.operandsAll e.level.elements) ∧
      (Token.pairedOperands ts = Element.operandsAll e.level.elements ↔
        ∀ t u q, [t, u, .repetition q] <:+: ts → Token.isPair t u = false) := by
  refine ⟨_, all_source h hp, (read_source h hp).1.symm, ?_⟩
  rw [← Element.operands_toDisjunction h.isWellFormed.level.elements]
  exact ⟨Token.forall₂_orLed _, Token.pairedOperands_eq_iff _⟩

/-- The group around the second of two units keeps the first away from its quantifier. -/
theorem quantifiers_keep_operands_of_group :
    ∃ _ : Property.Engine, ∃ e p,
      empty.run [.setFlag .unicode, .literal (.code .unit "D83D"),
        .quantify (.zeroOrMore false), .openComposite .group, .literal (.code .unit "DE00"),
        .close] = .ok e ∧
      e.compile = .ok p ∧ p.source = "\\uD83D(?:\\uDE00)*" ∧
      ∃ ts, Token.all p.source.toList = .ok ts ∧
        Token.pairedOperands ts = [(.zeroOrMore false, "(?:\\uDE00)".toList)] := by
  let engine : Property.Engine := default
  let e : Expression := {
    level := { elements := [.code .unit "D83D", .quantified (.zeroOrMore false)
      (.composite .group [.code .unit "DE00"])] }
    flags := { unicode := true } }
  have hr : empty.run [.setFlag .unicode, .literal (.code .unit "D83D"),
      .quantify (.zeroOrMore false), .openComposite .group, .literal (.code .unit "DE00"),
      .close] = .ok e := rfl
  have h := Reachable.empty.run _ (by simp [Call.spliced?]) hr
  have hp : e.compile = .ok ⟨"\\uD83D(?:\\uDE00)*", { unicode := true }⟩ := rfl
  obtain ⟨ts, hall, -, -, hkeep⟩ := quantifiers_keep_operands_iff h hp
  refine ⟨engine, e, _, hr, hp, rfl, ts, hall, (hkeep.mpr fun t u q htuq ↦ ?_).trans rfl⟩
  rw [all_source h hp] at hall
  cases hall
  -- only the closing parenthesis stands in front of the quantifier
  change [t, u, .repetition q] <:+: [.leaf (.code .unit "D83D".toList), .opening .plain,
    .leaf (.code .unit "DE00".toList), .closing, .repetition (.zeroOrMore false)] at htuq
  obtain ⟨rfl, rfl, -⟩ : t = .leaf (.code .unit ['D', 'E', '0', '0']) ∧ u = .closing ∧
      q = .zeroOrMore false := by
    simpa [List.infix_cons_iff, List.cons_prefix_cons] using htuq
  rfl

/-- The quantifier is bound to the second of two units, and applies to the character that both
stand for. -/
theorem quantifier_takes_lead_along :
    ∃ calls : List Call, calls = [.setFlag .unicode, .literal (.code .unit "D83D"),
        .quantify (.zeroOrMore false), .literal (.code .unit "DE00")] ∧
      ∀ _ : Property.Engine, ∃ e p ts, empty.run calls = .ok e ∧
        e.compile = .ok p ∧ p.flags.unicode = true ∧ p.source = "\\uD83D\\uDE00*" ∧
        Element.operandsAll e.level.elements = [(.zeroOrMore false, "\\uDE00".toList)] ∧
        Token.all p.source.toList = .ok ts ∧
        Token.pairedOperands ts = [(.zeroOrMore false, "\\uD83D\\uDE00".toList)] ∧
        Disjunction.readJoined p.source.toList =
          .ok [[.repeated (.zeroOrMore false) (.char (Char.ofNat 0x1F600))]] := by
  refine ⟨_, rfl, fun _ ↦ ?_⟩
  let e : Expression := {
    level := { elements := [.code .unit "D83D",
      .quantified (.zeroOrMore false) (.code .unit "DE00")] }
    flags := { unicode := true } }
  have hr : empty.run [.setFlag .unicode, .literal (.code .unit "D83D"),
      .quantify (.zeroOrMore false), .literal (.code .unit "DE00")] = .ok e := rfl
  have h := Reachable.empty.run _ (by simp [Call.spliced?]) hr
  have hp : e.compile = .ok ⟨"\\uD83D\\uDE00*", { unicode := true }⟩ := rfl
  have hall : Token.all "\\uD83D\\uDE00*".toList =
      .ok [.leaf (.code .unit ['D', '8', '3', 'D']), .leaf (.code .unit ['D', 'E', '0', '0']),
        .repetition (.zeroOrMore false)] := all_source h hp
  have hpair : Token.pair? (.leaf (.code .unit ['D', '8', '3', 'D']))
      (.leaf (.code .unit ['D', 'E', '0', '0'])) = some (Char.ofNat 0x1F600) := by
    simp [Token.pair?, hexValue, hexDigitValue]
  refine ⟨e, _, _, hr, hp, rfl, rfl, rfl, hall, ?_, ?_⟩
  · simp [Token.pairedOperands, OperandScan.run, OperandScan.step, Token.isPair, hpair, Token.text,
      Node.leafText, CodeForm.text]
  · simp only [Disjunction.readJoined, hall, bind, Except.bind, Token.joinPairs, hpair]
    rfl

end Expression

end PatternBuilder

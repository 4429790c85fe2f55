import PatternBuilder.Element.Source
import PatternBuilder.Grammar.Reading

namespace PatternBuilder

theorem flatMap_of_append {α : Type} {P : List Char → Prop} {f : α → List Char} {xs : List α}
    (hnil : P []) (happend : ∀ {t u}, P t → P u → P (t ++ u)) (h : ∀ x ∈ xs, P (f x)) :
    P (xs.flatMap f) := by
  induction xs with
  | nil => exact hnil
  | cons x xs ih =>
    exact happend (h x List.mem_cons_self) (ih fun y hy ↦ h y (List.mem_cons_of_mem x hy))

def ClassItem.text : ClassItem → List Char
  | char c => Place.bracket.escapeChar c
  | range a b => rangeBody a b
  | atom .backspace => ['\\', 'b']
  | atom a => a.text

def GroupKind.opening : GroupKind → List Char
  | plain => ['(', '?', ':']
  | capture => ['(']
  | named name => '(' :: '?' :: '<' :: name.toList ++ ['>']
  | look l => l.opening

def Node.leafText : Node → List Char
  | char c => Place.literal.escapeChar c
  | atom a => a.text
  | boundary b => b.text
  | anchor a => a.text
  | control c => ['\\', 'c', c]
  | code form digits => form.text digits
  | property false name => '\\' :: 'p' :: '{' :: name.toList ++ ['}']
  | property true name => '\\' :: 'P' :: '{' :: name.toList ++ ['}']
  | number v => '\\' :: Quantifier.decimal v
  | namedReference name => '\\' :: 'k' :: '<' :: name.toList ++ ['>']
  | set negated items => classText negated (items.flatMap ClassItem.text)
  | group _ _ | repeated _ _ => []

def Token.text : Token → List Char
  | leaf n => n.leafText
  | opening k => k.opening
  | closing => [')']
  | bar => ['|']
  | repetition q => q.suffix

namespace Node

def isLeaf : Node → Bool
  | group _ _ | repeated _ _ => false
  | _ => true

@[elab_as_elim]
theorem induction {P : Node → Prop} (leaf : ∀ n, n.isLeaf = true → P n)
    (group : ∀ k d, (∀ ns ∈ d, ∀ n ∈ ns, P n) → P (group k d))
    (repeated : ∀ q n, P n → P (repeated q n)) (n : Node) : P n := by
  refine @Node.rec P (fun d ↦ ∀ ns ∈ d, ∀ n ∈ ns, P n) (fun ns ↦ ∀ n ∈ ns, P n) ?_ ?_ ?_ ?_ ?_ ?_
    ?_ ?_ ?_ ?_ group repeated (by simp) ?_ (by simp) ?_ n
  case refine_11 => intro ns d hns hd; simpa using ⟨hns, hd⟩
  case refine_12 => intro n ns hn hns; simpa using ⟨hn, hns⟩
  all_goals intros; exact leaf _ rfl

mutual

def tokens : Node → List Token
  | group k d => .opening k :: branchTokens d ++ [.closing]
  | repeated q n => tokens n ++ [.repetition q]
  | n => [.leaf n]

def tokensAll : List Node → List Token
  | [] => []
  | n :: ns => tokens n ++ tokensAll ns

def branchTokens : List (List Node) → List Token
  | [] => []
  | [ns] => tokensAll ns
  | ns :: d => tokensAll ns ++ .bar :: branchTokens d

end

theorem tokens_leaf {n : Node} (h : n.isLeaf = true) : n.tokens = [.leaf n] := by
  cases n <;> first | rfl | cases h

def text (n : Node) : List Char := n.tokens.flatMap Token.text

def textAll (ns : List Node) : List Char := (tokensAll ns).flatMap Token.text

theorem textAll_nil : textAll [] = [] := rfl

theorem textAll_cons (n : Node) (ns : List Node) : textAll (n :: ns) = n.text ++ textAll ns := by
  simp [textAll, tokensAll, text]

theorem textAll_append (ns ms : List Node) : textAll (ns ++ ms) = textAll ns ++ textAll ms := by
  induction ns with
  | nil => rfl
  | cons n ns ih => rw [List.cons_append, textAll_cons, ih, textAll_cons, List.append_assoc]

theorem textAll_flatten (nss : List (List Node)) :
    textAll nss.flatten = nss.flatMap textAll := by
  induction nss with
  | nil => rfl
  | cons ns nss ih => rw [List.flatten_cons, textAll_append, ih, List.flatMap_cons]

theorem branchTokens_cons_cons (ns ms : List Node) (d : List (List Node)) :
    branchTokens (ns :: ms :: d) = tokensAll ns ++ .bar :: branchTokens (ms :: d) := rfl

theorem flatMap_text_branchTokens (d : List (List Node)) :
    (branchTokens d).flatMap Token.text = alternation (d.map textAll) := by
  induction d with
  | nil => rfl
  | cons ns d ih =>
    cases d with
    | nil => rfl
    | cons ms d =>
      rw [branchTokens_cons_cons, List.flatMap_append, List.flatMap_cons, ih]
      rfl

theorem text_group (k : GroupKind) (d : List (List Node)) :
    (group k d).text = k.opening ++ alternation (d.map textAll) ++ [')'] := by
  simp [text, tokens, Token.text, ← flatMap_text_branchTokens]

theorem text_leaf {n : Node} (h : n.isLeaf = true) : n.text = n.leafText := by
  simp [text, tokens_leaf h, Token.text]

theorem text_set (negated : Bool) (items : List ClassItem) :
    (set negated items).text = classText negated (items.flatMap ClassItem.text) := text_leaf rfl

theorem text_repeated (q : Quantifier) (n : Node) : (repeated q n).text = n.text ++ q.suffix := by
  simp [text, tokens, Token.text]

theorem textAll_singleton (n : Node) : textAll [n] = n.text := by
  simp [textAll, tokensAll, text]

theorem textAll_leaf {n : Node} (h : n.isLeaf = true) : textAll [n] = n.leafText := by
  rw [textAll_singleton, text_leaf h]

def isNumber : Node → Bool
  | number _ => true
  | _ => false

def startsWithDigit : Node → Bool
  | char c => c.isDigit
  | repeated _ n => n.startsWithDigit
  | _ => false

def beginsWithDigit : List Node → Bool
  | [] => false
  | n :: _ => n.startsWithDigit

end Node

def Disjunction.text (d : Disjunction) : List Char := (Node.branchTokens d).flatMap Token.text

def ClassItem.IsWellFormed : ClassItem → Prop
  | char _ => True
  | range a b => a ≤ b
  | atom a => a ∈ [.backspace, .whitespace, .nonWhitespace, .digit, .nonDigit, .word, .nonWord]

def Quantifier.IsWellFormed : Quantifier → Prop
  | between x y _ => x ≤ y
  | _ => True

def GroupKind.IsWellFormed : GroupKind → Prop
  | named name => isGroupName name = true
  | _ => True

def CodeForm.IsWellFormed : CodeForm → List Char → Prop
  | byte, ds => ds.length = 2 ∧ ds.all isHexDigit = true
  | unit, ds => ds.length = 4 ∧ ds.all isHexDigit = true
  | point, ds => ds ≠ [] ∧ ds.all isHexDigit = true ∧ hexValue ds ≤ 0x10FFFF

namespace Node

mutual

variable [Property.Engine]

/-- The nodes that stand for a text: the arguments of escapes have the right form, only what may
be repeated is, and no number runs on into a digit. -/
def IsWellFormed : Node → Prop
  | char _ | boundary _ | anchor _ | number _ => True
  | atom a => a ≠ .backspace ∧ a ≠ .nullByte
  | control c => c.isAlpha = true
  | code form ds => form.IsWellFormed ds
  | property _ name => Property.isAccepted name = true
  | namedReference name => isGroupName name = true
  | set _ items => ∀ i ∈ items, i.IsWellFormed
  | group k d => k.IsWellFormed ∧ d ≠ [] ∧ AreWellFormedBranches d
  | repeated q n => q.IsWellFormed ∧ n.isRepeatable = true ∧ IsWellFormed n

def AreWellFormed : List Node → Prop
  | [] => True
  | n :: ns => IsWellFormed n ∧ (n.isNumber = true → beginsWithDigit ns = false) ∧ AreWellFormed ns

def AreWellFormedBranches : List (List Node) → Prop
  | [] => True
  | ns :: d => AreWellFormed ns ∧ AreWellFormedBranches d

end

end Node

def Disjunction.IsWellFormed [Property.Engine] (d : Disjunction) : Prop :=
  d ≠ [] ∧ Node.AreWellFormedBranches d

end PatternBuilder

import PatternBuilder.Grammar.Node
import PatternBuilder.GroupName
import PatternBuilder.Property.Basic
import PatternBuilder.Text.Escape

namespace PatternBuilder

inductive Token where
  | leaf (n : Node)
  | opening (k : GroupKind)
  | closing
  | bar
  | repetition (q : Quantifier)

namespace Token

variable [Property.Engine]

def numberValue (digits : List Char) : Nat := Nat.ofDigitChars 10 digits 0

def upTo? (mark : Char) (cs : List Char) : Option (List Char × List Char) :=
  match cs.dropWhile (· != mark) with
  | [] => none
  | _ :: rest => some (cs.takeWhile (· != mark), rest)

def hexDigits? (n : Nat) (cs : List Char) : Option (List Char × List Char) :=
  if (cs.take n).length = n ∧ (cs.take n).all isHexDigit then some (cs.take n, cs.drop n) else none

def readCode (form : CodeForm) (n : Nat) (cs : List Char) : Except ReadError (Token × List Char) :=
  match hexDigits? n cs with
  | some (digits, rest) => .ok (leaf (.code form digits), rest)
  | none => .error .invalidEscape

def readPoint (cs : List Char) : Except ReadError (Token × List Char) :=
  match upTo? '}' cs with
  | some (digits, rest) =>
    if !digits.isEmpty && digits.all isHexDigit && hexValue digits ≤ 0x10FFFF then
      .ok (leaf (.code .point digits), rest)
    else .error .invalidEscape
  | none => .error .invalidEscape

def readProperty (negated : Bool) : List Char → Except ReadError (Token × List Char)
  | '{' :: cs =>
    match upTo? '}' cs with
    | some (name, rest) =>
      if Property.isAccepted (String.ofList name) then
        .ok (leaf (.property negated (String.ofList name)), rest)
      else .error .invalidPropertyName
    | none => .error .invalidPropertyName
  | _ => .error .invalidPropertyName

def readName (make : String → Token) (cs : List Char) : Except ReadError (Token × List Char) :=
  match upTo? '>' cs with
  | some (name, rest) =>
    if isGroupNameList name then .ok (make (String.ofList name), rest) else .error .invalidGroupName
  | none => .error .invalidGroupName

/-- What follows a backslash outside a class. A number takes as many digits as there are. -/
def readEscape : List Char → Except ReadError (Token × List Char)
  | [] => .error .incompleteEscape
  | 's' :: cs => .ok (leaf (.atom .whitespace), cs)
  | 'S' :: cs => .ok (leaf (.atom .nonWhitespace), cs)
  | 'd' :: cs => .ok (leaf (.atom .digit), cs)
  | 'D' :: cs => .ok (leaf (.atom .nonDigit), cs)
  | 'w' :: cs => .ok (leaf (.atom .word), cs)
  | 'W' :: cs => .ok (leaf (.atom .nonWord), cs)
  | 'n' :: cs => .ok (leaf (.atom .newline), cs)
  | 'r' :: cs => .ok (leaf (.atom .carriageReturn), cs)
  | 't' :: cs => .ok (leaf (.atom .tab), cs)
  | 'v' :: cs => .ok (leaf (.atom .verticalTab), cs)
  | 'f' :: cs => .ok (leaf (.atom .formFeed), cs)
  | 'b' :: cs => .ok (leaf (.boundary .edge), cs)
  | 'B' :: cs => .ok (leaf (.boundary .noEdge), cs)
  | 'c' :: c :: cs => if c.isAlpha then .ok (leaf (.control c), cs) else .error .invalidEscape
  | 'x' :: cs => readCode .byte 2 cs
  | 'u' :: '{' :: cs => readPoint cs
  | 'u' :: cs => readCode .unit 4 cs
  | 'p' :: cs => readProperty false cs
  | 'P' :: cs => readProperty true cs
  | 'k' :: '<' :: cs => readName (fun name ↦ leaf (.namedReference name)) cs
  | c :: cs =>
    if c.isDigit then
      .ok (leaf (.number (numberValue (c :: cs.takeWhile Char.isDigit))), cs.dropWhile Char.isDigit)
    else if Place.literal.isSpecial c then .ok (leaf (.char c), cs)
    else .error .invalidEscape

/-- What stands between the brackets of a class before ranges are formed: a member, or a hyphen
without a backslash. -/
inductive ClassMark where
  | item (i : ClassItem)
  | hyphen

def readClassEscape : Char → Except ReadError ClassItem
  | 'b' => .ok (.atom .backspace)
  | 's' => .ok (.atom .whitespace)
  | 'S' => .ok (.atom .nonWhitespace)
  | 'd' => .ok (.atom .digit)
  | 'D' => .ok (.atom .nonDigit)
  | 'w' => .ok (.atom .word)
  | 'W' => .ok (.atom .nonWord)
  | c => if Place.bracket.isSpecial c then .ok (.char c) else .error .invalidEscape

def readMarks : List Char → Except ReadError (List ClassMark × List Char)
  | [] => .error .unbalancedBracket
  | ']' :: cs => .ok ([], cs)
  | ['\\'] => .error .incompleteEscape
  | '\\' :: c :: cs =>
    match readClassEscape c with
    | .error e => .error e
    | .ok item => (readMarks cs).map fun (marks, rest) ↦ (.item item :: marks, rest)
  | '-' :: cs => (readMarks cs).map fun (marks, rest) ↦ (.hyphen :: marks, rest)
  | c :: cs => (readMarks cs).map fun (marks, rest) ↦ (.item (.char c) :: marks, rest)

/-- A hyphen between two characters makes a range of them; any other hyphen is a member. -/
def formRanges : List ClassMark → Except ReadError (List ClassItem)
  | [] => .ok []
  | .item (.char a) :: .hyphen :: .item (.char b) :: marks =>
    if b < a then .error .reversedRange else (formRanges marks).map (.range a b :: ·)
  | .item i :: marks => (formRanges marks).map (i :: ·)
  | .hyphen :: marks => (formRanges marks).map (.char '-' :: ·)

def readClass (negated : Bool) (cs : List Char) : Except ReadError (Token × List Char) :=
  match readMarks cs with
  | .error e => .error e
  | .ok (marks, rest) => (formRanges marks).map fun items ↦ (leaf (.set negated items), rest)

def readOpening : List Char → Except ReadError (Token × List Char)
  | '?' :: ':' :: cs => .ok (opening .plain, cs)
  | '?' :: '=' :: cs => .ok (opening (.look .ahead), cs)
  | '?' :: '!' :: cs => .ok (opening (.look .notAhead), cs)
  | '?' :: '<' :: '=' :: cs => .ok (opening (.look .behind), cs)
  | '?' :: '<' :: '!' :: cs => .ok (opening (.look .notBehind), cs)
  | '?' :: '<' :: cs => readName (fun name ↦ opening (.named name)) cs
  | '?' :: _ => .error .invalidGroup
  | cs => .ok (opening .capture, cs)

def readLazy (make : Bool → Quantifier) : List Char → Token × List Char
  | '?' :: cs => (repetition (make true), cs)
  | cs => (repetition (make false), cs)

def readCounts (cs : List Char) : Except ReadError (Token × List Char) :=
  let first := cs.takeWhile Char.isDigit
  if first.isEmpty then .error .invalidAtom
  else
    match cs.dropWhile Char.isDigit with
    | '}' :: rest => .ok (repetition (.exactly (numberValue first)), rest)
    | ',' :: '}' :: rest => .ok (readLazy (.atLeast (numberValue first)) rest)
    | ',' :: rest =>
      let second := rest.takeWhile Char.isDigit
      match rest.dropWhile Char.isDigit with
      | '}' :: rest =>
        if second.isEmpty then .error .invalidAtom
        else if numberValue second < numberValue first then .error .invalidQuantifier
        else .ok (readLazy (.between (numberValue first) (numberValue second)) rest)
      | _ => .error .invalidAtom
    | _ => .error .invalidAtom

def read (c : Char) (cs : List Char) : Except ReadError (Token × List Char) :=
  match c with
  | '\\' => readEscape cs
  | '.' => .ok (leaf (.atom .anyChar), cs)
  | '^' => .ok (leaf (.anchor .start), cs)
  | '$' => .ok (leaf (.anchor .finish), cs)
  | '|' => .ok (bar, cs)
  | '(' => readOpening cs
  | ')' => .ok (closing, cs)
  | '[' =>
    match cs with
    | '^' :: cs => readClass true cs
    | cs => readClass false cs
  | '?' => .ok (repetition .optional, cs)
  | '*' => .ok (readLazy .zeroOrMore cs)
  | '+' => .ok (readLazy .oneOrMore cs)
  | '{' => readCounts cs
  | ']' | '}' => .error .invalidAtom
  | c => .ok (leaf (.char c), cs)

end Token

end PatternBuilder

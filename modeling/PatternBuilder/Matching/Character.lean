import PatternBuilder.Code
import PatternBuilder.Element.Basic
import PatternBuilder.Grammar.Node

namespace PatternBuilder

structure Mode where
  ignoreCase : Bool
  multiline : Bool
  dotAll : Bool
  unicode : Bool

def isLineEnd (c : Char) : Bool :=
  c == '\n' || c == '\r' || c == '\u2028' || c == '\u2029'

def isBlank (c : Char) : Bool :=
  isLineEnd c || c == ' ' || c == '\t' || c == '\x0b' || c == '\x0c' || c == '\u00a0' ||
    c == '\u1680' || ('\u2000' ≤ c && c ≤ '\u200a') || c == '\u202f' || c == '\u205f' ||
    c == '\u3000' || c == '\ufeff'

namespace Mode

/-- The characters that differ from the given one in case only, itself included. In unicode mode
the long s and the Kelvin sign belong to their letters; otherwise only ASCII letters have two
cases here. -/
def variants (m : Mode) (c : Char) : List Char :=
  if !m.ignoreCase then [c]
  else if c == 's' || c == 'S' || (m.unicode && c == '\u017f') then
    ['s', 'S'] ++ if m.unicode then ['\u017f'] else []
  else if c == 'k' || c == 'K' || (m.unicode && c == '\u212a') then
    ['k', 'K'] ++ if m.unicode then ['\u212a'] else []
  else [c.toLower, c.toUpper]

def same (m : Mode) (c d : Char) : Bool := (m.variants c).contains d

def isWord (m : Mode) (c : Char) : Bool :=
  c.isAlphanum || c == '_' ||
    (m.ignoreCase && m.unicode && (c == '\u017f' || c == '\u212a'))

def atomMatches (m : Mode) (c : Char) : Atom → Bool
  | .anyChar => m.dotAll || !isLineEnd c
  | .whitespace => isBlank c
  | .nonWhitespace => !isBlank c
  | .digit => c.isDigit
  | .nonDigit => !c.isDigit
  | .word => m.isWord c
  | .nonWord => !m.isWord c
  | .newline => c == '\n'
  | .carriageReturn => c == '\r'
  | .tab => c == '\t'
  | .verticalTab => c == '\x0b'
  | .formFeed => c == '\x0c'
  | .backspace => c == '\x08'
  | .nullByte => c == '\x00'

def itemMatches (m : Mode) (c : Char) : ClassItem → Bool
  | .char d => m.same c d
  | .range a b => (m.variants c).any fun v ↦ a ≤ v && v ≤ b
  | .atom a => m.atomMatches c a

def setMatches (m : Mode) (negated : Bool) (items : List ClassItem) (c : Char) : Bool :=
  items.any (m.itemMatches c) != negated

def codeMatches (m : Mode) (code : Nat) (c : Char) : Bool :=
  (m.variants c).any fun v ↦ v.toNat == code

end Mode

end PatternBuilder

namespace PatternBuilder

def isHexDigit (c : Char) : Bool :=
  c.isDigit || ('a' ≤ c && c ≤ 'f') || ('A' ≤ c && c ≤ 'F')

def hexDigitValue (c : Char) : Nat :=
  if c.isDigit then c.toNat - '0'.toNat
  else if 'a' ≤ c then c.toNat - 'a'.toNat + 10
  else c.toNat - 'A'.toNat + 10

def hexValue (cs : List Char) : Nat :=
  cs.foldl (fun n c ↦ 16 * n + hexDigitValue c) 0

def isHexOfLength (s : String) (lengths : List Nat) : Bool :=
  lengths.contains s.utf8ByteSize && s.toList.all isHexDigit

inductive CodeForm where
  | byte
  | unit
  | point
  deriving DecidableEq

namespace CodeForm

def lengths : CodeForm → List Nat
  | byte => [2]
  | unit => [4]
  | point => [4, 5]

def text (f : CodeForm) (digits : List Char) : List Char :=
  match f with
  | byte => '\\' :: 'x' :: digits
  | unit => '\\' :: 'u' :: digits
  | point => '\\' :: 'u' :: '{' :: digits ++ ['}']

end CodeForm

def isAstral (c : Char) : Bool := 0xFFFF < c.toNat

end PatternBuilder

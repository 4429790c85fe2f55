import PatternBuilder.Text.Unprintable

namespace PatternBuilder

def codeEscape (c : Char) : List Char :=
  ['\\', 'u', '{'] ++ Nat.toDigits 16 c.toNat ++ ['}']

def quoteChar (mark c : Char) : List Char :=
  if c = '\x00' then ['\\', '0']
  else if c = '\t' then ['\\', 't']
  else if c = '\n' then ['\\', 'n']
  else if c = '\r' then ['\\', 'r']
  else if c = '\\' then ['\\', '\\']
  else if c = mark then ['\\', mark]
  else if isUnprintable c then codeEscape c
  else [c]

def quoteWith (mark : Char) (cs : List Char) : List Char :=
  mark :: cs.flatMap (quoteChar mark) ++ [mark]

def quoted (s : String) : String := String.ofList (quoteWith '"' s.toList)

def quotedChar (c : Char) : String := String.ofList (quoteWith '\'' [c])

end PatternBuilder

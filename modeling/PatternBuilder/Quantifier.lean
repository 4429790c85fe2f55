namespace PatternBuilder

inductive Quantifier where
  | optional
  | zeroOrMore (lazy : Bool)
  | oneOrMore (lazy : Bool)
  | exactly (count : Nat)
  | atLeast (least : Nat) (lazy : Bool)
  | between (least most : Nat) (lazy : Bool)
  deriving DecidableEq

namespace Quantifier

def name : Quantifier → String
  | optional => "optional"
  | zeroOrMore false => "zero_or_more"
  | zeroOrMore true => "zero_or_more_lazy"
  | oneOrMore false => "one_or_more"
  | oneOrMore true => "one_or_more_lazy"
  | exactly _ => "exactly"
  | atLeast _ false => "at_least"
  | atLeast _ true => "at_least_lazy"
  | between _ _ false => "between"
  | between _ _ true => "between_lazy"

def lazyMark : Bool → List Char
  | false => []
  | true => ['?']

def decimal (n : Nat) : List Char := Nat.toDigits 10 n

def suffix : Quantifier → List Char
  | optional => ['?']
  | zeroOrMore lazy => '*' :: lazyMark lazy
  | oneOrMore lazy => '+' :: lazyMark lazy
  | exactly n => '{' :: decimal n ++ ['}']
  | atLeast n lazy => '{' :: decimal n ++ [',', '}'] ++ lazyMark lazy
  | between x y lazy => '{' :: decimal x ++ ',' :: decimal y ++ '}' :: lazyMark lazy

def least : Quantifier → Nat
  | optional | zeroOrMore _ => 0
  | oneOrMore _ => 1
  | exactly n | atLeast n _ | between n _ _ => n

def most? : Quantifier → Option Nat
  | optional => some 1
  | zeroOrMore _ | oneOrMore _ | atLeast _ _ => none
  | exactly n | between _ n _ => some n

def isLazy : Quantifier → Bool
  | optional | exactly _ => false
  | zeroOrMore lazy | oneOrMore lazy | atLeast _ lazy | between _ _ lazy => lazy

end Quantifier

end PatternBuilder

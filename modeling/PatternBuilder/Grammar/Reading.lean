import PatternBuilder.Grammar.Tokens

namespace PatternBuilder

/-- The alternatives read so far on one level; the last of them is still growing, and its nodes
are kept in reverse. -/
structure Branches where
  finished : List (List Node) := []
  growing : List Node := []

namespace Branches

def push (b : Branches) (n : Node) : Branches := { b with growing := n :: b.growing }

def split (b : Branches) : Branches := ⟨b.finished ++ [b.growing.reverse], []⟩

def repeatLast (b : Branches) (q : Quantifier) : Except ReadError Branches :=
  match b.growing with
  | [] => .error .invalidAtom
  | n :: ns =>
    if n.isRepeatable then .ok { b with growing := .repeated q n :: ns } else .error .invalidAtom

def toDisjunction (b : Branches) : Disjunction := b.finished ++ [b.growing.reverse]

end Branches

/-- The level being read, and the levels around it, the nearest first, each with the kind of the
group that interrupts it. -/
structure Reader where
  level : Branches := {}
  outer : List (GroupKind × Branches) := []

namespace Reader

def step (r : Reader) : Token → Except ReadError Reader
  | .leaf n => .ok { r with level := r.level.push n }
  | .bar => .ok { r with level := r.level.split }
  | .repetition q => (r.level.repeatLast q).map fun b ↦ { r with level := b }
  | .opening k => .ok ⟨{}, (k, r.level) :: r.outer⟩
  | .closing =>
    match r.outer with
    | [] => .error .unbalancedParenthesis
    | (k, b) :: outer => .ok ⟨b.push (.group k r.level.toDisjunction), outer⟩

def finish (r : Reader) : Except ReadError Disjunction :=
  match r.outer with
  | [] => .ok r.level.toDisjunction
  | _ :: _ => .error .unbalancedParenthesis

end Reader

namespace Disjunction

variable [Property.Engine]

def ofTokens (ts : List Token) : Except ReadError Disjunction := do
  let r ← ts.foldlM Reader.step {}
  r.finish

def read (source : List Char) : Except ReadError Disjunction := do
  let ts ← Token.all source
  ofTokens ts

/-- Reads a pattern as it is matched: pairs of units are single characters, and no two groups
share a name. -/
def readJoined (source : List Char) : Except ReadError Disjunction := do
  let ts ← Token.all source
  let d ← ofTokens (Token.joinPairs ts)
  if (Token.groupNames ts).Nodup then .ok d else .error .duplicateGroupName

end Disjunction

end PatternBuilder

import PatternBuilder.Grammar.Node
import PatternBuilder.Matching.Character
import PatternBuilder.Property.Basic

namespace PatternBuilder

structure Span where
  first : Nat
  last : Nat
  deriving DecidableEq

structure Subject where
  text : Array Char
  mode : Mode
  names : List (String × Nat)

structure Progress where
  position : Nat
  groups : List (Option Span)

/-- A matcher goes on from a progress to whatever is to follow. -/
abbrev Matcher := Progress → (Progress → Option Progress) → Option Progress

namespace Subject

def next? (s : Subject) (backward : Bool) (position : Nat) : Option (Char × Nat) :=
  if backward then
    if position = 0 then none else s.text[position - 1]?.map fun c ↦ (c, position - 1)
  else s.text[position]?.map fun c ↦ (c, position + 1)

def isWordAt (s : Subject) (position : Nat) : Bool :=
  s.text[position]?.any s.mode.isWord

def isEdge (s : Subject) (position : Nat) : Bool :=
  (0 < position && s.isWordAt (position - 1)) != s.isWordAt position

def anchorHolds (s : Subject) (position : Nat) : Anchor → Bool
  | .start => position = 0 || (s.mode.multiline && s.text[position - 1]?.any isLineEnd)
  | .finish => position = s.text.size || (s.mode.multiline && s.text[position]?.any isLineEnd)

end Subject

namespace Matcher

def test (holds : Nat → Bool) : Matcher := fun p k ↦
  if holds p.position then k p else none

def one (s : Subject) (backward : Bool) (accepts : Char → Bool) : Matcher := fun p k ↦
  match s.next? backward p.position with
  | some (c, position) => if accepts c then k { p with position } else none
  | none => none

def chain (backward : Bool) (m n : Matcher) : Matcher := fun p k ↦
  if backward then n p fun q ↦ m q k else m p fun q ↦ n q k

def choice (m n : Matcher) : Matcher := fun p k ↦
  (m p k).orElse fun _ ↦ n p k

def capture (index : Nat) (m : Matcher) : Matcher := fun p k ↦
  m p fun q ↦
    let span := ⟨min p.position q.position, max p.position q.position⟩
    k { q with groups := q.groups.set index (some span) }

def look (m : Matcher) : Matcher := fun p k ↦
  (m p some).bind fun q ↦ k { q with position := p.position }

def lookNot (m : Matcher) : Matcher := fun p k ↦
  match m p some with
  | some _ => none
  | none => k p

/-- Takes the text of a span again; a group without a capture takes nothing. -/
def again (s : Subject) (backward : Bool) (index : Nat) : Matcher := fun p k ↦
  match p.groups[index]? with
  | some (some span) =>
    let length := span.last - span.first
    if backward then
      if length ≤ p.position && agrees span.first (p.position - length) length then
        k { p with position := p.position - length }
      else none
    else if p.position + length ≤ s.text.size && agrees span.first p.position length then
      k { p with position := p.position + length }
    else none
  | _ => k p
where
  agrees (first second length : Nat) : Bool :=
    (List.range length).all fun i ↦
      match s.text[first + i]?, s.text[second + i]? with
      | some c, some d => s.mode.same c d
      | _, _ => false

def forget (first count : Nat) (p : Progress) : Progress :=
  { p with groups := p.groups.mapIdx fun i span ↦
      if first ≤ i && i < first + count then none else span }

/-- Repeats a matcher. Beyond the required repetitions each has to take some text, so a number
of rounds that covers both is enough. -/
def rounds (body : Matcher) (clear : Progress → Progress) (lazy : Bool) :
    Nat → Nat → Option Nat → Matcher
  | 0, _, _ => fun _ _ ↦ none
  | fuel + 1, least, most? => fun p k ↦
    if most? = some 0 then k p
    else
      let enter := fun (_ : Unit) ↦ body (clear p) fun q ↦
        if least = 0 && q.position == p.position then none
        else rounds body clear lazy fuel (least - 1) (most?.map (· - 1)) q k
      if 0 < least then enter ()
      else if lazy then (k p).orElse enter
      else (enter ()).orElse fun _ ↦ k p

def repeated (s : Subject) (q : Quantifier) (clear : Progress → Progress) (body : Matcher) :
    Matcher :=
  rounds body clear q.isLazy (q.least + s.text.size + 2) q.least q.most?

end Matcher

namespace Node

mutual

def groupCount : Node → Nat
  | .group .capture d | .group (.named _) d => groupCountAll d + 1
  | .group _ d => groupCountAll d
  | .repeated _ n => groupCount n
  | _ => 0

def groupCountAll : List (List Node) → Nat
  | [] => 0
  | ns :: d => groupCountSequence ns + groupCountAll d

def groupCountSequence : List Node → Nat
  | [] => 0
  | n :: ns => groupCount n + groupCountSequence ns

end

mutual

def groupNames : Node → List (Option String)
  | .group .capture d => none :: groupNamesAll d
  | .group (.named name) d => some name :: groupNamesAll d
  | .group _ d => groupNamesAll d
  | .repeated _ n => groupNames n
  | _ => []

def groupNamesAll : List (List Node) → List (Option String)
  | [] => []
  | ns :: d => groupNamesSequence ns ++ groupNamesAll d

def groupNamesSequence : List Node → List (Option String)
  | [] => []
  | n :: ns => groupNames n ++ groupNamesSequence ns

end

variable [Property.Engine]

mutual

/-- The matcher of a node, given how many groups open before it. -/
def matcher (s : Subject) (backward : Bool) (before : Nat) : Node → Matcher
  | .char c => .one s backward (s.mode.same · c)
  | .atom a => .one s backward (s.mode.atomMatches · a)
  | .boundary .edge => .test s.isEdge
  | .boundary .noEdge => .test fun position ↦ !s.isEdge position
  | .anchor a => .test (s.anchorHolds · a)
  | .control c => .one s backward (s.mode.codeMatches (c.toNat % 32))
  | .code _ digits => .one s backward (s.mode.codeMatches (hexValue digits))
  | .property negated name => .one s backward fun c ↦
      (s.mode.variants c).any fun v ↦ Property.Engine.contains name v != negated
  | .number 0 => .one s backward (· == '\x00')
  | .number (i + 1) => .again s backward i
  | .namedReference name =>
    match s.names.lookup name with
    | some i => .again s backward i
    | none => fun p k ↦ k p
  | .set negated items => .one s backward (s.mode.setMatches negated items)
  | .group .plain d => matcherAll s backward before d
  | .group .capture d | .group (.named _) d =>
    .capture before (matcherAll s backward (before + 1) d)
  | .group (.look .ahead) d => .look (matcherAll s false before d)
  | .group (.look .notAhead) d => .lookNot (matcherAll s false before d)
  | .group (.look .behind) d => .look (matcherAll s true before d)
  | .group (.look .notBehind) d => .lookNot (matcherAll s true before d)
  | .repeated q n =>
    .repeated s q (Matcher.forget before (groupCount n)) (matcher s backward before n)

def matcherAll (s : Subject) (backward : Bool) (before : Nat) : List (List Node) → Matcher
  | [] => fun _ _ ↦ none
  | ns :: d => .choice (matcherSequence s backward before ns)
      (matcherAll s backward (before + groupCountSequence ns) d)

def matcherSequence (s : Subject) (backward : Bool) (before : Nat) : List Node → Matcher
  | [] => fun p k ↦ k p
  | n :: ns => .chain backward (matcher s backward before n)
      (matcherSequence s backward (before + groupCount n) ns)

end

end Node

end PatternBuilder

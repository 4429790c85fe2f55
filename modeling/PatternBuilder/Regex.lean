import PatternBuilder.Grammar.Reading
import PatternBuilder.Matching.Matcher
import PatternBuilder.Pattern

namespace PatternBuilder

structure Regex where
  pattern : Pattern
  body : Disjunction

/-- A place where a pattern was found: spans in bytes, the whole match first and then the capture
groups, with the names of those that have one. -/
structure Match where
  range : Span
  groups : List (Option Span)
  names : List (String × Nat)

def Match.group? (m : Match) (name : String) : Option Span := do
  let i ← m.names.lookup name
  let span ← m.groups[i]?
  span

namespace Regex

variable [Property.Engine]

def ofPattern (p : Pattern) : Except ReadError Regex :=
  (Disjunction.readJoined p.source.toList).map fun d ↦ ⟨p, d⟩

def mode (r : Regex) : Mode where
  ignoreCase := r.pattern.flags.caseInsensitive
  multiline := r.pattern.flags.multiline
  dotAll := r.pattern.flags.dotAll
  unicode := r.pattern.flags.unicode

def names (r : Regex) : List (String × Nat) :=
  (Node.groupNamesAll r.body).zipIdx.filterMap fun (name?, i) ↦ name?.map (·, i)

def subject (r : Regex) (text : String) : Subject where
  text := text.toList.toArray
  mode := r.mode
  names := r.names

def matchAt (r : Regex) (s : Subject) (position : Nat) : Option Progress :=
  Node.matcherAll s false 0 r.body ⟨position, List.replicate (Node.groupCountAll r.body) none⟩ some

def search (r : Regex) (s : Subject) (position : Nat) : Option (Nat × Progress) :=
  (List.range' position (s.text.size + 1 - position)).findSome? fun start ↦
    (r.matchAt s start).map (start, ·)

/-- Successive matches, each behind the one before; after an empty match the search goes on one
character further. -/
def searchAll (r : Regex) (s : Subject) : Nat → Nat → List (Nat × Progress)
  | 0, _ => []
  | rounds + 1, position =>
    match r.search s position with
    | none => []
    | some (start, p) =>
      (start, p) :: searchAll r s rounds (if p.position = start then start + 1 else p.position)

def byteOffsets (text : String) : Array Nat :=
  (text.toList.foldl (fun (offsets, n) c ↦ (offsets.push (n + c.utf8Size), n + c.utf8Size))
    (#[0], 0)).1

def toMatch (r : Regex) (offsets : Array Nat) (found : Nat × Progress) : Match :=
  let bytes := fun (s : Span) ↦ (⟨offsets.getD s.first 0, offsets.getD s.last 0⟩ : Span)
  { range := bytes ⟨found.1, found.2.position⟩
    groups := found.2.groups.map (Option.map bytes)
    names := r.names }

def find? (r : Regex) (text : String) : Option Match :=
  (r.search (r.subject text) 0).map (r.toMatch (byteOffsets text))

def findAll (r : Regex) (text : String) : List Match :=
  let s := r.subject text
  (r.searchAll s (s.text.size + 1) 0).map (r.toMatch (byteOffsets text))

def isMatch (r : Regex) (text : String) : Bool := (r.find? text).isSome

end Regex

end PatternBuilder

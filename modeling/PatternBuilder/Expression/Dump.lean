import PatternBuilder.Expression.Basic

namespace PatternBuilder

/-- A line that stands two spaces further to the right for each step of its depth. -/
structure Line where
  depth : Nat
  label : String

def Line.text (l : Line) : String :=
  String.ofList (List.replicate (2 * l.depth) ' ') ++ l.label ++ "\n"

structure DumpOptions where
  flags : Bool := false
  names : Bool := false
  pending : Bool := false

namespace Element

def detail : Element → Option String
  | char c => some (quotedChar c)
  | string s | anyOfChars s | anythingButChars s | anythingButString s => some (quoted s)
  | range a b | anythingButRange a b => some (quotedChar a ++ "-" ++ quotedChar b)
  | controlChar c => some c.toString
  | code _ s | property _ s | namedBackreference s | composite (.namedCapture s) _ => some s
  | backreference i => some (toString i)
  | quantified q _ => some (String.ofList q.suffix)
  | _ => none

def label (e : Element) : String :=
  match e.detail with
  | some detail => e.kindName ++ " " ++ detail
  | none => e.kindName

end Element

def Composite.openLabel (kind : Composite) : String :=
  match kind with
  | namedCapture name => kind.kindName ++ " " ++ name ++ " (open)"
  | _ => kind.kindName ++ " (open)"

namespace Expression

def levelLines (options : DumpOptions) (depth : Nat) (kind : Option Composite) (level : Level) :
    List Line :=
  ⟨depth, kind.elim "Root" Composite.openLabel⟩ ::
    (Element.outlineAll (depth + 1) level.elements).map (fun (d, el) ↦ ⟨d, el.label⟩) ++
    match level.pending with
    | some q => if options.pending then [⟨depth + 1, "pending " ++ q.name⟩] else []
    | none => []

def headLines (e : Expression) (options : DumpOptions) : List Line :=
  (if options.flags then [⟨0, e.flags.describe⟩] else []) ++
    if options.names then [⟨0, "Names(" ++ String.intercalate ", " e.groupNames ++ ")"⟩] else []

def dumpLines (e : Expression) (options : DumpOptions) : List Line :=
  e.headLines options ++
    e.levels.zipIdx.flatMap fun ((kind, level), depth) ↦ levelLines options depth kind level

def dump (e : Expression) (options : DumpOptions) : String :=
  String.join ((e.dumpLines options).map Line.text)

end Expression

end PatternBuilder

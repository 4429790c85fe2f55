import PatternBuilder.Element.Source
import PatternBuilder.Expression.Splice
import PatternBuilder.Regex

namespace PatternBuilder

namespace Expression

def compile (e : Expression) : Except BuildError Pattern :=
  (e.finishedElements .unclosed).map fun es ↦
    { source := String.ofList (Element.patternText es), flags := e.flags }

def toLiteral (e : Expression) : Except BuildError String :=
  e.compile.map Pattern.literal

end Expression

variable [Property.Engine]

def Pattern.toRegex (p : Pattern) : Except BuildError Regex :=
  (Regex.ofPattern p).mapError (.unreadable p.literal)

def Expression.toRegex (e : Expression) : Except BuildError Regex :=
  e.compile.bind Pattern.toRegex

end PatternBuilder

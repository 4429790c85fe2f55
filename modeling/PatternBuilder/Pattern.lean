import PatternBuilder.Flags

namespace PatternBuilder

structure Pattern where
  source : String
  flags : Flags
  deriving DecidableEq

namespace Pattern

def literal (p : Pattern) : String :=
  "/" ++ p.source ++ "/" ++ String.ofList p.flags.letters

end Pattern

end PatternBuilder

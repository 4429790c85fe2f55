namespace PatternBuilder.Property

/-- What is known of character properties outside of the builder: which texts name one, and which
characters have it. -/
class Engine where
  isKnown : String → Bool
  contains : String → Char → Bool
  deriving Inhabited

def split (cs : List Char) : List Char × Option (List Char) :=
  (cs.takeWhile (· != '='), (cs.dropWhile (· != '=')).tail?)

def isNamePart (cs : List Char) : Bool :=
  !cs.isEmpty && cs.all fun c ↦ c.isAlpha || c == '_'

def isValuePart (cs : List Char) : Bool :=
  !cs.isEmpty && cs.all fun c ↦ c.isAlphanum || c == '_'

def isWellFormed (s : String) : Bool :=
  match split s.toList with
  | (name, none) => isNamePart name
  | (name, some value) => isNamePart name && isValuePart value

def isAccepted [Engine] (s : String) : Bool := isWellFormed s && Engine.isKnown s

end PatternBuilder.Property

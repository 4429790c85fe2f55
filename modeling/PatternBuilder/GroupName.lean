namespace PatternBuilder

def isNameStart (c : Char) : Bool := c.isAlpha || c == '_'

def isNameChar (c : Char) : Bool := c.isAlphanum || c == '_'

def isGroupNameList : List Char → Bool
  | [] => false
  | c :: cs => isNameStart c && cs.all isNameChar

def isGroupName (s : String) : Bool := isGroupNameList s.toList

end PatternBuilder

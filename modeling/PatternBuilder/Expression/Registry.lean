import PatternBuilder.Expression.Error
import PatternBuilder.GroupName

namespace PatternBuilder

structure Registry where
  names : List String := []
  captureCount : Nat := 0
  hasStart : Bool := false
  hasEnd : Bool := false
  deriving DecidableEq

namespace Registry

def addCapture (r : Registry) : Registry := { r with captureCount := r.captureCount + 1 }

def addName (r : Registry) (name : String) : Except BuildError Registry :=
  if name.isEmpty then .error .emptyGroupName
  else if !isGroupName name then .error (.invalidGroupName name)
  else if r.names.contains name then .error (.duplicateGroupName name)
  else .ok { r with names := r.names ++ [name] }

def openComposite (r : Registry) : Composite → Except BuildError Registry
  | .capture => .ok r.addCapture
  | .namedCapture name => (r.addName name).map addCapture
  | _ => .ok r

/-- Takes note of an anchor: each is set at most once, and the start not after the end. -/
def addAnchor (r : Registry) : Anchor → Except BuildError Registry
  | .start =>
    if r.hasStart then .error .startAlreadyDefined
    else if r.hasEnd then .error .startAfterEnd
    else .ok { r with hasStart := true }
  | .finish =>
    if r.hasEnd then .error .endAlreadyDefined else .ok { r with hasEnd := true }

def adoptAnchor (r : Registry) : Anchor → Except BuildError Registry
  | .start =>
    if r.hasStart then .error .hostStartDefined
    else if r.hasEnd then .error .hostEndDefined
    else .ok { r with hasStart := true }
  | .finish =>
    if r.hasEnd then .error .hostEndDefined else .ok { r with hasEnd := true }

def adopt (r : Registry) : Element → Except BuildError Registry
  | .anchor a => r.adoptAnchor a
  | .composite kind _ => r.openComposite kind
  | _ => .ok r

end Registry

end PatternBuilder

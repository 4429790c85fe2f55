import PatternBuilder.Grammar.Node
import PatternBuilder.Text.Quoted

namespace PatternBuilder

inductive BuildError where
  | emptyText (argument : String)
  | invalidCount (count : Nat)
  | invalidBetween (least most : Nat)
  | invalidRange (first last : Char)
  | invalidControlChar (c : Char)
  | invalidCode (form : CodeForm) (digits : String)
  | invalidProperty (name : String)
  | invalidGroupName (name : String)
  | emptyGroupName
  | quantifierConflict (requested pending : Quantifier)
  /-- A quantifier still waits on the level of the given composite, or on the outermost one. -/
  | danglingQuantifier (level : Option Composite) (q : Quantifier)
  | unquantifiable (kindName : String) (q : Quantifier)
  | startAlreadyDefined
  | startAfterEnd
  | endAlreadyDefined
  | nothingToClose
  | unclosed (kind : Composite)
  | unfinishedSubexpression (kind : Composite)
  | invalidBackreference (index count : Nat)
  | unknownGroup (name : String)
  | duplicateGroupName (name : String)
  | hostStartDefined
  | hostEndDefined
  | unreadable (literal : String) (reason : ReadError)
  deriving DecidableEq

def CodeForm.callName : CodeForm → String
  | byte => "hex_code"
  | unit => "utf16_code"
  | point => "unicode_char_code"

def CodeForm.lengthText : CodeForm → String
  | byte => "2"
  | unit => "4"
  | point => "4 or 5"

namespace BuildError

def levelName : Option Composite → String
  | none => "root"
  | some kind => kind.openerName

def anchorAdvice : String :=
  "You can ignore a subexpression's start_of_input/end_of_input markers with the " ++
    "ignore_start_and_end option"

def message : BuildError → String
  | emptyText argument => argument ++ " cannot be an empty string"
  | invalidCount count => s!"n must be a positive integer (got {count})"
  | invalidBetween x y => s!"x must be less than y (x = {x}, y = {y})"
  | invalidRange a b =>
    s!"a must have a smaller character value than b (a = {a.toNat}, b = {b.toNat})"
  | invalidControlChar c => s!"control_char() requires an ASCII letter (got {quotedChar c})"
  | invalidCode form digits =>
    s!"{form.callName}() requires a {form.lengthText} digit hexadecimal string " ++
      s!"(got {quoted digits})"
  | invalidProperty name => quoted name ++ " is not a valid unicode property"
  | invalidGroupName name =>
    s!"name {quoted name} is not valid (only letters, numbers, and underscores)"
  | emptyGroupName => "name must be at least one character"
  | quantifierConflict requested pending =>
    s!"cannot quantify regular expression with {quoted requested.name} because it's already " ++
      s!"being quantified with {quoted pending.name}"
  | danglingQuantifier level q =>
    s!"cannot close {quoted (levelName level)} while the {quoted q.name} quantifier has nothing " ++
      "to apply to"
  | unquantifiable kindName q =>
    s!"cannot apply the {quoted q.name} quantifier to {quoted kindName}, which matches no input"
  | startAlreadyDefined => "this regex already has a defined start of input"
  | startAfterEnd => "cannot define the start of input after the end of input"
  | endAlreadyDefined => "this regex already has a defined end of input"
  | nothingToClose => "cannot call end while building the root expression"
  | unclosed kind =>
    "cannot compute the value of a not yet fully specified regex object (try adding a .end() " ++
      s!"call to match the {quoted kind.openerName})"
  | unfinishedSubexpression kind =>
    "cannot use an unfinished expression as a subexpression (try adding a .end() call to match " ++
      s!"the {quoted kind.openerName})"
  | invalidBackreference index count =>
    s!"invalid index {index}. There are {count} capture groups on this expression"
  | unknownGroup name =>
    s!"no capture group called {quoted name} exists (create one with .named_capture())"
  | duplicateGroupName name => s!"cannot use {name} again for a capture group"
  | hostStartDefined =>
    "the parent regex already has a defined start of input. " ++ anchorAdvice
  | hostEndDefined =>
    "the parent regex already has a defined end of input. " ++ anchorAdvice
  | unreadable literal reason => s!"engine rejected pattern {quoted literal}: {reason.message}"

end BuildError

end PatternBuilder

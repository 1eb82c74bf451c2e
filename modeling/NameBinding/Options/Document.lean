import NameBinding.Options
import NameBinding.Options.Setting

/-!
Options read from a document. What the document does not set keeps its default; a key that is
unknown, set twice, or set to a value of the wrong kind refuses the document.
-/

namespace NameBinding

inductive OptionsError
  | unreadable (path : String)
  | malformed
deriving DecidableEq

namespace OptionsError

def message : OptionsError → String
  | unreadable path => "cannot read resolver options from " ++ path
  | malformed => "invalid resolver options"

def code : OptionsError → String
  | unreadable _ => "resolve::config::read"
  | malformed => "resolve::config::parse"

end OptionsError

namespace Options

/-- The options after one setting. -/
def set? (o : Options) (key : String) : Setting.Value → Option Options
  | .integer n =>
    if n < 0 then none
    else if key = "max_suggestions" then some { o with maxSuggestions := n.toNat }
    else if key = "max_suggestion_distance" then some { o with maxSuggestionDistance := n.toNat }
    else if key = "max_errors" then some { o with maxErrors := n.toNat }
    else none
  | .flag b =>
    if key = "validate_switches" then some { o with validateSwitches := b } else none

/-- The options that the settings make of the defaults; no key is set twice. -/
def ofSettings? (ss : List (String × Setting.Value)) : Option Options :=
  if (ss.map (·.1)).Nodup then ss.foldlM (fun o s => o.set? s.1 s.2) {} else none

/-- The options that a document sets. -/
def ofDocument (text : String) : Except OptionsError Options :=
  match (Setting.all? text).bind ofSettings? with
  | some o => .ok o
  | none => .error .malformed

/-- The options in a file, given its contents if there are any; they are to be UTF-8. -/
def ofFile (path : String) (contents : Option ByteArray) : Except OptionsError Options :=
  match contents.bind String.fromUTF8? with
  | some text => ofDocument text
  | none => .error (.unreadable path)

end Options

end NameBinding

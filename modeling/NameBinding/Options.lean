/-!
The options of a resolution.
-/

namespace NameBinding

structure Options where
  maxSuggestions : Nat := 3
  maxSuggestionDistance : Nat := 3
  /-- The number of errors after which further ones are dropped; zero sets no limit. -/
  maxErrors : Nat := 100
  validateSwitches : Bool := true
deriving DecidableEq

namespace Options

def limitReached (o : Options) (count : Nat) : Bool := o.maxErrors ≠ 0 && o.maxErrors ≤ count

end Options

end NameBinding

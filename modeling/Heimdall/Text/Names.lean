import Mathlib

/-!
# Names

The patterns the program checks names against, as decidable predicates on the characters: DNS
labels, canonical host names and the names Docker accepts. Each says what a full match of its
pattern says.
-/

namespace Heimdall

/-- A lower-case ASCII letter or a digit. -/
def isLowerAlnum (c : Char) : Bool := c.isLower || c.isDigit

/-- A DNS label: up to 63 lower-case letters, digits and inner dashes. -/
def isLabel (cs : List Char) : Bool :=
  cs.length ≤ 63 && cs.all (fun c ↦ isLowerAlnum c || c == '-')
    && cs.head?.any isLowerAlnum && cs.getLast?.any isLowerAlnum

/-- A canonical host name: at most 253 characters, two labels or more. -/
def isHostname (s : String) : Bool :=
  let labels := s.toList.splitOn '.'
  s.length ≤ 253 && 2 ≤ labels.length && labels.all isLabel

/-- A character Docker allows inside a name. -/
def isDockerChar (c : Char) : Bool := c.isAlphanum || c == '_' || c == '.' || c == '-'

/-- A Docker name with at most `bound` characters after the first. -/
def isDockerName (bound : ℕ) (s : String) : Bool :=
  match s.toList with
  | [] => false
  | c :: cs => c.isAlphanum && cs.all isDockerChar && cs.length ≤ bound

example : isHostname "a-1.example" ∧ ¬ isHostname "a" ∧ ¬ isHostname "-a.b" := by decide

end Heimdall

import ComponentLint.Text.Affix

/-!
# Words in names

Names are written in camel case: a capital letter of the basic alphabet begins a new word.
-/

namespace ComponentLint.Naming

/-- Whether a name begins with a basic capital letter, as the names of components do. -/
def isCapitalized : List Char → Bool
  | [] => false
  | c :: _ => c.isUpper

/-- The number of words of a name: every capital letter begins one, and so does the beginning. -/
def countWords : List Char → Nat
  | [] => 0
  | _ :: rest => rest.countP Char.isUpper + 1

/-- A name with `replacement` in the place of the end `suffix`, if it has that end. -/
def replaceEnd? (name suffix replacement : List Char) : Option (List Char) :=
  (Text.dropBack? name suffix).map (· ++ replacement)

end ComponentLint.Naming

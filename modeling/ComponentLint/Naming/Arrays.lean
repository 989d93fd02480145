import ComponentLint.Text.Affix

/-!
# Names that suggest arrays

Without type information the only evidence for an array is how things are called: a variable named
for a collection, or a method that only arrays have.
-/

namespace ComponentLint.Naming

/-- The methods of arrays. -/
def arrayMethods : List String :=
  ["filter", "map", "reduce", "sort", "slice", "splice", "concat", "reverse", "join", "push", "pop",
    "shift", "unshift", "indexOf", "lastIndexOf", "find", "findIndex", "some", "every", "forEach",
    "includes", "flat", "flatMap"]

/-- The methods that surely return an array. -/
def typedArrayReturningMethods : List String :=
  ["filter", "map", "slice", "concat", "sort", "reverse", "flat", "flatMap", "splice"]

/-- The methods that return an array, also where they belong to a text. -/
def arrayReturningMethods : List String := typedArrayReturningMethods ++ ["split"]

/-- The beginnings of names of collections. -/
def collectionStems : List String :=
  ["arr", "array", "list", "items", "elements", "data", "rows", "cols", "values", "entries"]

/-- The names, in lower case, of things that are no collections although some sound like it. -/
def objectNames : List String :=
  ["obj", "object", "config", "settings", "options", "props", "attrs", "style", "styles", "class",
    "this", "window", "document", "global", "process", "console"]

/-- Whether a method is one of arrays. -/
def isArrayMethod (name : String) : Bool := arrayMethods.contains name

/-- Whether a method returns an array. -/
def isArrayReturningMethod (name : String) : Bool := arrayReturningMethods.contains name

/-- A name in lower case. Capital letters outside the basic alphabet are left alone: none of them
lowers to something that one of the listed words contains. -/
def lowered (name : List Char) : List Char := name.map Char.toLower

/-- Whether a name sounds like a collection: it begins with a word for one or is a plural, and it is
none of the well-known names of other things. -/
def looksLikeArray (name : String) : Bool :=
  let low := lowered name.toList
  !(objectNames.any fun known => known.toList == low) &&
    (collectionStems.any (fun stem => Text.beginsWith low stem.toList) || Text.endsWith low ['s'])

end ComponentLint.Naming

import ComponentLint.Text.Affix

/-!
# Paths

A path is a text whose parts are separated by slashes. The file name is its last part; parts that
are empty or a single dot do not count, and a path that ends in two dots has no file name. A
backslash is an ordinary character of a name, except that rules look at `Path.shown`, where every
backslash has become a slash.
-/

namespace ComponentLint.Path

/-- The parts of a path between its slashes. -/
def parts (path : List Char) : List (List Char) :=
  path.foldr
    (fun c acc =>
      match acc with
      | [] => if c = '/' then [[], []] else [[c]]
      | part :: rest => if c = '/' then [] :: part :: rest else (c :: part) :: rest)
    [[]]

/-- Whether a part is passed over: it is empty or a single dot. -/
def isSilent (part : List Char) : Bool := part.isEmpty || part == ['.']

/-- The file name of a path: its last part that counts, unless that leads upwards. -/
def fileName? (path : String) : Option String :=
  match ((parts path.toList).filter (!isSilent ·)).getLast? with
  | none => none
  | some part => if part = ['.', '.'] then none else some (String.ofList part)

/-- What follows the last dot of a file name; a dot at its beginning does not count. -/
def extensionOfName? (name : String) : Option String :=
  let cs := name.toList
  if cs.contains '.' then
    let ext := Text.afterLast '.' cs
    if cs.length = ext.length + 1 then none else some (String.ofList ext)
  else none

/-- The extension of a path's file name. -/
def extension? (path : String) : Option String := (fileName? path).bind extensionOfName?

/-- The path as rules see it: with a slash for every backslash. -/
def shown (path : String) : String :=
  String.ofList (path.toList.map fun c => if c = '\\' then '/' else c)

/-- Takes silent parts off the end of the reversed parts of a path. A single dot that is the whole
path is kept. -/
def dropSilentEnd : List (List Char) → List (List Char)
  | [] => []
  | [part] => if part.isEmpty then [] else [part]
  | part :: rest => if isSilent part then dropSilentEnd rest else part :: rest

/-- Joins parts with slashes. -/
def joinParts : List (List Char) → List Char
  | [] => []
  | [part] => part
  | part :: rest => part ++ '/' :: joinParts rest

/-- The directory that holds a path: the path without its last part that counts. The root and the
empty path lie in no directory. -/
def parent? (path : String) : Option String :=
  let cs := path.toList
  let absolute := cs.head? == some '/'
  match dropSilentEnd (parts cs).reverse with
  | [] => none
  | _ :: rest =>
    let above := (dropSilentEnd rest).reverse
    if absolute then
      some (if above.isEmpty then "/" else String.ofList (joinParts above))
    else some (String.ofList (joinParts above))

/-- A name looked up in a directory; an absolute name stands for itself. -/
def join (directory name : String) : String :=
  let d := directory.toList
  if name.toList.head? == some '/' then name
  else if d.isEmpty || d.getLast? == some '/' then directory ++ name
  else directory ++ "/" ++ name

/-- The path of a file with the given name beside the file at `path`. -/
def sibling (path name : String) : String := join ((parent? path).getD "") name

end ComponentLint.Path

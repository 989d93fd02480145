import ComponentLint.Path

/-!
# Dialects of the script language

The extension of a path selects the grammar: whether static types are part of it, whether markup
is, whether the file only declares, and what is known in advance about its module kind.
-/

namespace ComponentLint.Script

/-- What is known about a file before it is read. -/
inductive ModuleKind where
  /-- It is a module. -/
  | module
  /-- It is a classic script in the server style, where a file is a function body. -/
  | common
  /-- It is a module if it imports or exports something. -/
  | byContent
deriving DecidableEq, Repr, Inhabited

/-- A dialect of the script language. -/
structure Dialect where
  /-- Static types are part of the grammar. -/
  typed : Bool
  /-- Markup is part of the grammar. -/
  markup : Bool
  /-- The file holds declarations without implementation. -/
  definitions : Bool
  /-- What is known about the module kind. -/
  moduleKind : ModuleKind
deriving DecidableEq, Repr, Inhabited

namespace Dialect

/-- The dialect that belongs to an extension. -/
def ofExtension : Option String → Dialect
  | some "ts" => ⟨true, false, false, .byContent⟩
  | some "tsx" => ⟨true, true, false, .byContent⟩
  | some "mts" => ⟨true, false, false, .module⟩
  | some "cts" => ⟨true, false, false, .common⟩
  | some "js" => ⟨false, false, false, .byContent⟩
  | some "jsx" => ⟨false, true, false, .byContent⟩
  | some "mjs" => ⟨false, false, false, .module⟩
  | some "cjs" => ⟨false, false, false, .common⟩
  | _ => ⟨true, true, false, .module⟩

/-- How many parts of a file name before the extension may say that the file only declares: with the
plain extension also the one before a further extension. -/
def definitionParts : Option String → Nat
  | some "ts" => 2
  | some "mts" => 1
  | some "cts" => 1
  | _ => 0

/-- Whether a file name with the given extension belongs to a file that only declares. Such names
have a part `d`. -/
def isDefinitionName (extension : Option String) (name : String) : Bool :=
  let parts := ((name.splitOn ".").reverse.drop 1).take (definitionParts extension)
  parts.contains "d"

/-- The dialect of the file at a path. -/
def ofPath (path : String) : Dialect :=
  let extension := Path.extension? path
  { ofExtension extension with
    definitions := ((Path.fileName? path).map (isDefinitionName extension)).getD false }

end Dialect

end ComponentLint.Script

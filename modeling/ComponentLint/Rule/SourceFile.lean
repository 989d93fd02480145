import ComponentLint.Path
import ComponentLint.Script.Shape
import ComponentLint.Script.Tree
import ComponentLint.Types.Annotation
import ComponentLint.Types.Query

/-!
# The file that rules look at

A source file with its tree, and the top-level declarations and imports that several conventions
start from.
-/

namespace ComponentLint

open Script (Binder Binding Expr Program Stmt)

/-- Answers the question for the type of an expression. -/
abbrev TypeQuery := Expr → Except Types.Fault Types.TypeInfo

/-- A source file as a rule sees it. -/
structure SourceFile where
  /-- The path of the file. -/
  path : String
  /-- The text of the file. -/
  source : List Char
  /-- The tree of the file. -/
  program : Program
  /-- Type information, where it is available. -/
  types : Option TypeQuery

namespace SourceFile

/-- The end of the paths of style modules. -/
def styleModuleEnd : String := ".css.ts"

/-- Whether a path, with slashes only, is that of a style module. -/
def isStylePath (path : String) : Bool := Text.endsWith path.toList styleModuleEnd.toList

/-- Whether the file defines styles. -/
def isStyleModule (file : SourceFile) : Bool := isStylePath (Path.shown file.path)

/-- Whether the file has the given name. -/
def isNamed (file : SourceFile) (name : String) : Bool := Path.fileName? file.path == some name

end SourceFile

/-! ## Top-level declarations -/

/-- The declarators of a variable declaration that is exported in place. -/
def Script.Stmt.exportedVariables : Stmt → List Binding
  | .exportDeclaration _ (.variables _ _ bindings) => bindings
  | _ => []

/-- The declarators of a variable declaration that is not exported in place. -/
def Script.Stmt.localVariables : Stmt → List Binding
  | .variables _ _ bindings => bindings
  | _ => []

/-- The name that a declarator binds, if it is a single one. -/
def Script.Binding.single? (b : Binding) : Option Binder :=
  match b.pattern with
  | .single binder => some binder
  | _ => none

theorem Script.Binding.single?_eq_some_iff {b : Binding} {binder : Binder} :
    b.single? = some binder ↔ b.pattern = .single binder := by
  unfold single?
  cases b.pattern with
  | single x => simp
  | destructured xs => simp
  | rest xs => simp

/-- Whether the initial value of a declarator is, without parentheses, a call of the named
function. -/
def Script.Binding.initializedBy (function : String) (b : Binding) : Bool :=
  b.value.any (·.calls function)

end ComponentLint

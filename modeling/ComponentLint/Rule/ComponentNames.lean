import ComponentLint.Diagnostic.Basic
import ComponentLint.Naming.Words
import ComponentLint.Rule.SourceFile

/-!
# Names of components

Layout files export a component named `Layout` and page files one named `Page`. The two rules differ
only in `Requirement`.
-/

namespace ComponentLint.ComponentNames

open Script (ExportItem Program Stmt)

/-- What a rule requires of its files. -/
structure Requirement where
  /-- The name of the rule. -/
  rule : String
  /-- The name of the component. -/
  component : String
  /-- What the files are called in messages, and the file that the rule is about by default. -/
  file : String
deriving DecidableEq, Repr, Inhabited

/-- Layout files export a layout. -/
def layout : Requirement := ⟨"enforce-layout-component-name", "Layout", "layout.tsx"⟩

/-- Page files export a page. -/
def page : Requirement := ⟨"enforce-page-component-name", "Page", "page.tsx"⟩

/-- The message for a file whose component has another name. -/
def incorrectName (r : Requirement) : Template := .ofParts
  [r.file ++ " must export a component named '" ++ r.component ++ "' (found '", "name", "')"]

/-- The message for a file without a component. -/
def missingExport (r : Requirement) : Template := .ofParts
  [r.file ++ " must export a component named '" ++ r.component ++ "'"]

/-- Something that a statement exports. -/
inductive Exported where
  /-- An export that is, for other files, a component with the required name. -/
  | required
  /-- A name that is exported. -/
  | name (text : String)
deriving DecidableEq, Repr, Inhabited

/-- What an item of an export list exports: a component with the required name, or its name inside
the file. Names that are written as strings do not count. -/
def itemExport (r : Requirement) (item : ExportItem) : Option Exported :=
  if (item.exported.plain?.map (·.name)) = some r.component then some .required
  else item.inside.plain?.map fun b => .name b.name

/-- What a statement exports, in source order. -/
def exports (r : Requirement) : Stmt → List Exported
  | .exportDefault _ (.function _ fn) => fn.binder.toList.map fun b => .name b.name
  | .exportDefault _ (.expression _ (.name _ text)) => [.name text]
  | .exportDeclaration _ (.function _ fn) => fn.binder.toList.map fun b => .name b.name
  | .exportDeclaration _ (.variables _ _ bindings) =>
    (bindings.filterMap (·.single?)).map fun b => .name b.name
  | .exportList _ items _ => items.filterMap (itemExport r)
  | _ => []

/-- Whether an export is the required component. -/
def satisfies (r : Requirement) : Exported → Bool
  | .required => true
  | .name text => text == r.component

/-- The name of an export if it can be that of a component. -/
def candidate? : Exported → Option String
  | .required => none
  | .name text => if Naming.isCapitalized text.toList then some text else none

/-- The complaint about exports among which the required component is not. -/
def complaint (r : Requirement) (found : List Exported) : Diagnostic :=
  let report := Diagnostic.ofTemplate r.rule Span.fileStart
  match found.findSome? candidate? with
  | some name => (report "incorrectName" (incorrectName r) [("name", name)]).withSeverity .error
  | none => (report "missingExport" (missingExport r) []).withSeverity .error

/-- Judges the exports of a file that has one of the given names. -/
def check (r : Requirement) (files : List String) (file : SourceFile) : List Diagnostic :=
  if files.any file.isNamed then
    let found := file.program.body.flatMap (exports r)
    if found.any (satisfies r) then [] else [complaint r found]
  else []

end ComponentLint.ComponentNames

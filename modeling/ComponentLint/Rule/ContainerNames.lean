import ComponentLint.Diagnostic.Basic
import ComponentLint.Naming.Words
import ComponentLint.Rule.SourceFile

/-!
# Names of containers and wrappers

A style module does not name its exports after containers or wrappers. The exception is what the
container factory makes: that has to end in `Container`.
-/

namespace ComponentLint.ContainerNames

open Script (Binding ImportItem Program Stmt)

/-- The name of the rule. -/
def rule : String := "no-container-wrapper-names"

/-- The module that provides the factories of styles and containers. -/
def styleLibrary : String := "@vanilla-extract/css"

/-- The factory of containers. -/
def containerFactory : String := "createContainer"

/-- The names that are banned as a whole. -/
def bannedNames : List String := ["container", "wrapper"]

/-- The end that the name of a container has. -/
def containerEnd : String := "Container"

/-- The end that takes the place of a banned one. -/
def rootEnd : String := "Root"

/-- The ends that are banned, in the order in which they are looked for. -/
def bannedEnds : List String := [containerEnd, "Wrapper"]

/-- The message for a name that is banned as a whole. -/
def bannedExactName : Template := .ofParts
  ["Variable name \"", "name", "\" is banned in *.css.ts files. Use \"root\" or \"", "suggestion",
    "\"."]

/-- The message for a name with a banned end. -/
def bannedPattern : Template := .ofParts
  ["Variable name \"", "name", "\" contains banned pattern \"", "pattern",
    "\" in *.css.ts files. Use \"", "suggestion", "\" instead."]

/-- The message for a container whose name does not say so. -/
def requireContainerSuffix : Template := .ofParts
  ["Variable name \"", "name", "\" using createContainer must end with \"Container\". Use \"",
    "suggestion", "\" instead."]

/-- The name that a container should have: its own with the end of containers. -/
def containerName (name : String) : String :=
  String.ofList <|
    (Naming.replaceEnd? name.toList rootEnd.toList containerEnd.toList).getD
      (name.toList ++ containerEnd.toList)

/-- Judges the name of a container. -/
def checkContainer (name : String) (span : Span) : Option Diagnostic :=
  if Text.endsWith name.toList containerEnd.toList then none
  else
    some <| .ofTemplate rule span "requireContainerSuffix" requireContainerSuffix
      [("name", name), ("suggestion", containerName name)]

/-- Judges a name by one banned end. -/
def checkEnd (name : String) (span : Span) (banned : String) : Option Diagnostic :=
  (Naming.replaceEnd? name.toList banned.toList rootEnd.toList).map fun suggestion =>
    .ofTemplate rule span "bannedPattern" bannedPattern
      [("name", name), ("pattern", banned), ("suggestion", String.ofList suggestion)]

/-- Judges the name of an export; `isContainer` tells whether the container factory made it. -/
def checkName (name : String) (span : Span) (isContainer : Bool) : Option Diagnostic :=
  if isContainer then checkContainer name span
  else if bannedNames.contains name then
    some <| .ofTemplate rule span "bannedExactName" bannedExactName
      [("name", name), ("suggestion", "root")]
  else bannedEnds.findSome? (checkEnd name span)

/-- The local name of the container factory among imported items. -/
def factoryAlias? (items : List ImportItem) : Option String :=
  items.findSome? fun item =>
    match item with
    | .named imported binder _ =>
      if imported == some containerFactory then some binder.name else none
    | _ => none

/-- The local name under which a statement imports the container factory. -/
def importedFactory? : Stmt → Option String
  | .importFrom _ source items =>
    if source = styleLibrary then factoryAlias? (items.getD []) else none
  | _ => none

/-- The local name of the container factory: that of the first import that has it. -/
def factory? (program : Program) : Option String := program.body.findSome? importedFactory?

/-- Judges an exported declarator. -/
def checkBinding (factory : Option String) (b : Binding) : Option Diagnostic :=
  b.single?.bind fun binder =>
    checkName binder.name binder.span (factory.any fun name => b.initializedBy name)

/-- Judges the names that a style module exports. -/
def check (file : SourceFile) : List Diagnostic :=
  if file.isStyleModule then
    (file.program.body.flatMap Stmt.exportedVariables).filterMap
      (checkBinding (factory? file.program))
  else []

end ComponentLint.ContainerNames

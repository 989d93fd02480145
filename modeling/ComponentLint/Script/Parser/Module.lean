import ComponentLint.Script.Parser.Statement

/-!
# Imports and exports
-/

namespace ComponentLint.Script.Parser

/-- Notes that the file is a module, if this is its top level. -/
def noteModule : Parser Unit := do
  if (← read).atTopLevel then modify fun s => { s with isModule := true }

/-- A string literal: its value. -/
def stringLiteral : Parser String := do
  match ← kind with
  | .string text _ => advance; return text
  | _ => fail

/-- Attributes after the source of an import or export, if there are any. -/
def importAttributes : Parser Unit := do
  if (← atWord "with") || ((← atWord "assert") && !(← afterNewline)) then
    advance
    expectPunct "\x7b"
    let _ ← commaList "\x7d" do
      match ← kind with
      | .string _ _ => advance
      | _ => let _ ← anyWord
      expectPunct ":"
      let _ ← stringLiteral
      return ()

/-! ## Names in lists -/

/-- A name in an import or export list: a word, or a string without lone surrogates. -/
def listName : Parser ExportName := do
  match ← kind with
  | .string text wellFormed =>
    expectThat wellFormed
    advance
    return .quoted text
  | _ => return .plain (← anyWord)

/-- Whether the next token can be a name in a list. -/
def atListName : Parser Bool := return (← atString) || (← atAnyWord)

/-- An item of an import or export list: the name before `as`, the name after it (the same if there
is none), and whether it is only a type. The words `type` and `as` are also names. -/
def listItem : Parser (ExportName × ExportName × Bool) := do
  let isType := (← dialect).typed && (← atWord "type")
  let first ← listName
  let withAs (name : ExportName) (typeOnly : Bool) : Parser (ExportName × ExportName × Bool) := do
    if ← takeWord "as" then return (name, ← listName, typeOnly)
    return (name, name, typeOnly)
  unless isType do return ← withAs first false
  if ← atWord "as" then
    let firstAs ← listName
    if ← atWord "as" then
      let secondAs ← listName
      if ← atListName then return (firstAs, ← listName, true)
      return (first, secondAs, false)
    if ← atListName then return (first, ← listName, false)
    return (firstAs, firstAs, true)
  if ← atListName then return ← withAs (← listName) true
  withAs first false

/-! ## Imports -/

/-- An item of an import list. Its local name has to be one, and where the whole list is only of
types no item says so again. -/
def importItem (typeOnly : Bool) : Parser ImportItem := do
  let c ← read
  let (imported, inside, isType) ← listItem
  expectThat (!(typeOnly && isType))
  match inside with
  | .plain b =>
    expectThat (isNameIn c b.name)
    noteName b.name
    return .named (imported.plain?.map (·.name)) b (typeOnly || isType)
  | .quoted _ => fail

/-- An import of everything under a name. -/
def importEverything (typeOnly : Bool) : Parser ImportItem := do
  expectPunct "*"
  expectWord "as"
  return .everything (← binder) typeOnly

/-- The items that an import brings in, up to the word `from`. An import of types brings in either a
default or a list. -/
def importClause (typeOnly : Bool) : Parser (List ImportItem) := do
  let named : Parser (List ImportItem) := do
    expectPunct "\x7b"
    commaList "\x7d" (importItem typeOnly)
  if ← atPunct "*" then return [← importEverything typeOnly]
  if ← atPunct "\x7b" then return ← named
  let default : ImportItem := .default (← binder) typeOnly
  unless ← takePunct "," do return [default]
  expectThat (!typeOnly)
  if ← atPunct "*" then return [default, ← importEverything typeOnly]
  return default :: (← named)

/-- Whether the word `type` at the next token says that an import is only of types. -/
def atTypeImport : Parser Bool := do
  unless (← dialect).typed && (← atWord "type") do return false
  followedBy do
    advance
    if (← atPunct "*") || (← atPunct "\x7b") then return true
    if ← takeWord "from" then return (← atWord "from") || (← atPunct "=")
    atBinderWord

/-- Whether the word at the next token says in which phase an import brings in its items: as a
source under one name, or deferred as everything. -/
def atImportPhase : Parser Bool := do
  if ← atWord "defer" then return (← kindAfter) == .punct "*"
  unless ← atWord "source" do return false
  followedBy do
    advance
    if ← takeWord "from" then return ← atWord "from"
    atBinderWord

/-- Whether an import under a name of its own begins at the next token. -/
def atImportAlias : Parser Bool := do
  return (← dialect).typed && (← atBinderWord) && (← kindAfter) == .punct "="

/-- The source of an import or export, its attributes and the end of the statement. -/
def sourceTail : Parser String := do
  let source ← stringLiteral
  importAttributes
  semicolon
  return source

/-- An import from another file, after the words that say what kind of import it is. -/
def importFrom (first : Nat) (clause : Parser (List ImportItem)) : Parser Stmt := do
  noteModule
  let items ← clause
  expectWord "from"
  let source ← sourceTail
  return .importFrom (← spanFrom first) source (some items)

/-- An import declaration, from the word `import` on. -/
def importDeclaration : Parser Stmt := do
  let first ← start
  expectWord "import"
  if ← atString then
    noteModule
    let source ← sourceTail
    return .importFrom (← spanFrom first) source none
  if ← atImportPhase then
    advance
    return ← importFrom first do
      if ← atPunct "*" then return [← importEverything false]
      return [.default (← binder) false]
  let typeOnly ← atTypeImport
  if typeOnly then advance
  if ← atImportAlias then return ← importAlias first
  importFrom first (importClause typeOnly)

/-- Whether an import declaration begins at the next token. -/
def atImport : Parser Bool := do
  unless ← atWord "import" do return false
  let after ← kindAfter
  return after != .punct "(" && after != .punct "."

/-! ## Exports -/

/-- Notes that a name is exported. Where types are not part of the grammar, no name may be exported
twice. -/
def noteExport (name : String) : Parser Unit := do
  unless (← dialect).typed do
    expectThat (!(← get).exported.contains name)
    modify fun s => { s with exported := name :: s.exported }

/-- The names that an exported declaration introduces. -/
def declaredNames : Stmt → List String
  | .variables _ _ bs => bs.flatMap fun b => b.pattern.binders.map (·.name)
  | .function _ fn => fn.binder.toList.map (·.name)
  | .declaration _ bs _ _ => bs.map (·.name)
  | _ => []

/-- The text of a name in a list. -/
def listText : ExportName → String
  | .plain b => b.name
  | .quoted text => text

/-- The words that no name of this file in an export list is, although they can be names
elsewhere. -/
def unexportableWords : List String :=
  ["await", "implements", "interface", "package", "private", "protected", "public", "static",
    "yield"]

/-- Whether a name in an export list can be one of this file. -/
def isLocalName : ExportName → Bool
  | .plain b => !reservedWords.contains b.name && !unexportableWords.contains b.name
  | .quoted _ => false

/-- An export list, from its opening brace on. Without a source the names before `as` are names of
this file. -/
def exportList (first : Nat) (typeOnly : Bool) : Parser Stmt := do
  noteModule
  expectPunct "\x7b"
  let items ← commaList "\x7d" do
    let item ← listItem
    expectThat (!(typeOnly && item.2.2))
    return item
  let elsewhere ← takeWord "from"
  if elsewhere then
    let _ ← stringLiteral
    importAttributes
  else expectThat (items.all fun (inside, _, _) => isLocalName inside)
  semicolon
  for (_, exported, _) in items do noteExport (listText exported)
  return .exportList (← spanFrom first) (items.map fun (inside, out, _) => ⟨inside, out⟩) elsewhere

/-- An export of everything from elsewhere, from its star on. -/
def exportEverything (first : Nat) : Parser Stmt := do
  noteModule
  expectPunct "*"
  if ← takeWord "as" then noteExport (listText (← listName))
  expectWord "from"
  let _ ← sourceTail
  return .compound (← spanFrom first) []

/-- Decorators after the word `export`, which do not stand on both sides of it. -/
def exportDecorators (g : Grammar) (before : List Expr) : Parser (List Expr) := do
  let after ← decorators g
  expectThat (before.isEmpty || after.isEmpty)
  return before ++ after

/-- What a default export exports. -/
def defaultExport (g : Grammar) (decorations : List Expr) : Parser Stmt := do
  let first ← start
  let typed := (← dialect).typed
  let isAbstract := typed && (← atWord "abstract") && (← isWordAfter "class")
  if isAbstract then advance
  if ← atWord "class" then
    return ← classDeclaration g first ⟨if isAbstract then ["abstract"] else []⟩ decorations
  expectThat decorations.isEmpty
  if ← atFunction then return ← plainFunction g false false
  if typed && (← atWord "interface") then return ← interfaceDeclaration g first
  let e ← g.assignment
  semicolon
  return .expression (← spanFrom first) e

/-- A default export, from the word `default` on. -/
def exportDefault (g : Grammar) (first : Nat) (before : List Expr) : Parser Stmt := do
  noteModule
  expectWord "default"
  noteExport "default"
  let decorations ← exportDecorators g before
  let exported ← defaultExport g decorations
  return .exportDefault (← spanFrom first) exported

/-- An export of a declaration. -/
def exportNamed (g : Grammar) (first : Nat) (before : List Expr) : Parser Stmt := do
  noteModule
  let decorations ← exportDecorators g before
  let declared ← declaration g decorations
  for name in declaredNames declared do noteExport name
  return .exportDeclaration (← spanFrom first) declared

/-- An export, from the word `export` on, with the decorators before it. -/
def exportDeclaration (g : Grammar) (decorations : List Expr) : Parser Stmt := do
  let first ← start
  expectWord "export"
  let typed := (← dialect).typed
  match ← kind with
  | .word "default" _ => exportDefault g first decorations
  | .punct "*" =>
    expectThat decorations.isEmpty
    exportEverything first
  | .punct "\x7b" =>
    expectThat decorations.isEmpty
    exportList first false
  | _ =>
    if typed && (← takePunct "=") then
      expectThat decorations.isEmpty
      let e ← g.assignment
      semicolon
      return .compound (← spanFrom first) [part e]
    if typed && (← atWord "as") && (← isWordAfter "namespace") then
      advance
      advance
      let _ ← binder
      semicolon
      return .compound (← spanFrom first) []
    if typed && (← atWord "import") then
      noteModule
      let here ← start
      advance
      if ← atTypeImport then advance
      let declared ← importAlias here
      return .exportDeclaration (← spanFrom first) declared
    if typed && (← atWord "type") then
      let after ← kindAfter
      if after == .punct "*" || after == .punct "\x7b" then
        expectThat decorations.isEmpty
        advance
        return ← if after == .punct "*" then exportEverything first else exportList first true
    exportNamed g first decorations

/-- A statement of any kind. Decorators may stand before the word `export`. -/
def statement (g : Grammar) (single : Bool) : Parser Stmt := do
  if ← atImport then return ← importDeclaration
  if ← atWord "export" then return ← exportDeclaration g []
  if ← atPunct "@" then
    let first ← start
    let decorations ← decorators g
    if ← atWord "export" then return ← exportDeclaration g decorations
    return ← decoratedClass g first decorations single
  plainStatement g single

end ComponentLint.Script.Parser

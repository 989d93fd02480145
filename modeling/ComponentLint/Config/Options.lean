import ComponentLint.Config.Basic

/-!
# Options of rules

Four rules have options. No options and null are the same and stand for the defaults.
-/

namespace ComponentLint.RuleKind

/-- The options of a rule that has none. -/
def rejectOptions (kind : RuleKind) (rule : Rule) : Option Json → Except ConfigFault Rule
  | none | some .null => .ok rule
  | some _ => .error (.invalidValue kind .takesNoOptions)

/-- The options of a rule, read with `read` unless they are the defaults. -/
def readOptions {α : Type} (kind : RuleKind) (default : α) (read : Json → Except DataFault α) :
    Option Json → Except ConfigFault α
  | none | some .null => .ok default
  | some v => (read v).mapError (.invalidOptions kind)

/-! ## The limit on words -/

/-- The record with the limit on words. -/
def limitRecord : JsonRecord (Option Int) where
  title := "MaxStyleNameWordsOptions"
  fields := ["maxWords"]
  required := 1
  empty := none
  put _ v _ := v.asOption Json.asInt

/-- The rule with a limit on words, which is at least one. -/
def styleNamesRule : Option Int → Except ConfigFault Rule
  | none => .ok (.styleNames StyleNames.defaultMax)
  | some n =>
    if 1 ≤ n then .ok (.styleNames n.toNat) else .error (.invalidValue .styleNames (.limitTooLow n))

/-! ## Names of files -/

/-- The record with the names of files. -/
def filesRecord : JsonRecord (Option (List String)) where
  title := "ComponentNameOptions"
  fields := ["files"]
  required := 1
  empty := none
  put _ v _ := v.asOption (Json.asList Json.asString)

/-! ## Patterns of style imports -/

/-- A pattern whose fields are not all known yet. -/
structure PatternFields where
  /-- The description of the component. -/
  componentDescription : Option String := none
  /-- The expected module. -/
  expectedImport : Option String := none
  /-- The name of the file with the styles. -/
  styleFileExtension : Option String := none
  /-- Whether imports are relative. -/
  requireRelativeImports : Option Bool := none

/-- Reads a field of a pattern. -/
def putPatternField (field : String) (v : Json) (p : PatternFields) :
    Except DataFault PatternFields :=
  match field with
  | "componentDescription" => v.asString.map fun s => { p with componentDescription := some s }
  | "expectedImport" => v.asString.map fun s => { p with expectedImport := some s }
  | "styleFileExtension" => v.asString.map fun s => { p with styleFileExtension := some s }
  | _ => v.asBool.map fun b => { p with requireRelativeImports := some b }

/-- The record of a pattern. -/
def patternRecord : JsonRecord PatternFields where
  title := "StylePattern"
  fields :=
    ["componentDescription", "expectedImport", "styleFileExtension", "requireRelativeImports"]
  required := 3
  empty := {}
  put := putPatternField

/-- The pattern of a JSON value. -/
def readPattern (v : Json) : Except DataFault StyleImports.StylePattern := do
  let p ← patternRecord.read v
  return {
    componentDescription := ← needed "componentDescription" p.componentDescription
    expectedImport := ← needed "expectedImport" p.expectedImport
    styleFileExtension := ← needed "styleFileExtension" p.styleFileExtension
    requireRelativeImports := p.requireRelativeImports.getD false }

/-- Options of style imports that are not all known yet. -/
structure StylingFields where
  /-- The patterns. -/
  patterns : Option (List StyleImports.StylePattern) := none
  /-- Whether the file with the styles has to exist. -/
  requireWhenStylesExist : Option Bool := none

/-- Reads a field of the options of style imports. -/
def putStylingField (field : String) (v : Json) (o : StylingFields) :
    Except DataFault StylingFields :=
  match field with
  | "patterns" => (v.asList readPattern).map fun ps => { o with patterns := some ps }
  | _ => v.asBool.map fun b => { o with requireWhenStylesExist := some b }

/-- The record of the options of style imports. -/
def stylingRecord : JsonRecord StylingFields where
  title := "EnforceStylingOptions"
  fields := ["patterns", "requireWhenStylesExist"]
  required := 1
  empty := {}
  put := putStylingField

/-- The options of style imports of a JSON value. -/
def readStyling (v : Json) : Except DataFault StyleImports.Options := do
  let o ← stylingRecord.read v
  return {
    patterns := ← needed "patterns" o.patterns
    requireWhenStylesExist := o.requireWhenStylesExist.getD true }

/-! ## All rules -/

/-- The rule with the given options. -/
def create (kind : RuleKind) (options : Option Json) : Except ConfigFault Rule :=
  match kind with
  | .containerNames => rejectOptions kind .containerNames options
  | .childSelectors => rejectOptions kind .childSelectors options
  | .styleNames => readOptions kind none limitRecord.read options >>= styleNamesRule
  | .styleImports => (readOptions kind {} readStyling options).map .styleImports
  | .layoutName =>
    (readOptions kind none filesRecord.read options).map fun files =>
      .layoutName (files.getD [ComponentNames.layout.file])
  | .pageName =>
    (readOptions kind none filesRecord.read options).map fun files =>
      .pageName (files.getD [ComponentNames.page.file])
  | .arrayAccess => rejectOptions kind .arrayAccess options
  | .effectComments => rejectOptions kind .effectComments options

end ComponentLint.RuleKind

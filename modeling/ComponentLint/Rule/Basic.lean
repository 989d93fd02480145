import ComponentLint.Rule.ArrayAccess
import ComponentLint.Rule.ChildSelectors
import ComponentLint.Rule.ComponentNames
import ComponentLint.Rule.ContainerNames
import ComponentLint.Rule.EffectComments
import ComponentLint.Rule.StyleImports
import ComponentLint.Rule.StyleNames

/-!
# Rules

A rule is one of eight conventions with its options. Judging a file gives a list of diagnostics;
only the convention on style imports can fail, because it alone asks for other files.
-/

namespace ComponentLint

/-- What a rule is about. -/
inductive Category where
  /-- Code that breaks a convention outright. -/
  | correctness
  /-- Code that should be written in another way. -/
  | style
deriving DecidableEq, Repr, Inhabited

/-- The conventions, in the order in which they are registered. -/
inductive RuleKind where
  | containerNames
  | childSelectors
  | styleNames
  | styleImports
  | layoutName
  | pageName
  | arrayAccess
  | effectComments
deriving DecidableEq, Repr, Inhabited

namespace RuleKind

/-- All conventions. -/
def all : List RuleKind :=
  [containerNames, childSelectors, styleNames, styleImports, layoutName, pageName, arrayAccess,
    effectComments]

/-- The name of a rule. -/
def name : RuleKind → String
  | containerNames => ContainerNames.rule
  | childSelectors => ChildSelectors.rule
  | styleNames => StyleNames.rule
  | styleImports => StyleImports.rule
  | layoutName => ComponentNames.layout.rule
  | pageName => ComponentNames.page.rule
  | arrayAccess => ArrayAccess.rule
  | effectComments => EffectComments.rule

/-- What a rule is about. -/
def category : RuleKind → Category
  | containerNames | styleNames | arrayAccess => .style
  | _ => .correctness

/-- The address of a rule's documentation. -/
def docsUrl (kind : RuleKind) : String :=
  "https://github.com/ui-lint/ui-lint/blob/main/docs/rules/" ++ kind.name ++ ".md"

/-- The rule with a name; what stands before the last slash of the name does not count. -/
def find? (name : String) : Option RuleKind :=
  all.find? fun kind => kind.name.toList == Text.afterLast '/' name.toList

end RuleKind

/-- A convention with its options. -/
inductive Rule where
  | containerNames
  | childSelectors
  /-- Style names have at most `max` words. -/
  | styleNames (max : Nat)
  /-- Styles are imported as the options tell. -/
  | styleImports (options : StyleImports.Options)
  /-- Files with these names export a layout. -/
  | layoutName (files : List String)
  /-- Files with these names export a page. -/
  | pageName (files : List String)
  | arrayAccess
  | effectComments
deriving DecidableEq, Repr, Inhabited

namespace Rule

/-- The convention of a rule. -/
def kind : Rule → RuleKind
  | .containerNames => .containerNames
  | .childSelectors => .childSelectors
  | .styleNames _ => .styleNames
  | .styleImports _ => .styleImports
  | .layoutName _ => .layoutName
  | .pageName _ => .pageName
  | .arrayAccess => .arrayAccess
  | .effectComments => .effectComments

/-- The name of a rule. -/
def name (r : Rule) : String := r.kind.name

/-- The rule with another limit on words, if it has such a limit. -/
def withMaxWords (max : Nat) : Rule → Rule
  | .styleNames _ => .styleNames max
  | r => r

/-- The rule for files with other names, if it is about such files. -/
def withFiles (files : List String) : Rule → Rule
  | .layoutName _ => .layoutName files
  | .pageName _ => .pageName files
  | r => r

/-- The rule with one more pattern, if it has patterns. -/
def withPattern (pattern : StyleImports.StylePattern) : Rule → Rule
  | .styleImports o => .styleImports { o with patterns := o.patterns ++ [pattern] }
  | r => r

/-- The rule with another answer to whether the file with the styles has to exist. -/
def withRequireWhenStylesExist (require : Bool) : Rule → Rule
  | .styleImports o => .styleImports { o with requireWhenStylesExist := require }
  | r => r

/-- Judges the file and reports what is found. -/
def run (r : Rule) : Linting Unit := do
  let file := (← get).file
  match r with
  | .containerNames => Linting.reportAll (ContainerNames.check file)
  | .childSelectors => Linting.reportAll (ChildSelectors.check file)
  | .styleNames max => Linting.reportAll (StyleNames.check max file)
  | .styleImports options => StyleImports.run options
  | .layoutName files => Linting.reportAll (ComponentNames.check ComponentNames.layout files file)
  | .pageName files => Linting.reportAll (ComponentNames.check ComponentNames.page files file)
  | .arrayAccess => Linting.reportAll (ArrayAccess.check file)
  | .effectComments => Linting.reportAll (EffectComments.check file)

/-- The findings of a rule that looks at a file alone. -/
def check (r : Rule) (siblings : Siblings) (file : SourceFile) :
    Except ProbeFailure (List Diagnostic) :=
  Linting.outcome (do r.run; Linting.take) (.fresh siblings file)

/-- The sibling files that a rule asks for when it looks at a file; the answers do not matter. -/
def probes (r : Rule) (file : SourceFile) : List String :=
  (Linting.after r.run (.fresh (fun _ _ => .ok false) file)).asked.map (·.2)

end Rule

end ComponentLint

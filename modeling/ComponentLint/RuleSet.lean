import ComponentLint.Config.Options

/-!
# Rule sets

The rules that are run over a file, each with the severity that is forced onto its findings.
-/

namespace ComponentLint

/-- A rule with the severity of its findings; `none` leaves them as the rule reports them. -/
structure ConfiguredRule where
  /-- The rule. -/
  rule : Rule
  /-- The severity of its findings. -/
  severity : Option Severity
deriving DecidableEq, Repr, Inhabited

/-- The rules that are run over a file. -/
structure RuleSet where
  /-- The rules in the order in which they are run. -/
  rules : List ConfiguredRule := []
  /-- Whether types are looked at. -/
  typeAware : Bool := false
deriving DecidableEq, Repr, Inhabited

namespace RuleSet

/-- A rule as it is used without a configuration; `none` if it needs options. -/
def defaultRule? (kind : RuleKind) : Option ConfiguredRule :=
  match kind.create none with
  | .ok rule => some ⟨rule, kind.defaultLevel.severity?⟩
  | .error _ => none

/-- Every rule with its default options and its default level. -/
def standard : RuleSet := ⟨RuleKind.all.filterMap defaultRule?, false⟩

/-- The rule of an entry of a configuration; `none` if it is off. A rule that does not exist is
reported even if it is off. -/
def ofEntry (key : String) (setting : Setting) : Except ConfigFault (Option ConfiguredRule) :=
  match RuleKind.find? key with
  | none => .error (.unknownRule key)
  | some kind =>
    match setting.level.severity? with
    | none => .ok none
    | some severity => (kind.create setting.options).map fun rule => some ⟨rule, some severity⟩

/-- The rules of a configuration, or the fault of its first entry that has one. -/
def ofConfig (config : Config) : Except ConfigFault RuleSet := do
  let rules ← config.rules.mapM fun (key, setting) => ofEntry key setting
  return ⟨rules.filterMap id, config.typeAware⟩

/-- The set with one more rule. -/
def withRule (set : RuleSet) (rule : Rule) (severity : Option Severity) : RuleSet :=
  { set with rules := set.rules ++ [⟨rule, severity⟩] }

/-- The names of the rules. -/
def ruleNames (set : RuleSet) : List String := set.rules.map (·.rule.name)

/-- Whether there are no rules. -/
def isEmpty (set : RuleSet) : Bool := set.rules.isEmpty

end RuleSet

end ComponentLint

import ComponentLint.Diagnostic.Basic
import ComponentLint.Json.Data
import ComponentLint.Rule.Basic

/-!
# Configurations

A configuration gives rules a level and options, and says whether types are looked at.
-/

namespace ComponentLint

/-- How much a rule's findings count. -/
inductive Level where
  | off
  | warn
  | error
deriving DecidableEq, Repr, Inhabited

namespace Level

/-- The severity of a level; `none` if the rule is off. -/
def severity? : Level → Option Severity
  | .off => none
  | .warn => some .warning
  | .error => some .error

/-- The name of a level. -/
def name : Level → String
  | .off => "off"
  | .warn => "warn"
  | .error => "error"

/-- The level that a JSON value names, by its name or its number. -/
def ofJson? : Json → Option Level
  | .string "off" | .number (.natural 0) => some .off
  | .string "warn" | .number (.natural 1) => some .warn
  | .string "error" | .number (.natural 2) => some .error
  | _ => none

end Level

/-- The level of a rule that is used without a configuration. -/
def RuleKind.defaultLevel : RuleKind → Level
  | .containerNames | .arrayAccess => .warn
  | _ => .error

/-- What a configuration says about a rule. -/
structure Setting where
  /-- How much its findings count. -/
  level : Level
  /-- Its options, if any are given. -/
  options : Option Json
deriving Repr, Inhabited

/-- The setting that a JSON value gives: a level, or an array with a level and perhaps options. -/
def Setting.ofJson? : Json → Option Setting
  | .array [level] => (Level.ofJson? level).map (⟨·, none⟩)
  | .array [level, options] => (Level.ofJson? level).map (⟨·, some options⟩)
  | v => (Level.ofJson? v).map (⟨·, none⟩)

/-- A configuration. -/
structure Config where
  /-- The settings of rules under the keys that were written for them, in order of first
  appearance. -/
  rules : List (String × Setting) := []
  /-- Whether types are looked at. -/
  typeAware : Bool := false
deriving Repr, Inhabited

/-- Puts the setting of a key over an earlier one, or at the end. -/
def Config.putRule (key : String) (setting : Setting) :
    List (String × Setting) → List (String × Setting)
  | [] => [(key, setting)]
  | (k, s) :: rest =>
    if k = key then (k, setting) :: rest else (k, s) :: putRule key setting rest

/-- The values that an option cannot have although their type is right. -/
inductive ValueFault where
  /-- The rule has no options. -/
  | takesNoOptions
  /-- A limit is below one. -/
  | limitTooLow (n : Int)
deriving DecidableEq, Repr, Inhabited

/-- The message of a value fault. -/
def ValueFault.message : ValueFault → String
  | .takesNoOptions => "rule takes no options"
  | .limitTooLow n => "maxWords must be at least 1, got " ++ toString n

/-- The reasons for which a configuration cannot be used. -/
inductive ConfigFault where
  /-- There is no rule with this name. -/
  | unknownRule (key : String)
  /-- The options of a rule have the wrong shape. -/
  | invalidOptions (rule : RuleKind) (fault : DataFault)
  /-- An option of a rule has a wrong value. -/
  | invalidValue (rule : RuleKind) (fault : ValueFault)
deriving DecidableEq, Repr, Inhabited

/-- The message of a configuration fault. -/
def ConfigFault.message : ConfigFault → String
  | .unknownRule key => "unknown rule " ++ Json.marked key
  | .invalidOptions rule fault =>
    "invalid options for " ++ Json.marked rule.name ++ ": " ++ fault.message
  | .invalidValue rule fault =>
    "invalid value for " ++ Json.marked rule.name ++ ": " ++ fault.message

end ComponentLint

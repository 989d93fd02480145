import ComponentLint.Diagnostic.Template
import ComponentLint.Span

/-!
# Diagnostics

What a rule says about a place in a file, with the changes that it offers.
-/

namespace ComponentLint

/-- How serious a diagnostic is. -/
inductive Severity where
  | error
  | warning
deriving DecidableEq, Repr, Inhabited

/-- A change to the source: the text to put in the place of a span. -/
structure Fix where
  /-- The span to replace. -/
  span : Span
  /-- What to put there. -/
  replacement : String
  /-- What the change does. -/
  message : Option String
deriving DecidableEq, Repr, Inhabited

/-- What a rule says about a place in a file. -/
structure Diagnostic where
  /-- The name of the rule. -/
  rule : String
  /-- The name of the message. -/
  messageId : String
  /-- The values in the message. -/
  data : TemplateData
  /-- The place in the source. -/
  span : Span
  /-- The message. -/
  message : String
  /-- How serious it is. -/
  severity : Severity
  /-- The changes that are offered. -/
  fixes : List Fix
deriving DecidableEq, Repr, Inhabited

namespace Diagnostic

/-- The diagnostic with a message made from a template. It is a warning and offers no change. -/
def ofTemplate (rule : String) (span : Span) (messageId : String) (template : Template)
    (pairs : List (String × String)) : Diagnostic :=
  let data := TemplateData.ofPairs pairs
  { rule, messageId, data, span
    message := String.ofList (template.fill data)
    severity := .warning
    fixes := [] }

/-- The diagnostic with another severity. -/
def withSeverity (d : Diagnostic) (severity : Severity) : Diagnostic := { d with severity }

/-- The diagnostic with one more change offered. -/
def withFix (d : Diagnostic) (fix : Fix) : Diagnostic := { d with fixes := d.fixes ++ [fix] }

end Diagnostic

end ComponentLint

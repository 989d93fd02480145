/-!
# Asking for sibling files

The one thing that a convention wants to know about the file system is whether a file of a given
name stands next to the linted one. A file that is missing is an answer; everything else that keeps
the question from being answered is a fault.
-/

namespace ComponentLint

/-- The reasons for which a probe has no answer. -/
inductive FileFault where
  /-- The path goes on after something that is no directory. -/
  | notADirectory
  /-- A name on the path, or the whole path, is too long. -/
  | invalidFilename
  /-- The path holds a character that no path can hold. -/
  | invalidInput
  /-- The file system refuses to answer. -/
  | permissionDenied
deriving DecidableEq, Repr, Inhabited

/-- Tells whether a file with a name exists next to the file at a path. -/
abbrev Siblings := (path name : String) → Except FileFault Bool

/-- A question about a sibling that was not answered. -/
structure ProbeFailure where
  /-- The path of the linted file. -/
  path : String
  /-- The name that was asked for. -/
  name : String
  /-- Why there is no answer. -/
  fault : FileFault
deriving DecidableEq, Repr, Inhabited

/-- The message of an unanswered question. -/
def ProbeFailure.message (f : ProbeFailure) : String :=
  "failed to probe for `" ++ f.name ++ "` next to " ++ f.path

end ComponentLint

import ComponentLint.Diagnostic.Basic

/-!
# Making fixes

A list of fixes is made from the left to the right in one pass over the bytes of a source. A fix that
begins before the last one that was made has ended is passed over; it can be made in another run.
-/

namespace ComponentLint

/-- The bytes of a text. -/
def bytes (text : List Char) : List UInt8 := text.flatMap String.utf8EncodeChar

namespace Fix

/-- The bytes that a fix puts in. -/
def newBytes (f : Fix) : List UInt8 := bytes f.replacement.toList

/-- What a source becomes from an offset on, up to which fixes have been made. -/
def applyFrom (source : List UInt8) (done : Nat) : List Fix → List UInt8
  | [] => source.drop done
  | f :: rest =>
    if f.span.start < done then applyFrom source done rest
    else
      (source.take f.span.start).drop done ++ f.newBytes ++ applyFrom source f.span.stop rest

/-- What a source becomes by fixes that are made one after the other. -/
def applyAll (source : List Char) (fixes : List Fix) : List UInt8 :=
  applyFrom (bytes source) 0 fixes

end Fix

end ComponentLint

import ComponentLint.Text.NameRanges

/-!
# Word characters and name characters

Two classes: the characters of names in scripts, and the word characters that selectors are made of.
They differ in a few ranges. Word characters follow version 16 of Unicode, names version 17.
-/

namespace ComponentLint.Text

/-- The two characters that join or separate their neighbours without being seen. -/
def isJoiner (n : Nat) : Bool := n == 0x200C || n == 0x200D

/-- Characters that may begin a name in a script. -/
def isNameStart (c : Char) : Bool :=
  let n := c.toNat
  if n < 0x80 then c.isAlpha || c == '$' || c == '_' else isNameStartBeyond n

/-- Characters that may continue a name in a script. -/
def isNamePart (c : Char) : Bool :=
  let n := c.toNat
  if n < 0x80 then c.isAlphanum || c == '$' || c == '_'
  else isNameStartBeyond n || isNamePartBeyond n || isJoiner n

/-- Word characters that stand in no name. -/
def wordOnlyRanges : Array (Nat × Nat) := #[
  (0x488, 0x489), (0x1ABE, 0x1ABE), (0x20DD, 0x20E0), (0x20E2, 0x20E4), (0x24B6, 0x24E9),
  (0x2E2F, 0x2E2F), (0xA670, 0xA672), (0x1F130, 0x1F149), (0x1F150, 0x1F169), (0x1F170, 0x1F189)]

/-- Name characters that are no word characters: punctuation inside names, some digits and symbols,
and what came with version 17 of Unicode. -/
def nameOnlyRanges : Array (Nat × Nat) := #[
  (0xB7, 0xB7), (0x387, 0x387), (0x88F, 0x88F), (0xC5C, 0xC5C), (0xCDC, 0xCDC), (0x1369, 0x1371),
  (0x19DA, 0x19DA), (0x1ACF, 0x1ADD), (0x1AE0, 0x1AEB), (0x2118, 0x2118), (0x212E, 0x212E),
  (0x309B, 0x309C), (0x30FB, 0x30FB), (0xA7CE, 0xA7CF), (0xA7D2, 0xA7D2), (0xA7D4, 0xA7D4),
  (0xA7F1, 0xA7F1), (0xFF65, 0xFF65), (0x10940, 0x10959), (0x10EC5, 0x10EC7), (0x10EFA, 0x10EFB),
  (0x11B60, 0x11B67), (0x11DB0, 0x11DDB), (0x11DE0, 0x11DE9), (0x16EA0, 0x16EB8),
  (0x16EBB, 0x16ED3), (0x16FF2, 0x16FF6), (0x187F8, 0x187FF), (0x18D09, 0x18D1E),
  (0x18D80, 0x18DF2), (0x1E6C0, 0x1E6DE), (0x1E6E0, 0x1E6F5), (0x1E6FE, 0x1E6FF),
  (0x2B73A, 0x2B73F), (0x2CEA2, 0x2CEAD), (0x323B0, 0x33479)]

/-- Word characters: whatever is alphabetic, a mark, a decimal digit, connecting punctuation or a
joiner. -/
def isWord (c : Char) : Bool :=
  let n := c.toNat
  if n < 0x80 then c.isAlphanum || c == '_'
  else (isNamePart c && !inRanges nameOnlyRanges n) || inRanges wordOnlyRanges n

end ComponentLint.Text

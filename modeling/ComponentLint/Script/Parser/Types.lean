import ComponentLint.Script.Parser.Binding

/-!
# Types

Types are read for their extent. What is kept of them is their span and the expressions inside
them, which are the computed keys of object types and the default values in parameter patterns.
-/

namespace ComponentLint.Script.Parser

/-- The expressions inside a binding. -/
def bindingParts : Binding → List Expr
  | .mk _ _ parts value => parts ++ value.toList

/-- The expressions inside some types. -/
def typeParts (types : List TypeTree) : List Expr := types.flatMap (·.parts)

/-! ## Type arguments and type parameters -/

/-- Type arguments in angle brackets: at least one. -/
def typeArguments (g : Grammar) : Parser (List Expr) := do
  splitOpen
  expectPunct "<"
  let types ← commaList ">" g.type
  expectThat (!types.isEmpty)
  return typeParts types

/-- Type arguments, if they begin on the same line. -/
def typeArguments? (g : Grammar) : Parser (List Expr) := do
  if ← afterNewline then return []
  splitOpen
  if ← atPunct "<" then typeArguments g else return []

/-- The type parameters of something. -/
structure Generics where
  /-- Their names. -/
  binders : List Binder := []
  /-- The expressions in their bounds and defaults. -/
  parts : List Expr := []
deriving Inhabited

/-- One type parameter: its name and the expressions inside it. -/
def typeParameter (g : Grammar) : Parser (Binder × List Expr) := do
  let found ← modifiers true false
  allowOnly Modifiers.ofTypeParameter found
  let name ← binder
  let bound ← if ← takeWord "extends" then pure (← g.type).parts else pure []
  let default ← if ← takePunct "=" then pure (← g.type).parts else pure []
  return (name, bound ++ default)

/-- Type parameters, if there are any. -/
def typeParameters (g : Grammar) : Parser Generics := do
  if !(← dialect).typed then return {}
  splitOpen
  unless ← takePunct "<" do return {}
  let found ← commaList ">" (typeParameter g)
  expectThat (!found.isEmpty)
  return ⟨found.map (·.1), found.flatMap (·.2)⟩

/-! ## Signatures -/

/-- Whether a name and `is` on the same line follow. -/
def atPredicate : Parser Bool := do
  unless ← atAnyWord do return false
  followedBy do
    advance
    return (← atWord "is") && !(← afterNewline)

/-- A return type, which may also be a predicate on a parameter; `type` reads what is no
predicate. -/
def returnTypeBy (g : Grammar) (type : Parser TypeTree) : Parser TypeTree := do
  let first ← start
  if ← atPredicate then
    advanceName
    advance
    let t ← g.type
    return { span := ← spanFrom first, parts := t.parts }
  type

/-- The return type after a colon, if there is one. -/
def returnAnnotation? (g : Grammar) : Parser (Option (List Expr)) := do
  if (← dialect).typed && (← takePunct ":") then return some (← returnTypeBy g g.type).parts
  return none

/-- Type parameters, parameters and return type of a signature: the expressions inside them, and
whether there is a return type. -/
def signature (g : Grammar) : Parser (List Expr × Bool) := do
  let generics ← typeParameters g
  let params ← parameters g .plain
  let result ← returnAnnotation? g
  return (generics.parts ++ params.all.flatMap bindingParts ++ result.getD [], result.isSome)

/-! ## Function types -/

/-- Whether a binding pattern without flaws stands at the next token; it is taken. -/
def skipPattern (g : Grammar) : Parser Bool := do
  let before := (← get).flawed
  modify fun s => { s with flawed := false }
  let _ ← g.pattern
  let clean := !(← get).flawed
  modify fun s => { s with flawed := before || s.flawed }
  return clean

/-- Whether the parenthesis at the next token begins the parameters of a function type. -/
def atParameters (g : Grammar) : Parser Bool := followedBy do
  advance
  if (← atPunct ")") || (← atPunct "...") then return true
  let _ ← modifiers false false
  if (← atName) || (← atWord "this") then advanceName
  else if (← atPunct "[") || (← atPunct "\x7b") then require (← skipPattern g)
  else return false
  if (← atPunct ":") || (← atPunct ",") || (← atPunct "?") || (← atPunct "=") then return true
  if ← takePunct ")" then atPunct "=>" else return false

/-- Whether a function type or a constructor type begins at the next token. -/
def atFunctionType (g : Grammar) : Parser Bool := do
  splitOpen
  if ← atPunct "<" then return true
  if ← atPunct "(" then return ← atParameters g
  if ← atWord "new" then return true
  unless ← atWord "abstract" do return false
  followedBy do
    advance
    atWord "new"

/-- A function type or a constructor type. -/
def functionType (g : Grammar) : Parser TypeTree := do
  let first ← start
  let _ ← takeWord "abstract"
  let _ ← takeWord "new"
  let generics ← typeParameters g
  let params ← parameters g .plain
  expectPunct "=>"
  let result ← returnTypeBy g g.typeHere
  let parts := generics.parts ++ params.all.flatMap bindingParts ++ result.parts
  return { span := ← spanFrom first, parts }

/-! ## Object types -/

/-- Takes what separates the members of an object type. It may be left out. -/
def memberEnd : Parser Unit := do
  unless ← takePunct "," do
    let _ ← takePunct ";"

/-- Whether an index signature begins at the bracket that is the next token. -/
def atIndexSignature : Parser Bool := do
  unless ← atPunct "[" do return false
  followedBy do
    advance
    unless ← atName do return false
    advance
    return (← atPunct ":") || (← atPunct ",")

/-- A type annotation that has to be there. -/
def neededAnnotation (g : Grammar) : Parser (List Expr) := do
  match ← annotation? g with
  | some parts => return parts
  | none => fail

/-- An index signature: one name with a type, and the type of the values. -/
def indexSignature (g : Grammar) : Parser (List Expr) := do
  expectPunct "["
  let _ ← anyWord
  let index ← neededAnnotation g
  expectPunct "]"
  let value ← neededAnnotation g
  memberEnd
  return index ++ value

/-- A call or construct signature from its type parameters on, as a member. -/
def signatureMember (g : Grammar) : Parser (List Expr) := do
  let (parts, _) ← signature g
  memberEnd
  return parts

/-- A method of an object type that reads or writes a property, from its key on. One that writes has
no return type. -/
def accessorSignature (g : Grammar) (writes : Bool) : Parser (List Expr) := do
  let k ← key g
  let params ← parameters g .plain
  let result ← returnAnnotation? g
  expectThat (!(writes && result.isSome))
  memberEnd
  return k.parts ++ params.all.flatMap bindingParts ++ result.getD []

/-- A member of an object type. -/
def typeMember (g : Grammar) : Parser (List Expr) := do
  splitOpen
  if (← atPunct "(") || (← atPunct "<") then return ← signatureMember g
  if (← atWord "new") && (← followedBy do
      advance
      return (← atPunct "(") || (← atPunct "<")) then
    advance
    return ← signatureMember g
  let found ← modifiers false false
  allowOnly ["readonly"] found
  if ← takeModifier "get" then return ← accessorSignature g false
  if ← takeModifier "set" then return ← accessorSignature g true
  if ← atIndexSignature then return ← indexSignature g
  let k ← key g
  let _ ← takePunct "?"
  splitOpen
  if (← atPunct "(") || (← atPunct "<") then
    expectThat found.words.isEmpty
    let parts ← signatureMember g
    return k.parts ++ parts
  let types ← annotation g
  memberEnd
  return k.parts ++ types

/-- The members of an object type or an interface with their braces. -/
def typeMembers (g : Grammar) : Parser (List Expr) := do
  expectPunct "\x7b"
  let parts ← untilPunct "\x7d" (typeMember g)
  return parts.flatten

/-- Whether a mapped type begins at the brace that is the next token. -/
def atMappedType : Parser Bool := followedBy do
  advance
  if (← atPunct "+") || (← atPunct "-") then
    advance
    return ← atWord "readonly"
  let _ ← takeWord "readonly"
  unless ← takePunct "[" do return false
  unless ← atName do return false
  advance
  atWord "in"

/-- Takes a sign, if there is one, and says whether there was. -/
def takeSign : Parser Bool := do
  if ← takePunct "+" then return true
  takePunct "-"

/-- A mapped type. -/
def mappedType (g : Grammar) : Parser (List Expr) := do
  expectPunct "\x7b"
  if ← takeSign then expectWord "readonly"
  else
    let _ ← takeWord "readonly"
  expectPunct "["
  let _ ← binder
  expectWord "in"
  let keys ← g.type
  let renamed ← if ← takeWord "as" then pure (← g.type).parts else pure []
  expectPunct "]"
  if ← takeSign then expectPunct "?"
  else
    let _ ← takePunct "?"
  let value ← annotation g
  let _ ← takePunct ";"
  expectPunct "\x7d"
  return keys.parts ++ renamed ++ value

/-! ## Tuple types -/

/-- What an element of a tuple type says about its neighbours. -/
inductive ElementForm where
  /-- It has to be there. -/
  | needed
  /-- It may be missing. -/
  | optional
  /-- It stands for any number of elements of one type. -/
  | rest
  /-- It stands for the elements of another type. -/
  | variadic
deriving DecidableEq, Repr, Inhabited

/-- Whether the elements of a tuple type are in order: nothing that has to be there follows
something that may be missing, and neither that nor another rest follows a rest. -/
def elementsFit : (optionalSeen restSeen : Bool) → List ElementForm → Bool
  | _, _, [] => true
  | optionalSeen, restSeen, .needed :: more =>
    !optionalSeen && elementsFit optionalSeen restSeen more
  | _, restSeen, .optional :: more => !restSeen && elementsFit true restSeen more
  | optionalSeen, restSeen, .rest :: more => !restSeen && elementsFit optionalSeen true more
  | optionalSeen, restSeen, .variadic :: more => elementsFit optionalSeen restSeen more

/-- Whether an element of a tuple has a name. -/
def atNamedElement : Parser Bool := followedBy do
  let _ ← takePunct "..."
  unless ← atAnyWord do return false
  advance
  let _ ← takePunct "?"
  atPunct ":"

/-- The form of an element that begins with dots. -/
def restForm (t : TypeTree) : ElementForm := if t.form == .array then .rest else .variadic

/-- An element of a tuple type. -/
def tupleElement (g : Grammar) : Parser (ElementForm × List Expr) := do
  if ← atNamedElement then
    let isRest ← takePunct "..."
    let _ ← anyWord
    let optional ← takePunct "?"
    expectThat (!(isRest && optional))
    expectPunct ":"
    let t ← g.type
    return (if isRest then restForm t else if optional then .optional else .needed, t.parts)
  if ← takePunct "..." then
    let t ← g.type
    return (restForm t, t.parts)
  let t ← g.type
  return (if t.form == .optional then .optional else .needed, t.parts)

/-- A tuple type with its brackets. -/
def tupleType (g : Grammar) : Parser (List Expr) := do
  expectPunct "["
  let elements ← commaList "]" (tupleElement g)
  expectThat (elementsFit false false (elements.map (·.1)))
  return elements.flatMap (·.2)

/-! ## Other types -/

/-- The parts of a template type after its first piece. -/
def templateType (g : Grammar) (closed : Bool) : Parser (List Expr) := do
  advance
  if closed then return []
  let parts ← loop [] fun parts => do
    let t ← g.type
    require (← atPunct "\x7d")
    let next := (← token).next
    match scanTemplate .between true next.offset next.rest with
    | none => fail
    | some (closed, fits, after) =>
      expectThat fits
      resumeAt after (← get).comments
      let parts := parts ++ t.parts
      return if closed then .done parts else .again parts
  return parts

/-- The names after the points of a qualified name. -/
def qualifiers : Parser Unit := do
  loop () fun _ => do
    unless ← takePunct "." do return .done ()
    let _ ← anyWord
    return .again ()

/-- The type that a module gives, after the word `import`: its name and perhaps options. -/
def importType (g : Grammar) : Parser (List Expr) := do
  expectPunct "("
  match ← kind with
  | .string _ _ => advance
  | _ => fail
  let extra ← if ← takePunct "," then
      match ← g.assignment with
      | .object span properties =>
        let _ ← takePunct ","
        pure [Expr.object span properties]
      | _ => fail
    else pure []
  expectPunct ")"
  qualifiers
  let arguments ← typeArguments? g
  return extra ++ arguments

/-- The type of a value, after the word `typeof`. -/
def typeQuery (g : Grammar) : Parser (List Expr) := do
  if ← takeWord "import" then importType g
  else
    let _ ← anyWord
    qualifiers
    typeArguments? g

/-- Whether a predicate that asserts something begins with the word at the next token. -/
def atAssertion : Parser Bool := followedBy do
  advance
  return ((← atName) || (← atWord "this")) && !(← afterNewline)

/-- The words that name a type by themselves, unless a point follows. -/
def keywordTypes : List String :=
  ["any", "unknown", "string", "number", "bigint", "symbol", "boolean", "undefined", "never",
    "object", "null"]

/-- A type that is named, from its name on. -/
def typeReference (g : Grammar) : Parser (List Expr) := do
  let _ ← anyWord
  qualifiers
  typeArguments? g

/-- A type that begins with a word. -/
def wordType (g : Grammar) (text : String) : Parser (List Expr) := do
  match text with
  | "typeof" => advance; typeQuery g
  | "import" => advance; importType g
  | "asserts" =>
    if ← atAssertion then
      advance
      advanceName
      if ← takeWord "is" then return (← g.type).parts
      return []
    typeReference g
  | "this" =>
    advance
    if (← atWord "is") && !(← afterNewline) then
      advance
      return (← g.type).parts
    return []
  | "void" | "true" | "false" => advance; return []
  | _ =>
    if keywordTypes.contains text && !(← followedBy do advance; atPunct ".") then
      advance
      return []
    typeReference g

/-- A type without operators around it. -/
def primaryType (g : Grammar) : Parser (TypeForm × List Expr) := do
  let other (p : Parser (List Expr)) : Parser (TypeForm × List Expr) := return (.other, ← p)
  match ← kind with
  | .word text _ => other (wordType g text)
  | .string _ _ | .number _ | .bigint => advance; return (.other, [])
  | .template closed fits =>
    expectThat fits
    other (templateType g closed)
  | .punct "-" =>
    advance
    match ← kind with
    | .number _ | .bigint => advance; return (.other, [])
    | _ => fail
  | .punct "(" =>
    advance
    let t ← g.type
    expectPunct ")"
    return (.other, t.parts)
  | .punct "[" => return (.tuple, ← tupleType g)
  | .punct "\x7b" => other (do if ← atMappedType then mappedType g else typeMembers g)
  | .punct "?" =>
    advance
    match ← kind with
    | .punct p =>
      if [",", "\x7d", ")", ">", "=", "|"].contains p then return (.other, [])
    | _ => pure ()
    other (return (← g.type).parts)
  | _ => fail

/-- The words that can begin a type although they are no names. -/
def typeOpeners : List String :=
  ["void", "null", "this", "typeof", "true", "false", "new", "import", "function"]

/-- Whether a type can begin at the next token; `inParen` decides after an opening parenthesis. -/
def atTypeOpener (inParen : Parser Bool) : Parser Bool := do
  match ← kind with
  | .word text _ => return !reservedWords.contains text || typeOpeners.contains text
  | .string _ _ | .number _ | .bigint | .template _ _ => return true
  | .punct "-" => followedBy do
      advance
      match ← kind with
      | .number _ | .bigint => return true
      | _ => return false
  | .punct "(" => followedBy do advance; inParen
  | .punct p => return ["\x7b", "[", "<", "<<", "|", "&", "*", "?", "!", "..."].contains p
  | _ => return false

/-- Whether a type or a parameter can begin at the next token, parentheses counting as
parameters. -/
def atTypeInParen : Parser Bool := do
  if (← atPunct ")") || (← atPunct "@") then return true
  atTypeOpener (pure true)

/-- Whether a type can begin at the next token. -/
def atType : Parser Bool := atTypeOpener atTypeInParen

/-- One thing that is done to a type: brackets, or a mark after it. A question mark before a type
belongs to a conditional type or expression. -/
def postfixTypeStep (g : Grammar) (t : TypeForm × List Expr) :
    Parser (Turn (TypeForm × List Expr)) := do
  if ← afterNewline then return .done t
  match ← kind with
  | .punct "!" =>
    advance
    return .again (.other, t.2)
  | .punct "?" =>
    if ← followedBy do advance; atType then return .done t
    advance
    return .again (.optional, t.2)
  | .punct "[" =>
    advance
    if ← takePunct "]" then return .again (.array, t.2)
    let index ← g.type
    expectPunct "]"
    return .again (.other, t.2 ++ index.parts)
  | _ => return .done t

/-- A type with what is done to it, or with an exclamation mark before it. -/
def postfixType (g : Grammar) : Parser TypeTree := do
  let first ← start
  let marks ← loop 0 fun n => do
    if ← takePunct "!" then return .again (n + 1)
    return .done n
  let (form, parts) ← primaryType g
  let (form, parts) ← loop (if marks = 0 then form else .other, parts) (postfixTypeStep g)
  return ⟨← spanFrom first, form, parts⟩

/-- The bound of an inferred type, unless it belongs to a conditional type. -/
def inferredBound (g : Grammar) : Parser (List Expr) := do
  let allowed := (← read).conditionalTypes
  let bound ← attempt do
    expectWord "extends"
    let t ← g.constraint
    if allowed && (← atPunct "?") then fail
    return t.parts
  return bound.getD []

/-- A type with type operators before it. The operator `readonly` goes with arrays and tuples. -/
def operandType (g : Grammar) : Parser TypeTree := do
  let first ← start
  if (← atWord "keyof") || (← atWord "unique") || (← atWord "readonly") then
    let needsArray ← atWord "readonly"
    advance
    let t ← g.operandType
    expectThat (!needsArray || t.form == .array || t.form == .tuple)
    return { span := ← spanFrom first, parts := t.parts }
  if ← takeWord "infer" then
    let _ ← binder
    let bound ← inferredBound g
    return { span := ← spanFrom first, parts := bound }
  within (fun c => { c with conditionalTypes := true }) (postfixType g)

/-- Types with the given sign between them, and perhaps before them. -/
def joinedTypes (sign : String) (operand : Parser TypeTree) : Parser TypeTree := do
  let first ← start
  let leading ← takePunct sign
  match ← separated sign operand with
  | [t] =>
    let span ← spanFrom first
    return if leading then { span, parts := t.parts } else t
  | types => return { span := ← spanFrom first, parts := typeParts types }

/-- A type. -/
def type (g : Grammar) : Parser TypeTree := do
  require (← dialect).typed
  let first ← start
  if ← atFunctionType g then return ← functionType g
  let t ← joinedTypes "|" (joinedTypes "&" g.operandType)
  if !(← read).conditionalTypes || (← afterNewline) then return t
  unless ← takeWord "extends" do return t
  let bound ← g.constraint
  expectPunct "?"
  let yes ← g.type
  expectPunct ":"
  let no ← g.type
  return { span := ← spanFrom first, parts := t.parts ++ bound.parts ++ yes.parts ++ no.parts }

end ComponentLint.Script.Parser

import ComponentLint.Script.Walk

/-!
# Names and their declarations

Every name that a file introduces belongs to a region of the source: the file, a function, a block.
A use of a name stands for the symbol in the innermost region around it that has the name as a
value; where a region introduces a name more than once, all of them are one symbol, and the first
introduction speaks for it.

The names are first announced, in source order and each with the regions around it, and then
entered into a table. A name whose reach is a function passes through open regions on its way out.
Where such a region has the name already, the symbol there moves out instead, and a region that has
been passed through has the name from then on.

Statements are searched without entering the expressions in them, because `Program.expressions`
lists the functions and classes inside expressions anyway.
-/

namespace ComponentLint.Script

/-- What a name was introduced as. -/
inductive Declaration where
  /-- A variable, with its declarator and the place of the name in it. -/
  | variable (binding : Binding) (binder : Binder)
  /-- A parameter, with the place of the name in it. -/
  | parameter (binding : Binding) (binder : Binder)
  /-- A function, a class, an import, … -/
  | other
deriving Inhabited

/-- A part of the source with its own names. -/
structure Region where
  /-- The whole region. -/
  span : Span
  /-- The part of it in which the names of its statements are known. -/
  inside : Span
  /-- Which of two regions with the same span is the inner one: that with the greater rank. -/
  rank : Nat
deriving DecidableEq, Repr, Inhabited

namespace Region

/-- The region of a whole file. -/
def file (span : Span) : Region := ⟨span, span, 0⟩

/-- The region in which only the name of a function expression is known. -/
def ownName (span : Span) : Region := ⟨span, span, 1⟩

/-- The region of a function with its parameters; `inside` is the part with its statements. -/
def function (span inside : Span) : Region := ⟨span, inside, 2⟩

/-- Any other region. -/
def block (span : Span) : Region := ⟨span, span, 2⟩

/-- Whether a region lies in another one. -/
def isInside (inner outer : Region) : Bool :=
  outer.span.encloses inner.span && (outer.span != inner.span || outer.rank < inner.rank)

end Region

/-- The regions around a statement. -/
structure Surroundings where
  /-- The open regions, the innermost first. -/
  opened : List Region
  /-- The closed region around them, which no name of a function's reach leaves. -/
  home : Region
deriving Inhabited

namespace Surroundings

/-- The innermost region. -/
def region (s : Surroundings) : Region := s.opened.head?.getD s.home

/-- The surroundings inside one more open region. -/
def enter (s : Surroundings) (r : Region) : Surroundings := { s with opened := r :: s.opened }

/-- The surroundings inside a closed region. -/
def closed (r : Region) : Surroundings := ⟨[], r⟩

end Surroundings

/-- The introduction of a name, with the regions around it. -/
structure Announcement where
  /-- The name. -/
  name : String
  /-- Whether the name can stand for a value. -/
  isValue : Bool
  /-- What the name is introduced as. -/
  declaration : Declaration
  /-- How far the name reaches. -/
  reach : Reach
  /-- Whether the name is known in the whole region, not only in the part with its statements. -/
  isEarly : Bool
  /-- The regions around it. -/
  place : Surroundings
deriving Inhabited

/-! ## What exists when a program runs -/

mutual

/-- Whether a statement of a namespace makes something that exists when the program runs. `known`
tells this of the names that the namespace introduces; a list exports as much as its names stand
for. -/
def Stmt.isRuntime (known : List (String × Bool)) : Stmt → Bool
  | .declaration _ _ isValue _ => isValue
  | .space _ _ _ body => anyRuntime (runtimeNamesOf body) body
  | .alias _ _ => false
  | .importFrom _ _ _ => false
  | .exportDeclaration _ (.alias _ _) => true
  | .exportDeclaration _ declared => declared.isRuntime known
  | .exportList _ items fromElsewhere =>
    fromElsewhere || items.any fun item =>
      match item.inside with
      | .quoted _ => true
      | .plain b =>
        let found := known.filter (·.1 = b.name)
        found.isEmpty || found.any (·.2)
  | _ => true

/-- The names that a statement of a namespace introduces, and whether they exist when the program
runs. -/
def Stmt.runtimeNames : Stmt → List (String × Bool)
  | .variables _ _ bindings => bindings.flatMap fun b => b.pattern.binders.map (·.name, true)
  | .function _ fn => fn.binder.toList.map (·.name, true)
  | .declaration _ binders isValue _ => binders.map (·.name, isValue)
  | .space _ name _ body =>
    let isRuntime := anyRuntime (runtimeNamesOf body) body
    name.toList.map (·.name, isRuntime)
  | .alias _ b => [(b.name, false)]
  | .importFrom _ _ items => (items.getD []).map (·.binder.name, false)
  | .exportDeclaration _ declared => declared.runtimeNames
  | _ => []

/-- Whether one of some statements makes something that exists when the program runs. -/
def anyRuntime (known : List (String × Bool)) : List Stmt → Bool
  | [] => false
  | s :: rest => s.isRuntime known || anyRuntime known rest

/-- The names that statements introduce, and whether they exist when the program runs. -/
def runtimeNamesOf : List Stmt → List (String × Bool)
  | [] => []
  | s :: rest => s.runtimeNames ++ runtimeNamesOf rest

end

/-! ## Announcements -/

/-- The announcement of a name that is no variable or parameter. -/
def Binder.announcement (place : Surroundings) (isValue : Bool) (b : Binder) : Announcement :=
  ⟨b.name, isValue, .other, .block, false, place⟩

/-- The names of a variable's declarator. -/
def Binding.variables (place : Surroundings) (reach : Reach) (b : Binding) : List Announcement :=
  b.pattern.binders.map fun n => ⟨n.name, true, .variable b n, reach, false, place⟩

/-- The names of a parameter. Those of a rest parameter count as neither variable nor parameter. -/
def Binding.parameters (place : Surroundings) (b : Binding) : List Announcement :=
  b.pattern.binders.map fun n =>
    let declaration := match b.pattern with
      | .rest _ => .other
      | _ => .parameter b n
    ⟨n.name, true, declaration, .block, true, place⟩

/-- The local name of an imported item. -/
def ImportItem.announcement (place : Surroundings) (item : ImportItem) : Announcement :=
  item.binder.announcement place (!item.typeOnly)

mutual

/-- The names that a statement introduces, without entering its expressions. -/
def Stmt.announcements (place : Surroundings) : Stmt → List Announcement
  | .expression _ _ => []
  | .target _ => []
  | .variables _ reach bindings => bindings.flatMap (·.variables place reach)
  | .function span fn =>
    fn.binder.toList.map (·.announcement place true) ++ fn.announcements span none
  | .block span true body => announcementsOf (.closed (.block span)) body
  | .block span false body => announcementsOf (place.enter (.block span)) body
  | .declaration _ binders isValue body =>
    binders.map (·.announcement place isValue) ++ announcementsOf place body
  | .space _ name inside body =>
    name.toList.map (·.announcement place (anyRuntime (runtimeNamesOf body) body)) ++
      announcementsOf (.closed (.block inside)) body
  | .alias _ b => [b.announcement place true]
  | .importFrom _ _ items => (items.getD []).map (·.announcement place)
  | .exportDeclaration _ declared => declared.announcements place
  | .exportList _ _ _ => []
  | .exportDefault _ exported => exported.announcements place
  | .compound _ parts => announcementsOf place parts

/-- The names that a function with the given span introduces inside itself; `own` is its own name if
that is known only inside. -/
def Function.announcements (span : Span) (own : Option Binder) : Function → List Announcement
  | .mk _ generics _ parameters _ body braces =>
    let place : Surroundings := .closed (.function span (braces.getD span))
    own.toList.map (·.announcement (.closed (.ownName span)) true) ++
      generics.map (fun b => { b.announcement place false with isEarly := true }) ++
      parameters.flatMap (·.parameters place) ++
      announcementsOf place body

/-- The names that statements introduce. -/
def announcementsOf (place : Surroundings) : List Stmt → List Announcement
  | [] => []
  | s :: rest => s.announcements place ++ announcementsOf place rest

end

/-- The names that a function or class expression introduces inside itself. -/
def Expr.announcements : Expr → List Announcement
  | .function span fn => fn.announcements span fn.binder
  | .classLike span own members =>
    let place : Surroundings := .closed (.block span)
    own.toList.map (·.announcement place true) ++ announcementsOf place members
  | _ => []

/-- Every introduction of a name in a program. -/
def Program.announcements (p : Program) : List Announcement :=
  announcementsOf (.closed (.file p.span)) p.body ++ p.expressions.flatMap (·.announcements)

/-! ## The table of names -/

/-- What a name stands for. -/
structure Symbol where
  /-- Whether it can stand for a value. -/
  isValue : Bool
  /-- Its first introduction. -/
  declaration : Declaration
deriving Inhabited

/-- A name of a region. -/
structure Entry where
  /-- The region. -/
  region : Region
  /-- The part of the source in which the name is known. -/
  zone : Span
  /-- The name. -/
  name : String
  /-- The number of its symbol. -/
  symbol : Nat
deriving Repr, Inhabited

/-- The names of a program. -/
structure NameTable where
  /-- The symbols by their numbers. -/
  symbols : Array Symbol := #[]
  /-- The names that belong to regions. -/
  known : List Entry := []
  /-- The names that passed through regions. -/
  passed : List Entry := []
deriving Inhabited

namespace NameTable

/-- The symbol that a region has for a name, as its own or as one that passed through. -/
def symbolAt? (t : NameTable) (region : Region) (name : String) : Option Nat :=
  let fits (e : Entry) : Bool := e.region == region && e.name == name
  ((t.known.find? fits).or (t.passed.find? fits)).map (·.symbol)

/-- Lets a symbol stand also for what is announced. -/
def join (t : NameTable) (symbol : Nat) (a : Announcement) : NameTable :=
  { t with
    symbols := t.symbols.modify symbol fun s => { s with isValue := s.isValue || a.isValue } }

/-- Enters a name into a region and gives the number of its symbol. -/
def declare (t : NameTable) (region : Region) (a : Announcement) : NameTable × Nat :=
  match t.symbolAt? region a.name with
  | some symbol => (t.join symbol a, symbol)
  | none =>
    let symbol := t.symbols.size
    let zone := if a.isEarly then region.span else region.inside
    ({ t with
        symbols := t.symbols.push ⟨a.isValue, a.declaration⟩
        known := ⟨region, zone, a.name, symbol⟩ :: t.known }, symbol)

/-- Moves a name with its symbol from one region to another, in the place of any there. -/
def move (t : NameTable) (name : String) (symbol : Nat) (source target : Region) : NameTable :=
  let rest := t.known.filter fun e =>
    !(e.name == name && (e.region == source || e.region == target))
  { t with known := ⟨target, target.inside, name, symbol⟩ :: rest }

/-- Enters a name whose reach is a function. -/
def hoist (t : NameTable) (a : Announcement) : NameTable :=
  let met := a.place.opened.findSome? fun r => (t.symbolAt? r a.name).map (r, ·)
  let (t, symbol) := match met with
    | some (r, symbol) => ((t.join symbol a).move a.name symbol r a.place.home, symbol)
    | none => t.declare a.place.home a
  { t with passed := a.place.opened.map (⟨·, a.place.home.inside, a.name, symbol⟩) ++ t.passed }

/-- Enters what is announced. -/
def enter (t : NameTable) (a : Announcement) : NameTable :=
  match a.reach with
  | .function => t.hoist a
  | .block => (t.declare a.place.region a).1

/-- The entry in the innermost region. -/
def innermost : List Entry → Option Entry
  | [] => none
  | e :: rest =>
    match innermost rest with
    | none => some e
    | some f => if f.region.isInside e.region then some f else some e

/-- What a name stands for as a value at an offset. A region that has the name only as a type is
passed over. -/
def resolve? (t : NameTable) (name : String) (offset : Nat) : Option Declaration :=
  let values := t.known.filter fun e =>
    e.name == name && e.zone.covers offset && (t.symbols[e.symbol]?.map (·.isValue)).getD false
  (innermost values).bind fun e => t.symbols[e.symbol]?.map (·.declaration)

end NameTable

/-- The names of a program. -/
def Program.names (p : Program) : NameTable := p.announcements.foldl NameTable.enter {}

end ComponentLint.Script

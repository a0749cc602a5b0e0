import RequestAtlas.Yaml.Plain
import RequestAtlas.Yaml.Token
/-!
# Nodes of a document

The tree that the tokens of a document spell.  A node with an anchor may be repeated by its name.  A node that
repeats one it is part of is a `cycle`.
-/

namespace RequestAtlas.Yaml

inductive Node where
  | scalar (tag : Tag) (text : String)
  | sequence (tag : Tag) (items : List Node)
  | mapping (tag : Tag) (entries : List (Node × Node))
  | cycle
deriving Repr, Inhabited

def Node.tag : Node → Tag
  | .scalar t _ => t
  | .sequence t _ => t
  | .mapping t _ => t
  | .cycle => .mapping

/-- The address in front of the names of all standard tags. -/
def standardUri : String := "tag:yaml.org,2002:"

/-- The standard tags and their names. -/
def standardTags : List (String × Tag) :=
  [("null", .null), ("bool", .bool), ("int", .int), ("float", .float), ("timestamp", .timestamp),
    ("merge", .merge), ("value", .value), ("str", .string), ("binary", .binary), ("seq", .sequence),
    ("map", .mapping), ("set", .set), ("omap", .pairs), ("pairs", .pairs)]

/-- The tag with the given full name. -/
def Tag.ofName (name : String) : Tag :=
  match standardTags.find? fun (n, _) => standardUri ++ n == name with
  | some (_, t) => t
  | none => .unknown name

/-! ## Reading tokens -/

/-- What is left of the tokens, the anchors met so far and the handles of tags.  An anchor has no node yet
while its node is being read. -/
structure Reading where
  tokens : List Token
  anchors : List (String × Option Node) := []
  handles : List (String × String)

abbrev Read (α : Type) := StateT Reading (Except Error) α

namespace Read

def fail {α : Type} : Read α := throw .malformed

/-- The next token; there is always one, because the end is a token and never read. -/
def ahead : Read Token := do return ((← get).tokens.head?).getD .streamEnd

/-- Whether the next token is one of some. -/
def sees (ts : List Token) : Read Bool := do return ts.contains (← ahead)

def skip : Read Unit := modify fun s => { s with tokens := s.tokens.drop 1 }

/-- Read a token if it is the next. -/
def accept (t : Token) : Read Bool := do
  if (← ahead) == t then
    skip
    return true
  else return false

/-- Read a token that must be the next. -/
def expect (t : Token) : Read Unit := do
  if !(← accept t) then fail

/-- The node of nothing. -/
def empty : Node := .scalar .null ""

/-- The full name of a tag. -/
def resolveTag (handle : Option String) (suffix : String) : Read String := do
  match handle with
  | none => return suffix
  | some h =>
    match (← get).handles.find? (·.1 == h) with
    | some (_, uri) => return uri ++ suffix
    | none => fail

/-- The name of an anchor, if there is one here. -/
def anchor? : Read (Option String) := do
  match ← ahead with
  | .anchor a =>
    skip
    return some a
  | _ => return none

/-- The full name of a tag, if there is one here. -/
def tag? : Read (Option String) := do
  match ← ahead with
  | .tag h s =>
    skip
    return some (← resolveTag h s)
  | _ => return none

/-- An anchor and a tag in either order. -/
def properties : Read (Option String × Option String) := do
  match ← anchor? with
  | some a => return (some a, ← tag?)
  | none =>
    match ← tag? with
    | some t => return (← anchor?, some t)
    | none => return (none, none)

/-- The tag of a node: as it is marked, or else by its form.  A lone exclamation mark leaves it to the form. -/
def tagOr (tag : Option String) (byForm : Tag) : Tag :=
  match tag with
  | some name => if name == "!" then byForm else .ofName name
  | none => byForm

/-- Remember a node under its anchor. -/
def remember (anchor : Option String) (n : Option Node) : Read Unit :=
  match anchor with
  | some a => modify fun s => { s with anchors := (a, n) :: s.anchors }
  | none => pure ()

/-- Read items until the reader says that there are no more. -/
def collect {α : Type} (item : Bool → Read (Option α)) : Nat → Bool → List α → Read (List α)
  | 0, _, acc => return acc.reverse
  | fuel + 1, first, acc => do
    match ← item first with
    | some a => collect item fuel false (a :: acc)
    | none => return acc.reverse

mutual

/-- Read a node.  `block` allows blocks; `indentless` allows a sequence that is not indented. -/
def node (fuel : Nat) (block indentless : Bool) : Read Node :=
  match fuel with
  | 0 => fail
  | fuel + 1 => do
    if let .reference name := ← ahead then
      skip
      match (← get).anchors.find? (·.1 == name) with
      | some (_, some n) => return n
      | some (_, none) => return .cycle
      | none => fail
    else
      let (anchor, tag) ← properties
      if let some a := anchor then
        if (← get).anchors.any (·.1 == a) then fail
      let collection (read : Read Node) : Read Node := do
        remember anchor none
        let n ← read
        remember anchor (some n)
        return n
      match ← ahead with
      | .scalar text plain =>
        skip
        let byForm := if plain || tag == some "!" then kindOf text else .string
        let n := Node.scalar (tagOr tag byForm) text
        remember anchor (some n)
        return n
      | .flowSequenceStart =>
        skip
        collection do return .sequence (tagOr tag .sequence) (← flowItems fuel)
      | .flowMappingStart =>
        skip
        collection do return .mapping (tagOr tag .mapping) (← flowEntries fuel)
      | .blockEntry =>
        if indentless then
          collection do return .sequence (tagOr tag .sequence) (← plainItems fuel)
        else other anchor tag
      | .blockSequenceStart =>
        if block then
          skip
          collection do return .sequence (tagOr tag .sequence) (← blockItems fuel)
        else other anchor tag
      | .blockMappingStart =>
        if block then
          skip
          collection do return .mapping (tagOr tag .mapping) (← blockEntries fuel)
        else other anchor tag
      | _ => other anchor tag
  where
    /-- Without content there is an empty node, if there are properties at all. -/
    other (anchor tag : Option String) : Read Node := do
      if anchor.isSome || tag.isSome then
        let n := Node.scalar (tagOr tag (if tag.isNone || tag == some "!" then .null else .string)) ""
        remember anchor (some n)
        return n
      else fail

/-- A node, or nothing where one of some tokens follows. -/
def nodeUnless (fuel : Nat) (block indentless : Bool) (ends : List Token) : Read Node :=
  match fuel with
  | 0 => fail
  | fuel + 1 => do if ← sees ends then return empty else node fuel block indentless

/-- The items of a block sequence. -/
def blockItems (fuel : Nat) : Read (List Node) :=
  match fuel with
  | 0 => fail
  | fuel + 1 => do
    let items ← collect (fun _ => do
      if ← accept .blockEntry then
        return some (← nodeUnless fuel true false [.blockEntry, .blockEnd])
      else
        expect .blockEnd
        return none) ((← get).tokens.length + 1) true []
    return items

/-- The items of a sequence that is not indented. -/
def plainItems (fuel : Nat) : Read (List Node) :=
  match fuel with
  | 0 => fail
  | fuel + 1 => do
    collect (fun _ => do
      if ← accept .blockEntry then
        return some (← nodeUnless fuel true false [.blockEntry, .key, .value, .blockEnd])
      else return none) ((← get).tokens.length + 1) true []

/-- The entries of a block mapping. -/
def blockEntries (fuel : Nat) : Read (List (Node × Node)) :=
  match fuel with
  | 0 => fail
  | fuel + 1 => do
    let ends := [Token.key, .value, .blockEnd]
    collect (fun _ => do
      if ← sees [.key, .value] then
        let k ← if ← accept .key then nodeUnless fuel true true ends else fail
        let v ← if ← accept .value then nodeUnless fuel true true ends else pure empty
        return some (k, v)
      else
        expect .blockEnd
        return none) ((← get).tokens.length + 1) true []

/-- The items of a sequence in brackets. -/
def flowItems (fuel : Nat) : Read (List Node) :=
  match fuel with
  | 0 => fail
  | fuel + 1 => do
    collect (fun first => do
      if ← accept .flowSequenceEnd then return none
      if !first then expect .flowEntry
      if ← accept .flowSequenceEnd then return none
      else if ← accept .key then
        let k ← nodeUnless fuel false false [.value, .flowEntry, .flowSequenceEnd]
        let v ←
          if ← accept .value then nodeUnless fuel false false [.flowEntry, .flowSequenceEnd]
          else pure empty
        return some (.mapping .mapping [(k, v)])
      else return some (← node fuel false false)) ((← get).tokens.length + 1) true []

/-- The entries of a mapping in braces. -/
def flowEntries (fuel : Nat) : Read (List (Node × Node)) :=
  match fuel with
  | 0 => fail
  | fuel + 1 => do
    collect (fun first => do
      if ← accept .flowMappingEnd then return none
      if !first then expect .flowEntry
      if ← accept .flowMappingEnd then return none
      else if ← accept .key then
        let k ← nodeUnless fuel false false [.value, .flowEntry, .flowMappingEnd]
        let v ←
          if ← accept .value then nodeUnless fuel false false [.flowEntry, .flowMappingEnd]
          else pure empty
        return some (k, v)
      else return some (← node fuel false false, empty)) ((← get).tokens.length + 1) true []

end

/-! ## Documents -/

/-- The handles of tags that are always there. -/
def defaultHandles : List (String × String) := [("!", "!"), ("!!", standardUri)]

/-- Directives in front of a document.  Each may be given once, and the version must be one that is known. -/
def directives : Nat → Bool → List (String × String) → Read (List (String × String))
  | 0, _, handles => return handles
  | fuel + 1, versioned, handles => do
    match ← ahead with
    | .directive (.version major) =>
      if versioned || major != 1 then fail
      skip
      directives fuel true handles
    | .directive (.tag handle uri) =>
      if handles.any (·.1 == handle) then fail
      skip
      directives fuel versioned ((handle, uri) :: handles)
    | .directive .other =>
      skip
      directives fuel versioned handles
    | _ => return handles

/-- Whether the next token is a directive. -/
def seesDirective : Read Bool := do
  match ← ahead with
  | .directive _ => return true
  | _ => return false

/-- The one document of the tokens, if there is any. -/
def document (fuel : Nat) : Read (Option Node) := do
  if ← sees [.streamEnd] then return none
  let explicit := (← seesDirective) || (← sees [.documentStart])
  if explicit then
    let own ← directives fuel false []
    modify fun s => { s with
      handles := own ++ s.handles.filter fun h => !own.any (·.1 == h.1) }
    expect .documentStart
  let hollow := (← sees [.documentStart, .documentEnd, .streamEnd]) || (← seesDirective)
  let n ← if explicit && hollow then pure empty else node fuel true false
  let _ ← collect (fun _ => do if ← accept .documentEnd then return some () else return none) fuel true []
  if ← sees [.streamEnd] then return some n else fail

end Read

variable [Surrogates]

/-- The node of a document, if it has one. -/
def parse (text : List Char) : Except Error (Option Node) := do
  let ts ← tokens text
  let fuel := 4 * ts.length + 8
  let (n, _) ← (Read.document fuel).run { tokens := ts, handles := Read.defaultHandles }
  return n

end RequestAtlas.Yaml

import RequestAtlas.Settings.Field
import RequestAtlas.Yaml.Node
/-!
# Data of a document

The data that the nodes of a document stand for.  Faults are looked for level by level, from the outside to the
inside; `datum` then gives the data of a document without faults.
-/

namespace RequestAtlas.Yaml

/-! ## Bytes -/

/-- The value of a character in base sixty-four. -/
def base64Value? (c : Char) : Option Nat :=
  if 'A' ≤ c ∧ c ≤ 'Z' then some (c.toNat - 65)
  else if 'a' ≤ c ∧ c ≤ 'z' then some (c.toNat - 71)
  else if '0' ≤ c ∧ c ≤ '9' then some (c.toNat + 4)
  else if c = '+' then some 62
  else if c = '/' then some 63
  else none

/-- Decode characters in base sixty-four.  `phase` counts the characters of the group of four that is being
read, `left` holds the bits not yet written, `pads` the padding seen; other characters are skipped. -/
def base64 (phase left pads : Nat) : List Char → Option (List UInt8)
  | [] => if phase = 0 then some [] else none
  | c :: cs =>
    if c = '=' then
      if 2 ≤ phase ∧ 4 ≤ phase + pads + 1 then some [] else base64 phase left (pads + 1) cs
    else
      match base64Value? c with
      | none => base64 phase left pads cs
      | some v =>
        match phase with
        | 0 => base64 1 v 0 cs
        | 1 => (base64 2 (v % 16) 0 cs).map ((left * 4 + v / 16).toUInt8 :: ·)
        | 2 => (base64 3 (v % 4) 0 cs).map ((left * 16 + v / 4).toUInt8 :: ·)
        | _ => (base64 0 0 0 cs).map ((left * 64 + v).toUInt8 :: ·)

/-- The bytes that a text spells. -/
def readBytes (text : String) : Option (List UInt8) :=
  if text.toList.all (·.toNat < 128) then base64 0 0 0 text.toList else none

/-! ## Scalars -/

/-- The datum of a scalar. -/
def scalarDatum (tag : Tag) (text : String) : Except Error Datum :=
  let valid {α : Type} (r : Except Invalid α) : Except Error α := r.mapError .invalid
  match tag with
  | .null => .ok .null
  | .bool => do return .scalar (.bool (← valid (readTruth text)))
  | .int => do return .scalar (.int (← valid (readInteger text)))
  | .float => do return .scalar (.float (← valid (readFraction text)))
  | .timestamp =>
    match timestamp? text.toList with
    | some t => do
      valid (checkTimestamp t)
      return .other
    | none => .error (.invalid .moment)
  | .string => .ok (.string text)
  | .binary =>
    match readBytes text with
    | some bs => .ok (.bytes bs)
    | none => .error .malformed
  | _ => .error .malformed

/-! ## Faults -/

mutual

/-- The entries of a mapping with merged ones in front: those merged, and its own. -/
def flatten : List (Node × Node) → Except Error (List (Node × Node) × List (Node × Node))
  | [] => .ok ([], [])
  | (k, v) :: rest => do
    if k.tag = .merge then
      let here ← mergedBy v
      let (more, own) ← flatten rest
      return (here ++ more, own)
    else
      let (merged, own) ← flatten rest
      return (merged, (k, v) :: own)

/-- The entries that a node brings in when it is merged. -/
def mergedBy : Node → Except Error (List (Node × Node))
  | .mapping _ es => do
    let (merged, own) ← flatten es
    return merged ++ own
  | .sequence _ items => mergedByAll items
  | .scalar _ _ => .error .malformed
  | .cycle => .ok []

/-- The entries that several mappings bring in, the first of them last. -/
def mergedByAll : List Node → Except Error (List (Node × Node))
  | [] => .ok []
  | .mapping _ es :: rest => do
    let (merged, own) ← flatten es
    return (← mergedByAll rest) ++ merged ++ own
  | _ :: _ => .error .malformed

end

/-- Whether a tag is one of a collection. -/
def Tag.isCollection : Tag → Bool
  | .sequence => true
  | .mapping => true
  | .set => true
  | .pairs => true
  | _ => false

/-- Check a node; a collection is left for the next level. -/
def checkNode (n : Node) : Except Error (List Node) :=
  match n with
  | .cycle => .ok []
  | n =>
    if n.tag.isCollection then .ok [n]
    else
      match n with
      | .scalar t text => do
        let _ ← scalarDatum t text
        return []
      | _ => .error .malformed

/-- Check a key, which must not be a collection. -/
def checkKey (n : Node) : Except Error Unit :=
  match n with
  | .scalar .value _ => .ok ()
  | .scalar t text => do
    let _ ← scalarDatum t text
  | _ => .error .malformed

/-- Check the entries of a mapping and give its collections. -/
def checkEntries (es : List (Node × Node)) : Except Error (List Node) := do
  let (merged, own) ← flatten es
  let next ← (merged ++ own).mapM fun (k, v) => do
    checkKey k
    checkNode v
  return next.flatten

/-- Check the nodes directly inside a collection and give the collections among them. -/
def checkInside (n : Node) : Except Error (List Node) :=
  match n with
  | .sequence .sequence items => do return (← items.mapM checkNode).flatten
  | .sequence .pairs items => do
    let next ← items.mapM fun item =>
      match item with
      | .mapping _ [(k, v)] => do return (← checkNode k) ++ (← checkNode v)
      | _ => .error .malformed
    return next.flatten
  | .mapping .mapping es => checkEntries es
  | .mapping .set es => checkEntries es
  | _ => .error .malformed

/-- Check collections and all inside them, level by level. -/
def checkLevels : Nat → List Node → Except Error Unit
  | 0, _ => .ok ()
  | _, [] => .ok ()
  | fuel + 1, n :: ns => do
    let next ← (n :: ns).mapM checkInside
    checkLevels fuel next.flatten

/-! ## Data -/

/-- Set a key: in place if it is there, else at the end. -/
def putDatum (es : List (Datum × Datum)) (key value : Datum) : List (Datum × Datum) :=
  match es with
  | [] => [(key, value)]
  | (k, v) :: rest =>
    match k, key with
    | .scalar a, .scalar b =>
      if a.sameKey b then (k, value) :: rest else (k, v) :: putDatum rest key value
    | _, _ => (k, v) :: putDatum rest key value

mutual

/-- The datum of a node. -/
def datum : Node → Datum
  | .cycle => .other
  | .scalar .value text => .string text
  | .scalar t text =>
    match scalarDatum t text with
    | .ok d => d
    | .error _ => .other
  | .sequence _ items => .list (data items)
  | .mapping t es =>
    let (merged, own) := entries es
    let all := (merged ++ own).foldl (fun acc (k, v) => putDatum acc k v) []
    if t = .set then .list (all.map (·.1)) else .mapping all

/-- The data of some nodes. -/
def data : List Node → List Datum
  | [] => []
  | n :: ns => datum n :: data ns

/-- The data of entries: those merged, and the own ones. -/
def entries : List (Node × Node) → List (Datum × Datum) × List (Datum × Datum)
  | [] => ([], [])
  | (k, v) :: rest =>
    let (merged, own) := entries rest
    if k.tag = .merge then (mergedData v ++ merged, own) else (merged, (datum k, datum v) :: own)

/-- The data that a node brings in when it is merged. -/
def mergedData : Node → List (Datum × Datum)
  | .mapping _ es =>
    let (merged, own) := entries es
    merged ++ own
  | .sequence _ items => mergedDataAll items
  | _ => []

/-- The data that several mappings bring in, the first of them last. -/
def mergedDataAll : List Node → List (Datum × Datum)
  | [] => []
  | n :: ns => mergedDataAll ns ++ mergedData n

end

/-- Line breaks of every system as line feeds. -/
def plainBreaksOf : List Char → List Char
  | '\r' :: '\n' :: cs => '\n' :: plainBreaksOf cs
  | '\r' :: cs => '\n' :: plainBreaksOf cs
  | c :: cs => c :: plainBreaksOf cs
  | [] => []

variable [Surrogates]

/-- Read the one document of a text; an empty one is nothing. -/
def read (text : List Char) : Except Error Datum := do
  match ← parse (plainBreaksOf text) with
  | none => return .null
  | some n =>
    let next ← checkNode n
    checkLevels (text.length + 2) next
    return datum n

end RequestAtlas.Yaml

import RequestAtlas.Value.Printer
/-!
# Shared and cyclic values

A value may be a graph: containers refer to each other, may be shared and may contain themselves.  `Graph`
holds containers by number.  `canonical` makes an ordered copy; a container that is being copied already is
not entered again but stands as itself, so there are always fewer containers left to enter (`idle_cons`).
`render` writes the copy, which fails where a container contains itself.
-/

namespace RequestAtlas

/-- A value without parts. -/
inductive Scalar where
  | null
  | bool (b : Bool)
  | int (n : Int)
  | float (x : Binary64)
  | string (s : String)
deriving DecidableEq, Repr, Inhabited

namespace Scalar

def toValue : Scalar → Value
  | null => .null
  | bool b => .bool b
  | int n => .int n
  | float x => .float x
  | string s => .string s

/-- The text that a scalar has as a key, if it can be written. -/
def keyText : Scalar → Except RenderError String
  | null => .ok "None"
  | bool true => .ok "True"
  | bool false => .ok "False"
  | int n => if Value.isLong n then .error .longInteger else .ok (toString n)
  | float x => .ok (NumberLayout.plain.render x)
  | string s => .ok s

/-- A number by which keys are ordered. -/
structure Magnitude where
  /-- One for infinity, minus one for its opposite, zero for all else. -/
  infinity : Int := 0
  numerator : Int := 0
  denominator : Nat := 1
deriving DecidableEq, Repr

def Magnitude.le (a b : Magnitude) : Bool :=
  if a.infinity = b.infinity then a.numerator * b.denominator ≤ b.numerator * a.denominator
  else a.infinity ≤ b.infinity

/-- The number that a scalar counts as; truth values are one and zero. -/
def magnitude? : Scalar → Option Magnitude
  | bool b => some { numerator := if b then 1 else 0 }
  | int n => some { numerator := n }
  | float (.finite s m e) =>
    let (n, d) := Binary64.ratio m e
    some { numerator := if s then -(n : Int) else n, denominator := d }
  | float (.infinite s) => some { infinity := if s then -1 else 1 }
  | float .nan => some {}
  | _ => none

/-- The integer that a scalar counts as. -/
def integer? : Scalar → Option Int
  | bool b => some (if b then 1 else 0)
  | int n => some n
  | float x => x.toInt?
  | _ => none

/-- Whether two scalars are the same key.  Numbers of equal value are, whatever their kind. -/
def sameKey (a b : Scalar) : Bool :=
  match a, b with
  | null, null => true
  | string s, string t => s == t
  | float .nan, _ => false
  | _, float .nan => false
  | a, b =>
    match a.integer?, b.integer? with
    | some m, some n => m == n
    | none, none =>
      match a, b with
      | float x, float y => x == y
      | _, _ => false
    | _, _ => false

def isString : Scalar → Bool
  | string _ => true
  | _ => false

/-- The order of two keys of one kind. -/
def keyLe (a b : Scalar) : Bool :=
  match a, b with
  | string s, string t => Value.keyLe s t
  | a, b =>
    match a.magnitude?, b.magnitude? with
    | some m, some n => m.le n
    | _, _ => true

end Scalar

/-- What a container holds at one place. -/
inductive Slot where
  | scalar (s : Scalar)
  | ref (index : Nat)
deriving DecidableEq, Repr, Inhabited

/-- A container of a graph. -/
inductive Container where
  | list (items : List Slot)
  | tuple (items : List Slot)
  | dict (entries : List (Scalar × Slot))
deriving DecidableEq, Repr, Inhabited

/-- Set a key: in place if it is there, else at the end. -/
def Container.put (entries : List (Scalar × Slot)) (key : Scalar) (slot : Slot) : List (Scalar × Slot) :=
  match entries with
  | [] => [(key, slot)]
  | (k, s) :: rest => if k.sameKey key then (k, slot) :: rest else (k, s) :: put rest key slot

/-- An ordered copy.  `same i` is container `i` itself, which was being copied already. -/
inductive Copy where
  | scalar (s : Scalar)
  | same (index : Nat)
  | list (items : List Copy)
  | dict (entries : List (String × Copy))
deriving Repr, Inhabited

/-- Containers by number. -/
structure Graph where
  containers : List Container
deriving DecidableEq, Repr, Inhabited

namespace Graph

/-- Entries with the texts of their keys, in the order of those texts. -/
def orderedEntries (entries : List (Scalar × Slot)) : Except RenderError (List (String × Slot)) := do
  let texts ← entries.mapM fun (k, s) => do return (← k.keyText, s)
  return Value.sortEntries texts

/-- The number of containers that are not active. -/
def idle (g : Graph) (active : List Nat) : Nat :=
  ((List.range g.containers.length).filter (!active.contains ·)).length

/-- Entering a container leaves fewer idle ones. -/
theorem idle_cons {g : Graph} {active : List Nat} {i : Nat} {c : Container} (hi : ¬ active.contains i = true)
    (hc : g.containers[i]? = some c) : g.idle (i :: active) < g.idle active := by
  obtain ⟨hlt, _⟩ := List.getElem?_eq_some_iff.1 hc
  have hsplit : (List.range g.containers.length).filter (!(i :: active).contains ·) =
      ((List.range g.containers.length).filter (!active.contains ·)).filter (· != i) := by
    rw [List.filter_filter]
    apply List.filter_congr
    intro j _
    simp [bne, Bool.beq_eq_decide_eq]
  have hmem : i ∈ (List.range g.containers.length).filter (!active.contains ·) := by
    simpa [hlt] using hi
  rw [idle, idle, hsplit]
  exact List.length_filter_lt_length_iff_exists.2 ⟨i, hmem, by simp⟩

/-- Copy what a slot holds (`canonicalize`).  `active` are the containers being copied around it; a container is
active just while its parts are copied. -/
def copy (g : Graph) (active : List Nat) : Slot → Except RenderError Copy
  | .scalar s => .ok (.scalar s)
  | .ref i =>
    if active.contains i then .ok (.same i)
    else
      match _hc : g.containers[i]? with
      | none => .ok (.same i)
      | some (.list items) => do return .list (← items.mapM (g.copy (i :: active)))
      | some (.tuple items) => do return .list (← items.mapM (g.copy (i :: active)))
      | some (.dict entries) => do
        let ordered ← orderedEntries entries
        let copies ← ordered.mapM fun (k, s) => do return (k, ← g.copy (i :: active) s)
        return .dict (copies.foldl (fun es (k, c) => Value.put es k c) [])
termination_by g.idle active
decreasing_by all_goals exact idle_cons ‹_› ‹_›

/-- The ordered copy of what a slot holds. -/
def canonical (g : Graph) (s : Slot) : Except RenderError Copy := g.copy [] s

/-- Whether the keys of a dictionary can be put in order: all texts, all numbers, or just one. -/
def orderable (entries : List (Scalar × Slot)) : Bool :=
  entries.length ≤ 1 || entries.all (·.1.isString) || entries.all (·.1.magnitude?.isSome)

/-- The first fault met when what a slot holds is written as it is.  `active` are the containers being
written around it. -/
def fault? (g : Graph) (active : List Nat) : Slot → Option RenderError
  | .scalar (.int n) => if Value.isLong n then some .longInteger else none
  | .scalar _ => none
  | .ref i =>
    if active.contains i then some .circular
    else
      match _hc : g.containers[i]? with
      | none => none
      | some (.list items) => items.findSome? (g.fault? (i :: active))
      | some (.tuple items) => items.findSome? (g.fault? (i :: active))
      | some (.dict entries) =>
        if orderable entries then
          (entries.mergeSort fun a b => a.1.keyLe b.1).findSome? fun (k, s) =>
            match k with
            | .int n => if Value.isLong n then some .longInteger else g.fault? (i :: active) s
            | _ => g.fault? (i :: active) s
        else some .mixedKeys
termination_by g.idle active
decreasing_by all_goals exact idle_cons ‹_› ‹_›

mutual

/-- The first fault met when a copy is written. -/
def copyFault? (g : Graph) : Copy → Option RenderError
  | .scalar (.int n) => if Value.isLong n then some .longInteger else none
  | .scalar _ => none
  | .same i => g.fault? [] (.ref i)
  | .list items => g.copiesFault? items
  | .dict entries => g.entriesFault? entries

/-- The first fault met in a list of copies. -/
def copiesFault? (g : Graph) : List Copy → Option RenderError
  | [] => none
  | c :: cs => (g.copyFault? c).or (g.copiesFault? cs)

/-- The first fault met in the entries of a copied dictionary. -/
def entriesFault? (g : Graph) : List (String × Copy) → Option RenderError
  | [] => none
  | (_, c) :: es => (g.copyFault? c).or (g.entriesFault? es)

end

end Graph

namespace Copy

mutual

/-- The value that a copy is; a container left as it is counts as nothing. -/
def toValue : Copy → Value
  | scalar s => s.toValue
  | same _ => .null
  | list items => .list (toValues items)
  | dict entries => .dict (toEntries entries)

/-- Apply `toValue` to each. -/
def toValues : List Copy → List Value
  | [] => []
  | c :: cs => toValue c :: toValues cs

/-- Apply `toValue` to each entry. -/
def toEntries : List (String × Copy) → List (String × Value)
  | [] => []
  | (k, c) :: es => (k, toValue c) :: toEntries es

end

end Copy

namespace Graph

/-- The acyclic value that a slot holds. -/
def value (g : Graph) (s : Slot) : Except RenderError Value := do
  let c ← g.canonical s
  match g.copyFault? c with
  | some .longInteger => return c.toValue
  | some e => .error e
  | none => return c.toValue

/-- The canonical text of what a slot holds (`stable_dumps`). -/
def render (g : Graph) (s : Slot) : Except RenderError String := do
  let c ← g.canonical s
  match g.copyFault? c with
  | some e => .error e
  | none => c.toValue.render

end Graph

end RequestAtlas

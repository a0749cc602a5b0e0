import RequestAtlas.Literal.Reconstruction
import RequestAtlas.Request.Record
/-!
# Requests in a script

A request is a call `client.method(url, body)` on the bare name of the client.  `extract` finds them all,
outer calls before the calls inside them, in the order of the source.
-/

namespace RequestAtlas.Request

open RequestAtlas.Syntax

/-- What stands for a body that the call does not show. -/
def bodyPlaceholder : Value := .string (Literal.placeholder "BODY")

/-- The method of `client.method` (`_client_method`), where neither the dot nor the client may be optional. -/
def clientMethod? (client : String) (callee : Node) : Option Method := do
  guard (callee.kind = .member ∧ (callee.child? .optionalChain).isNone)
  let object ← callee.child? .object
  guard (object.kind = .identifier ∧ object.text = client)
  let property ← callee.child? .property
  guard (property.kind = .propertyIdentifier)
  Method.ofCall? property.text

/-- What a call of this method with these arguments sends. -/
def bodyOf (method : Method) (arguments : List Node) : Value :=
  if method.hasBody then
    match arguments[1]? with
    | some a =>
      match Literal.value a with
      | .null => bodyPlaceholder
      | v => v
    | none => bodyPlaceholder
  else .null

/-- The request that a call makes (`_record_from_call`), if it is one of the client's and its URL is a literal. -/
def ofCall? (client : String) (source : Path) (call : Node) : Option Request := do
  guard (call.child? .optionalChain).isNone
  let method ← clientMethod? client (← call.child? .function)
  let list ← call.child? .arguments
  guard (list.kind = .arguments)
  let arguments := list.contents
  let url ← Literal.url? (← arguments[0]?)
  guard (url ≠ "")
  return { source, method, url, body := bodyOf method arguments }

mutual

/-- How many nodes a tree has. -/
def size : Node → Nat
  | .mk _ _ _ _ children => sizes children + 1

/-- How many nodes the trees of a list have together. -/
def sizes : List Node → Nat
  | [] => 0
  | c :: cs => size c + sizes cs

end

theorem size_eq (n : Node) : size n = sizes n.children + 1 := by
  cases n
  rfl

theorem sizes_append : ∀ ns ms : List Node, sizes (ns ++ ms) = sizes ns + sizes ms
  | [], ms => by simp [sizes]
  | n :: ns, ms => by
    simp only [List.cons_append, sizes, sizes_append ns ms]
    omega

theorem sizes_filter_le (p : Node → Bool) : ∀ ns : List Node, sizes (ns.filter p) ≤ sizes ns
  | [] => by simp
  | n :: ns => by
    have ih := sizes_filter_le p ns
    by_cases h : p n = true
    · rw [List.filter_cons_of_pos h, sizes, sizes]
      omega
    · rw [List.filter_cons_of_neg h, sizes]
      omega

/-- The calls met on a walk (`_iter_calls`), where `stack` holds the trees that are still to be visited, the next
one on top.  The named children of the tree that is visited go on top of the others. -/
def callsFrom (stack : List Node) : List Node :=
  match stack with
  | [] => []
  | n :: rest =>
    let found := callsFrom (n.namedChildren ++ rest)
    if n.kind = .call then n :: found else found
termination_by sizes stack
decreasing_by
  have hnamed := sizes_filter_le Node.isNamed n.children
  rw [sizes_append, sizes, size_eq, Node.namedChildren]
  omega

/-- All calls in a tree, outer ones first. -/
def calls (program : Node) : List Node := callsFrom [program]

/-- The requests of a script (`extract_requests`), in the order of its source. -/
def extract (client : String) (source : Path) (program : Node) : List Request :=
  (calls program).filterMap (ofCall? client source)

end RequestAtlas.Request

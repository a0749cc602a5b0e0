/-!
# Syntax trees of scripts

A script is read into a rose tree of `Node`s.  Every node knows its kind, the part it plays in its
parent (its role), the byte offset at which it starts, the exact source text it covers, and its
children in source order.  Tokens such as `,` are nodes too; they are the only unnamed ones.
-/

namespace RequestAtlas.Syntax

/-- What a node is.  The constructs that call extraction looks at have a constructor of their own;
any other named construct is `construct`, and a bare token is `token`. -/
inductive Kind where
  | program
  | call
  | member
  | arguments
  | identifier
  | undefined
  | propertyIdentifier
  | string
  | template
  | substitution
  | parenthesized
  | object
  | pair
  | shorthand
  | array
  | number
  | trueLiteral
  | falseLiteral
  | nullLiteral
  | spread
  | optionalChain
  | comment
  | construct (name : String)
  | token (text : String)
deriving DecidableEq, Repr, Inhabited

/-- A named kind is anything but a bare token. -/
def Kind.isNamed : Kind → Bool
  | .token _ => false
  | _ => true

/-- The part a node plays in its parent. -/
inductive Role where
  | function
  | arguments
  | optionalChain
  | object
  | property
  | key
  | value
deriving DecidableEq, Repr, Inhabited

/-- A node of a syntax tree. -/
inductive Node where
  | mk (kind : Kind) (role : Option Role) (start : Nat) (chars : List Char) (children : List Node)
deriving Repr, Inhabited

namespace Node

def kind : Node → Kind
  | mk k _ _ _ _ => k

def role : Node → Option Role
  | mk _ r _ _ _ => r

/-- Byte offset of the node's first character in the source. -/
def start : Node → Nat
  | mk _ _ s _ _ => s

/-- The characters of the source the node covers. -/
def chars : Node → List Char
  | mk _ _ _ cs _ => cs

/-- The source text the node covers. -/
def text (n : Node) : String := String.ofList n.chars

def children : Node → List Node
  | mk _ _ _ _ cs => cs

/-- Byte offset just past the node's last character. -/
def stop (n : Node) : Nat := n.start + n.text.utf8ByteSize

def isNamed (n : Node) : Bool := n.kind.isNamed

def isComment (n : Node) : Bool := n.kind == .comment

def namedChildren (n : Node) : List Node := n.children.filter isNamed

/-- The first child that plays the given part. -/
def child? (n : Node) (r : Role) : Option Node := n.children.find? (·.role == some r)

/-- The same node in another part. -/
def withRole (r : Role) : Node → Node
  | mk k _ s t cs => mk k (some r) s t cs

/-- A named child that is not a comment: an argument, an element, an expression. -/
def isContent (n : Node) : Bool := n.isNamed && !n.isComment

/-- The children that count: named and not comments. -/
def contents (n : Node) : List Node := n.children.filter isContent

end Node

end RequestAtlas.Syntax

/-!
# Reading UTF-8

Decoding of bytes, with the place and reason of the first fault.  The range of a fault is the longest
prefix of the bad sequence that could have been continued.
-/

namespace RequestAtlas.Text

/-- Why bytes are no text. -/
inductive Utf8Fault where
  | invalidStart
  | invalidContinuation
  | unexpectedEnd
deriving DecidableEq, Repr

/-- The first fault in a sequence of bytes: it covers `length` bytes from `start`. -/
structure Utf8Error where
  fault : Utf8Fault
  start : Nat
  length : Nat
  /-- The byte at `start`. -/
  byte : Nat
deriving DecidableEq, Repr

def Utf8Fault.message : Utf8Fault → String
  | .invalidStart => "invalid start byte"
  | .invalidContinuation => "invalid continuation byte"
  | .unexpectedEnd => "unexpected end of data"

/-- Two lower-case hexadecimal digits. -/
def hexByte (n : Nat) : String :=
  String.ofList [Nat.digitChar (n / 16 % 16), Nat.digitChar (n % 16)]

def Utf8Error.message (e : Utf8Error) : String :=
  let range :=
    if e.length = 1 then "byte 0x" ++ hexByte e.byte ++ " in position " ++ toString e.start
    else "bytes in position " ++ toString e.start ++ "-" ++ toString (e.start + e.length - 1)
  "'utf-8' codec can't decode " ++ range ++ ": " ++ e.fault.message

def isContinuation (b : Nat) : Bool := 0x80 ≤ b && b < 0xc0

/-- Whether a second byte is possible behind a leading byte. -/
def isSecond (lead b : Nat) : Bool :=
  isContinuation b &&
    !(lead == 0xe0 && b < 0xa0) && !(lead == 0xed && 0xa0 ≤ b) &&
    !(lead == 0xf0 && b < 0x90) && !(lead == 0xf4 && 0x90 ≤ b)

/-- How many continuation bytes a leading byte asks for. -/
def continuationCount? (lead : Nat) : Option Nat :=
  if lead < 0xc2 then none
  else if lead < 0xe0 then some 1
  else if lead < 0xf0 then some 2
  else if lead < 0xf5 then some 3
  else none

/-- Read `n` more continuation bytes; on a fault, say which and how many bytes were good. -/
def continuation (lead : Nat) : Nat → Nat → Nat → List UInt8 → Except (Utf8Fault × Nat) (Nat × List UInt8)
  | 0, value, _, bs => .ok (value, bs)
  | n + 1, value, good, bs =>
    match bs with
    | [] => .error (.unexpectedEnd, good)
    | b :: bs =>
      let ok := if good = 1 then isSecond lead b.toNat else isContinuation b.toNat
      if ok then continuation lead n (value * 64 + b.toNat % 64) (good + 1) bs
      else .error (.invalidContinuation, good)

/-- Decode bytes. -/
def decodeUtf8 (bytes : List UInt8) : Except Utf8Error (List Char) :=
  go (bytes.length + 1) 0 [] bytes
where
  go : Nat → Nat → List Char → List UInt8 → Except Utf8Error (List Char)
    | 0, _, acc, _ => .ok acc.reverse
    | _, _, acc, [] => .ok acc.reverse
    | fuel + 1, pos, acc, b :: bs =>
      let lead := b.toNat
      if lead < 0x80 then go fuel (pos + 1) (Char.ofNat lead :: acc) bs
      else
        match continuationCount? lead with
        | none => .error ⟨.invalidStart, pos, 1, lead⟩
        | some n =>
          let first := if n = 1 then lead % 32 else if n = 2 then lead % 16 else lead % 8
          match continuation lead n first 1 bs with
          | .ok (value, rest) => go fuel (pos + n + 1) (Char.ofNat value :: acc) rest
          | .error (fault, good) => .error ⟨fault, pos, good, lead⟩

end RequestAtlas.Text

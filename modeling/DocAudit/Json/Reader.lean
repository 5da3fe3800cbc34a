import DocAudit.Json
import DocAudit.Number.Literal

/- Reading JSON text. Of the members of one name in an object the last one counts. Text after the
   value other than blanks is refused, and so are control characters in a string and a surrogate
   without its partner. -/
namespace DocAudit
namespace Json

def isBlank (c : Char) : Bool := c == ' ' || c == '\t' || c == '\n' || c == '\r'

def skipBlanks (input : List Char) : List Char := input.dropWhile isBlank

inductive Piece where
  | char (c : Char)
  | codeUnit (n : Nat)
deriving DecidableEq, Repr

def hexValue? (c : Char) : Option Nat :=
  if c.isDigit then some (c.toNat - '0'.toNat)
  else if 'a' ≤ c ∧ c ≤ 'f' then some (c.toNat - 'a'.toNat + 10)
  else if 'A' ≤ c ∧ c ≤ 'F' then some (c.toNat - 'A'.toNat + 10)
  else none

def hexNumber? (digits : List Char) : Option Nat :=
  digits.foldlM (fun n c => (hexValue? c).map (n * 16 + ·)) 0

def readPieces? (before : List Piece) : List Char → Option (List Piece × List Char)
  | [] => none
  | '"' :: rest => some (before.reverse, rest)
  | '\\' :: 'u' :: a :: b :: c :: d :: rest =>
    match hexNumber? [a, b, c, d] with
    | none => none
    | some n => readPieces? (.codeUnit n :: before) rest
  | '\\' :: c :: rest =>
    match c with
    | '"' => readPieces? (.char '"' :: before) rest
    | '\\' => readPieces? (.char '\\' :: before) rest
    | '/' => readPieces? (.char '/' :: before) rest
    | 'b' => readPieces? (.char '\x08' :: before) rest
    | 'f' => readPieces? (.char '\x0c' :: before) rest
    | 'n' => readPieces? (.char '\n' :: before) rest
    | 'r' => readPieces? (.char '\r' :: before) rest
    | 't' => readPieces? (.char '\t' :: before) rest
    | _ => none
  | c :: rest => if c.toNat < 0x20 ∨ c = '\\' then none else readPieces? (.char c :: before) rest

def isHighSurrogate (n : Nat) : Bool := 0xD800 ≤ n && n < 0xDC00
def isLowSurrogate (n : Nat) : Bool := 0xDC00 ≤ n && n < 0xE000

/-- The characters of the pieces; a high surrogate makes one character with the low one after it. -/
def joinPieces? : List Piece → Option (List Char)
  | [] => some []
  | .char c :: rest => (joinPieces? rest).map (c :: ·)
  | .codeUnit high :: .codeUnit low :: rest =>
    if isHighSurrogate high then
      if isLowSurrogate low then
        (joinPieces? rest).map (Char.ofNat (0x10000 + (high - 0xD800) * 0x400 + (low - 0xDC00)) :: ·)
      else none
    else if isLowSurrogate high then none
    else (joinPieces? (.codeUnit low :: rest)).map (Char.ofNat high :: ·)
  | .codeUnit n :: rest =>
    if isHighSurrogate n || isLowSurrogate n then none
    else (joinPieces? rest).map (Char.ofNat n :: ·)

def readString? (input : List Char) : Option (String × List Char) := do
  let (pieces, rest) ← readPieces? [] input
  let chars ← joinPieces? pieces
  return (String.ofList chars, rest)

mutual

/-- A value at the front of the input, after blanks. The first argument bounds the number of nested
    steps; twice the length of the input is never too little. -/
def readValue? : Nat → List Char → Option (Json × List Char)
  | 0, _ => none
  | steps + 1, input =>
    match skipBlanks input with
    | 'n' :: 'u' :: 'l' :: 'l' :: rest => some (.null, rest)
    | 't' :: 'r' :: 'u' :: 'e' :: rest => some (.boolean true, rest)
    | 'f' :: 'a' :: 'l' :: 's' :: 'e' :: rest => some (.boolean false, rest)
    | '"' :: rest => (readString? rest).map fun (s, rest) => (.string s, rest)
    | '[' :: rest =>
      match skipBlanks rest with
      | ']' :: rest => some (.array [], rest)
      | rest => readItems? steps [] rest
    | '\x7b' :: rest =>
      match skipBlanks rest with
      | '\x7d' :: rest => some (.object [], rest)
      | rest => readMembers? steps [] rest
    | other =>
      match Literal.read? other with
      | none => none
      | some (literal, rest) => literal.number?.map fun n => (.number n, rest)

def readItems? : Nat → List Json → List Char → Option (Json × List Char)
  | 0, _, _ => none
  | steps + 1, before, input =>
    match readValue? steps input with
    | none => none
    | some (item, rest) =>
      match skipBlanks rest with
      | ',' :: rest => readItems? steps (item :: before) rest
      | ']' :: rest => some (.array (item :: before).reverse, rest)
      | _ => none

def readMembers? : Nat → List (String × Json) → List Char → Option (Json × List Char)
  | 0, _, _ => none
  | steps + 1, before, input =>
    match skipBlanks input with
    | '"' :: rest =>
      match readString? rest with
      | none => none
      | some (name, rest) =>
        match skipBlanks rest with
        | ':' :: rest =>
          match readValue? steps rest with
          | none => none
          | some (value, rest) =>
            let members := Entries.insert name value before
            match skipBlanks rest with
            | ',' :: rest => readMembers? steps members rest
            | '\x7d' :: rest => some (.object members, rest)
            | _ => none
        | _ => none
    | _ => none

end

def parse? (text : String) : Option Json :=
  let input := text.toList
  match readValue? (2 * input.length + 2) input with
  | some (json, rest) => if (skipBlanks rest).isEmpty then some json else none
  | none => none

end Json
end DocAudit

import DocAudit.Json.Reader

/- Quoted strings of TOML. Basic strings have escapes and literal strings have none; each kind has a
   form in triple quotes that may go over several lines, in which a newline right after the opening
   quotes does not count. A text is written in the first of these forms that needs no escape. -/
namespace DocAudit
namespace Toml

def isPlain (c : Char) : Bool := c == '\t' || (0x20 ≤ c.toNat && c.toNat != 0x7f)

def isBlank (c : Char) : Bool := c == ' ' || c == '\t'

def charOf? (digits : List Char) : Option Char :=
  (Json.hexNumber? digits).bind fun n => if n.isValidChar then some (Char.ofNat n) else none

def readEscape? : List Char → Option (Char × List Char)
  | 'b' :: rest => some ('\x08', rest)
  | 't' :: rest => some ('\t', rest)
  | 'n' :: rest => some ('\n', rest)
  | 'f' :: rest => some ('\x0c', rest)
  | 'r' :: rest => some ('\r', rest)
  | '"' :: rest => some ('"', rest)
  | '\\' :: rest => some ('\\', rest)
  | 'u' :: rest =>
    if rest.length < 4 then none else (charOf? (rest.take 4)).map fun c => (c, rest.drop 4)
  | 'U' :: rest =>
    if rest.length < 8 then none else (charOf? (rest.take 8)).map fun c => (c, rest.drop 8)
  | _ => none

def finished (before : List Char) (rest : List Char) : Option (String × List Char) :=
  some (String.ofList before.reverse, rest)

/-- A basic string of one line after its opening quote. Each reader here takes the characters read
    so far in reverse; the number bounds its steps, of which each takes a character. -/
def readBasic? : Nat → List Char → List Char → Option (String × List Char)
  | 0, _, _ => none
  | _ + 1, _, [] => none
  | _ + 1, before, '"' :: rest => finished before rest
  | steps + 1, before, '\\' :: rest =>
    match readEscape? rest with
    | none => none
    | some (c, rest) => readBasic? steps (c :: before) rest
  | steps + 1, before, c :: rest =>
    if isPlain c then readBasic? steps (c :: before) rest else none

def readLiteral? (before : List Char) : List Char → Option (String × List Char)
  | [] => none
  | '\'' :: rest => finished before rest
  | c :: rest => if isPlain c then readLiteral? (c :: before) rest else none

def newline? : List Char → Option (List Char)
  | '\n' :: rest => some rest
  | '\r' :: '\n' :: rest => some rest
  | _ => none

def skipNewline (input : List Char) : List Char := (newline? input).getD input

def skipBlankLines : List Char → List Char
  | '\r' :: '\n' :: rest => skipBlankLines rest
  | c :: rest => if isBlank c || c == '\n' then skipBlankLines rest else c :: rest
  | [] => []

def joinedLine? (input : List Char) : Option (List Char) :=
  (newline? (input.dropWhile isBlank)).map skipBlankLines

def readLongBasic? : Nat → List Char → List Char → Option (String × List Char)
  | 0, _, _ => none
  | _ + 1, _, [] => none
  | _ + 1, before, '"' :: '"' :: '"' :: '"' :: '"' :: rest => finished ('"' :: '"' :: before) rest
  | _ + 1, before, '"' :: '"' :: '"' :: '"' :: rest => finished ('"' :: before) rest
  | _ + 1, before, '"' :: '"' :: '"' :: rest => finished before rest
  | steps + 1, before, '\\' :: rest =>
    match joinedLine? rest with
    | some rest => readLongBasic? steps before rest
    | none =>
      match readEscape? rest with
      | none => none
      | some (c, rest) => readLongBasic? steps (c :: before) rest
  | steps + 1, before, c :: rest =>
    match newline? (c :: rest) with
    | some rest => readLongBasic? steps ('\n' :: before) rest
    | none => if isPlain c then readLongBasic? steps (c :: before) rest else none

def readLongLiteral? (before : List Char) : List Char → Option (String × List Char)
  | [] => none
  | '\'' :: '\'' :: '\'' :: '\'' :: '\'' :: rest => finished ('\'' :: '\'' :: before) rest
  | '\'' :: '\'' :: '\'' :: '\'' :: rest => finished ('\'' :: before) rest
  | '\'' :: '\'' :: '\'' :: rest => finished before rest
  | '\r' :: '\n' :: rest => readLongLiteral? ('\n' :: before) rest
  | c :: rest =>
    if isPlain c || c == '\n' then readLongLiteral? (c :: before) rest else none

def readShort? : List Char → Option (String × List Char)
  | '"' :: rest => readBasic? (rest.length + 1) [] rest
  | '\'' :: rest => readLiteral? [] rest
  | _ => none

def readQuoted? : List Char → Option (String × List Char)
  | '"' :: '"' :: '"' :: rest => readLongBasic? (rest.length + 1) [] (skipNewline rest)
  | '\'' :: '\'' :: '\'' :: rest => readLongLiteral? [] (skipNewline rest)
  | input => readShort? input

structure Traits where
  singleQuotes : Nat
  doubleQuotes : Nat
  controls : Bool
  backslash : Bool
  newline : Bool
deriving DecidableEq, Repr

def longestRun (c : Char) (current : Nat) : List Char → Nat
  | [] => current
  | d :: rest => if d = c then longestRun c (current + 1) rest else max current (longestRun c 0 rest)

def isControl (c : Char) : Bool :=
  (c.toNat < 0x20 && c != '\t' && c != '\n') || c.toNat == 0x7f

def traits (text : List Char) : Traits :=
  ⟨longestRun '\'' 0 text, longestRun '"' 0 text, text.any isControl, text.contains '\\',
    text.contains '\n'⟩

inductive Form where
  | basic
  | literal
  | longBasic
  | longLiteral
deriving DecidableEq, Repr

def form (t : Traits) : Form :=
  let escapeFree := !t.controls && !t.backslash
  if escapeFree && t.doubleQuotes == 0 && !t.newline then .basic
  else if !t.controls && t.singleQuotes == 0 && !t.newline then .literal
  else if escapeFree && t.doubleQuotes ≤ 2 then .longBasic
  else if !t.controls && t.singleQuotes ≤ 2 then .longLiteral
  else if t.newline then .longBasic
  else .basic

def upperHexDigit (n : Nat) : Char := (Nat.digitChar n).toUpper

def escapedControl (c : Char) : List Char :=
  match c with
  | '\x08' => ['\\', 'b']
  | '\t' => ['\\', 't']
  | '\n' => ['\\', 'n']
  | '\x0c' => ['\\', 'f']
  | '\r' => ['\\', 'r']
  | c =>
    let n := c.toNat
    ['\\', 'u', '0', '0', upperHexDigit (n / 16), upperHexDigit (n % 16)]

/-- The characters of a basic string. In the long form newlines stand for themselves, and so do two
    quotes in a row; the count is that of the quotes just before. -/
def escapeBasic (long : Bool) (quotes : Nat) : List Char → List Char
  | [] => []
  | '"' :: rest =>
    if long && quotes < 2 then '"' :: escapeBasic long (quotes + 1) rest
    else '\\' :: '"' :: escapeBasic long 0 rest
  | '\\' :: rest => '\\' :: '\\' :: escapeBasic long 0 rest
  | c :: rest =>
    let plain := (isPlain c && c != '\t') || (long && c == '\n')
    (if plain then [c] else escapedControl c) ++ escapeBasic long 0 rest

def tripled (c : Char) : List Char := [c, c, c]

def quote (s : String) : String :=
  let text := s.toList
  let t := traits text
  let first := if t.newline then ['\n'] else []
  String.ofList <|
    match form t with
    | .basic => '"' :: (escapeBasic false 0 text ++ ['"'])
    | .literal => '\'' :: (text ++ ['\''])
    | .longBasic => tripled '"' ++ first ++ escapeBasic true 0 text ++ tripled '"'
    | .longLiteral => tripled '\'' ++ first ++ text ++ tripled '\''

end Toml
end DocAudit

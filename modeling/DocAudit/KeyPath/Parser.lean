import DocAudit.KeyPath

/- Reading a key path. The scanner takes one character at a time and is always in one of three
   states: after a complete component, in a name, or in an index. A failure is found with a number
   of characters still unread, which gives its position. -/
namespace DocAudit
namespace KeyPath

inductive ParseFault where
  | emptyPath
  | badRootPrefix
  | emptyProperty
  | unescapedBracket
  | trailingEscape
  | unclosedBracket
  | invalidIndex (text : String)
  | unexpectedChar (c : Char)
deriving DecidableEq, Repr

def ParseFault.message : ParseFault → String
  | .emptyPath => "empty key path"
  | .badRootPrefix => "'$' must be followed by '.' or '['"
  | .emptyProperty => "empty property name"
  | .unescapedBracket => "unescaped ']' in property name"
  | .trailingEscape => "trailing escape character"
  | .unclosedBracket => "unclosed bracket"
  | .invalidIndex text => "invalid array index '" ++ text ++ "'"
  | .unexpectedChar c => "unexpected character '" ++ String.singleton c ++ "'"

/-- The position counts the characters before the place of the fault. -/
structure ParseError where
  path : String
  position : Nat
  fault : ParseFault
deriving DecidableEq, Repr

def ParseError.message (error : ParseError) : String :=
  "invalid key path '" ++ error.path ++ "' at position " ++ toString error.position ++ ": " ++
    error.fault.message

/-- A fault found when so many characters of the path, the faulty one among them, were unread. -/
structure Failure where
  fault : ParseFault
  unread : Nat
deriving DecidableEq, Repr

/-- The names and digits read so far have their latest character first. -/
inductive Scan where
  | boundary
  | name (before : List Char)
  | index (before : List Char)
deriving DecidableEq, Repr

def decimalValue (digits : List Char) : Nat :=
  digits.foldl (fun n c => n * 10 + (c.toNat - '0'.toNat)) 0

def indexValue? (text : List Char) : Option Int :=
  let (negative, digits) := match text with
    | '-' :: digits => (true, digits)
    | digits => (false, digits)
  let magnitude : Int := decimalValue digits
  let value := if negative then -magnitude else magnitude
  if digits ≠ [] ∧ Word.IsSigned value then some value else none

def closeName (before unread : List Char) : Except Failure Component :=
  if before = [] then .error ⟨.emptyProperty, unread.length⟩
  else .ok (.property (String.ofList before.reverse))

def closeIndex (before unread : List Char) : Except Failure Component :=
  match indexValue? before.reverse with
  | some i => .ok (.index i)
  | none => .error ⟨.invalidIndex (String.ofList before.reverse), before.length + unread.length⟩

def continuesIndex (before : List Char) (c : Char) : Bool :=
  c.isDigit || (c == '-' && before.isEmpty)

def andThen (component : Except Failure Component) (rest : Except Failure KeyPath) :
    Except Failure KeyPath :=
  match component, rest with
  | .error failure, _ => .error failure
  | .ok _, .error failure => .error failure
  | .ok c, .ok cs => .ok (c :: cs)

def scan : Scan → List Char → Except Failure KeyPath
  | .boundary, [] => .ok []
  | .boundary, '.' :: rest => scan (.name []) rest
  | .boundary, '[' :: rest => scan (.index []) rest
  | .boundary, c :: rest => .error ⟨.unexpectedChar c, rest.length + 1⟩
  | .name before, [] => andThen (closeName before []) (.ok [])
  | .name before, '.' :: rest => andThen (closeName before ('.' :: rest)) (scan (.name []) rest)
  | .name before, '[' :: rest => andThen (closeName before ('[' :: rest)) (scan (.index []) rest)
  | .name _, ']' :: rest => .error ⟨.unescapedBracket, rest.length + 1⟩
  | .name _, ['\\'] => .error ⟨.trailingEscape, 1⟩
  | .name before, '\\' :: c :: rest => scan (.name (c :: before)) rest
  | .name before, c :: rest => scan (.name (c :: before)) rest
  | .index before, [] => .error ⟨.unclosedBracket, before.length + 1⟩
  | .index before, ']' :: rest => andThen (closeIndex before (']' :: rest)) (scan .boundary rest)
  | .index before, c :: rest =>
    if continuesIndex before c then scan (.index (c :: before)) rest
    else .error ⟨.invalidIndex (String.ofList (c :: before).reverse), rest.length + 1⟩

def opensComponent : List Char → Bool
  | '.' :: _ => true
  | '[' :: _ => true
  | _ => false

def scanPath : List Char → Except Failure KeyPath
  | [] => .error ⟨.emptyPath, 0⟩
  | '$' :: rest =>
    if opensComponent rest then scan .boundary rest else .error ⟨.badRootPrefix, rest.length⟩
  | chars => if opensComponent chars then scan .boundary chars else scan (.name []) chars

def parse (path : String) : Except ParseError KeyPath :=
  match scanPath path.toList with
  | .ok components => .ok components
  | .error failure => .error ⟨path, path.length - failure.unread, failure.fault⟩

end KeyPath
end DocAudit

import DocAudit.Json

/- The compact text of a JSON value: no blanks, members in their order, and in strings only the
   quote, the backslash and the control characters escaped. -/
namespace DocAudit
namespace Json

def hexDigit (n : Nat) : Char := (Nat.digitChar n)

def escape (c : Char) : List Char :=
  match c with
  | '"' => ['\\', '"']
  | '\\' => ['\\', '\\']
  | '\x08' => ['\\', 'b']
  | '\x0c' => ['\\', 'f']
  | '\n' => ['\\', 'n']
  | '\r' => ['\\', 'r']
  | '\t' => ['\\', 't']
  | c =>
    if c.toNat < 0x20 then ['\\', 'u', '0', '0', hexDigit (c.toNat / 16), hexDigit (c.toNat % 16)]
    else [c]

def quoted (s : String) : String := String.ofList ('"' :: (s.toList.flatMap escape ++ ['"']))

mutual

def write (out : String) : Json → String
  | .null => out ++ "null"
  | .boolean b => out ++ (if b then "true" else "false")
  | .number n => out ++ n.text
  | .string s => out ++ quoted s
  | .array items => writeItems (out.push '[') items
  | .object members => writeMembers (out.push '\x7b') members

def writeItems (out : String) : List Json → String
  | [] => out.push ']'
  | [item] => (write out item).push ']'
  | item :: rest => writeItems ((write out item).push ',') rest

def writeMembers (out : String) : List (String × Json) → String
  | [] => out.push '\x7d'
  | [(name, value)] => (write ((out ++ quoted name).push ':') value).push '\x7d'
  | (name, value) :: rest =>
    writeMembers ((write ((out ++ quoted name).push ':') value).push ',') rest

end

def text (json : Json) : String := write "" json

example : text (.object [("a\x01", .array [.null, .number (.integer (-10)), .string "\""]),
    ("b", .object [])]) = "\x7b\"a\\u0001\":[null,-10,\"\\\"\"],\"b\":\x7b\x7d\x7d" := by
  decide +kernel

end Json
end DocAudit

import DocAudit.Number.Literal
import DocAudit.Segments
import DocAudit.Toml

/- The values of TOML that are written without quotes or brackets: truth values, integers in four
   bases, floating point numbers, dates and times. Each is a run of characters up to the next
   delimiter. -/
namespace DocAudit
namespace Toml

def digitIn? (base : Nat) (c : Char) : Option Nat :=
  let value? :=
    if c.isDigit then some (c.toNat - '0'.toNat)
    else if 'a' ≤ c ∧ c ≤ 'f' then some (c.toNat - 'a'.toNat + 10)
    else if 'A' ≤ c ∧ c ≤ 'F' then some (c.toNat - 'A'.toNat + 10)
    else none
  value?.bind fun value => if value < base then some value else none

def digitsIn? (base : Nat) (text : List Char) : Option (List Nat) := do
  let groups ← (Segments.cut '_' text).mapM (List.mapM (digitIn? base))
  if groups.any List.isEmpty then none else some groups.flatten

def valueIn (base : Nat) (digits : List Nat) : Nat :=
  digits.foldl (fun n digit => n * base + digit) 0

def wholeDigits? (text : List Char) : Option (List Nat) := do
  let digits ← digitsIn? 10 text
  match text with
  | '0' :: _ :: _ => none
  | _ => some digits

def integerOf? (n : Int) : Option Toml :=
  if Word.IsSigned n then some (.integer n) else none

def unsigned : List Char → Bool × List Char
  | '-' :: rest => (true, rest)
  | '+' :: rest => (false, rest)
  | rest => (false, rest)

def integer? (text : List Char) : Option Toml :=
  match text with
  | '0' :: 'x' :: rest => (digitsIn? 16 rest).bind fun ds => integerOf? (valueIn 16 ds)
  | '0' :: 'o' :: rest => (digitsIn? 8 rest).bind fun ds => integerOf? (valueIn 8 ds)
  | '0' :: 'b' :: rest => (digitsIn? 2 rest).bind fun ds => integerOf? (valueIn 2 ds)
  | _ =>
    let (negative, digits) := unsigned text
    (wholeDigits? digits).bind fun ds =>
      integerOf? (if negative then -(valueIn 10 ds : Int) else valueIn 10 ds)

def overflows (digits : List Nat) (exponent : Int) : Bool :=
  let significant := digits.dropWhile (· == 0)
  let first := exponent + significant.length
  if significant.isEmpty || first < 300 then false
  else if 320 < first then true
  else
    let n := valueIn 10 significant
    (Binary64.nearest? false (n * Nat.pow 10 exponent.toNat) (Nat.pow 10 (-exponent).toNat) 0).isNone

def isExponentMark (c : Char) : Bool := c == 'e' || c == 'E'

def exponent? : List Char → Option Int
  | [] => some 0
  | _ :: text =>
    let (negative, digits) := unsigned text
    (digitsIn? 10 digits).map fun ds => if negative then -(valueIn 10 ds : Int) else valueIn 10 ds

def fraction? : List Char → Option (List Nat)
  | [] => some []
  | _ :: digits => digitsIn? 10 digits

/-- A floating point number has a fraction or an exponent. Only below zero may it be so large that
    it is no finite number. -/
def float? (text : List Char) : Option Toml := do
  let (negative, magnitude) := unsigned text
  if magnitude = "inf".toList ∨ magnitude = "nan".toList then return .float (String.ofList text)
  let mantissa := magnitude.takeWhile fun c => !isExponentMark c
  let power := magnitude.dropWhile fun c => !isExponentMark c
  let point := mantissa.dropWhile (· != '.')
  if point.isEmpty && power.isEmpty then none
  let whole ← wholeDigits? (mantissa.takeWhile (· != '.'))
  let fraction ← fraction? point
  let exponent ← exponent? power
  if !negative && overflows (whole ++ fraction) (exponent - fraction.length) then none
  return .float (String.ofList text)

def fixedDigits? (count least greatest : Nat) (text : List Char) : Option Nat :=
  if text.length = count ∧ text.all Char.isDigit then
    let n := valueIn 10 (text.map Literal.digitValue)
    if least ≤ n ∧ n ≤ greatest then some n else none
  else none

def isLeapYear (year : Nat) : Bool := year % 4 == 0 && (year % 100 != 0 || year % 400 == 0)

def daysIn (year month : Nat) : Nat :=
  if month = 2 then (if isLeapYear year then 29 else 28)
  else if month ∈ [4, 6, 9, 11] then 30
  else 31

def isDate (text : List Char) : Bool :=
  match Segments.cut '-' text with
  | [y, m, d] =>
    match fixedDigits? 4 0 9999 y, fixedDigits? 2 1 12 m, fixedDigits? 2 1 31 d with
    | some year, some month, some day => day ≤ daysIn year month
    | _, _, _ => false
  | _ => false

def isSecond (text : List Char) : Bool :=
  match Segments.cut '.' text with
  | [s] => (fixedDigits? 2 0 60 s).isSome
  | [s, fraction] =>
    (fixedDigits? 2 0 60 s).isSome && !fraction.isEmpty && fraction.all Char.isDigit
  | _ => false

def isTime (text : List Char) : Bool :=
  match Segments.cut ':' text with
  | [h, m, s] => (fixedDigits? 2 0 23 h).isSome && (fixedDigits? 2 0 59 m).isSome && isSecond s
  | _ => false

def isOffset (text : List Char) : Bool :=
  match Segments.cut ':' text with
  | [h, m] => (fixedDigits? 2 0 23 h).isSome && (fixedDigits? 2 0 59 m).isSome
  | _ => false

def isTimeWithOffset (text : List Char) : Bool :=
  let time := text.takeWhile fun c => !(c ∈ ['Z', 'z', '+', '-'])
  isTime time &&
    match text.drop time.length with
    | [] => true
    | ['Z'] => true
    | ['z'] => true
    | '+' :: offset => isOffset offset
    | '-' :: offset => isOffset offset
    | _ => false

def dateLength : Nat := 10

def isDatetime (text : List Char) : Bool :=
  isTime text || isDate text ||
    (isDate (text.take dateLength) &&
      match text.drop dateLength with
      | 'T' :: time => isTimeWithOffset time
      | 't' :: time => isTimeWithOffset time
      | ' ' :: time => isTimeWithOffset time
      | _ => false)

def isDelimiter (c : Char) : Bool := c ∈ [' ', '\t', '\n', '\r', ',', ']', '}', '#']

def scalar? (text : List Char) : Option Toml :=
  if text = "true".toList then some (.boolean true)
  else if text = "false".toList then some (.boolean false)
  else if isDatetime text then some (.datetime (String.ofList text))
  else (float? text).or (integer? text)

/-- The run of characters that a scalar takes up. A blank may stand between a date and a time. -/
def scalarText (input : List Char) : List Char :=
  let run := input.takeWhile fun c => !isDelimiter c
  match isDate run, input.drop run.length with
  | true, ' ' :: rest =>
    let time := rest.takeWhile fun c => !isDelimiter c
    if (time.head?.map Char.isDigit).getD false then run ++ ' ' :: time else run
  | _, _ => run

def readScalar? (input : List Char) : Option (Toml × List Char) :=
  let text := scalarText input
  (scalar? text).map fun value => (value, input.drop text.length)

end Toml
end DocAudit

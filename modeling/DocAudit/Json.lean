import DocAudit.Entries
import DocAudit.Number

/- JSON values. The members of an object are kept in ascending order of their names, each name once,
   so that two objects with the same members are the same value. -/
namespace DocAudit

inductive Json where
  | null
  | boolean (b : Bool)
  | number (n : Number)
  | string (s : String)
  | array (items : List Json)
  | object (members : List (String × Json))

namespace Json

def ofMembers (members : List (String × Json)) : Json := .object (Entries.ofList members)

def ofNat (n : Nat) : Json := .number (.integer n)

def ofInt (n : Int) : Json := .number (.integer n)

def member? (name : String) : Json → Option Json
  | .object members => Entries.find? name members
  | _ => none

def string? : Json → Option String
  | .string s => some s
  | _ => none

def boolean? : Json → Option Bool
  | .boolean b => some b
  | _ => none

def nat? : Json → Option Nat
  | .number n => n.toNat?
  | _ => none

def int64? : Json → Option Int
  | .number n => n.toInt64?
  | _ => none

def array? : Json → Option (List Json)
  | .array items => some items
  | _ => none

def object? : Json → Option (List (String × Json))
  | .object members => some members
  | _ => none

/-- A record of named fields is given as an object, in which other members are ignored, or as the
    list of its field values in their declared order, from which fields at the end may be missing
    but which may not go on past the last field. -/
def record? (fields : List String) : Json → Option (List (String × Json))
  | .object members => some members
  | .array items => if items.length ≤ fields.length then some (fields.zip items) else none
  | _ => none

def required? {α : Type} (decode : Json → Option α) (name : String)
    (fields : List (String × Json)) : Option α :=
  (Entries.find? name fields).bind decode

def defaulted? {α : Type} (decode : Json → Option α) (name : String) (missing : α)
    (fields : List (String × Json)) : Option α :=
  match Entries.find? name fields with
  | none => some missing
  | some json => decode json

def optional? {α : Type} (decode : Json → Option α) (name : String)
    (fields : List (String × Json)) : Option (Option α) :=
  match Entries.find? name fields with
  | none => some none
  | some .null => some none
  | some json => (decode json).map some

mutual

/-- Every object of the value has its members in ascending order of their names. -/
def Ordered : Json → Prop
  | .array items => OrderedItems items
  | .object members => Entries.Ascending members ∧ OrderedMembers members
  | _ => True

def OrderedItems : List Json → Prop
  | [] => True
  | item :: rest => Ordered item ∧ OrderedItems rest

def OrderedMembers : List (String × Json) → Prop
  | [] => True
  | (_, value) :: rest => Ordered value ∧ OrderedMembers rest

end

end Json
end DocAudit

import DocAudit.Entries

/- The values of a TOML document. Floating point numbers and dates are kept as they are written. -/
namespace DocAudit

inductive Toml where
  | string (s : String)
  | integer (n : Int)
  | float (written : String)
  | boolean (b : Bool)
  | datetime (written : String)
  | array (items : List Toml)
  | table (entries : List (String × Toml))

namespace Toml

def string? : Toml → Option String
  | .string s => some s
  | _ => none

def boolean? : Toml → Option Bool
  | .boolean b => some b
  | _ => none

def nat? : Toml → Option Nat
  | .integer n => if 0 ≤ n then some n.toNat else none
  | _ => none

/-- A record of named fields is given as a table, or as the list of its field values in their
    declared order. A date has no field that a record could want. -/
def record? (fields : List String) : Toml → Option (List (String × Toml))
  | .table entries => some entries
  | .array items => some (fields.zip items)
  | .datetime _ => some []
  | _ => none

def defaulted? {α : Type} (decode : Toml → Option α) (name : String) (missing : α)
    (fields : List (String × Toml)) : Option α :=
  match Entries.find? name fields with
  | none => some missing
  | some toml => decode toml

end Toml
end DocAudit

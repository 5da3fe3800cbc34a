import DocAudit.Entries

/- A finite map that carries the order of its entries: a list of entries together with the proof
   that its keys ascend. -/
namespace DocAudit

@[ext]
structure Table (κ α : Type) [Ord κ] where
  entries : List (κ × α)
  ascending : Entries.Ascending entries

namespace Table
variable {κ α : Type} [Ord κ]

def empty : Table κ α := ⟨[], List.Pairwise.nil⟩

def size (table : Table κ α) : Nat := table.entries.length

def isEmpty (table : Table κ α) : Bool := table.size == 0

def keys (table : Table κ α) : List κ := Entries.keys table.entries

def find? [DecidableEq κ] (table : Table κ α) (key : κ) : Option α :=
  Entries.find? key table.entries

def contains [DecidableEq κ] (table : Table κ α) (key : κ) : Bool := (table.find? key).isSome

def insert [Std.TransOrd κ] [Std.LawfulEqOrd κ] [DecidableEq κ] (table : Table κ α) (key : κ)
    (value : α) : Table κ α :=
  ⟨Entries.insert key value table.entries, Entries.ascending_insert key value table.ascending⟩

def erase [DecidableEq κ] (table : Table κ α) (key : κ) : Table κ α :=
  ⟨Entries.erase key table.entries, Entries.ascending_erase key table.ascending⟩

/-- A table from entries in any order; of several values for one key the last one stays. -/
def ofList [Std.TransOrd κ] [Std.LawfulEqOrd κ] [DecidableEq κ] (entries : List (κ × α)) :
    Table κ α :=
  entries.foldl (fun table entry => table.insert entry.1 entry.2) empty

theorem find_empty [DecidableEq κ] (probe : κ) : (empty : Table κ α).find? probe = none := rfl

theorem find_after_insert [DecidableEq κ] [Std.TransOrd κ] [Std.LawfulEqOrd κ]
    (table : Table κ α) (key probe : κ) (value : α) :
    (table.insert key value).find? probe =
      if probe = key then some value else table.find? probe :=
  Entries.find_insert key probe value table.entries

theorem find_after_erase [DecidableEq κ] (table : Table κ α) (key probe : κ) :
    (table.erase key).find? probe = if probe = key then none else table.find? probe :=
  Entries.find_erase key probe table.entries

end Table
end DocAudit

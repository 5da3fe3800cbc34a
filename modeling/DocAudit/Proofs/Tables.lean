import DocAudit.Table
import Mathlib.Data.List.Dedup

/- What is found in entries that were built from a list, and the size of a table seen from outside: for
   every key the value of the last entry with that key, and the number of the different keys that are
   found. -/
namespace DocAudit
namespace Entries
variable {κ α : Type}

theorem keys_nodup [Ord κ] [Std.ReflOrd κ] {entries : List (κ × α)}
    (ascending : Ascending entries) : (keys entries).Nodup := by
  refine ((ascending_iff_keys entries).mp ascending).imp ?_
  rintro a b before rfl
  rw [Std.ReflOrd.compare_self] at before
  cases before

variable [DecidableEq κ]

def last? (key : κ) (entries : List (κ × α)) : Option α :=
  (entries.reverse.find? fun entry => entry.1 = key).map Prod.snd

theorem last_append (as bs : List (κ × α)) (key : κ) :
    last? key (as ++ bs) = (last? key bs).or (last? key as) := by
  rw [last?, last?, last?, List.reverse_append, List.find?_append, Option.map_or]

theorem last_single (entry : κ × α) (key : κ) :
    last? key [entry] = if entry.1 = key then some entry.2 else none := by
  by_cases same : entry.1 = key <;> simp [last?, same]

theorem last_cons (first : κ × α) (rest : List (κ × α)) (key : κ) :
    last? key (first :: rest) =
      (last? key rest).or (if first.1 = key then some first.2 else none) := by
  rw [← last_single]
  exact last_append [first] rest key

theorem last_none_iff (entries : List (κ × α)) (key : κ) :
    last? key entries = none ↔ key ∉ keys entries := by
  induction entries with
  | nil => simp [last?, keys]
  | cons first rest ih =>
    rw [last_cons, Option.or_eq_none_iff, ih, keys, keys, List.map_cons, List.mem_cons, not_or]
    by_cases same : first.1 = key
    · simp [same]
    · simp [same, Ne.symm same]

theorem last_of_ascending [Ord κ] [Std.ReflOrd κ] {entries : List (κ × α)}
    (ascending : Ascending entries) (key : κ) : last? key entries = find? key entries := by
  induction entries with
  | nil => rfl
  | cons first rest ih =>
    have above := keys_nodup ascending
    rw [keys, List.map_cons, List.nodup_cons] at above
    rw [last_cons]
    by_cases here : first.1 = key
    · have absent : last? key rest = none := (last_none_iff rest key).mpr (here ▸ above.1)
      rw [absent, Option.none_or, if_pos here, find?, if_pos here.symm]
    · rw [if_neg here, Option.or_none, find?, if_neg (Ne.symm here)]
      exact ih (List.Pairwise.of_cons ascending)

theorem find_after_inserts [Ord κ] (entries built : List (κ × α)) (key : κ) :
    find? key (entries.foldl (fun built entry => insert entry.1 entry.2 built) built) =
      (last? key entries).or (find? key built) := by
  induction entries generalizing built with
  | nil => rfl
  | cons first rest ih =>
    rw [List.foldl_cons, ih, find_insert, last_cons, Option.or_assoc]
    congr 1
    by_cases same : first.1 = key
    · simp [same]
    · simp [same, Ne.symm same]

theorem find_of_list [Ord κ] (entries : List (κ × α)) (key : κ) :
    find? key (ofList entries) = last? key entries := by
  rw [ofList, find_after_inserts, find?, Option.or_none]

end Entries

namespace Table
variable {κ α : Type} [Ord κ] [DecidableEq κ]

theorem size_of_keys [Std.ReflOrd κ] {table : Table κ α} {listed : List κ}
    (same : ∀ key, table.contains key = true ↔ key ∈ listed) :
    table.size = listed.dedup.length := by
  have members (key : κ) : key ∈ table.keys ↔ key ∈ listed.dedup := by
    rw [List.mem_dedup, ← same]
    exact Entries.mem_keys_iff key table.entries
  have reordered : table.keys.Perm listed.dedup :=
    (List.perm_ext_iff_of_nodup (Entries.keys_nodup table.ascending) listed.nodup_dedup).mpr
      members
  rw [← reordered.length_eq, keys, Entries.keys, List.length_map, size]

variable [Std.TransOrd κ] [Std.LawfulEqOrd κ]

theorem entries_of_list (entries : List (κ × α)) :
    (ofList entries).entries = Entries.ofList entries :=
  (List.foldl_hom Table.entries fun _ _ => rfl).symm

theorem find_of_list (entries : List (κ × α)) (key : κ) :
    (ofList entries).find? key = Entries.last? key entries := by
  rw [find?, entries_of_list, Entries.find_of_list]

theorem size_of_list (entries : List (κ × α)) :
    (ofList entries).size = (Entries.keys entries).dedup.length := by
  refine size_of_keys fun key => ?_
  rw [contains, find_of_list, ← not_iff_not, ← Entries.last_none_iff, Bool.not_eq_true,
    Option.isSome_eq_false_iff, Option.isNone_iff_eq_none]

end Table
end DocAudit

/- Associations from keys to values, kept as a list in ascending order of the keys with each key
   once. A lookup takes the first entry with the key, so what it finds after an insertion or an
   erasure is settled for every list; `Ascending` is what makes two lists with the same lookups
   the same list, and every operation here keeps it. -/
namespace DocAudit
namespace Entries
variable {κ α : Type}

def find? [DecidableEq κ] (key : κ) : List (κ × α) → Option α
  | [] => none
  | (k, v) :: rest => if key = k then some v else find? key rest

def contains [DecidableEq κ] (key : κ) (entries : List (κ × α)) : Bool :=
  (find? key entries).isSome

def keys (entries : List (κ × α)) : List κ := entries.map Prod.fst

def replace [DecidableEq κ] (key : κ) (value : α) : List (κ × α) → List (κ × α)
  | [] => []
  | (k, v) :: rest => if key = k then (k, value) :: rest else (k, v) :: replace key value rest

def addNew [Ord κ] (key : κ) (value : α) : List (κ × α) → List (κ × α)
  | [] => [(key, value)]
  | (k, v) :: rest =>
    if compare key k = .lt then (key, value) :: (k, v) :: rest
    else (k, v) :: addNew key value rest

/-- Sets the value of a key: in place if the key is there, else before the first larger key. -/
def insert [Ord κ] [DecidableEq κ] (key : κ) (value : α) (entries : List (κ × α)) :
    List (κ × α) :=
  if contains key entries then replace key value entries else addNew key value entries

def erase [DecidableEq κ] (key : κ) (entries : List (κ × α)) : List (κ × α) :=
  entries.filter fun entry => entry.1 ≠ key

def ofList [Ord κ] [DecidableEq κ] (entries : List (κ × α)) : List (κ × α) :=
  entries.foldl (fun built entry => insert entry.1 entry.2 built) []

def Ascending [Ord κ] (entries : List (κ × α)) : Prop :=
  entries.Pairwise fun a b => compare a.1 b.1 = .lt

theorem find_replace [DecidableEq κ] {key : κ} {entries : List (κ × α)} (probe : κ) (value : α)
    (present : contains key entries) :
    find? probe (replace key value entries) =
      if probe = key then some value else find? probe entries := by
  induction entries with
  | nil => simp [contains, find?] at present
  | cons entry rest ih =>
    obtain ⟨k, v⟩ := entry
    by_cases same : key = k
    · subst same
      by_cases h : probe = key <;> simp [replace, find?, h]
    · simp only [contains, find?, same, ↓reduceIte] at present ih
      by_cases h : probe = k
      · subst h
        simp [replace, find?, same, Ne.symm same]
      · simp [replace, find?, same, h, ih present]

theorem find_add_new [Ord κ] [DecidableEq κ] {key : κ} {entries : List (κ × α)} (probe : κ)
    (value : α) (absent : find? key entries = none) :
    find? probe (addNew key value entries) =
      if probe = key then some value else find? probe entries := by
  induction entries with
  | nil => simp [addNew, find?]
  | cons entry rest ih =>
    obtain ⟨k, v⟩ := entry
    by_cases same : key = k
    · simp [find?, same] at absent
    · simp only [find?, same, ↓reduceIte] at absent
      simp only [addNew]
      split
      · simp [find?]
      · by_cases h : probe = k
        · subst h
          simp [find?, Ne.symm same]
        · simp [find?, h, ih absent]

theorem find_insert [Ord κ] [DecidableEq κ] (key probe : κ) (value : α)
    (entries : List (κ × α)) :
    find? probe (insert key value entries) =
      if probe = key then some value else find? probe entries := by
  unfold insert
  split
  next present => exact find_replace probe value present
  next absent => exact find_add_new probe value (by simpa [contains] using absent)

theorem insert_found [Ord κ] [DecidableEq κ] {key : κ} {value : α} {entries : List (κ × α)}
    (found : find? key entries = some value) : insert key value entries = entries := by
  have present : contains key entries = true := by simp [contains, found]
  simp only [insert, present, ↓reduceIte]
  clear present
  induction entries with
  | nil => rfl
  | cons entry rest ih =>
    obtain ⟨k, v⟩ := entry
    simp only [find?] at found
    split at found
    next same => simp_all [replace]
    next differ => simp [replace, differ, ih found]

theorem find_erase [DecidableEq κ] (key probe : κ) (entries : List (κ × α)) :
    find? probe (erase key entries) = if probe = key then none else find? probe entries := by
  induction entries with
  | nil => simp [erase, find?]
  | cons entry rest ih =>
    obtain ⟨k, v⟩ := entry
    simp only [erase, List.filter_cons] at ih ⊢
    by_cases same : k = key
    · subst same
      simp only [ne_eq, not_true_eq_false, decide_false, Bool.false_eq_true, ↓reduceIte, ih, find?]
      by_cases h : probe = k <;> simp [h]
    · simp only [ne_eq, same, not_false_eq_true, decide_true, ↓reduceIte, find?, ih]
      by_cases h : probe = k
      · subst h
        simp [same]
      · simp [h]

theorem keys_replace [DecidableEq κ] (key : κ) (value : α) (entries : List (κ × α)) :
    keys (replace key value entries) = keys entries := by
  induction entries with
  | nil => rfl
  | cons entry rest ih =>
    obtain ⟨k, v⟩ := entry
    simp only [keys] at ih
    by_cases same : key = k <;> simp [replace, keys, same, ih]

theorem mem_add_new [Ord κ] {key : κ} {value : α} {entries : List (κ × α)} {entry : κ × α}
    (member : entry ∈ addNew key value entries) : entry = (key, value) ∨ entry ∈ entries := by
  induction entries with
  | nil => simpa [addNew] using member
  | cons head rest ih =>
    simp only [addNew] at member
    split at member
    · simpa using member
    · rcases List.mem_cons.mp member with first | later
      · exact Or.inr (by simp [first])
      · rcases ih later with new | old
        · exact Or.inl new
        · exact Or.inr (List.mem_cons_of_mem _ old)

theorem mem_replace [DecidableEq κ] {key : κ} {value : α} {entries : List (κ × α)} {entry : κ × α}
    (member : entry ∈ replace key value entries) : entry = (key, value) ∨ entry ∈ entries := by
  induction entries with
  | nil => simp [replace] at member
  | cons head rest ih =>
    simp only [replace] at member
    split at member
    next same =>
      rcases List.mem_cons.mp member with first | later
      · exact Or.inl (by rw [first, same])
      · exact Or.inr (List.mem_cons_of_mem _ later)
    next =>
      rcases List.mem_cons.mp member with first | later
      · exact Or.inr (by simp [first])
      · rcases ih later with new | old
        · exact Or.inl new
        · exact Or.inr (List.mem_cons_of_mem _ old)

theorem mem_insert [Ord κ] [DecidableEq κ] {key : κ} {value : α} {entries : List (κ × α)}
    {entry : κ × α} (member : entry ∈ insert key value entries) :
    entry = (key, value) ∨ entry ∈ entries := by
  unfold insert at member
  split at member
  · exact mem_replace member
  · exact mem_add_new member

theorem ascending_iff_keys [Ord κ] (entries : List (κ × α)) :
    Ascending entries ↔ (keys entries).Pairwise fun a b => compare a b = .lt := by
  simp [Ascending, keys, List.pairwise_map]

theorem ascending_add_new [Ord κ] [Std.TransOrd κ] [Std.LawfulEqOrd κ] [DecidableEq κ] {key : κ}
    {entries : List (κ × α)} (value : α) (absent : find? key entries = none)
    (ascending : Ascending entries) : Ascending (addNew key value entries) := by
  induction entries with
  | nil => simp [addNew, Ascending]
  | cons head rest ih =>
    obtain ⟨k, v⟩ := head
    obtain ⟨above, tail⟩ := List.pairwise_cons.mp ascending
    by_cases same : key = k
    · simp [find?, same] at absent
    · simp only [find?, same, ↓reduceIte] at absent
      simp only [addNew]
      split
      next smaller =>
        refine List.pairwise_cons.mpr ⟨?_, ascending⟩
        intro entry member
        rcases List.mem_cons.mp member with rfl | later
        · exact smaller
        · exact Std.TransCmp.lt_trans smaller (above entry later)
      next notSmaller =>
        have larger : compare key k = .gt := by
          cases order : compare key k with
          | lt => exact absurd order notSmaller
          | eq => exact absurd (Std.LawfulEqOrd.eq_of_compare order) same
          | gt => rfl
        refine List.pairwise_cons.mpr ⟨?_, ih absent tail⟩
        intro entry member
        rcases mem_add_new member with rfl | old
        · exact Std.OrientedCmp.lt_of_gt larger
        · exact above entry old

theorem ascending_insert [Ord κ] [Std.TransOrd κ] [Std.LawfulEqOrd κ] [DecidableEq κ]
    {entries : List (κ × α)} (key : κ) (value : α) (ascending : Ascending entries) :
    Ascending (insert key value entries) := by
  unfold insert
  split
  · rw [ascending_iff_keys, keys_replace, ← ascending_iff_keys]
    exact ascending
  next absent => exact ascending_add_new value (by simpa [contains] using absent) ascending

theorem ascending_erase [Ord κ] [DecidableEq κ] {entries : List (κ × α)} (key : κ)
    (ascending : Ascending entries) : Ascending (erase key entries) :=
  ascending.filter _

theorem mem_keys_iff [DecidableEq κ] (key : κ) (entries : List (κ × α)) :
    key ∈ keys entries ↔ contains key entries = true := by
  induction entries with
  | nil => simp [keys, contains, find?]
  | cons entry rest ih =>
    obtain ⟨k, v⟩ := entry
    by_cases same : key = k
    · simp [keys, contains, find?, same]
    · simpa [keys, contains, find?, same] using ih

theorem contains_insert [Ord κ] [DecidableEq κ] (key probe : κ) (value : α)
    (entries : List (κ × α)) :
    contains probe (insert key value entries) =
      (decide (probe = key) || contains probe entries) := by
  simp only [contains, find_insert]
  by_cases same : probe = key <;> simp [same]

theorem keys_insert [Ord κ] [DecidableEq κ] (key probe : κ) (value : α)
    (entries : List (κ × α)) :
    probe ∈ keys (insert key value entries) ↔ probe = key ∨ probe ∈ keys entries := by
  simp [mem_keys_iff, contains_insert]

theorem insert_present [Ord κ] [DecidableEq κ] {key : κ} {entries : List (κ × α)}
    (present : contains key entries = true) (value : α) :
    insert key value entries = replace key value entries := by
  simp [insert, present]

theorem insert_absent [Ord κ] [DecidableEq κ] {key : κ} {entries : List (κ × α)}
    (absent : contains key entries = false) (value : α) :
    insert key value entries = addNew key value entries := by
  simp [insert, absent]

theorem replace_comm [DecidableEq κ] {j k : κ} (differ : j ≠ k) (a b : α)
    (entries : List (κ × α)) :
    replace j a (replace k b entries) = replace k b (replace j a entries) := by
  induction entries with
  | nil => rfl
  | cons entry rest ih =>
    obtain ⟨key, value⟩ := entry
    by_cases first : j = key
    · subst first
      simp [replace, Ne.symm differ]
    · by_cases second : k = key <;> simp [replace, first, second, ih]

theorem replace_add_new [Ord κ] [DecidableEq κ] {j k : κ} (differ : j ≠ k) (a b : α)
    (entries : List (κ × α)) :
    replace j a (addNew k b entries) = addNew k b (replace j a entries) := by
  induction entries with
  | nil => simp [addNew, replace, differ]
  | cons entry rest ih =>
    obtain ⟨key, value⟩ := entry
    by_cases same : j = key
    · subst same
      by_cases before : compare k j = .lt <;> simp [addNew, replace, before, differ]
    · by_cases before : compare k key = .lt <;> simp [addNew, replace, before, same, differ, ih]

theorem add_new_comm_of_lt [Ord κ] [Std.TransOrd κ] {j k : κ} (ascending : compare j k = .lt)
    (a b : α) (entries : List (κ × α)) :
    addNew j a (addNew k b entries) = addNew k b (addNew j a entries) := by
  have descending : compare k j ≠ .lt := by
    rw [Std.OrientedCmp.gt_of_lt ascending]
    decide
  induction entries with
  | nil => simp [addNew, ascending, descending]
  | cons entry rest ih =>
    obtain ⟨key, value⟩ := entry
    by_cases later : compare k key = .lt
    · have earlier : compare j key = .lt := Std.TransCmp.lt_trans ascending later
      simp [addNew, later, earlier, ascending, descending]
    · by_cases earlier : compare j key = .lt <;> simp [addNew, later, earlier, descending, ih]

theorem add_new_comm [Ord κ] [Std.TransOrd κ] [Std.LawfulEqOrd κ] {j k : κ} (differ : j ≠ k)
    (a b : α) (entries : List (κ × α)) :
    addNew j a (addNew k b entries) = addNew k b (addNew j a entries) := by
  cases order : compare j k with
  | lt => exact add_new_comm_of_lt order a b entries
  | eq => exact absurd (Std.LawfulEqOrd.eq_of_compare order) differ
  | gt => exact (add_new_comm_of_lt (Std.OrientedCmp.lt_of_gt order) b a entries).symm

theorem insert_comm [Ord κ] [Std.TransOrd κ] [Std.LawfulEqOrd κ] [DecidableEq κ] {j k : κ}
    (differ : j ≠ k) (a b : α) (entries : List (κ × α)) :
    insert j a (insert k b entries) = insert k b (insert j a entries) := by
  have of_j : contains j (insert k b entries) = contains j entries := by
    simp [contains_insert, differ]
  have of_k : contains k (insert j a entries) = contains k entries := by
    simp [contains_insert, Ne.symm differ]
  cases first : contains j entries <;> cases second : contains k entries <;>
    rw [first] at of_j <;> rw [second] at of_k
  case false.false =>
    rw [insert_absent of_j, insert_absent of_k, insert_absent first, insert_absent second]
    exact add_new_comm differ a b entries
  case false.true =>
    rw [insert_absent of_j, insert_present of_k, insert_absent first, insert_present second]
    exact (replace_add_new (Ne.symm differ) b a entries).symm
  case true.false =>
    rw [insert_present of_j, insert_absent of_k, insert_present first, insert_absent second]
    exact replace_add_new differ a b entries
  case true.true =>
    rw [insert_present of_j, insert_present of_k, insert_present first, insert_present second]
    exact replace_comm differ a b entries

theorem replace_replace [DecidableEq κ] (key : κ) (a b : α) (entries : List (κ × α)) :
    replace key b (replace key a entries) = replace key b entries := by
  induction entries with
  | nil => rfl
  | cons entry rest ih =>
    obtain ⟨k, v⟩ := entry
    by_cases same : key = k <;> simp [replace, same, ih]

theorem replace_added [Ord κ] [DecidableEq κ] {key : κ} {entries : List (κ × α)}
    (absent : contains key entries = false) (a b : α) :
    replace key b (addNew key a entries) = addNew key b entries := by
  induction entries with
  | nil => simp [addNew, replace]
  | cons entry rest ih =>
    obtain ⟨k, v⟩ := entry
    by_cases same : key = k
    · simp [contains, find?, same] at absent
    · have later : contains key rest = false := by simpa [contains, find?, same] using absent
      by_cases before : compare key k = .lt <;> simp [addNew, replace, before, same, ih later]

theorem insert_insert [Ord κ] [DecidableEq κ] (key : κ) (a b : α) (entries : List (κ × α)) :
    insert key b (insert key a entries) = insert key b entries := by
  have present : contains key (insert key a entries) = true := by simp [contains_insert]
  rw [insert_present present]
  cases before : contains key entries with
  | true => rw [insert_present before, insert_present before, replace_replace]
  | false => rw [insert_absent before, insert_absent before, replace_added before]

end Entries
end DocAudit

/- A text cut at every occurrence of a separator. There is one segment more than there are
   separators; segments may be empty. -/
namespace DocAudit
namespace Segments

def cut (separator : Char) : List Char → List (List Char)
  | [] => [[]]
  | c :: rest =>
    if c = separator then [] :: cut separator rest
    else
      match cut separator rest with
      | [] => [[c]]
      | segment :: segments => (c :: segment) :: segments

def split (separator : Char) (text : String) : List String :=
  (cut separator text.toList).map String.ofList

section
variable {separator : Char}

theorem cut_nonempty (separator : Char) (text : List Char) : cut separator text ≠ [] := by
  cases text with
  | nil => simp [cut]
  | cons c rest =>
    rw [cut]
    split
    · simp
    · split <;> simp

theorem cut_joined (before rest : List Char) :
    cut separator (before ++ separator :: rest) = cut separator before ++ cut separator rest := by
  induction before with
  | nil => simp [cut]
  | cons c before ih =>
    obtain ⟨segment, segments, first⟩ :=
      List.exists_cons_of_ne_nil (cut_nonempty separator before)
    by_cases here : c = separator
    · simp [cut, here, ih]
    · simp [cut, here, ih, first]

theorem cut_whole {segment : List Char} (free : separator ∉ segment) :
    cut separator segment = [segment] := by
  induction segment with
  | nil => rfl
  | cons c rest ih =>
    obtain ⟨differ, later⟩ := not_or.mp (mt List.mem_cons.mpr free)
    rw [cut, if_neg (Ne.symm differ), ih later]

theorem cut_append {segment : List Char} (free : separator ∉ segment) (rest : List Char) :
    cut separator (segment ++ separator :: rest) = segment :: cut separator rest := by
  rw [cut_joined, cut_whole free, List.singleton_append]

theorem separator_free (text : List Char) :
    ∀ segment ∈ cut separator text, separator ∉ segment := by
  induction text with
  | nil => simp [cut]
  | cons c rest ih =>
    obtain ⟨first, others, cut_rest⟩ := List.exists_cons_of_ne_nil (cut_nonempty separator rest)
    rw [cut_rest] at ih
    by_cases here : c = separator
    · simpa [cut, here, cut_rest] using ih
    · simpa [cut, here, Ne.symm here, cut_rest] using ih

end

end Segments
end DocAudit

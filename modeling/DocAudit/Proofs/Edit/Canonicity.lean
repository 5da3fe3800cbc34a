import DocAudit.Proofs.Edit.Invariance
import DocAudit.Proofs.JsonRoundTrip

/- Edits keep a tree canonical. A dictionary comes to look like a blob only where one of the two
   properties by which a blob is recognised is set to a string. The last component of a write may set
   anything; a component on the way to it, which may well be one of the two, gets a container back. -/
namespace DocAudit

/-- Neither of the two properties by which a blob is recognised. -/
def Component.MarksNothing (component : Component) : Prop :=
  component ≠ .property Blob.typeName ∧ component ≠ .property Blob.digestName

def Edit.MarksNothing : Edit → Prop
  | .write path value => value.Canonical ∧
      path.getLast? ≠ some (.property Blob.typeName) ∧
      path.getLast? ≠ some (.property Blob.digestName)
  | .remove _ => True

namespace Node

def NotLikeBlob : Node → Prop
  | .dictionary entries => ¬ LooksLikeBlob entries
  | _ => True

mutual

theorem canonical_iff_everywhere : ∀ node : Node, node.Canonical ↔ node.Everywhere NotLikeBlob
  | .dictionary entries => and_congr_right fun _ => canonical_entries_iff entries
  | .array items => by
    simp only [Canonical, Everywhere, NotLikeBlob, true_and, canonical_items_iff items]
  | .null | .boolean _ | .number _ | .string _ | .blob _ => Iff.rfl

theorem canonical_items_iff : ∀ items,
    CanonicalItems items ↔ EverywhereItems NotLikeBlob items
  | [] => Iff.rfl
  | item :: rest => and_congr (canonical_iff_everywhere item) (canonical_items_iff rest)

theorem canonical_entries_iff : ∀ entries,
    CanonicalEntries entries ↔ EverywhereEntries NotLikeBlob entries
  | [] => Iff.rfl
  | (_, value) :: rest => and_congr (canonical_iff_everywhere value) (canonical_entries_iff rest)

end

section entries
variable {entries : List (String × Node)} {key : String} {child : Node}

theorem string_before_insert {name s : String}
    (apart : Component.property key ≠ .property name ∨ child.isContainer = true)
    (found : Entries.find? name (Entries.insert key child entries) = some (.string s)) :
    Entries.find? name entries = some (.string s) := by
  rw [Entries.find_insert] at found
  split at found
  next same =>
    cases found
    rcases apart with elsewhere | container
    · exact absurd (congrArg Component.property same.symm) elsewhere
    · cases container
  next elsewhere => exact found

theorem value_before_erase {name : String} {value : Node}
    (found : Entries.find? name (Entries.erase key entries) = some value) :
    Entries.find? name entries = some value := by
  rw [Entries.find_erase] at found
  split at found
  · cases found
  · exact found

theorem looked_like_blob_before_insert
    (apart : (Component.property key).MarksNothing ∨ child.isContainer = true)
    (looks : LooksLikeBlob (Entries.insert key child entries)) : LooksLikeBlob entries := by
  obtain ⟨type, digest, digested⟩ := looks
  exact ⟨string_before_insert (apart.imp_left And.left) type, digest,
    string_before_insert (apart.imp_left And.right) digested⟩

theorem looked_like_blob_before_erase (looks : LooksLikeBlob (Entries.erase key entries)) :
    LooksLikeBlob entries := by
  obtain ⟨type, digest, digested⟩ := looks
  exact ⟨value_before_erase type, digest, value_before_erase digested⟩

end entries

theorem not_like_blob_kept : KeptByEdits NotLikeBlob Component.MarksNothing where
  created := by
    intro path
    rcases path with _ | ⟨_ | _, _⟩ <;> simp [emptyFor, NotLikeBlob, LooksLikeBlob, Entries.find?]
  with_child := by
    intro node component child _ apart here
    cases node <;> cases component <;> try exact here
    case dictionary.property entries key =>
      exact fun looks => here (looked_like_blob_before_insert apart looks)
  without_child := by
    intro node component here
    cases node <;> cases component <;> try exact here
    case dictionary.property entries key =>
      exact fun looks => here (looked_like_blob_before_erase looks)

theorem fits_of_marks_nothing {edit : Edit} (nothing : edit.MarksNothing) :
    edit.Fits NotLikeBlob Component.MarksNothing := by
  cases edit with
  | remove path => trivial
  | write path value =>
    obtain ⟨canonical, no_type, no_digest⟩ := nothing
    refine ⟨(canonical_iff_everywhere value).mp canonical, fun component last => ?_⟩
    rw [last] at no_type no_digest
    exact ⟨fun same => no_type (congrArg some same), fun same => no_digest (congrArg some same)⟩

/-- Every tree read from JSON is canonical. A canonical tree stays so under writes and removals in any
    number and order, carried out or refused, if the values written are canonical and no write ends
    at one of the two properties by which a blob is recognised. After each of them the tree is read
    as it was written, less the contents of its blobs. -/
theorem edits_keep_canonical :
    (∀ json : Json, (ofJson json).Canonical) ∧
    ∀ (root : Node) (edits : List Edit), root.Canonical → (∀ edit ∈ edits, edit.MarksNothing) →
      ∀ tree ∈ Edit.trees root edits,
        tree.Canonical ∧ ofJson tree.toJson = tree.withoutContent := by
  refine ⟨of_json_canonical, fun root edits canonical nothing tree member => ?_⟩
  have fits : ∀ edit ∈ edits, edit.Fits NotLikeBlob Component.MarksNothing :=
    fun edit among => fits_of_marks_nothing (nothing edit among)
  have below := (canonical_iff_everywhere root).mp canonical
  have kept : tree.Canonical :=
    (canonical_iff_everywhere tree).mpr
      (edits_everywhere not_like_blob_kept fits below tree member)
  exact ⟨kept, read_back tree kept⟩

def marked : Node := .dictionary [("@type", .string "blob"), ("x", .array [.null])]

/-- In a dictionary with the mark of a blob a dictionary is put below its digest, a write below the
    mark is refused, an array gets a blob with content, and the digest is removed. A string set as its
    digest would make the dictionary look like a blob. -/
def aroundTheMark : List Edit :=
  [.write [.property "digest", .property "a"] (.string "d"),
    .write [.property "@type", .property "a"] .null,
    .write [.property "x", .index 1] (.blob (.ofContent "text/plain" [])),
    .remove [.property "digest"]]

theorem marked_stays_canonical :
    marked.Canonical ∧ (∀ edit ∈ aroundTheMark, edit.MarksNothing) ∧
    (Edit.trees marked aroundTheMark).getLast? = some (.dictionary [("@type", .string "blob"),
      ("x", .array [.null, .blob (.ofContent "text/plain" [])])]) ∧
    (∀ tree ∈ Edit.trees marked aroundTheMark,
      tree.Canonical ∧ ofJson tree.toJson = tree.withoutContent) ∧
    ¬ (Edit.treeAfter marked (.write [.property "digest"] (.string "d"))).Canonical := by
  have canonical : marked.Canonical := by
    refine ⟨?_, trivial, ⟨trivial, trivial⟩, trivial⟩
    rintro ⟨-, _, ⟨⟩⟩
  have nothing : ∀ edit ∈ aroundTheMark, edit.MarksNothing := by
    simp [aroundTheMark, Edit.MarksNothing, Canonical, Blob.typeName, Blob.digestName]
  exact ⟨canonical, nothing, rfl, edits_keep_canonical.2 marked aroundTheMark canonical nothing,
    fun digested => digested.1 ⟨rfl, "d", rfl⟩⟩

end Node
end DocAudit

import DocAudit.Snapshot

/- Written names of collections. A name without a separator is cut into itself alone, so under a
   usable default scope it means the collection of that scope, and so does the name with the scope
   written before it. Every collection that was read has plain parts, neither empty nor with a
   separator, and its text is cut into just these, whatever the default scope; so a collection has
   one text. -/
namespace DocAudit
namespace CollectionName
variable {scope name : String}

theorem checked_ok_iff {written : String} {collection : CollectionName} :
    checked written scope name = .ok collection ↔
      scope ≠ "" ∧ name ≠ "" ∧ collection = ⟨scope, name⟩ := by
  by_cases scope_named : scope = ""
  · simp [checked, scope_named]
  · by_cases named : name = ""
    · simp [checked, scope_named, named]
    · simp [checked, scope_named, named, eq_comm]

theorem parse_unscoped (default_scope : String) (free : separator ∉ name.toList) :
    parseIn default_scope name = checked name default_scope name := by
  rw [parseIn, Segments.split, Segments.cut_whole free]
  simp only [List.map_cons, List.map_nil, String.ofList_toList]

theorem parse_scoped (default_scope : String) (scope_free : separator ∉ scope.toList)
    (free : separator ∉ name.toList) :
    parseIn default_scope (text ⟨scope, name⟩) = checked (text ⟨scope, name⟩) scope name := by
  have chars : (text ⟨scope, name⟩).toList = scope.toList ++ separator :: name.toList := by
    simp [text]
  rw [parseIn, Segments.split, chars, Segments.cut_append scope_free, Segments.cut_whole free]
  simp only [List.map_cons, List.map_nil, String.ofList_toList]

theorem parse_bare (scope_named : scope ≠ "") (named : name ≠ "")
    (free : separator ∉ name.toList) : parseIn scope name = .ok ⟨scope, name⟩ := by
  rw [parse_unscoped scope free]
  exact checked_ok_iff.mpr ⟨scope_named, named, rfl⟩

theorem parse_text (default_scope : String) (scope_named : scope ≠ "") (named : name ≠ "")
    (scope_free : separator ∉ scope.toList) (free : separator ∉ name.toList) :
    parseIn default_scope (text ⟨scope, name⟩) = .ok ⟨scope, name⟩ := by
  rw [parse_scoped default_scope scope_free free]
  exact checked_ok_iff.mpr ⟨scope_named, named, rfl⟩

def Plain (part : String) : Prop := part ≠ "" ∧ separator ∉ part.toList

theorem scoped_or_refused (default_scope : String) {written : String}
    (separated : separator ∈ written.toList) :
    (∃ scope name, separator ∉ scope.toList ∧ separator ∉ name.toList ∧
      written = text ⟨scope, name⟩) ∨
    parseIn default_scope written = .error ⟨written, .partCount⟩ := by
  obtain ⟨first, rest, chars, first_free⟩ := List.eq_append_cons_of_mem separated
  by_cases again : separator ∈ rest
  · right
    obtain ⟨second, others, later, second_free⟩ := List.eq_append_cons_of_mem again
    obtain ⟨third, more, segments⟩ :=
      List.exists_cons_of_ne_nil (Segments.cut_nonempty separator others)
    rw [parseIn, Segments.split, chars, Segments.cut_append first_free, later,
      Segments.cut_append second_free, segments]
    rfl
  · left
    refine ⟨String.ofList first, String.ofList rest, by simpa using first_free,
      by simpa using again, ?_⟩
    rw [← String.toList_inj, chars]
    simp [text]

theorem parse_in_ok_iff {written : String} {collection : CollectionName} (plain : Plain scope) :
    parseIn scope written = .ok collection ↔
      Plain written ∧ collection = ⟨scope, written⟩ ∨
        ∃ part name, Plain part ∧ Plain name ∧ written = text ⟨part, name⟩ ∧
          collection = ⟨part, name⟩ := by
  constructor
  · intro parsed
    by_cases separated : separator ∈ written.toList
    · rcases scoped_or_refused scope separated with
        ⟨part, name, scope_free, free, rfl⟩ | refused
      · rw [parse_scoped scope scope_free free] at parsed
        obtain ⟨scope_named, named, made⟩ := checked_ok_iff.mp parsed
        exact .inr ⟨part, name, ⟨scope_named, scope_free⟩, ⟨named, free⟩, rfl, made⟩
      · rw [refused] at parsed
        cases parsed
    · rw [parse_unscoped scope separated] at parsed
      obtain ⟨-, named, made⟩ := checked_ok_iff.mp parsed
      exact .inl ⟨⟨named, separated⟩, made⟩
  · rintro (⟨bare, rfl⟩ | ⟨part, name, scope_plain, name_plain, rfl, rfl⟩)
    · exact parse_bare plain.1 bare.1 bare.2
    · exact parse_text scope scope_plain.1 name_plain.1 scope_plain.2 name_plain.2

theorem parsed_plain {written : String} {collection : CollectionName} (plain : Plain scope)
    (parsed : parseIn scope written = .ok collection) :
    Plain collection.scope ∧ Plain collection.name := by
  rcases (parse_in_ok_iff plain).mp parsed with
    ⟨bare, rfl⟩ | ⟨part, name, scope_plain, name_plain, -, rfl⟩
  · exact ⟨plain, bare⟩
  · exact ⟨scope_plain, name_plain⟩

theorem parse_again {written : String} {collection : CollectionName} (plain : Plain scope)
    (parsed : parseIn scope written = .ok collection) (default_scope : String) :
    parseIn default_scope collection.text = .ok collection := by
  obtain ⟨scope_plain, name_plain⟩ := parsed_plain plain parsed
  exact parse_text default_scope scope_plain.1 name_plain.1 scope_plain.2 name_plain.2

end CollectionName

theorem validate_ok_iff (config : Config) :
    config.validate = .ok () ↔
      CollectionName.Plain config.defaultScope ∧ config.blobs.maxBlobBytes ≠ 0 := by
  unfold Config.validate CollectionName.Plain
  by_cases unusable :
      config.defaultScope = "" ∨ CollectionName.separator ∈ config.defaultScope.toList
  · simp only [unusable, ↓reduceIte, reduceCtorEq, false_iff]
    exact fun both => unusable.elim both.1.1 both.1.2
  · have plain := not_or.mp unusable
    by_cases no_bytes : config.blobs.maxBlobBytes = 0 <;> simp [plain, no_bytes]

theorem valid_scope {config : Config} (valid : config.validate = .ok ()) :
    config.defaultScope ≠ "" ∧ CollectionName.separator ∉ config.defaultScope.toList :=
  ((validate_ok_iff config).mp valid).1

theorem with_config_valid {config : Config} {snapshot : Snapshot}
    (made : Snapshot.withConfig config = .ok snapshot) :
    config.validate = .ok () ∧ snapshot = Snapshot.empty config := by
  unfold Snapshot.withConfig at made
  cases valid : config.validate with
  | error fault => simp [valid] at made
  | ok passed =>
    simp only [valid, Except.ok.injEq] at made
    exact ⟨rfl, made.symm⟩

theorem document_key_ok_iff {change : Change} {scope : String} {key : DocumentKey} :
    change.documentKey scope = .ok key ↔
      CollectionName.parseIn scope change.collection = .ok key.collection ∧
        key.id = change.documentId := by
  obtain ⟨collection, id⟩ := key
  unfold Change.documentKey
  cases CollectionName.parseIn scope change.collection with
  | error error => simp
  | ok parsed => simp [eq_comm]

namespace CollectionName

/-- A default scope that a valid configuration can have is plain. Under such a scope the names that
    are read are the plain ones and those of two plain parts with one separator between them. The
    text of a collection is read as this collection under every default scope, so two names mean one
    collection exactly if their texts are the same. -/
theorem names_normalise :
    (∀ config : Config, config.validate = .ok () ↔
      Plain config.defaultScope ∧ config.blobs.maxBlobBytes ≠ 0) ∧
    ∀ scope : String, Plain scope →
      (∀ written collection, parseIn scope written = .ok collection ↔
        Plain written ∧ collection = ⟨scope, written⟩ ∨
          ∃ part name, Plain part ∧ Plain name ∧ written = part ++ "." ++ name ∧
            collection = ⟨part, name⟩) ∧
      (∀ written collection, parseIn scope written = .ok collection →
        Plain collection.scope ∧ Plain collection.name ∧
          ∀ default_scope, parseIn default_scope collection.text = .ok collection) ∧
      (∀ written collection other_written other,
        parseIn scope written = .ok collection → parseIn scope other_written = .ok other →
        (collection = other ↔ collection.text = other.text)) ∧
      ∀ bare full : Change, separator ∉ bare.collection.toList →
        full.collection = scope ++ "." ++ bare.collection →
        full.documentId = bare.documentId →
        ∀ key, bare.documentKey scope = .ok key ↔ full.documentKey scope = .ok key := by
  refine ⟨validate_ok_iff, fun scope plain => ⟨?_, ?_, ?_, ?_⟩⟩
  · exact fun written collection => parse_in_ok_iff plain
  · intro written collection parsed
    obtain ⟨scope_plain, name_plain⟩ := parsed_plain plain parsed
    exact ⟨scope_plain, name_plain, parse_again plain parsed⟩
  · intro written collection other_written other parsed other_parsed
    refine ⟨fun same => by rw [same], fun same => ?_⟩
    have again := parse_again plain parsed scope
    rw [same, parse_again plain other_parsed scope] at again
    exact (Except.ok.inj again).symm
  · intro bare full free spelled same_id key
    have full_text : full.collection = text ⟨scope, bare.collection⟩ := spelled
    rw [document_key_ok_iff, document_key_ok_iff, full_text, same_id,
      parse_unscoped scope free, parse_scoped scope plain.2 free, checked_ok_iff, checked_ok_iff]

theorem hotels_of_the_inventory :
    Plain "inventory" ∧ parseIn "inventory" "inventory.hotels" = .ok ⟨"inventory", "hotels"⟩ ∧
    parseIn "a.b" "inventory.hotels" = .ok ⟨"inventory", "hotels"⟩ ∧
    (Change.new .delete "hotels" "h").documentKey "inventory" =
      .ok ⟨⟨"inventory", "hotels"⟩, "h"⟩ := by
  have plain : Plain "inventory" := ⟨by decide, by decide⟩
  obtain ⟨read, again, -, keys⟩ := names_normalise.2 "inventory" plain
  have parsed : parseIn "inventory" "inventory.hotels" = .ok ⟨"inventory", "hotels"⟩ :=
    (read _ _).mpr (.inr ⟨"inventory", "hotels", plain, ⟨by decide, by decide⟩, rfl, rfl⟩)
  have full : (Change.new .delete "inventory.hotels" "h").documentKey "inventory" =
      .ok ⟨⟨"inventory", "hotels"⟩, "h"⟩ := document_key_ok_iff.mpr ⟨parsed, rfl⟩
  refine ⟨plain, parsed, (again _ _ parsed).2.2 "a.b", ?_⟩
  exact (keys (.new .delete "hotels" "h") (.new .delete "inventory.hotels" "h") (by decide) rfl rfl
    _).mpr full

example : parseIn "_default" "a.b.c" = .error ⟨"a.b.c", .partCount⟩ := rfl

example : parseIn "_default" "a." = .error ⟨"a.", .emptyName⟩ := rfl

end CollectionName
end DocAudit

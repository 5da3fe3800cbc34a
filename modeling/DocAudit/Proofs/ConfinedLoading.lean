import DocAudit.BlobLoader

/- The files that the loader of a directory touches. Each access to the file system is written down
   as it is made. A reference that names nothing, that is absolute or that has a segment of two dots
   is refused before the first access; any other reference leads to one path, whose parts are those
   of the directory with names after them, and no other path is asked about. Names are compared as
   they are written: what a link in the file system points to is not followed here. -/
namespace DocAudit

namespace FilePath

structure Ordinary (segment : String) : Prop where
  nonempty : segment ≠ ""
  not_here : segment ≠ "."
  not_above : segment ≠ ".."
  single : separator ∉ segment.toList

theorem part_of_parent_iff (segment : String) : partOf? segment = some .parent ↔ segment = ".." := by
  unfold partOf?
  by_cases nothing : segment = "" ∨ segment = "."
  · rcases nothing with rfl | rfl <;> decide
  · by_cases above : segment = ".." <;> simp [nothing, above]

theorem part_of_name_iff (segment s : String) :
    partOf? segment = some (.name s) ↔
      segment = s ∧ segment ≠ "" ∧ segment ≠ "." ∧ segment ≠ ".." := by
  unfold partOf?
  by_cases nothing : segment = "" ∨ segment = "."
  · rcases nothing with rfl | rfl <;> simp
  · obtain ⟨nonempty, not_here⟩ := not_or.mp nothing
    by_cases above : segment = ".." <;> simp [nonempty, not_here, above]

theorem parent_among_parts_iff (path : String) :
    .parent ∈ parts path ↔ ".." ∈ Segments.split separator path := by
  simp [parts, part_of_parent_iff]

theorem segment_single {path segment : String} (among : segment ∈ Segments.split separator path) :
    separator ∉ segment.toList := by
  obtain ⟨chars, cut, rfl⟩ := List.mem_map.mp among
  rw [String.toList_ofList]
  exact Segments.separator_free path.toList chars cut

theorem ordinary_of_name {path s : String} (among : .name s ∈ parts path) : Ordinary s := by
  obtain ⟨segment, listed, made⟩ := List.mem_filterMap.mp among
  obtain ⟨rfl, nonempty, not_here, not_above⟩ := (part_of_name_iff segment s).mp made
  exact ⟨nonempty, not_here, not_above, segment_single listed⟩

theorem named_without_parent (parts : List Part) (stays : .parent ∉ parts) :
    ∃ names : List String, parts = names.map Part.name := by
  induction parts with
  | nil => exact ⟨[], rfl⟩
  | cons part rest ih =>
    obtain ⟨differ, later⟩ := not_or.mp (mt List.mem_cons.mpr stays)
    obtain ⟨names, rfl⟩ := ih later
    cases part with
    | parent => exact absurd rfl differ
    | name s => exact ⟨s :: names, rfl⟩

theorem names_of_parts {path : String} (stays : ".." ∉ Segments.split separator path) :
    ∃ names : List String, parts path = names.map Part.name ∧ ∀ name ∈ names, Ordinary name := by
  rw [← parent_among_parts_iff] at stays
  obtain ⟨names, made⟩ := named_without_parent (parts path) stays
  refine ⟨names, made, fun name member => ?_⟩
  have among : .name name ∈ parts path := by
    rw [made]
    exact List.mem_map_of_mem member
  exact ordinary_of_name among

theorem parts_joined {path front back : String}
    (chars : path.toList = front.toList ++ separator :: back.toList) :
    parts path = parts front ++ parts back := by
  rw [parts, Segments.split, chars, Segments.cut_joined, List.map_append, List.filterMap_append]
  rfl

variable {directory path : String}

theorem parts_join (relative : isAbsolute path = false) :
    parts (join directory path) = parts directory ++ parts path := by
  rw [join, relative, if_neg Bool.false_ne_true]
  split
  next unneeded =>
    rcases unneeded with rfl | closed
    · rfl
    · -- the last separator of the directory is the one between the two
      obtain ⟨front, ending⟩ := List.getLast?_eq_some_iff.mp closed
      have alone : parts directory = parts (String.ofList front) ++ parts "" :=
        parts_joined (by simp [ending])
      rw [alone, show parts "" = [] from rfl, List.append_nil]
      exact parts_joined (by simp [ending])
  next => exact parts_joined (by simp)

theorem is_absolute_join (relative : isAbsolute path = false) :
    isAbsolute (join directory path) = isAbsolute directory := by
  rw [join, relative, if_neg Bool.false_ne_true]
  by_cases named : directory = ""
  · subst named
    simpa [isAbsolute] using relative
  · obtain ⟨c, rest, chars⟩ :=
      List.exists_cons_of_ne_nil (mt String.toList_eq_nil_iff.mp named)
    split <;> simp [isAbsolute, chars]

/-- A path that leads on from a directory by names: its parts are those of the directory and after
    them the names, which are ordinary. -/
structure Below (directory : String) (names : List String) (path : String) : Prop where
  absolute : isAbsolute path = isAbsolute directory
  parts_eq : parts path = parts directory ++ names.map .name
  ordinary : ∀ name ∈ names, Ordinary name

theorem join_below (directory : String) (relative : isAbsolute path = false)
    (stays : ".." ∉ Segments.split separator path) :
    ∃ names : List String, parts path = names.map Part.name ∧
      Below directory names (join directory path) := by
  obtain ⟨names, named, ordinary⟩ := names_of_parts stays
  refine ⟨names, named, is_absolute_join relative, ?_, ordinary⟩
  rw [parts_join relative, named]

end FilePath

inductive FileAccess where
  | metadata (path : String)
  | read (path : String)
deriving DecidableEq, Repr

namespace FileSystem

def recorded (files : FileSystem Id) : FileSystem (StateM (List FileAccess)) where
  metadata path := do
    modify fun accesses => accesses ++ [.metadata path]
    return (files.metadata path).run
  read path := do
    modify fun accesses => accesses ++ [.read path]
    return (files.read path).run

/-- The length of a file is the number of the bytes that are read from it. -/
def Sized (files : FileSystem Id) : Prop :=
  ∀ path metadata content, (files.metadata path).run = .ok metadata → metadata.isFile = true →
    (files.read path).run = .ok content → metadata.length = content.length

theorem of_view_sized (files : FileView) : (ofView files).Sized := by
  intro path metadata content known is_file read
  change (files path).map FileEntry.metadata = .ok metadata at known
  change (files path).bind FileEntry.content = .ok content at read
  cases found : files path with
  | error fault => simp [found, Except.map] at known
  | ok entry =>
    cases entry with
    | directory => simp [found, Except.bind, FileEntry.content] at read
    | file bytes =>
      simp only [found, Except.map, Except.ok.injEq] at known
      simp only [found, Except.bind, FileEntry.content, Except.ok.injEq] at read
      rw [← known, ← read]
      rfl

end FileSystem

namespace DirectoryLoader
variable {directory : DirectoryLoader} {reference : String}

/-- A reference that names nothing, that is absolute, or that has two dots as a segment. -/
def Refused (reference : String) : Prop :=
  reference = "" ∨ reference.toList.head? = some '/' ∨
    ".." ∈ Segments.split FilePath.separator reference

def refusal (reference : String) : BlobFault :=
  if reference = "" then .emptyReference else .outsideDirectory

theorem resolve_refused (refused : Refused reference) :
    directory.resolve reference = .error (refusal reference) := by
  unfold resolve refusal
  by_cases empty : reference = ""
  · simp [empty]
  · have outside : FilePath.isAbsolute reference = true ∨ .parent ∈ FilePath.parts reference := by
      rw [FilePath.parent_among_parts_iff]
      exact (refused.resolve_left empty).imp_left beq_iff_eq.mpr
    simp only [empty, outside, ↓reduceIte]

theorem resolve_accepted (accepted : ¬ Refused reference) :
    directory.resolve reference = .ok (FilePath.join directory.root reference) := by
  obtain ⟨named, inside⟩ := not_or.mp accepted
  have stays : ¬ (FilePath.isAbsolute reference = true ∨ .parent ∈ FilePath.parts reference) := by
    rw [FilePath.parent_among_parts_iff]
    exact mt (Or.imp_left beq_iff_eq.mp) inside
  rw [resolve, if_neg named, if_neg stays]

section
variable {m : Type → Type} [Monad m] (files : FileSystem m)

theorem load_refused [LawfulMonad m] (refused : Refused reference) :
    directory.load files reference =
      pure (.error (.blobFetchFailed reference (refusal reference))) := by
  rw [load, fetch, resolve_refused refused]
  exact map_pure _ _

theorem load_accepted (accepted : ¬ Refused reference) :
    directory.load files reference = Except.mapError (.blobFetchFailed reference) <$>
      directory.fetchAt files (FilePath.join directory.root reference) := by
  rw [load, fetch, resolve_accepted accepted]

end

theorem permit_ok_iff (metadata : FileMetadata) :
    directory.permit metadata = .ok () ↔
      metadata.isFile = true ∧ metadata.length ≤ directory.maxBytes := by
  unfold permit
  by_cases other : metadata.isFile = false
  · simp [other]
  · by_cases large : metadata.length > directory.maxBytes
    · simp [other, large]
    · simp [other, large, Nat.le_of_not_gt large]

theorem failure_names_reference {fetched : Except BlobFault Blob} {error : AuditError}
    (failed : fetched.mapError (.blobFetchFailed reference) = .error error) :
    ∃ fault, error = .blobFetchFailed reference fault := by
  cases fetched with
  | error fault => exact ⟨fault, (Except.error.inj failed).symm⟩
  | ok blob => cases failed

theorem success_kept {fetched : Except BlobFault Blob} {blob : Blob} :
    fetched.mapError (AuditError.blobFetchFailed reference) = .ok blob ↔ fetched = .ok blob := by
  cases fetched with
  | error fault => exact ⟨nofun, nofun⟩
  | ok found =>
    exact ⟨fun kept => congrArg Except.ok (Except.ok.inj kept),
      fun same => congrArg Except.ok (Except.ok.inj same)⟩

section unchanging
variable (directory : DirectoryLoader) (files : FileSystem Id) (path : String)

theorem fetch_at_answered :
    (directory.fetchAt files path).run =
      match (files.metadata path).run with
      | .error fault => .error (.unreadable fault)
      | .ok metadata =>
        match directory.permit metadata with
        | .error fault => .error fault
        | .ok () =>
          match (files.read path).run with
          | .error fault => .error (.unreadable fault)
          | .ok content => .ok (.ofContent (BlobLoader.contentTypeFor path) content) := rfl

inductive Outcome : Except BlobFault Blob → List FileAccess → Prop where
  | unknown {fault : FileFault} (known : (files.metadata path).run = .error fault) :
      Outcome (.error (.unreadable fault)) [.metadata path]
  | forbidden {metadata : FileMetadata} {fault : BlobFault}
      (known : (files.metadata path).run = .ok metadata)
      (forbids : directory.permit metadata = .error fault) :
      Outcome (.error fault) [.metadata path]
  | unread {metadata : FileMetadata} {fault : FileFault}
      (known : (files.metadata path).run = .ok metadata)
      (permitted : directory.permit metadata = .ok ())
      (content_read : (files.read path).run = .error fault) :
      Outcome (.error (.unreadable fault)) [.metadata path, .read path]
  | loaded {metadata : FileMetadata} {content : List UInt8}
      (known : (files.metadata path).run = .ok metadata)
      (permitted : directory.permit metadata = .ok ())
      (content_read : (files.read path).run = .ok content) :
      Outcome (.ok (.ofContent (BlobLoader.contentTypeFor path) content))
        [.metadata path, .read path]

theorem fetch_at_outcome :
    ∃ fetched accesses, Outcome directory files path fetched accesses ∧
      (directory.fetchAt files path).run = fetched ∧
      ((directory.fetchAt files.recorded path).run []).run = (fetched, accesses) := by
  rw [fetch_at_answered]
  cases known : (files.metadata path).run with
  | error fault =>
    refine ⟨_, _, .unknown known, rfl, ?_⟩
    simp [fetchAt, FileSystem.recorded, known]
  | ok metadata =>
    cases permitted : directory.permit metadata with
    | error fault =>
      refine ⟨_, _, .forbidden known permitted, by simp only [permitted], ?_⟩
      simp [fetchAt, FileSystem.recorded, known, permitted]
    | ok passed =>
      cases content_read : (files.read path).run with
      | error fault =>
        refine ⟨_, _, .unread known permitted content_read, by simp only [permitted], ?_⟩
        simp [fetchAt, FileSystem.recorded, known, permitted, content_read]
      | ok content =>
        refine ⟨_, _, .loaded known permitted content_read, by simp only [permitted], ?_⟩
        simp [fetchAt, FileSystem.recorded, known, permitted, content_read]

theorem one_path_accessed {fetched : Except BlobFault Blob} {accesses : List FileAccess}
    (outcome : Outcome directory files path fetched accesses) :
    accesses = [.metadata path] ∨ accesses = [.metadata path, .read path] := by
  cases outcome with
  | unknown => exact .inl rfl
  | forbidden => exact .inl rfl
  | unread => exact .inr rfl
  | loaded => exact .inr rfl

theorem fetch_at_ok_iff (blob : Blob) :
    (directory.fetchAt files path).run = .ok blob ↔
      ∃ length content, (files.metadata path).run = .ok ⟨true, length⟩ ∧
        length ≤ directory.maxBytes ∧ (files.read path).run = .ok content ∧
        blob = .ofContent (BlobLoader.contentTypeFor path) content := by
  constructor
  · intro fetched
    obtain ⟨result, accesses, outcome, same, -⟩ := fetch_at_outcome directory files path
    rw [← same, fetched] at outcome
    cases outcome with
    | loaded known permitted content_read =>
      obtain ⟨is_file, small⟩ := (permit_ok_iff _).mp permitted
      refine ⟨_, _, ?_, small, content_read, rfl⟩
      rw [known, ← is_file]
  · rintro ⟨length, content, known, small, content_read, rfl⟩
    have permitted := (permit_ok_iff ⟨true, length⟩).mpr ⟨rfl, small⟩
    rw [fetch_at_answered]
    simp only [known, permitted, content_read]

theorem fetched_within_bound (sized : files.Sized) {blob : Blob}
    (fetched : (directory.fetchAt files path).run = .ok blob) :
    (files.metadata path).run = .ok ⟨true, blob.length⟩ ∧ blob.length ≤ directory.maxBytes := by
  obtain ⟨length, content, known, small, content_read, rfl⟩ :=
    (fetch_at_ok_iff directory files path blob).mp fetched
  obtain rfl : length = content.length := sized path _ content known rfl content_read
  exact ⟨known, small⟩

theorem load_answered (accepted : ¬ Refused reference) :
    (directory.load files reference).run =
      (directory.fetchAt files (FilePath.join directory.root reference)).run.mapError
        (.blobFetchFailed reference) := by
  rw [load_accepted files accepted, Id.run_map]

theorem load_recorded (accepted : ¬ Refused reference) :
    ∃ accesses,
      (accesses = [.metadata (FilePath.join directory.root reference)] ∨
        accesses = [.metadata (FilePath.join directory.root reference),
          .read (FilePath.join directory.root reference)]) ∧
      ((directory.load files.recorded reference).run []).run =
        ((directory.load files reference).run, accesses) := by
  obtain ⟨fetched, accesses, outcome, same, recorded⟩ :=
    fetch_at_outcome directory files (FilePath.join directory.root reference)
  refine ⟨accesses, one_path_accessed directory files _ outcome, ?_⟩
  rw [load_answered directory files accepted, same, load_accepted _ accepted, StateT.run_map,
    Id.run_map, recorded]

end unchanging

/-- A load from a directory stays in it, and its result is the same if the accesses are written
    down. It succeeds exactly if a regular file is there whose metadata has no more than the limit
    and which can be read; the blob has the bytes that are read. All failures name the reference. -/
theorem loading_confined (directory : DirectoryLoader) (files : FileSystem Id)
    (reference : String) :
    ∃ result accesses,
      ((directory.load files.recorded reference).run []).run = (result, accesses) ∧
      (directory.load files reference).run = result ∧
      (∀ error, result = .error error → ∃ fault, error = .blobFetchFailed reference fault) ∧
      (Refused reference →
        accesses = [] ∧ result = .error (.blobFetchFailed reference (refusal reference))) ∧
      (¬ Refused reference → ∃ path names,
        path = FilePath.join directory.root reference ∧
        (accesses = [.metadata path] ∨ accesses = [.metadata path, .read path]) ∧
        FilePath.Below directory.root names path ∧
        FilePath.parts reference = names.map FilePath.Part.name ∧
        (∀ blob, result = .ok blob ↔
          ∃ length content, (files.metadata path).run = .ok ⟨true, length⟩ ∧
            length ≤ directory.maxBytes ∧ (files.read path).run = .ok content ∧
            blob = ⟨BlobLoader.contentTypeFor path, content.length, Blob.digestOf content,
              some content⟩) ∧
        (files.Sized → ∀ blob, result = .ok blob →
          (files.metadata path).run = .ok ⟨true, blob.length⟩ ∧
            blob.length ≤ directory.maxBytes)) := by
  by_cases refused : Refused reference
  · refine ⟨.error (.blobFetchFailed reference (refusal reference)), [], ?_, ?_, ?_, ?_, ?_⟩
    · rw [load_refused _ refused]
      rfl
    · rw [load_refused _ refused]
      rfl
    · rintro error ⟨⟩
      exact ⟨_, rfl⟩
    · exact fun _ => ⟨rfl, rfl⟩
    · exact fun accepted => absurd refused accepted
  · obtain ⟨accesses, one_path, recorded⟩ := load_recorded directory files refused
    refine ⟨_, _, recorded, rfl, ?_, fun given => absurd given refused, fun _ => ?_⟩
    · intro error failed
      rw [load_answered directory files refused] at failed
      exact failure_names_reference failed
    · obtain ⟨relative, stays⟩ := not_or.mp (not_or.mp refused).2
      obtain ⟨names, named, below⟩ := FilePath.join_below directory.root
        (Bool.eq_false_iff.mpr (mt beq_iff_eq.mp relative)) stays
      refine ⟨_, names, rfl, one_path, below, named, ?_, fun sized blob loaded => ?_⟩
      · intro blob
        rw [load_answered directory files refused, success_kept]
        exact fetch_at_ok_iff directory files _ blob
      · rw [load_answered directory files refused, success_kept] at loaded
        exact fetched_within_bound directory files _ sized loaded

def photoTree : FileTree :=
  .directory [("photos", .directory [("images", .directory [("s1.JPG", .file [255, 216, 255])])]),
    ("secret", .file [0])]

def photoFiles : FileSystem Id := .ofView photoTree.look

theorem picture_through_dots :
    ¬ Refused "./images//s1.JPG" ∧ photoFiles.Sized ∧
    (load ⟨"photos", 3⟩ photoFiles "./images//s1.JPG").run =
      .ok ⟨"image/jpeg", 3, Blob.digestOf [255, 216, 255], some [255, 216, 255]⟩ ∧
    (photoFiles.metadata "photos/./images//s1.JPG").run = .ok ⟨true, 3⟩ ∧
    Refused "images/../images/s1.JPG" ∧
    ((load ⟨"photos", 3⟩ photoFiles.recorded "images/../images/s1.JPG").run []).run =
      (.error (.blobFetchFailed "images/../images/s1.JPG" .outsideDirectory), []) := by
  have inside : ¬ Refused "./images//s1.JPG" := by
    unfold Refused
    decide
  have outside : Refused "images/../images/s1.JPG" := by
    unfold Refused
    decide
  have sized : photoFiles.Sized := FileSystem.of_view_sized photoTree.look
  obtain ⟨result, _, -, loaded, -, -, accepted⟩ :=
    loading_confined ⟨"photos", 3⟩ photoFiles "./images//s1.JPG"
  obtain ⟨other, accesses, recorded, -, -, refused, -⟩ :=
    loading_confined ⟨"photos", 3⟩ photoFiles "images/../images/s1.JPG"
  obtain ⟨path, names, rfl, -, -, -, loads_iff, bounded⟩ := accepted inside
  obtain ⟨rfl, rfl⟩ := refused outside
  have picture : result =
      .ok ⟨"image/jpeg", 3, Blob.digestOf [255, 216, 255], some [255, 216, 255]⟩ :=
    (loads_iff _).mpr ⟨3, [255, 216, 255], rfl, by decide, rfl, rfl⟩
  exact ⟨inside, sized, loaded.trans picture, (bounded sized _ picture).1, outside, recorded⟩

end DirectoryLoader
end DocAudit

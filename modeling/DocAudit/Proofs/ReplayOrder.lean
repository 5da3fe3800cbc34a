import DocAudit.Proofs.CachedReplay
import DocAudit.Proofs.Edit.Order
import Mathlib.Data.List.Pairwise

/- Batches whose paths do not overlap can be taken in any order. For writes made one after the other
   the tree in the end and the outcome of each write are the same in every order. A replay stops at
   the first entry that cannot be set, so which error it reports may depend on the order; whether it
   succeeds, and with which body, does not. -/
namespace DocAudit

def ApartEntries (entries : List (String × Node)) : Prop :=
  entries.Pairwise fun a b => ∀ p q, KeyPath.parse a.1 = .ok p → KeyPath.parse b.1 = .ok q →
    KeyPath.Apart p q

def setAll (entries : List (String × Node)) : List ReplayStep :=
  entries.map fun entry => .set entry.1 entry.2

def Change.stepsOver (change : Change) (batches : List (List (String × Node))) :
    List ReplayStep :=
  batches.flatMap setAll ++ change.removals.map .remove ++
    change.blobs.entries.map fun entry => .putBlob entry.1 entry.2

theorem steps_over_own (change : Change) :
    change.stepsOver (change.updates.map Table.entries) = change.steps := by
  simp only [Change.stepsOver, Change.steps, List.flatMap_map, setAll]

theorem foldl_reordered {σ α : Type} {f : σ → α → σ} {items reordered : List α}
    (commute : items.Pairwise fun x y => ∀ z, f (f z x) y = f (f z y) x)
    (same : reordered.Perm items) (init : σ) :
    reordered.foldl f init = items.foldl f init := by
  have symmetric : Std.Symm fun x y : α => ∀ z, f (f z x) y = f (f z y) x :=
    ⟨fun x y either z => (either z).symm⟩
  have everywhere := commute.forall_of_forall fun x _ z => rfl
  exact (same.symm.foldl_eq' (fun x first y second => everywhere first second) init).symm

namespace Replay

def setNext (loader : BlobLoader) (body : Option Node) (entry : String × Node) : Option Node :=
  body.bind fun body => (stepFresh loader body (.set entry.1 entry.2)).toOption

theorem step_set_ok {loader : BlobLoader} {body after value : Node} {written : String} :
    stepFresh loader body (.set written value) = .ok after ↔
      ∃ path, KeyPath.parse written = .ok path ∧ body.write path value = (after, .ok ()) := by
  simp only [stepFresh, editFresh]
  cases KeyPath.parse written with
  | error error => simp
  | ok path => rcases done : body.write path value with ⟨tree, _ | _⟩ <;> simp [done]

theorem set_next_some {loader : BlobLoader} {body after : Node} {entry : String × Node} :
    setNext loader (some body) entry = some after ↔
      ∃ path, KeyPath.parse entry.1 = .ok path ∧ body.write path entry.2 = (after, .ok ()) := by
  have stepped : setNext loader (some body) entry = some after ↔
      stepFresh loader body (.set entry.1 entry.2) = .ok after := by
    rw [setNext, Option.bind_some]
    cases stepFresh loader body (.set entry.1 entry.2) <;> simp [Except.toOption]
  exact stepped.trans step_set_ok

theorem run_set_all (loader : BlobLoader) (body after : Node) (entries : List (String × Node)) :
    runFresh loader body (setAll entries) = .ok after ↔
      entries.foldl (setNext loader) (some body) = some after := by
  induction entries generalizing body with
  | nil => simp [runFresh, setAll]
  | cons first rest ih =>
    have stopped : rest.foldl (setNext loader) none = none := by
      clear ih
      induction rest with
      | nil => rfl
      | cons next rest ih => exact ih
    simp only [setAll, List.map_cons, runFresh, List.foldl_cons, setNext, Option.bind_some] at ih ⊢
    cases stepFresh loader body (.set first.1 first.2) with
    | error error => simp [Except.toOption, stopped]
    | ok tree => exact ih tree

theorem set_next_swap {loader : BlobLoader} {body : Option Node} {after : Node}
    {a b : String × Node}
    (apart : ∀ p q, KeyPath.parse a.1 = .ok p → KeyPath.parse b.1 = .ok q → KeyPath.Apart p q)
    (done : setNext loader (setNext loader body a) b = some after) :
    setNext loader (setNext loader body b) a = some after := by
  cases body with
  | none => simp [setNext] at done
  | some body =>
    obtain ⟨between, first, -⟩ := Option.bind_eq_some_iff.mp done
    rw [first] at done
    obtain ⟨p, p_read, p_written⟩ := set_next_some.mp first
    obtain ⟨q, q_read, q_written⟩ := set_next_some.mp done
    obtain ⟨trees, outcome⟩ := Node.write_apart (apart p q p_read q_read) body a.2 b.2
    have other_outcome := (Node.write_apart (apart p q p_read q_read).symm body b.2 a.2).2
    rw [p_written, q_written] at trees outcome
    rw [p_written] at other_outcome
    have b_first : setNext loader (some body) b = some (body.write q b.2).1 :=
      set_next_some.mpr ⟨q, q_read, Prod.ext rfl outcome.symm⟩
    rw [b_first]
    exact set_next_some.mpr ⟨p, p_read, Prod.ext trees.symm other_outcome⟩

theorem set_next_comm {a b : String × Node}
    (apart : ∀ p q, KeyPath.parse a.1 = .ok p → KeyPath.parse b.1 = .ok q → KeyPath.Apart p q)
    (loader : BlobLoader) (body : Option Node) :
    setNext loader (setNext loader body a) b = setNext loader (setNext loader body b) a := by
  refine Option.ext fun after => ?_
  constructor
  · intro done
    exact set_next_swap apart done
  · intro done
    refine set_next_swap ?_ done
    intro q p q_read p_read
    exact (apart p q p_read q_read).symm

theorem run_set_all_reordered {entries reordered : List (String × Node)}
    (apart : ApartEntries entries) (same : reordered.Perm entries) (loader : BlobLoader)
    (body after : Node) :
    runFresh loader body (setAll reordered) = .ok after ↔
      runFresh loader body (setAll entries) = .ok after := by
  have commute : entries.Pairwise fun a b => ∀ body,
      setNext loader (setNext loader body a) b = setNext loader (setNext loader body b) a :=
    apart.imp fun apart body => set_next_comm apart loader body
  rw [run_set_all, run_set_all, foldl_reordered commute same]

theorem run_append (loader : BlobLoader) (body after : Node) (first rest : List ReplayStep) :
    runFresh loader body (first ++ rest) = .ok after ↔
      ∃ between, runFresh loader body first = .ok between ∧
        runFresh loader between rest = .ok after := by
  induction first generalizing body with
  | nil => simp [runFresh]
  | cons next first ih =>
    simp only [List.cons_append, run_cons, ih]
    grind

end Replay

theorem apply_batch_reordered {change : Change} {cache : PathCache} (sound : cache.Sound)
    {earlier later : List (Table String Node)} {batch : Table String Node}
    (updates : change.updates = earlier ++ batch :: later) (apart : ApartEntries batch.entries)
    {reordered : List (String × Node)} (same : reordered.Perm batch.entries)
    (loader : BlobLoader) (body after : Node) :
    (change.apply loader cache body).1 = .ok after ↔
      (Replay.run loader cache body (change.stepsOver
        (earlier.map Table.entries ++ reordered :: later.map Table.entries))).1 = .ok after := by
  rw [Change.apply, (Replay.run_fresh sound loader body _).1,
    (Replay.run_fresh sound loader body _).1, ← steps_over_own, updates]
  simp only [Change.stepsOver, List.map_append, List.map_cons, List.flatMap_append,
    List.flatMap_cons, List.append_assoc, Replay.run_append,
    Replay.run_set_all_reordered apart same]

/-- Writes at paths that are apart leave the same tree behind in every order, and each of them has in
    every order the outcome that it has on the tree at the start. If the entries of a batch are
    apart, then whether a replay succeeds, and with which body, does not depend on their order. -/
theorem apart_writes_in_any_order :
    (∀ (root : Node) (writes reordered : List (KeyPath × Node)),
      Node.ApartWrites writes → reordered.Perm writes →
      (root.writeAll reordered).1 = (root.writeAll writes).1 ∧
      (root.writeAll writes).2 = writes.map (fun write => (root.write write.1 write.2).2) ∧
      (root.writeAll reordered).2 = reordered.map fun write => (root.write write.1 write.2).2) ∧
    ∀ (change : Change) (loader : BlobLoader) (cache : PathCache) (body after : Node)
      (earlier later : List (Table String Node)) (batch : Table String Node)
      (reordered : List (String × Node)),
      cache.Sound → change.updates = earlier ++ batch :: later → ApartEntries batch.entries →
      reordered.Perm batch.entries →
      ((change.apply loader cache body).1 = .ok after ↔
        (Replay.run loader cache body (change.stepsOver
          (earlier.map Table.entries ++ reordered :: later.map Table.entries))).1 = .ok after) := by
  constructor
  · intro root writes reordered apart same
    have reordered_apart : Node.ApartWrites reordered :=
      apart.perm same.symm fun apart => apart.symm
    have commute : writes.Pairwise fun x y => ∀ tree : Node,
        ((tree.write x.1 x.2).1.write y.1 y.2).1 = ((tree.write y.1 y.2).1.write x.1 x.2).1 :=
      apart.imp fun apart tree => (Node.write_apart apart tree _ _).1
    refine ⟨?_, Node.write_all_outcomes apart root, Node.write_all_outcomes reordered_apart root⟩
    rw [Node.write_all_tree, Node.write_all_tree, foldl_reordered commute same]
  · intro change loader cache body after earlier later batch reordered sound updates apart same
    exact apply_batch_reordered sound updates apart same loader body after

theorem places_beyond_the_end :
    Node.ApartWrites [([.index 2, .property "x"], .null), ([.index 0, .property "y"], .null)] ∧
    ((Node.array [.boolean true]).writeAll
        [([.index 0, .property "y"], .null), ([.index 2, .property "x"], .null)]).1 =
      ((Node.array [.boolean true]).writeAll
        [([.index 2, .property "x"], .null), ([.index 0, .property "y"], .null)]).1 ∧
    ((Node.array [.boolean true]).writeAll
        [([.index 0, .property "y"], .null), ([.index 2, .property "x"], .null)]).2 =
      [.error ⟨[.index 0, .property "y"], .typeMismatch .dictionary .boolean⟩, .ok ()] ∧
    ApartEntries [("[1].x", .null), ("[3]", .null)] ∧
    (Replay.run (fun _ => .error (.store "")) .empty (.array [])
        (setAll [("[3]", .null), ("[1].x", .null)])).1 =
      .ok (.array [.null, .dictionary [("x", .null)], .null, .null]) := by
  have other_index : KeyPath.Apart [.index 2, .property "x"] [.index 0, .property "y"] :=
    .here (by decide) (by rfl) _ _
  have apart : Node.ApartWrites
      [([.index 2, .property "x"], .null), ([.index 0, .property "y"], .null)] :=
    List.pairwise_pair.mpr other_index
  have apart_entries : ApartEntries [("[1].x", .null), ("[3]", .null)] := by
    have first : KeyPath.parse "[1].x" = .ok [.index 1, .property "x"] := rfl
    have second : KeyPath.parse "[3]" = .ok [.index 3] := rfl
    refine List.pairwise_pair.mpr fun p q p_read q_read => ?_
    rw [first] at p_read
    rw [second] at q_read
    cases p_read
    cases q_read
    exact .here (by decide) (by rfl) _ _
  obtain ⟨trees, -, outcomes⟩ := apart_writes_in_any_order.1 (Node.array [.boolean true]) _ _ apart
    (.swap _ _ [])
  refine ⟨apart, trees, outcomes, apart_entries, ?_⟩
  have replayed := apart_writes_in_any_order.2
    ((Change.new .update "c" "d").set "[1].x" .null |>.set "[3]" .null)
    (fun _ => .error (.store "")) .empty (.array [])
    (.array [.null, .dictionary [("x", .null)], .null, .null]) [] []
    (Table.ofList [("[1].x", .null), ("[3]", .null)]) [("[3]", .null), ("[1].x", .null)]
    PathCache.empty_sound rfl apart_entries (.swap _ _ [])
  exact replayed.mp rfl

end DocAudit

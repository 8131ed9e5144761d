import Templating.Files.Tree
import Templating.Proofs.Text.Joined

/-!
# Where files are written

A path is followed name by name, and what a name does to the place does not depend
on the tree: if a path can be followed, its destination is known beforehand. A file
is written at the destination of its path, and nowhere else. A path that leads down
only has its destination below that of the directory it is joined to.
-/

namespace Templating.Files

/-! ## Destinations -/

/-- The place that a name leads to from a place. -/
def enter (place : Place) (name : String) : Place :=
  if isStill name then place
  else if name = ".." then place.dropLast
  else place ++ [name]

/-- The place that a path leads to from the place `here`, if it can be followed. -/
def destination (here : Place) (path : String) : Place :=
  (names path).foldl enter (if isAbsolute path then [] else here)

/-- A name that leads down. -/
def IsDown (name : String) : Prop :=
  isStill name = false ∧ name ≠ ".."

instance : DecidablePred IsDown := fun name =>
  inferInstanceAs (Decidable (isStill name = false ∧ name ≠ ".."))

theorem enter_of_isDown {name : String} (h : IsDown name) (place : Place) :
    enter place name = place ++ [name] := by
  rw [enter, h.1, if_neg (by simp), if_neg h.2]

theorem foldl_enter_of_isDown {path : List String} (h : ∀ name ∈ path, IsDown name)
    (place : Place) : path.foldl enter place = place ++ path := by
  induction path generalizing place with
  | nil => rw [List.foldl_nil, List.append_nil]
  | cons name path ih =>
      obtain ⟨hname, hpath⟩ := List.forall_mem_cons.mp h
      rw [List.foldl_cons, enter_of_isDown hname, ih hpath, List.append_assoc,
        List.singleton_append]

theorem names_ne_nil (path : String) : names path ≠ [] := by
  simp [names, Text.pieces_ne_nil]

/-- A path is its names with slashes between them. -/
theorem names_injective : Function.Injective names := by
  intro a b h
  have hpieces : Text.pieces '/' a.toList = Text.pieces '/' b.toList :=
    List.map_injective_iff.mpr (fun _ _ => String.ofList_inj.mp) h
  rw [← String.toList_inj, ← Text.intercalate_pieces '/' a.toList, hpieces,
    Text.intercalate_pieces]

/-- A path that leads down is relative: the first name of an absolute one is empty. -/
theorem isAbsolute_of_isDown {path : String} (h : ∀ name ∈ names path, IsDown name) :
    isAbsolute path = false := by
  rw [← Bool.not_eq_true]
  intro habsolute
  obtain ⟨rest, hrest⟩ := List.head?_eq_some_iff.mp (beq_iff_eq.mp habsolute)
  have hempty : "" ∈ names path := by
    rw [names, hrest, Text.pieces, if_pos rfl]
    exact List.mem_cons_self
  exact absurd (h "" hempty).1 (by decide)

/-- The names of a path are those before a slash and those behind it. -/
theorem names_of_slash {path back : String} {front : List Char}
    (h : path.toList = front ++ '/' :: back.toList) :
    names path = (Text.pieces '/' front).map String.ofList ++ names back := by
  rw [names, h, Text.pieces_append_cons, List.map_append]
  rfl

theorem isAbsolute_append {directory : String} (h : directory ≠ "") (rest : String) :
    isAbsolute (directory ++ rest) = isAbsolute directory := by
  have hne : directory.toList ≠ [] := fun hnil => h (String.toList_eq_nil_iff.mp hnil)
  rw [isAbsolute, String.toList_append, List.head?_append_of_ne_nil _ hne]
  rfl

/-- **A path that leads down ends below the directory that it is joined to.** -/
theorem destination_join {path : String} (h : ∀ name ∈ names path, IsDown name) (here : Place)
    (directory : String) :
    destination here (join directory path) = destination here directory ++ names path := by
  have hrelative := isAbsolute_of_isDown h
  unfold join
  rw [hrelative, Bool.false_or]
  by_cases hempty : directory = ""
  · rw [if_pos (by simp [hempty]), hempty]
    unfold destination
    rw [hrelative]
    exact foldl_enter_of_isDown h here
  · rw [if_neg (by simp [hempty])]
    split
    · -- The directory ends with a slash, so its last name is empty.
      rename_i hslash
      obtain ⟨front, hfront⟩ := List.getLast?_eq_some_iff.mp hslash
      have hdirectory : names directory = (Text.pieces '/' front).map String.ofList ++ names "" :=
        names_of_slash hfront
      have hjoined : names (directory ++ path) =
          (Text.pieces '/' front).map String.ofList ++ names path :=
        names_of_slash (by rw [String.toList_append, hfront, List.append_assoc]; rfl)
      rw [destination, destination, isAbsolute_append hempty, hjoined, hdirectory,
        List.foldl_append, List.foldl_append, foldl_enter_of_isDown h]
      rfl
    · have hjoined : names (directory ++ "/" ++ path) = names directory ++ names path :=
        names_of_slash (by rw [String.toList_append, String.toList_append, List.append_assoc]; rfl)
      rw [destination, destination, String.append_assoc, isAbsolute_append hempty,
        ← String.append_assoc, hjoined, List.foldl_append, foldl_enter_of_isDown h]

/-! ## Writing -/

namespace Tree

theorem follow_eq_ok {t : Tree} {place place' : Place} {path : List String}
    (h : t.follow place path = .ok place') : place' = path.foldl enter place := by
  induction path generalizing place with
  | nil => exact (Except.ok.inj h).symm
  | cons name path ih =>
      rw [follow] at h
      rw [List.foldl_cons, enter]
      split at h
      · split at h
        · rw [if_pos ‹_›]
          exact ih h
        · rw [if_neg ‹_›]
          split at h
          · rw [if_pos ‹_›]
            exact ih h
          · rw [if_neg ‹_›]
            exact ih h
      · cases h

theorem addDirectory_files (t : Tree) (place : Place) : (t.addDirectory place).files = t.files := by
  unfold addDirectory
  split <;> rfl

theorem makeDirectories_eq_ok {t t' : Tree} {place place' : Place} {path : List String}
    (h : t.makeDirectories place path = .ok (t', place')) :
    place' = path.foldl enter place ∧ t'.files = t.files := by
  induction path generalizing t place with
  | nil =>
      obtain ⟨rfl, rfl⟩ := Prod.mk.inj (Except.ok.inj h)
      exact ⟨rfl, rfl⟩
  | cons name path ih =>
      rw [makeDirectories] at h
      rw [List.foldl_cons, enter]
      split at h
      · rw [if_pos ‹_›]
        exact ih h
      · rw [if_neg ‹_›]
        split at h
        · rw [if_pos ‹_›]
          exact ih h
        · rw [if_neg ‹_›]
          simp only at h
          split at h
          · cases h
          · obtain ⟨hplace, hfiles⟩ := ih h
            exact ⟨hplace, hfiles.trans (addDirectory_files _ _)⟩

/-- **A file is written at the destination of its path**, and nothing else is. -/
theorem write_eq_ok {t t' : Tree} {here : Place} {path : String} {file : File}
    (h : t.write here path file = .ok t') :
    t'.files = t.files.set (destination here path) file := by
  unfold write at h
  simp only [bind, Except.bind] at h
  split at h
  · cases h
  · rename_i made hmade
    split at h
    · cases h
    · rename_i place hplace
      split at h
      · cases h
      · obtain rfl := Except.ok.inj h
        obtain ⟨hmade, hfiles⟩ := makeDirectories_eq_ok hmade
        have hnames : (names path).dropLast ++ (names path).getLast?.toList = names path := by
          rw [List.getLast?_eq_some_getLast (names_ne_nil path)]
          exact List.dropLast_append_getLast (names_ne_nil path)
        rw [destination, ← hnames, List.foldl_append, ← hmade, ← follow_eq_ok hplace, ← hfiles]

/-- What files are written, one after the other. -/
theorem writeAll_files {t t' : Tree} {here : Place} {files : List (String × File)}
    {fault? : Option Fault} (h : t.writeAll here files = (t', fault?)) :
    (∀ place, place ∉ files.map (fun f => destination here f.1) →
        t'.files.get? place = t.files.get? place) ∧
      (fault? = none → (files.map fun f => destination here f.1).Nodup → ∀ f ∈ files,
        t'.files.get? (destination here f.1) = some f.2) := by
  induction files generalizing t with
  | nil =>
      obtain ⟨rfl, rfl⟩ := Prod.mk.inj h
      refine ⟨fun _ _ => rfl, ?_⟩
      intro _ _ f hf
      cases hf
  | cons written rest ih =>
      obtain ⟨path, file⟩ := written
      rw [writeAll] at h
      split at h
      · rename_i next hnext
        obtain ⟨hframe, hwritten⟩ := ih h
        have hget (place : Place) : next.files.get? place =
            if place = destination here path then some file else t.files.get? place := by
          rw [write_eq_ok hnext, Table.get?_set]
        constructor
        · intro place hplace
          obtain ⟨hfirst, hrest⟩ := not_or.mp (List.mem_cons.not.mp hplace)
          rw [hframe place hrest, hget, if_neg hfirst]
        · intro hfault hnodup f hf
          obtain ⟨hfresh, hnodup⟩ := List.nodup_cons.mp hnodup
          rcases List.mem_cons.mp hf with rfl | hf
          · rw [hframe _ hfresh, hget, if_pos rfl]
          · exact hwritten hfault hnodup f hf
      · obtain ⟨rfl, rfl⟩ := Prod.mk.inj h
        refine ⟨fun _ _ => rfl, ?_⟩
        intro hfault
        cases hfault

end Tree
end Templating.Files

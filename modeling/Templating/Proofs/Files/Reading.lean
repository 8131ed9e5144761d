import Templating.Proofs.Files.Places

/-!
# What is read

A path that is joined to a directory is followed from the place to which the
directory leads. If it never goes up, then whatever is looked at on the way lies in
or below that place. So what is read there, be it a file or a fault, does not depend
on the rest of the tree.
-/

namespace Templating.Files

/-- Where following a path begins, as seen from the place `here`. -/
def start (here : Place) (path : String) : Place :=
  if isAbsolute path then [] else here

theorem start_of_relative {path : String} (h : isAbsolute path = false) (here : Place) :
    start here path = here := by
  rw [start, h]
  rfl

/-- The names that lead somewhere else, of those on the way. -/
def moving (path : List String) : Place :=
  path.filter fun name => !isStill name

theorem foldl_enter_of_up_not_mem {path : List String} (h : ".." ∉ path) (place : Place) :
    path.foldl enter place = place ++ moving path := by
  induction path generalizing place with
  | nil => exact (List.append_nil place).symm
  | cons name path ih =>
      obtain ⟨hname, hpath⟩ := not_or.mp (List.mem_cons.not.mp h)
      rw [List.foldl_cons, ih hpath, enter, moving, moving, List.filter_cons]
      cases isStill name with
      | true => rfl
      | false => simp [Ne.symm hname]

namespace Tree

variable {t t' : Tree} {base place : Place}

/-- The trees have the same at the place and below it. -/
structure SameFrom (t t' : Tree) (base : Place) : Prop where
  files : ∀ below, t.files.get? (base ++ below) = t'.files.get? (base ++ below)
  directories : ∀ below, t.isDirectory (base ++ below) = t'.isDirectory (base ++ below)

theorem follow_append (t : Tree) (place : Place) (xs ys : List String) :
    t.follow place (xs ++ ys) = (t.follow place xs).bind (t.follow · ys) := by
  induction xs generalizing place with
  | nil => rfl
  | cons name xs ih =>
      simp only [List.cons_append, follow, ih]
      split
      · split
        · rfl
        · split <;> rfl
      · rfl

/-- An empty name before others changes nothing. -/
theorem follow_empty (t : Tree) (place : Place) {path : List String} (h : path ≠ []) :
    t.follow place ("" :: path) = t.follow place path := by
  obtain ⟨name, rest, rfl⟩ := List.exists_cons_of_ne_nil h
  rw [follow, show isStill "" = true from rfl, if_pos rfl]
  split
  · rfl
  · rename_i hdirectory
    rw [follow, if_neg hdirectory]

theorem start_append {directory : String} (h : directory ≠ "") (here : Place) (rest : String) :
    start here (directory ++ rest) = start here directory := by
  rw [start, start, isAbsolute_append h]

/-- A joined path is followed from where the directory leads. -/
theorem follow_join (t : Tree) (here : Place) (directory : String) {path : String}
    (hrelative : isAbsolute path = false) :
    t.follow (start here (join directory path)) (names (join directory path)) =
      (t.follow (start here directory) (names directory)).bind (t.follow · (names path)) := by
  rw [← follow_append]
  unfold join
  rw [hrelative, Bool.false_or]
  by_cases hempty : directory = ""
  · rw [if_pos (by simp [hempty]), hempty]
    rw [start_of_relative hrelative]
    exact (t.follow_empty here (names_ne_nil path)).symm
  · rw [if_neg (by simp [hempty])]
    split
    · -- The directory ends with a slash, so its last name is empty.
      rename_i hslash
      obtain ⟨front, hfront⟩ := List.getLast?_eq_some_iff.mp hslash
      have hdirectory : names directory = (Text.pieces '/' front).map String.ofList ++ names "" :=
        names_of_slash hfront
      have hjoined : names (directory ++ path) =
          (Text.pieces '/' front).map String.ofList ++ names path :=
        names_of_slash (by rw [String.toList_append, hfront, List.append_assoc]; rfl)
      rw [start_append hempty, hjoined, hdirectory, List.append_assoc, follow_append,
        follow_append]
      congr 1
      funext place
      exact (t.follow_empty place (names_ne_nil path)).symm
    · have hjoined : names (directory ++ "/" ++ path) = names directory ++ names path :=
        names_of_slash (by rw [String.toList_append, String.toList_append, List.append_assoc]; rfl)
      rw [String.append_assoc, start_append hempty, ← String.append_assoc, hjoined]

theorem join_ne_empty (directory : String) {path : String} (h : path ≠ "") :
    join directory path ≠ "" := by
  unfold join
  split
  · exact h
  · split <;> simp [h]

/-- What is found at a place. -/
def found (t : Tree) (place : Place) : Except Fault File :=
  match t.files.get? place with
  | some file => .ok file
  | none => .error (if t.isDirectory place then .isDirectory else .absent)

theorem file_eq (t : Tree) (here : Place) {path : String} (h : path ≠ "") :
    t.file here path = (t.follow (start here path) (names path)).bind t.found := by
  rw [file, locate, if_neg h]
  rfl

/-- **A joined path is read from where the directory leads.** -/
theorem file_join (t : Tree) (here : Place) (directory : String) {path : String}
    (hrelative : isAbsolute path = false) (hpath : path ≠ "") :
    t.file here (join directory path) =
      (t.follow (start here directory) (names directory)).bind (t.file · path) := by
  rw [t.file_eq here (join_ne_empty directory hpath), follow_join t here directory hrelative]
  cases t.follow (start here directory) (names directory) with
  | error fault => rfl
  | ok base =>
      show (t.follow base (names path)).bind t.found = t.file base path
      rw [t.file_eq base hpath, start_of_relative hrelative]

/-! ## Never going up -/

/-- Following a path that never goes up looks only at what lies below. -/
theorem SameFrom.follow (h : SameFrom t t' base) {path : List String} (hpath : ".." ∉ path)
    (below : Place) : t.follow (base ++ below) path = t'.follow (base ++ below) path := by
  induction path generalizing below with
  | nil => rfl
  | cons name path ih =>
      obtain ⟨hname, hrest⟩ := not_or.mp (List.mem_cons.not.mp hpath)
      have hfault : t.noDirectory (base ++ below) = t'.noDirectory (base ++ below) := by
        rw [noDirectory, noDirectory, isFile, isFile, Table.contains, Table.contains, h.files]
      rw [Tree.follow, Tree.follow, h.directories, hfault, if_neg (Ne.symm hname),
        if_neg (Ne.symm hname), ih hrest, List.append_assoc, ih hrest]

theorem SameFrom.found (h : SameFrom t t' base) (below : Place) :
    t.found (base ++ below) = t'.found (base ++ below) := by
  rw [Tree.found, Tree.found, h.files, h.directories]

/-- **What a path reads that never goes up does not depend on the rest of the tree.** -/
theorem SameFrom.file (h : SameFrom t t' base) {path : String} (hup : ".." ∉ names path)
    (hrelative : isAbsolute path = false) (hpath : path ≠ "") :
    t.file base path = t'.file base path := by
  have hfollow := h.follow hup []
  rw [List.append_nil] at hfollow
  rw [t.file_eq base hpath, t'.file_eq base hpath, start_of_relative hrelative, hfollow]
  cases hplace : t'.follow base (names path) with
  | error fault => rfl
  | ok place =>
      obtain rfl : place = base ++ moving (names path) := by
        rw [follow_eq_ok hplace, foldl_enter_of_up_not_mem hup]
      exact h.found _

/-- **A file that is read along such a path lies below the directory.** -/
theorem get?_of_file_join {here : Place} {directory path : String} {file : File}
    (hup : ".." ∉ names path) (hrelative : isAbsolute path = false) (hpath : path ≠ "")
    (h : t.file here (join directory path) = .ok file) :
    t.files.get? (destination here directory ++ moving (names path)) = some file := by
  rw [t.file_join here directory hrelative hpath] at h
  cases hbase : t.follow (start here directory) (names directory) with
  | error fault =>
      rw [hbase] at h
      cases h
  | ok base =>
      rw [hbase] at h
      have hread : t.file base path = .ok file := h
      rw [t.file_eq base hpath, start_of_relative hrelative] at hread
      cases hplace : t.follow base (names path) with
      | error fault =>
          rw [hplace] at hread
          cases hread
      | ok place =>
          rw [hplace] at hread
          have hfound : t.found place = .ok file := hread
          rw [destination, ← start, ← follow_eq_ok hbase, ← foldl_enter_of_up_not_mem hup,
            ← follow_eq_ok hplace]
          unfold Tree.found at hfound
          split at hfound
          · rename_i found hget
            rw [hget, Except.ok.inj hfound]
          · cases hfound

end Tree
end Templating.Files

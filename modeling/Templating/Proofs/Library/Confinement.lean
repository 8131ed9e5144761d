import Templating.Library.Directory
import Templating.Proofs.Files.Reading
import Templating.Proofs.Name.Reference

/-!
# Calls stay in the library

A template is called by a reference of any characters. In a library that is a
directory, the file that is read for it lies in the directory of the kind that is
called. So a template cannot read beside the library by what it calls, and not even
find out what is there.
-/

namespace Templating

open Files (Tree destination start)

theorem CallKind.isStill_directory (kind : CallKind) : Files.isStill kind.directory = false := by
  cases kind <;> decide

namespace Name

/-- The names that lead on, on the way to a callee. -/
theorem moving_ofCall (caller : Name) (kind : CallKind) (dotted : String) :
    ∃ rest, Files.moving (Files.names (caller.ofCall kind dotted).text) =
      kind.directory :: rest := by
  rw [names_ofCall, Files.moving, List.filter_cons, kind.isStill_directory]
  exact ⟨_, rfl⟩

theorem isAbsolute_ofCall (caller : Name) (kind : CallKind) (dotted : String) :
    Files.isAbsolute (caller.ofCall kind dotted).text = false := by
  rw [text_ofCall, Files.isAbsolute, String.toList_append, String.toList_append]
  cases kind <;> rfl

theorem ofCall_ne_empty (caller : Name) (kind : CallKind) (dotted : String) :
    (caller.ofCall kind dotted).text ≠ "" := by
  rw [text_ofCall]
  simp

end Name

namespace Directory

/-- **A call cannot leave the library, nor change its kind.** Whatever the reference, the
callee is named in the directory of the kind that is called, and has that kind and the
extension of the caller. Its name never goes up. In a directory, a file that is read for it
lies in the directory of its kind; and what is read for it, a file or a fault, is the same
in any tree that is the same from the directory on. -/
theorem call_confined (caller : Name) (kind : CallKind) (dotted : String) :
    (kind.directory ++ "/").toList <+: (caller.ofCall kind dotted).text.toList ∧
      (caller.ofCall kind dotted).kind = kind.called ∧
      ".." ∉ Files.names (caller.ofCall kind dotted).text ∧
      (caller.ofCall kind dotted).extension? = some (caller.extension?.getD "stn") ∧
      ∀ d : Directory,
        (∀ file, d.file (caller.ofCall kind dotted) = .ok file → ∃ rest,
          d.tree.files.get? (destination d.here d.root ++ kind.directory :: rest) =
            some file) ∧
        ∀ (tree : Tree) (base : Files.Place),
          d.tree.follow (start d.here d.root) (Files.names d.root) = .ok base →
          tree.follow (start d.here d.root) (Files.names d.root) = .ok base →
          tree.SameFrom d.tree base →
            Directory.file { d with tree } (caller.ofCall kind dotted) =
              d.file (caller.ofCall kind dotted) := by
  have hrelative := caller.isAbsolute_ofCall kind dotted
  have hne := caller.ofCall_ne_empty kind dotted
  have hup := caller.up_not_mem_ofCall kind dotted
  refine ⟨?_, caller.kind_ofCall kind dotted, hup, caller.extension?_ofCall kind dotted, ?_⟩
  · rw [Name.text_ofCall, String.toList_append (s := kind.directory ++ "/")]
    exact List.prefix_append _ _
  · intro d
    constructor
    · intro file hfile
      obtain ⟨rest, hrest⟩ := caller.moving_ofCall kind dotted
      refine ⟨rest, ?_⟩
      rw [← hrest]
      exact Tree.get?_of_file_join hup hrelative hne hfile
    · intro tree base hbase hbase' hsame
      show tree.file d.here (Files.join d.root _) = d.tree.file d.here (Files.join d.root _)
      rw [Tree.file_join _ _ _ hrelative hne, Tree.file_join _ _ _ hrelative hne, hbase, hbase']
      exact hsame.file hup hrelative hne

/-- A directory with one tag. -/
def shelf : Directory where
  tree := ⟨⟨[(["site", "tag", "card.stn"], ⟨[104, 105], 0⟩)]⟩, [["site"], ["site", "tag"]]⟩
  root := "site"

/-- The same tag, in a tree with a file beside the library. -/
def crowded : Tree :=
  ⟨⟨[(["card.stn"], ⟨[], 7⟩), (["site", "tag", "card.stn"], ⟨[104, 105], 0⟩)]⟩,
    [["site"], ["site", "tag"]]⟩

theorem crowded_sameFrom : crowded.SameFrom shelf.tree ["site"] where
  files below := by simp [crowded, shelf, Table.get?]
  directories below := rfl

/-- The reference tries to go up twice and finds the tag all the same. -/
theorem call_confined_dots :
    shelf.file (Name.ofCall ⟨"page.stn"⟩ .tag "../..card") = .ok ⟨[104, 105], 0⟩ ∧
      shelf.tree.follow (start shelf.here shelf.root) (Files.names shelf.root) = .ok ["site"] ∧
      (∃ rest, shelf.tree.files.get? (destination [] "site" ++ "tag" :: rest) =
        some ⟨[104, 105], 0⟩) ∧
      Directory.file { shelf with tree := crowded } (Name.ofCall ⟨"page.stn"⟩ .tag "../..card") =
        .ok ⟨[104, 105], 0⟩ := by
  have hfile : shelf.file (Name.ofCall ⟨"page.stn"⟩ .tag "../..card") =
      .ok ⟨[104, 105], 0⟩ := by
    decide +kernel
  have hroot : shelf.tree.follow (start shelf.here shelf.root) (Files.names shelf.root) =
      .ok ["site"] := by
    decide +kernel
  obtain ⟨-, -, -, -, hlibrary⟩ := call_confined ⟨"page.stn"⟩ .tag "../..card"
  obtain ⟨hread, hsame⟩ := hlibrary shelf
  refine ⟨hfile, hroot, hread _ hfile, ?_⟩
  rw [hsame crowded ["site"] hroot (by decide +kernel) crowded_sameFrom]
  exact hfile

end Directory

end Templating

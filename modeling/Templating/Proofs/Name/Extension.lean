import Templating.Name
import Templating.Proofs.Text.Joined

/-!
# Extensions of called templates

A call gives the callee the extension of its caller. A reference can have any
number of parts, and parts that are empty, but it stands before the last dot of the
name that is made of it, and an extension has neither a dot nor a slash. So the
callee has the same target as the caller.
-/

namespace Templating.Name

/-- A file name has no slash. -/
theorem slash_not_mem_fileChars (n : Name) : '/' ∉ n.fileChars := by
  unfold fileChars
  split
  · rename_i hsplit
    exact (Text.eq_of_splitLast hsplit).2
  · rename_i hsplit
    exact (Text.splitLast_eq_none_iff _ _).mp hsplit

/-- An extension has neither a dot nor a slash. -/
theorem not_mem_extension {n : Name} {extension : String} (h : n.extension? = some extension) :
    '.' ∉ extension.toList ∧ '/' ∉ extension.toList := by
  obtain ⟨⟨stem, back⟩, hsplit, rfl⟩ := Option.map_eq_some_iff.mp h
  obtain ⟨hfile, hdot⟩ := Text.eq_of_splitLast hsplit
  rw [String.toList_ofList]
  refine ⟨hdot, fun hslash => n.slash_not_mem_fileChars ?_⟩
  rw [hfile]
  exact List.mem_append_right _ (List.mem_cons_of_mem _ hslash)

/-- What has no slash, from the last dot on, belongs to the file name. -/
theorem fileChars_of_dot {front extension : List Char} (hslash : '/' ∉ extension) {n : Name}
    (h : n.text.toList = front ++ '.' :: extension) :
    ∃ stem, n.fileChars = stem ++ '.' :: extension := by
  have hback : '/' ∉ '.' :: extension :=
    List.mem_cons.not.mpr (not_or.mpr ⟨by decide, hslash⟩)
  unfold fileChars
  cases hsplit : Text.splitLast '/' front with
  | none =>
      have hfront := (Text.splitLast_eq_none_iff _ _).mp hsplit
      have hnone : Text.splitLast '/' n.text.toList = none := by
        rw [Text.splitLast_eq_none_iff, h]
        exact List.mem_append.not.mpr (not_or.mpr ⟨hfront, hback⟩)
      rw [hnone]
      exact ⟨front, h⟩
  | some parts =>
      obtain ⟨path, file⟩ := parts
      obtain ⟨rfl, hfile⟩ := Text.eq_of_splitLast hsplit
      have hsome : Text.splitLast '/' n.text.toList = some (path, file ++ '.' :: extension) := by
        rw [h, List.append_assoc, List.cons_append]
        exact Text.splitLast_append_cons (List.mem_append.not.mpr (not_or.mpr ⟨hfile, hback⟩))
      rw [hsome]
      exact ⟨file, rfl⟩

/-- The extension of a name that is made of a reference. -/
theorem extension?_ofReference (kind : Kind) (dotted : String) {extension : String}
    (hdot : '.' ∉ extension.toList) (hslash : '/' ∉ extension.toList) :
    (ofReference kind dotted extension).extension? = some extension := by
  have htext : ∃ front, (ofReference kind dotted extension).text.toList =
      front ++ '.' :: extension.toList := by
    unfold ofReference
    simp only [String.toList_append]
    exact ⟨_, by rw [List.append_assoc]; rfl⟩
  obtain ⟨front, hfront⟩ := htext
  obtain ⟨stem, hfile⟩ := fileChars_of_dot hslash hfront
  rw [extension?, hfile, Text.splitLast_append_cons hdot, Option.map_some, String.ofList_toList]

/-- **A callee has the extension of its caller**, or that of the first target if the
caller has none. -/
theorem extension?_ofCall (caller : Name) (kind : CallKind) (dotted : String) :
    (caller.ofCall kind dotted).extension? =
      some (caller.extension?.getD Target.rust.templateExtension) := by
  unfold ofCall
  cases hextension : caller.extension? with
  | none => exact extension?_ofReference _ _ (by decide) (by decide)
  | some extension =>
      obtain ⟨hdot, hslash⟩ := not_mem_extension hextension
      exact extension?_ofReference _ _ hdot hslash

/-- **A call does not leave the target.** -/
theorem target_ofCall (caller : Name) (kind : CallKind) (dotted : String) :
    (caller.ofCall kind dotted).target = caller.target := by
  unfold target
  rw [extension?_ofCall]
  cases caller.extension? with
  | none => exact Target.ofExtension_templateExtension .rust
  | some extension => rfl

end Templating.Name

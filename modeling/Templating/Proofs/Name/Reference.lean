import Templating.Files.Tree
import Templating.Proofs.Name.Extension

/-!
# Names that calls make

A reference may have any characters, dots and slashes included. All its dots become
slashes, so the only dot in the name behind the directory of the kind that is called
is the one before the extension. A name on the way that is `..` would need two.
-/

namespace Templating

/-- What a call of the kind calls. -/
def CallKind.called : CallKind → Kind
  | .tag => .tag
  | .layout => .layout

/-- The name of the directory in which a call of the kind looks. -/
def CallKind.directory : CallKind → String
  | .tag => "tag"
  | .layout => "layout"

namespace Name

/-- What a call makes of its reference, without the extension. -/
def referred (dotted : String) : String :=
  String.ofList (dotted.toList.map fun c => if c = '.' then '/' else c)

/-- The extension that the calls of a template have. -/
def callExtension (caller : Name) : String :=
  caller.extension?.getD Target.rust.templateExtension

theorem text_ofCall (caller : Name) (kind : CallKind) (dotted : String) :
    (caller.ofCall kind dotted).text =
      kind.directory ++ "/" ++ (referred dotted ++ "." ++ caller.callExtension) := by
  cases kind <;> simp [ofCall, ofReference, referred, callExtension, CallKind.directory,
    tagDirectory, layoutDirectory, ← String.append_assoc]

/-- **A call gives its callee the kind that it calls.** -/
theorem kind_ofCall (caller : Name) (kind : CallKind) (dotted : String) :
    (caller.ofCall kind dotted).kind = kind.called := by
  unfold Name.kind
  rw [text_ofCall, String.toList_append, String.toList_append]
  cases kind <;> rfl

theorem dot_not_mem_referred (dotted : String) : '.' ∉ (referred dotted).toList := by
  rw [referred, String.toList_ofList, List.mem_map]
  rintro ⟨c, -, hc⟩
  split at hc
  · cases hc
  · exact absurd hc ‹_›

theorem dot_not_mem_callExtension (caller : Name) : '.' ∉ caller.callExtension.toList := by
  unfold callExtension
  cases hextension : caller.extension? with
  | none => decide
  | some extension => exact (not_mem_extension hextension).1

/-- The text of a name that a call makes has one dot. -/
theorem count_dot_ofCall (caller : Name) (kind : CallKind) (dotted : String) :
    (caller.ofCall kind dotted).text.toList.count '.' = 1 := by
  have hdirectory : kind.directory.toList.count '.' = 0 := by
    cases kind <;> rfl
  rw [text_ofCall]
  simp only [String.toList_append, List.count_append, hdirectory,
    List.count_eq_zero.mpr (dot_not_mem_referred dotted),
    List.count_eq_zero.mpr caller.dot_not_mem_callExtension]
  rfl

/-- The names on the way to a callee: first the directory of its kind. -/
theorem names_ofCall (caller : Name) (kind : CallKind) (dotted : String) :
    Files.names (caller.ofCall kind dotted).text =
      kind.directory :: Files.names (referred dotted ++ "." ++ caller.callExtension) := by
  have hdirectory : Text.pieces '/' kind.directory.toList = [kind.directory.toList] := by
    apply Text.pieces_of_not_mem
    cases kind <;> decide
  rw [Files.names, text_ofCall, String.toList_append, String.toList_append,
    List.append_assoc, show "/".toList = ['/'] from rfl, List.singleton_append,
    Text.pieces_append_cons, hdirectory, List.map_append]
  simp [Files.names]

/-- **No name on the way to a callee goes up.** -/
theorem up_not_mem_ofCall (caller : Name) (kind : CallKind) (dotted : String) :
    ".." ∉ Files.names (caller.ofCall kind dotted).text := by
  intro hup
  obtain ⟨p, hp, htext⟩ := List.mem_map.mp hup
  obtain rfl : p = ['.', '.'] := by
    rw [← String.toList_ofList (l := p), htext]
    rfl
  have hpart := Text.infix_intercalate ['/'] hp
  rw [Text.intercalate_pieces] at hpart
  have hcount := hpart.sublist.count_le '.'
  rw [count_dot_ofCall] at hcount
  exact absurd hcount (by decide)

end Name

end Templating

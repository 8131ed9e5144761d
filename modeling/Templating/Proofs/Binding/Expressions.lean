import Templating.Proofs.Argument.Assignment
import Templating.Proofs.Binding.Entries
import Templating.Proofs.Param.Declaration

/-!
# Empty expressions

What is bound was passed by an argument or is a default value. No declaration has an empty
default value, and no positional argument of a call is empty. But an argument may end at
its `=`, and then it passes an empty expression, which is bound like any other.
-/

namespace Templating

/-- The text is a name and an `=` with nothing behind it. -/
def Argument.LacksValue (text : List Char) : Prop :=
  ∃ name gap, text = name ++ gap ++ ['='] ∧ Text.isIdentifier name = true ∧
    ∀ c ∈ gap, Text.isBlank c = true

/-- Of the arguments without blanks around them, just those without a value pass nothing. -/
theorem Argument.value_classify_eq_empty_iff {raw : String} (hne : raw ≠ "")
    (htrimmed : Text.trimmed raw = raw) :
    (classify raw).value = "" ↔ LacksValue raw.toList := by
  have htrim := Text.trim_toList htrimmed
  constructor
  · intro hempty
    by_cases hassigns : ∃ name value, Assigns (Text.trim raw.toList) name value
    · obtain ⟨name, value, hassigns⟩ := hassigns
      rw [classify_of_assigns hassigns] at hempty
      have hvalue : value = [] := String.ofList_eq_empty_iff.mp hempty
      obtain ⟨gap, rest, htext, hname, hgap, -, -, hrest⟩ := hassigns
      -- What is behind the `=` is blank, and the argument does not end in a blank.
      have hblank := Text.trim_eq_nil_iff.mp (hrest.symm.trans hvalue)
      obtain rfl : rest = [] := by
        by_contra hsome
        have hlast : (Text.trim raw.toList).getLast? = some (rest.getLast hsome) := by
          rw [htext, List.getLast?_append, List.getLast?_cons_of_ne_nil hsome,
            List.getLast?_eq_some_getLast hsome, Option.some_or]
        have hsolid := Text.getLast?_trim _ _ hlast
        rw [hblank _ (List.getLast_mem hsome)] at hsolid
        cases hsolid
      exact ⟨name, gap, htrim.symm.trans htext, hname, hgap⟩
    · rw [classify_of_not_assigns fun name value h => hassigns ⟨name, value, h⟩] at hempty
      exact absurd (htrimmed.symm.trans hempty) hne
  · rintro ⟨name, gap, htext, hname, hgap⟩
    have hassigns : Assigns (Text.trim raw.toList) name [] :=
      ⟨gap, [], htrim.trans htext, hname, hgap, nofun, nofun, rfl⟩
    rw [classify_of_assigns hassigns]
    rfl

namespace Binding

variable {params : List Param} {arguments : List Argument} {bound : List Bound} {b : Bound}
  {p : Param} {values : List String} {x : String}

theorem Takes.mem_expressions (h : Takes p values b) (hx : x ∈ values) : x ∈ b.expressions := by
  cases h with
  | single y _ => exact hx
  | omitted y _ _ => cases hx
  | variadic _ _ => exact hx

theorem Takes.mem_or_default (h : Takes p values b) (hx : x ∈ b.expressions) :
    x ∈ values ∨ p.default? = some x := by
  cases h with
  | single y _ => exact Or.inl hx
  | omitted y _ hdefault =>
      obtain rfl := List.mem_singleton.mp hx
      exact Or.inr hdefault
  | variadic _ _ => exact Or.inl hx

/-- Every argument is bound somewhere. -/
theorem mem_bound (h : bind params arguments = .ok bound) {a : Argument}
    (ha : a ∈ arguments) : ∃ b ∈ bound, a.value ∈ b.expressions := by
  obtain ⟨hfits, -, hentries⟩ := entries_of_bind h
  obtain ⟨i, hi, hlanded⟩ := List.mem_flatMap.mp
    (hfits.landed_perm.mem_iff.mpr (List.mem_map_of_mem (f := Argument.value) ha))
  obtain ⟨b, hb, htakes⟩ := hentries i _ (List.getElem?_eq_getElem (List.mem_range.mp hi))
  exact ⟨b, List.mem_of_getElem? hb, htakes.mem_expressions hlanded⟩

/-- Every expression that is bound is passed by an argument or is a default value. -/
theorem passed_or_default (h : bind params arguments = .ok bound) (hb : b ∈ bound)
    (hx : x ∈ b.expressions) :
    (∃ a ∈ arguments, a.value = x) ∨ ∃ p ∈ params, p.default? = some x := by
  obtain ⟨hfits, hlength, hentries⟩ := entries_of_bind h
  obtain ⟨i, hi, rfl⟩ := List.mem_iff_getElem.mp hb
  have hi' : i < params.length := hlength ▸ hi
  obtain ⟨b', hb', htakes⟩ := hentries i _ (List.getElem?_eq_getElem hi')
  rw [List.getElem?_eq_getElem hi, Option.some.injEq] at hb'
  subst hb'
  rcases htakes.mem_or_default hx with hlanded | hdefault
  · have hvalue := hfits.landed_perm.mem_iff.mp
      (List.mem_flatMap.mpr ⟨i, List.mem_range.mpr hi', hlanded⟩)
    exact Or.inl (List.mem_map.mp hvalue)
  · exact Or.inr ⟨_, List.getElem_mem hi', hdefault⟩

/-- **No empty expression is bound just when every argument that names a parameter says a
value.** -/
theorem expressions_ne_empty_iff {params : List Param} {raw : List String} {bound : List Bound}
    (hparams : ∀ p ∈ params, ∃ text, Param.ofDeclaration text = .ok p)
    (hraw : ∀ x ∈ raw, x ≠ "" ∧ Text.trimmed x = x)
    (h : bind params (raw.map Argument.classify) = .ok bound) :
    (∀ b ∈ bound, ∀ x ∈ b.expressions, x ≠ "") ↔
      ∀ x ∈ raw, ¬ Argument.LacksValue x.toList := by
  constructor
  · intro hall x hx hlacks
    obtain ⟨hne, htrimmed⟩ := hraw x hx
    obtain ⟨b, hb, hvalue⟩ := mem_bound h (List.mem_map_of_mem hx)
    exact hall b hb _ hvalue ((Argument.value_classify_eq_empty_iff hne htrimmed).mpr hlacks)
  · rintro hsaid b hb _ hx rfl
    rcases passed_or_default h hb hx with ⟨a, ha, hempty⟩ | ⟨p, hp, hdefault⟩
    · obtain ⟨x, hx, rfl⟩ := List.mem_map.mp ha
      obtain ⟨hne, htrimmed⟩ := hraw x hx
      exact hsaid x hx ((Argument.value_classify_eq_empty_iff hne htrimmed).mp hempty)
    · obtain ⟨text, htext⟩ := hparams p hp
      exact Param.default_ne_empty htext hdefault rfl

theorem expressions_ne_empty_iff_named :
    let params : List Param :=
      [⟨"a", "&str", none, false⟩, ⟨"b", "i32", some "0", false⟩, ⟨"c", "&str", none, true⟩]
    let bound : List Bound := [.single "x == y", .single "0", .variadic ["z"]]
    bind params (["x == y", "c = z"].map Argument.classify) = .ok bound ∧
      ∀ b ∈ bound, ∀ x ∈ b.expressions, x ≠ "" := by
  intro params bound
  have h : bind params (["x == y", "c = z"].map Argument.classify) = .ok bound := by
    decide +kernel
  have hparams : ∀ p ∈ params, ∃ text, Param.ofDeclaration text = .ok p := by
    refine List.forall_mem_cons.mpr ⟨⟨"a: &str", by decide +kernel⟩, ?_⟩
    refine List.forall_mem_cons.mpr ⟨⟨"b: i32 = 0", by decide +kernel⟩, ?_⟩
    exact List.forall_mem_singleton.mpr ⟨"c: &str...", by decide +kernel⟩
  refine ⟨h, (expressions_ne_empty_iff hparams (by decide +kernel) h).mpr ?_⟩
  -- An argument without a value would end in `=`.
  have hlast : ∀ x ∈ ["x == y", "c = z"], x.toList.getLast? ≠ some '=' := by decide +kernel
  rintro x hx ⟨name, gap, htext, -⟩
  exact hlast x hx (by rw [htext, List.getLast?_concat])

/-- An argument that ends at its `=` is bound, and nothing is passed for it. -/
theorem empty_expression_bound : ¬ ∀ (params : List Param) (raw : List String)
    (bound : List Bound), (∀ p ∈ params, ∃ text, Param.ofDeclaration text = .ok p) →
      (∀ x ∈ raw, x ≠ "" ∧ Text.trimmed x = x) →
      bind params (raw.map Argument.classify) = .ok bound →
      ∀ b ∈ bound, ∀ x ∈ b.expressions, x ≠ "" := by
  intro h
  have hparams : ∀ p ∈ [(⟨"title", "&str", none, false⟩ : Param)],
      ∃ text, Param.ofDeclaration text = .ok p :=
    List.forall_mem_singleton.mpr ⟨"title: &str", by decide +kernel⟩
  have hempty := h _ ["title ="] [.single ""] hparams (by decide +kernel) (by decide +kernel)
  exact hempty (.single "") List.mem_cons_self "" List.mem_cons_self rfl

end Binding

end Templating

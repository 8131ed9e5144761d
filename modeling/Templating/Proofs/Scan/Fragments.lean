import Templating.Proofs.Scan.Reading

/-!
# Reading code, calls and comments

Code that is nested properly is read up to its end: each bracket and each
string in it is entered and left again, so behind the code the scanner is
inside what it was inside before. A comment is read up to its first `--%>`.
-/

namespace Templating.Scan

open Template (Balanced Quoted Remark)

namespace Construct

/-- Inside the construct code is read. -/
def readsCode : Construct → Bool
  | expression _ | statement | block | parentheses | loopHeader | arguments .. => true
  | _ => false

def isArguments : Construct → Bool
  | arguments .. => true
  | _ => false

/-- What a parenthesis in the code of a construct begins, if it counts. -/
def parenthesis? : Construct → Option Construct
  | parentheses | arguments .. => some parentheses
  | loopHeader => some loopHeader
  | _ => none

end Construct

namespace State

variable {s : State} {setting : Setting} {c : Char} {after : List Char}

theorem readChar_readsCode (h : s.top.readsCode = true) :
    s.readChar setting c after = s.readCode c after := by
  unfold readChar
  cases ht : s.top <;> simp_all [Construct.readsCode]

theorem readChar_string {escaping : Bool} (h : s.top = .string escaping) :
    s.readChar setting c after = s.readString c escaping := by
  unfold readChar
  rw [h]

/-- A character that is no bracket and no quote, nor a comma or an angle
bracket in a list, is nothing but code. -/
theorem readCode_plain (hc : c ∉ ['(', ')', '\x7b', '\x7d', '"'])
    (hlisted : s.top.isArguments = true → c ∉ [',', '<', '>']) : s.readCode c after = s := by
  simp only [List.mem_cons, List.not_mem_nil, or_false, not_or] at hc
  have hcomma : s.top.isArguments = false → s.splitArgument = s := by
    intro h
    unfold splitArgument
    cases ht : s.top <;> simp_all [Construct.isArguments]
  have hless : s.top.isArguments = false → s.openAngle after = s := by
    intro h
    unfold openAngle
    cases ht : s.top <;> simp_all [Construct.isArguments]
  have hgreater : s.top.isArguments = false → s.closeAngle = s := by
    intro h
    unfold closeAngle
    cases ht : s.top <;> simp_all [Construct.isArguments]
  unfold readCode
  cases ha : s.top.isArguments with
  | true =>
      have := hlisted ha
      simp only [List.mem_cons, List.not_mem_nil, or_false, not_or] at this
      split <;> simp_all
  | false => split <;> simp_all

theorem openParenthesis_eq (s : State) :
    s.openParenthesis = s.top.parenthesis?.elim s s.push := by
  unfold openParenthesis
  cases s.top <;> rfl

/-- A parenthesis that was begun in code ends, and the code goes on. -/
theorem closeParenthesis_inner {k : Construct} (h : s.pop.top.readsCode = true)
    (hk : s.pop.top.parenthesis? = some k) (htop : s.top = k) : s.closeParenthesis = s.pop := by
  unfold closeParenthesis
  cases ht : s.pop.top <;> simp_all [Construct.parenthesis?] <;>
    (subst hk; simp_all)

theorem closeParenthesis_idle (h : s.top.readsCode = true) (hk : s.top.parenthesis? = none) :
    s.closeParenthesis = s := by
  unfold closeParenthesis
  cases ht : s.top <;> simp_all [Construct.parenthesis?, Construct.readsCode]

end State

section

variable {kind : Kind} {rest front pending : List Char} {depth : Nat} {stack : List Construct}
  {k : Construct} {es : List Event}

/-! ## Strings -/

theorem Reading.take_become {s : State} (h : Reading front pending depth (k :: stack) es s)
    (c : Char) (k' : Construct) :
    Reading front (pending ++ [c]) depth (k' :: stack) es
      (((s.advance c).become k').endLine c) := by
  obtain ⟨frame, frames, hs, -, hframes⟩ := h.exists_frame
  have hbecome : (s.advance c).become k' =
      { s.advance c with stack := { frame with construct := k' } :: frames } := by
    simp [State.become, hs]
  have := h.take c ({ frame with construct := k' } :: frames)
  rw [List.map_cons, hframes] at this
  rw [hbecome]
  exact this

theorem reads_quoted {cs : List Char} (h : Quoted cs) :
    Reads kind rest cs (Reading front pending depth (.string false :: stack) es)
      (Reading front (pending ++ cs) depth (.string false :: stack) es) := by
  induction h generalizing pending with
  | nil => exact .nil fun s hs => by simpa using hs
  | @plain c cs hquote hbackslash _ ih =>
      have hc : Reads kind (cs ++ rest) [c]
          (Reading front pending depth (.string false :: stack) es)
          (Reading front (pending ++ [c]) depth (.string false :: stack) es) := by
        refine .idle ?_
        intro s hs _
        rw [State.readChar_string hs]
        unfold State.readString
        rw [if_neg (by simp)]
        split
        · exact absurd rfl hbackslash
        · exact absurd rfl hquote
        · rfl
      simpa using hc.append ih
  | @escape c cs _ ih =>
      have hslash : Reads kind (c :: cs ++ rest) ['\\']
          (Reading front pending depth (.string false :: stack) es)
          (Reading front (pending ++ ['\\']) depth (.string true :: stack) es) := by
        refine .symbol (by decide) ?_
        intro s hs
        rw [State.readChar_string hs.top]
        exact hs.become _
      have hc : Reads kind (cs ++ rest) [c]
          (Reading front (pending ++ ['\\']) depth (.string true :: stack) es)
          (Reading front (pending ++ ['\\'] ++ [c]) depth (.string false :: stack) es) := by
        refine .char ?_
        intro s hs
        have htop : (s.advance c).top = .string true := hs.top
        rw [State.step, State.readChar_string htop]
        exact hs.take_become c _
      simpa using hslash.append (hc.append ih)

/-- A string in code. -/
theorem reads_string {cs : List Char} (h : Quoted cs) (hk : k.readsCode = true) :
    Reads kind rest ('"' :: (cs ++ ['"'])) (Reading front pending depth (k :: stack) es)
      (Reading front (pending ++ '"' :: (cs ++ ['"'])) depth (k :: stack) es) := by
  have hopen : Reads kind (cs ++ ['"'] ++ rest) ['"']
      (Reading front pending depth (k :: stack) es)
      (Reading front (pending ++ ['"']) depth (.string false :: k :: stack) es) := by
    refine .symbol (by decide) ?_
    intro s hs
    rw [State.readChar_readsCode (hs.top ▸ hk)]
    exact hs.push (by simp)
  have hclose : Reads kind rest ['"']
      (Reading front (pending ++ ['"'] ++ cs) depth (.string false :: k :: stack) es)
      (Reading front (pending ++ ['"'] ++ cs ++ ['"']) depth (k :: stack) es) := by
    refine .symbol (by decide) ?_
    intro s hs
    rw [State.readChar_string hs.top]
    exact hs.pop (by simp)
  simpa using hopen.append ((reads_quoted h).append hclose)

/-! ## Code -/

/-- The stack inside a parenthesis in the code of a construct. -/
def Construct.inParentheses (k : Construct) (stack : List Construct) : List Construct :=
  k.parenthesis?.toList ++ k :: stack

theorem isArguments_of_parenthesis {k k' : Construct} (h : k.parenthesis? = some k') :
    k'.readsCode = true ∧ k'.isArguments = false ∧ k' ≠ .text := by
  cases k <;> simp [Construct.parenthesis?] at h <;> subst h <;>
    simp [Construct.readsCode, Construct.isArguments]

/-- Inside a parenthesis code is read, and it is not the list itself. -/
theorem exists_inParentheses (hk : k.readsCode = true) (stack : List Construct) :
    ∃ k' stack', k.inParentheses stack = k' :: stack' ∧ k'.readsCode = true ∧
      k'.isArguments = false := by
  unfold Construct.inParentheses
  cases hp : k.parenthesis? with
  | some k' =>
      obtain ⟨hk', harguments, -⟩ := isArguments_of_parenthesis hp
      exact ⟨k', k :: stack, rfl, hk', harguments⟩
  | none =>
      refine ⟨k, stack, rfl, hk, ?_⟩
      cases k <;> first | rfl | exact absurd hp (by simp [Construct.parenthesis?])

theorem reads_openParenthesis (hk : k.readsCode = true) :
    Reads kind rest ['('] (Reading front pending depth (k :: stack) es)
      (Reading front (pending ++ ['(']) depth (k.inParentheses stack) es) := by
  cases hp : k.parenthesis? with
  | some k' =>
      obtain ⟨-, -, htext⟩ := isArguments_of_parenthesis hp
      refine .symbol (by decide) ?_
      intro s hs
      have htop : s.top = k := hs.top
      rw [State.readChar_readsCode (htop ▸ hk)]
      show Reading _ _ _ _ _ s.openParenthesis
      rw [State.openParenthesis_eq, htop, hp, Construct.inParentheses, hp]
      exact hs.push htext
  | none =>
      rw [Construct.inParentheses, hp]
      refine .idle ?_
      intro s hs _
      have htop : s.top = k := hs
      rw [State.readChar_readsCode (htop ▸ hk)]
      show s.openParenthesis = s
      rw [State.openParenthesis_eq, htop, hp]
      rfl

theorem reads_closeParenthesis (hk : k.readsCode = true) :
    Reads kind rest [')'] (Reading front pending depth (k.inParentheses stack) es)
      (Reading front (pending ++ [')']) depth (k :: stack) es) := by
  cases hp : k.parenthesis? with
  | some k' =>
      obtain ⟨hk', -, htext⟩ := isArguments_of_parenthesis hp
      rw [Construct.inParentheses, hp]
      refine .symbol (by decide) ?_
      intro s hs
      have htop : s.top = k' := hs.top
      have hpop := hs.pop htext
      have hpoptop : s.pop.top = k := hpop.top
      rw [State.readChar_readsCode (htop ▸ hk')]
      show Reading _ _ _ _ _ s.closeParenthesis
      rw [State.closeParenthesis_inner (hpoptop ▸ hk) (hpoptop ▸ hp) htop]
      exact hpop
  | none =>
      rw [Construct.inParentheses, hp]
      refine .idle ?_
      intro s hs _
      have htop : s.top = k := hs
      rw [State.readChar_readsCode (htop ▸ hk)]
      exact State.closeParenthesis_idle (htop ▸ hk) (htop ▸ hp)

theorem reads_openBrace (hk : k.readsCode = true) :
    Reads kind rest ['\x7b'] (Reading front pending depth (k :: stack) es)
      (Reading front (pending ++ ['\x7b']) depth (.block :: k :: stack) es) := by
  refine .symbol (by decide) ?_
  intro s hs
  rw [State.readChar_readsCode (hs.top ▸ hk)]
  exact hs.push (by simp)

theorem reads_closeBrace :
    Reads kind rest ['\x7d'] (Reading front pending depth (.block :: stack) es)
      (Reading front (pending ++ ['\x7d']) depth stack es) := by
  refine .symbol (by decide) ?_
  intro s hs
  have htop : s.top = .block := hs.top
  rw [State.readChar_readsCode (htop ▸ rfl)]
  show Reading _ _ _ _ _ s.closeBrace
  rw [State.closeBrace, htop]
  exact hs.pop (by simp)

/-- **Code that is nested properly is read up to its end.** -/
theorem reads_balanced {listed : Bool} {cs : List Char} (h : Balanced listed cs)
    (hk : k.readsCode = true) (hlisted : k.isArguments = true → listed = true) :
    Reads kind rest cs (Reading front pending depth (k :: stack) es)
      (Reading front (pending ++ cs) depth (k :: stack) es) := by
  -- The construct and the stack vary: inside a bracket they are those of the bracket.
  induction h generalizing pending k stack rest with
  | nil => exact .nil fun s hs => by simpa using hs
  | @plain listed c cs hc hcs _ ih =>
      have hplain : Reads kind (cs ++ rest) [c] (Reading front pending depth (k :: stack) es)
          (Reading front (pending ++ [c]) depth (k :: stack) es) := by
        refine .idle ?_
        intro s hs _
        have htop : s.top = k := hs
        rw [State.readChar_readsCode (htop ▸ hk)]
        exact State.readCode_plain hc fun ha => hcs (hlisted (htop ▸ ha))
      simpa using hplain.append (ih hk hlisted)
  | @string listed inner cs hinner _ ih =>
      have hstring : Reads kind (cs ++ rest) ('"' :: (inner ++ ['"']))
          (Reading front pending depth (k :: stack) es) _ := reads_string hinner hk
      simpa using hstring.append (ih hk hlisted)
  | @parentheses listed inner cs _ _ ihinner ih =>
      obtain ⟨k', stack', hin, hk', harguments⟩ := exists_inParentheses hk stack
      have hinner : Reads kind ([')'] ++ cs ++ rest) inner
          (Reading front (pending ++ ['(']) depth (k.inParentheses stack) es)
          (Reading front (pending ++ ['('] ++ inner) depth (k.inParentheses stack) es) := by
        rw [hin]
        exact ihinner hk' (by simp [harguments])
      have hclose : Reads kind rest ([')'] ++ cs)
          (Reading front (pending ++ ['('] ++ inner) depth (k.inParentheses stack) es) _ :=
        (reads_closeParenthesis hk).append (ih hk hlisted)
      have hcode := (reads_openParenthesis hk).append (hinner.append (by simpa using hclose))
      simpa using hcode
  | @braces listed inner cs _ _ ihinner ih =>
      have hinner : Reads kind (['\x7d'] ++ cs ++ rest) inner
          (Reading front (pending ++ ['\x7b']) depth (.block :: k :: stack) es) _ :=
        ihinner rfl (by simp [Construct.isArguments])
      have hclose : Reads kind rest (['\x7d'] ++ cs)
          (Reading front (pending ++ ['\x7b'] ++ inner) depth (.block :: k :: stack) es) _ :=
        reads_closeBrace.append (ih hk hlisted)
      have hcode := (reads_openBrace hk).append (hinner.append (by simpa using hclose))
      simpa using hcode

/-! ## Comments -/

theorem readChar_comment {s : State} {setting : Setting} {c : Char} {after : List Char}
    (h : s.top = .comment) : s.readChar setting c after =
      if ['>', '%', '-', '-'].isPrefixOf s.before then s.pop.settle else s := by
  unfold State.readChar
  rw [h]

/-- A comment whose text has no end in it is not over before its own end. -/
theorem not_closed_early {remark : List Char}
    (h : ¬ "--%>".toList <:+: '-' :: '-' :: remark) (front : List Char) {u v : List Char}
    (hu : u ≠ []) (huv : remark ++ "--%".toList = u ++ v) :
    ¬ "--%>".toList <:+ front ++ "<%--".toList ++ u := by
  intro hend
  rcases Nat.lt_or_ge u.length 2 with hlength | hlength
  · obtain ⟨c, rfl⟩ : ∃ c, u = [c] := by
      obtain ⟨c, u, rfl⟩ := List.exists_cons_of_ne_nil hu
      cases u with
      | nil => exact ⟨c, rfl⟩
      | cons d u => exact absurd hlength (by simp)
    have hlast : ['%', '-', '-', c] <:+ front ++ "<%--".toList ++ [c] :=
      ⟨front ++ ['<'], by simp⟩
    have heq := (List.suffix_of_suffix_length_le hend hlast (by simp)).eq_of_length (by simp)
    exact absurd heq (by simp)
  · have hinner : "--%>".toList <:+ '-' :: '-' :: u :=
      List.suffix_of_suffix_length_le hend ⟨front ++ ['<', '%'], by simp⟩ (by simp; omega)
    rcases List.append_eq_append_iff.mp huv with ⟨w, rfl, hw⟩ | ⟨w, hw, -⟩
    · cases hwlist : w.reverse with
      | nil =>
          obtain rfl := List.reverse_eq_nil_iff.mp hwlist
          rw [List.append_nil] at hinner
          exact h hinner.isInfix
      | cons x w' =>
          -- The last character is one of `--%`, but the end of a comment ends in `>`.
          have hw' : w = w'.reverse ++ [x] := by
            rw [← List.reverse_reverse w, hwlist, List.reverse_cons]
          have hx : x ∈ "--%".toList := by
            rw [hw, hw']
            simp
          have hlast : ['>'] <:+ '-' :: '-' :: (remark ++ w) := by
            exact List.IsSuffix.trans (by decide) hinner
          have hx' : [x] <:+ '-' :: '-' :: (remark ++ w) :=
            ⟨'-' :: '-' :: (remark ++ w'.reverse), by simp [hw']⟩
          have heq := (List.suffix_of_suffix_length_le hlast hx' (by simp)).eq_of_length (by simp)
          simp only [List.cons.injEq, and_true] at heq
          subst heq
          exact absurd hx (by decide)
    · refine h (hinner.isInfix.trans ⟨[], w, ?_⟩)
      simp [hw]

/-- The inside of a comment changes nothing. -/
theorem reads_unclosed {text : List Char} (h : ∀ u v, text = u ++ v → u ≠ [] →
    ¬ "--%>".toList <:+ front ++ pending ++ u) :
    Reads kind rest text (Reading front pending depth (.comment :: stack) es)
      (Reading front (pending ++ text) depth (.comment :: stack) es) := by
  induction text generalizing pending with
  | nil => exact .nil fun s hs => by simpa using hs
  | cons c text ih =>
      have hchar : Reads kind (text ++ rest) [c]
          (Reading front pending depth (.comment :: stack) es)
          (Reading front (pending ++ [c]) depth (.comment :: stack) es) := by
        refine .idle ?_
        intro s hs hbefore
        rw [readChar_comment hs, if_neg]
        intro hend
        refine h [c] text rfl (by simp) ?_
        rw [List.isPrefixOf_iff_prefix, hbefore] at hend
        rw [← List.reverse_prefix]
        simpa using hend
      have htail : ∀ u v, text = u ++ v → u ≠ [] →
          ¬ "--%>".toList <:+ front ++ (pending ++ [c]) ++ u := by
        rintro u v rfl -
        simpa using h (c :: u) v rfl (by simp)
      simpa using hchar.append (ih htail)

/-- A comment, behind the word that begins it. -/
theorem reads_remark (remark : Remark) :
    Reads kind rest (remark.chars ++ "--%>".toList)
      (Reading front (pending ++ "<%--".toList) depth (.comment :: stack) es)
      (Reading (front ++ pending ++ "<%--".toList ++ remark.chars ++ "--%>".toList) [] depth stack
        es) := by
  have hinner : Reads kind ('>' :: rest) (remark.chars ++ "--%".toList)
      (Reading front (pending ++ "<%--".toList) depth (.comment :: stack) es)
      (Reading front (pending ++ "<%--".toList ++ (remark.chars ++ "--%".toList)) depth
        (.comment :: stack) es) := by
    refine reads_unclosed ?_
    intro u v huv hu
    have := not_closed_early remark.unclosed (front ++ pending) hu huv
    simpa using this
  have hend : Reads kind rest ['>']
      (Reading front (pending ++ "<%--".toList ++ (remark.chars ++ "--%".toList)) depth
        (.comment :: stack) es)
      (Reading (front ++ pending ++ "<%--".toList ++ remark.chars ++ "--%>".toList) [] depth stack
        es) := by
    refine .symbol (by decide) ?_
    intro s hs
    rw [readChar_comment hs.top, if_pos (by rw [hs.before_eq]; simp)]
    simpa using (hs.pop (by simp)).settle
  have hsplit : remark.chars ++ "--%>".toList = remark.chars ++ "--%".toList ++ ['>'] := by
    simp
  rw [hsplit]
  exact hinner.append hend

end

end Templating.Scan

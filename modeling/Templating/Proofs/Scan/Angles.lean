import Templating.Proofs.Scan.Lookahead
import Templating.Proofs.Scan.Quotes
import Templating.Proofs.Scan.Splitting

/-!
# Angle brackets in a list of arguments

A `<` that opens type arguments raises the depth of the list, and a `>` directly in the
list lowers it. The scanner does not follow brackets in groups: a `>` in parentheses, to
which the search behind `<` may have come, lowers nothing. So search and list agree on a
`>` just when no group is open behind the code between; and where they agree for every `<`
that raises the depth, it is lowered again at that `>` at the latest.
-/

namespace Templating.Scan

open Template (Grouped Grouping Spot walk?)

/-- The open angle brackets of a list of arguments. -/
def Construct.angles? : Construct → Option Nat
  | .arguments _ angles => some angles
  | _ => none

namespace State

/-- The open angle brackets, if a list of arguments is innermost. -/
def angles? (s : State) : Option Nat :=
  s.top.angles?

/-- A `<` that comes next, and that `after` follows, raises the depth `n` of a list. -/
def Raises (s : State) (after : List Char) (n : Nat) : Prop :=
  s.angles? = some n ∧ opensAngle s.before after = true

/-- The depth of a list behind one more character directly in it. -/
def depthBehind (s : State) (c : Char) (after : List Char) (n : Nat) : Nat :=
  if c = '<' ∧ opensAngle s.before after = true then n + 1
  else if c = '>' ∧ s.before.head? ≠ some '-' ∧ s.before.head? ≠ some '=' then n - 1
  else n

/-- The scanner is in the list on `base` with `n` open angle brackets, at the spot. -/
def Lists (base : List Frame) (spot : Spot) (n : Nat) (s : State) : Prop :=
  ∃ call, Inside base ((Construct.arguments call n).upTo spot) s s

/-- Behind the `<` that follows `q`, the depth of the list comes back to `n` in `x`. -/
def Lowered (setting : Setting) (t : State) (q x after : List Char) (n : Nat) : Prop :=
  ∃ y z m, x = y ++ z ∧
    (t.through setting (q ++ '<' :: y) (z ++ after)).angles? = some m ∧ m ≤ n

variable {setting : Setting} {s t u : State} {base : List Frame} {spot spot' : Spot}
  {k m n n₀ : Nat} {c : Char} {after q v w x y z : List Char} {ks : List Construct}

theorem Inside.self (h : Inside base ks s t) : Inside base ks t t := by
  obtain ⟨frames, hframes, rfl⟩ := h
  exact ⟨frames, hframes, rfl⟩

theorem angles?_eq_some_iff :
    s.angles? = some n ↔ ∃ call, s.top = .arguments call n := by
  unfold angles?
  cases s.top <;> simp [Construct.angles?]

theorem lists_iff : Lists base {} n s ↔
    ∃ call line, s.stack = ⟨.arguments call n, line⟩ :: base := by
  constructor
  · rintro ⟨call, frames, hframes, hs⟩
    obtain ⟨⟨k, line⟩, rfl, rfl⟩ := List.map_eq_singleton_iff.mp hframes
    exact ⟨call, line, congrArg State.stack hs⟩
  · rintro ⟨call, line, hstack⟩
    exact ⟨call, Inside.of_stack [⟨.arguments call n, line⟩] hstack⟩

theorem Lists.angles? (h : Lists base {} n s) : s.angles? = some n := by
  obtain ⟨call, line, hstack⟩ := lists_iff.mp h
  rw [angles?_eq_some_iff, top, hstack]
  exact ⟨call, rfl⟩

/-- Where the list is innermost, no group is open in it. -/
theorem Lists.eq_of_angles? (h : Lists base spot n s) (hwalk : walk? .parentheses {} q = some spot)
    (hm : s.angles? = some m) : spot = {} ∧ m = n := by
  obtain ⟨call', htop⟩ := angles?_eq_some_iff.mp hm
  obtain ⟨call, hinside⟩ := h
  obtain ⟨hstring, hflat⟩ := hinside.flat (by rw [htop]; rfl)
  obtain ⟨groups, string?⟩ := spot
  obtain rfl : string? = none := hstring
  cases groups with
  | nil =>
      have hsame := htop.symm.trans hinside.top
      exact ⟨rfl, (Construct.arguments.inj hsame).2⟩
  | cons group groups =>
      obtain ⟨hbrace, hparenthesis, -⟩ := Construct.within_flat hflat
      have hpaired := Spot.paired_of_walk? rfl hwalk group List.mem_cons_self
      obtain ⟨close, g⟩ := group
      cases g with
      | braces => exact absurd (Option.some.inj hpaired).symm hbrace
      | parentheses => exact absurd (Option.some.inj hpaired).symm hparenthesis
      | all => cases hpaired

/-! ## One more character -/

theorem depthBehind_raised (n : Nat) (h : opensAngle s.before after = true) :
    s.depthBehind '<' after n = n + 1 :=
  if_pos ⟨rfl, h⟩

theorem depthBehind_lowered (n : Nat) (after : List Char)
    (h : s.before.head? ≠ some '-' ∧ s.before.head? ≠ some '=') :
    s.depthBehind '>' after n = n - 1 := by
  rw [depthBehind, if_neg fun h => absurd h.1 (by decide), if_pos ⟨rfl, h⟩]

/-- A separator directly in a list changes its depth and its arguments. -/
theorem readCode_separator_stack (after : List Char) (hc : c ∈ [',', '<', '>']) {line : Nat}
    {call : PendingCall} (hstack : s.stack = ⟨.arguments call n, line⟩ :: base) :
    ∃ call', ((s.advance c).readCode c after).stack =
      ⟨.arguments call' (s.depthBehind c after n), line⟩ :: base := by
  have htop : (s.advance c).top = .arguments call n := by
    rw [advance_top, top, hstack]
  have hbecome (k : Construct) : ((s.advance c).become k).stack = ⟨k, line⟩ :: base := by
    unfold become
    rw [advance_stack, hstack]
  simp only [List.mem_cons, List.not_mem_nil, or_false] at hc
  rcases hc with rfl | rfl | rfl
  · show ∃ call', (s.advance ',').splitArgument.stack = _
    unfold splitArgument
    rw [htop]
    cases n with
    | zero => exact ⟨_, hbecome _⟩
    | succ n => exact ⟨call, hstack⟩
  · show ∃ call', ((s.advance '<').openAngle after).stack = _
    have hopens : opensAngle (s.advance '<').before.tail after = opensAngle s.before after := rfl
    unfold openAngle
    rw [htop]
    dsimp only
    rw [hopens]
    by_cases hraises : opensAngle s.before after = true
    · rw [if_pos hraises, depthBehind_raised n hraises]
      exact ⟨call, hbecome _⟩
    · have hsame : s.depthBehind '<' after n = n := by
        rw [depthBehind, if_neg fun h => hraises h.2, if_neg fun h => absurd h.1 (by decide)]
      rw [if_neg hraises, hsame]
      exact ⟨call, hstack⟩
  · show ∃ call', (s.advance '>').closeAngle.stack = _
    unfold closeAngle
    rw [htop]
    dsimp only
    rw [advance_previous?]
    by_cases harrow : s.before.head? = some '-' ∨ s.before.head? = some '='
    · have hsame : s.depthBehind '>' after n = n := by
        rw [depthBehind, if_neg fun h => absurd h.1 (by decide),
          if_neg fun h => harrow.elim h.2.1 h.2.2]
      rw [if_pos harrow, hsame]
      exact ⟨call, hstack⟩
    · rw [if_neg harrow, depthBehind_lowered n after (not_or.mp harrow)]
      exact ⟨call, hbecome _⟩

/-- Directly in a list only its depth and its arguments change. -/
theorem Lists.stepDirectly (h : Lists base {} n s) (setting : Setting) (after : List Char)
    (hread : Spot.Reads .parentheses {} c spot) :
    Lists base spot (s.depthBehind c after n) (s.step setting c after) := by
  by_cases hc : c ∈ [',', '<', '>']
  · obtain rfl := reads_separator hc rfl hread
    obtain ⟨call, line, hstack⟩ := lists_iff.mp h
    have htop : (s.advance c).top = .arguments call n := by
      rw [advance_top, top, hstack]
    obtain ⟨call', hstack'⟩ := readCode_separator_stack after hc hstack
    rw [lists_iff, step_stack, readChar_readsCode (by rw [htop]; rfl)]
    exact ⟨call', line, hstack'⟩
  · obtain ⟨call, hinside⟩ := h
    have hsame : s.depthBehind c after n = n := by
      simp only [List.mem_cons, not_or] at hc
      rw [depthBehind, if_neg fun h => hc.2.1 h.1, if_neg fun h => hc.2.2.1 h.1]
    have hread' := readChar_reads setting after hread (k := .arguments call n) rfl
      (hinside.advance c) fun _ => hc
    rw [hsame]
    exact ⟨call, (hread'.endLine c).self⟩

/-- **One more character raises the depth of the list by one at most**, and only at a `<`
directly in it. -/
theorem Lists.step (h : Lists base spot n s) (hwalk : walk? .parentheses {} q = some spot)
    (setting : Setting) (after : List Char) (hread : spot.read? .parentheses c = some spot') :
    ∃ n', Lists base spot' n' (s.step setting c after) ∧
      (n' ≤ n ∨ c = '<' ∧ s.Raises after n ∧ n' = n + 1) := by
  have hreads := Spot.reads_of_read? hread
  cases hangles : s.angles? with
  | some m =>
      obtain ⟨rfl, rfl⟩ := h.eq_of_angles? hwalk hangles
      refine ⟨_, h.stepDirectly setting after hreads, ?_⟩
      unfold depthBehind
      split
      · rename_i hraises
        exact Or.inr ⟨hraises.1, ⟨hangles, hraises.2⟩, rfl⟩
      · refine Or.inl ?_
        split <;> omega
  | none =>
      obtain ⟨call, hinside⟩ := h
      have hfits : (Construct.arguments call n).Fits .parentheses spot.groups :=
        Construct.Fits.walk (p := {}) rfl hwalk
      have hread' := readChar_reads setting after hreads hfits (hinside.advance c) fun htop => by
        rw [advance_top] at htop
        unfold State.angles? at hangles
        cases hk : s.top <;> simp_all [Construct.isArguments, Construct.angles?]
      exact ⟨n, ⟨call, (hread'.endLine c).self⟩, Or.inl (Nat.le_refl n)⟩

/-! ## Depths that stay -/

/-- What comes back with the last character does so at the end or before. -/
theorem lowered_snoc (h : Lowered setting t q (x ++ [c]) after n) :
    Lowered setting t q x (c :: after) n ∨ ∃ m ≤ n,
      (t.through setting (q ++ '<' :: (x ++ [c])) after).angles? = some m := by
  obtain ⟨y, z, m, hsplit, hm, hle⟩ := h
  rcases List.eq_nil_or_concat z with rfl | ⟨z, d, rfl⟩
  · rw [List.append_nil] at hsplit
    subst hsplit
    exact Or.inr ⟨m, hle, hm⟩
  · rw [List.concat_eq_append, ← List.append_assoc] at hsplit
    obtain ⟨rfl, hd⟩ := List.append_inj' hsplit rfl
    obtain rfl := List.singleton_inj.mp hd
    refine Or.inl ⟨y, z, m, rfl, ?_, hle⟩
    simpa using hm

/-- **A depth that is left behind stems from a `<`** that raised the depth below it, and
from there on the list is never back at that one. -/
theorem exists_raised (hs : Lists base {} n₀ s) (setting : Setting) (after : List Char)
    (hwalk : walk? .parentheses {} v = some spot) :
    ∃ n, Lists base spot n (s.through setting v after) ∧ ∀ k, n₀ ≤ k → k < n →
      ∃ q x, v = q ++ '<' :: x ∧
        (s.through setting q ('<' :: (x ++ after))).Raises (x ++ after) k ∧
        ¬ Lowered setting s q x after k := by
  induction v using List.reverseRecOn generalizing after spot with
  | nil =>
      obtain rfl := Option.some.inj hwalk
      exact ⟨n₀, hs, fun k hk hlt => absurd hlt (Nat.not_lt.mpr hk)⟩
  | append_singleton v c ih =>
      rw [Template.walk?_snoc] at hwalk
      obtain ⟨spot', hv, hread⟩ := Option.bind_eq_some_iff.mp hwalk
      obtain ⟨n, hn, hraised⟩ := ih (c :: after) hv
      obtain ⟨n', hn', hchange⟩ := hn.step hv setting after hread
      rw [← through_snoc] at hn'
      -- Directly in the list the new depth is `n'`.
      have hend (k : Nat) (hk : k < n') : ¬ ∃ m ≤ k,
          (s.through setting (v ++ [c]) after).angles? = some m := by
        rintro ⟨m, hle, hm⟩
        have hwalk' : walk? .parentheses {} (v ++ [c]) = some spot := by
          rw [Template.walk?_snoc, hv]
          exact hread
        obtain ⟨-, rfl⟩ := hn'.eq_of_angles? hwalk' hm
        omega
      refine ⟨n', hn', fun k hk hlt => ?_⟩
      by_cases hbefore : k < n
      · obtain ⟨q, x, rfl, hraises, hstays⟩ := hraised k hk hbefore
        refine ⟨q, x ++ [c], by simp, by simpa using hraises, fun hlowered => ?_⟩
        rcases lowered_snoc hlowered with h | h
        · exact hstays h
        · exact hend k hlt (by simpa using h)
      · obtain ⟨rfl, hraises, rfl⟩ := hchange.resolve_left (by omega)
        obtain rfl : k = n := by omega
        refine ⟨v, [], rfl, hraises, ?_⟩
        rintro ⟨y, z, m, hsplit, hm, hle⟩
        obtain ⟨rfl, rfl⟩ := List.append_eq_nil_iff.mp hsplit.symm
        exact hend k hlt ⟨m, hle, hm⟩

/-! ## Depths that come back -/

theorem exists_walk?_of_append {g : Grouping} (h : walk? g {} (x ++ y) = some spot) :
    ∃ spot', walk? g {} x = some spot' := by
  rw [Template.walk?_append] at h
  obtain ⟨spot', hx, -⟩ := Option.bind_eq_some_iff.mp h
  exact ⟨spot', hx⟩

/-- Behind a `<` that raises the depth, the list is innermost and one level deeper. -/
theorem Lists.raised (hs : Lists base {} n₀ s) (hwalk : walk? .parentheses {} q = some spot)
    (h : (s.through setting q ('<' :: after)).Raises after n) :
    Grouped .parentheses q ∧ Lists base {} (n + 1) (s.through setting (q ++ ['<']) after) := by
  obtain ⟨n', hn', -⟩ := exists_raised hs setting ('<' :: after) hwalk
  obtain ⟨rfl, rfl⟩ := hn'.eq_of_angles? hwalk h.1
  refine ⟨Template.grouped_iff.mpr hwalk, ?_⟩
  rw [through_snoc, ← depthBehind_raised n h.2]
  exact hn'.stepDirectly setting after (.plain [] (by decide) rfl rfl)

/-- A `>` directly in the list lowers the depth, unless it ends an arrow. -/
theorem Lists.lowered (hs : Lists base {} n s) (setting : Setting) (after : List Char)
    (hlast : s.before.head? ≠ some '-' ∧ s.before.head? ≠ some '=') :
    Lists base {} (n - 1) (s.step setting '>' after) := by
  rw [← depthBehind_lowered n after hlast]
  exact hs.stepDirectly setting after (.plain [] (by decide) rfl rfl)

/-- The `>` that the search behind `<` finds stands where no group is open. -/
def Met (after : List Char) : Prop :=
  ∃ w z, after = w ++ '>' :: z ∧ ClosedBehind w ∧ Grouped .parentheses w

/-- **A depth is lowered again where the search and the list agree.** If they agree on the
`>` of a `<` and of each one between that raises the depth, then behind that `>` the list
is no deeper than in front of the `<`. -/
theorem comesBack (ht : Lists base {} n₀ t) (hlayered : Layered t.stack) {p : List Char}
    (hp : walk? .parentheses {} p = some spot)
    (hmet : ∀ q x n, p = q ++ '<' :: x →
      (t.through setting q ('<' :: (x ++ after))).Raises (x ++ after) n → Met (x ++ after))
    (hsplit : p = q ++ '<' :: (w ++ '>' :: y))
    (hraises : (t.through setting q ('<' :: (w ++ '>' :: y ++ after))).Raises
      (w ++ '>' :: y ++ after) n)
    (hw : ClosedBehind w) (hgrouped : Grouped .parentheses w) :
    ∃ m ≤ n, (t.through setting (q ++ '<' :: (w ++ ['>'])) (y ++ after)).angles? = some m := by
  induction hlength : w.length using Nat.strong_induction_on generalizing q w y n with
  | _ length ih =>
      obtain ⟨spot', hq⟩ := exists_walk?_of_append (hsplit ▸ hp)
      obtain ⟨-, hopen⟩ := ht.raised hq hraises
      have hthrough (v rest : List Char) :
          (t.through setting (q ++ ['<']) (v ++ rest)).through setting v rest =
            t.through setting (q ++ '<' :: v) rest := by
        rw [← through_append, ← List.append_cons]
      rw [List.append_assoc] at hopen
      obtain ⟨d, hd, hraised⟩ := exists_raised hopen setting ('>' :: y ++ after)
        (Template.grouped_iff.mp hgrouped)
      rw [hthrough] at hd
      have hlast : (t.through setting (q ++ '<' :: w) ('>' :: y ++ after)).before.head? =
          (w.reverse ++ ['<']).head? := by
        rw [through_before hlayered, List.reverse_append, List.reverse_cons, List.append_assoc,
          List.head?_append_of_ne_nil _ (by simp)]
      by_cases hdepth : d ≤ n + 1
      · have hlowered := (hd.lowered setting (y ++ after) (hlast ▸ hw.last)).angles?
        refine ⟨d - 1, by omega, ?_⟩
        rw [← List.cons_append, ← List.append_assoc, through_snoc]
        exact hlowered
      · -- Some `<` in `w` is to blame; but it comes back at its own `>`, which is in `w`.
        obtain ⟨q', x, rfl, hraises', hstays⟩ := hraised (n + 1) (Nat.le_refl _) (by omega)
        have hsplit' : p = (q ++ '<' :: q') ++ '<' :: (x ++ '>' :: y) := by
          simp [hsplit]
        have hraises'' : (t.through setting (q ++ '<' :: q')
            ('<' :: (x ++ '>' :: y ++ after))).Raises (x ++ '>' :: y ++ after) (n + 1) := by
          rw [← hthrough]
          simpa using hraises'
        obtain ⟨w', z, hsame, hw', hgrouped'⟩ := hmet _ _ _ hsplit' hraises''
        rw [List.append_assoc] at hsame
        obtain ⟨more, rfl⟩ := hw.within hw' hsame
        obtain ⟨m, hle, hm⟩ := ih w'.length (by simp [← hlength]; omega)
          (q := q ++ '<' :: q') (w := w') (y := more ++ '>' :: y) (n := n + 1)
          (by simp [hsplit]) (by simpa using hraises'') hw' hgrouped' rfl
        have hinner := hthrough (q' ++ '<' :: (w' ++ ['>'])) (more ++ ('>' :: y ++ after))
        refine absurd ⟨w' ++ ['>'], more, m, by simp, ?_, hle⟩ hstays
        simp only [List.append_assoc, List.cons_append, List.nil_append] at hinner hm ⊢
        rw [hinner]
        exact hm

/-! ## The list of a call -/

/-- Without two colons before it, only a `<` with a closing bracket opens type arguments. -/
theorem closesAngle_of_raises (h : s.Raises after n)
    (hcolons : [':', ':'].isPrefixOf s.before = false) : closesAngle 0 0 '<' after = true := by
  have hopens := h.2
  unfold opensAngle at hopens
  rw [hcolons, Bool.false_or, Bool.and_eq_true] at hopens
  exact hopens.2

theorem grouped_behind_angle (hq : Grouped .parentheses q) :
    Grouped .parentheses (q ++ '<' :: w) ↔ Grouped .parentheses w := by
  have hangle : Grouped .parentheses ['<'] := .plain (by decide) rfl rfl .nil
  rw [hq.append_iff]
  show Grouped .parentheses (['<'] ++ w) ↔ _
  exact hangle.append_iff

/-- Grouped code comes no further than the parenthesis behind the list. -/
theorem within_list (hx : Grouped .parentheses x) (hw : Grouped .parentheses w)
    {rest : List Char} (h : x ++ ')' :: rest = w ++ '>' :: z) : ∃ y, x = w ++ '>' :: y := by
  rcases List.append_eq_append_iff.mp h with ⟨a, hsplit, ha⟩ | ⟨a, hsplit, ha⟩
  · cases a with
    | nil => cases ha
    | cons c a =>
        obtain ⟨rfl, -⟩ := List.cons.inj ha
        have hwalk : (walk? .parentheses {} w).isSome = true := by
          rw [Template.grouped_iff.mp hw]
          rfl
        exact absurd hx (Template.not_grouped_of_walk? rfl hwalk hsplit)
  · cases a with
    | nil => cases ha
    | cons c a =>
        obtain ⟨rfl, -⟩ := List.cons.inj ha
        exact ⟨a, hsplit⟩

section List

variable {p rest : List Char} (ht : Lists base {} 0 t) (hp : Grouped .parentheses p)

include ht hp

/-- The `>` of a `<` is met directly in the list just when no group is open behind the
code between. -/
theorem met_iff (hsplit : p = q ++ '<' :: x)
    (hraises : (t.through setting q ('<' :: (x ++ ')' :: rest))).Raises (x ++ ')' :: rest) n)
    (hafter : x ++ ')' :: rest = w ++ '>' :: z) :
    (∃ y, x = w ++ '>' :: y ∧
      (t.through setting (q ++ '<' :: w) ('>' :: (y ++ ')' :: rest))).angles? ≠ none) ↔
        Grouped .parentheses w := by
  subst hsplit
  obtain ⟨spot, hq⟩ := exists_walk?_of_append (Template.grouped_iff.mp hp)
  obtain ⟨hgrouped, -⟩ := ht.raised hq hraises
  constructor
  · rintro ⟨y, rfl, hinnermost⟩
    obtain ⟨m, hm⟩ := Option.ne_none_iff_exists'.mp hinnermost
    rw [← List.cons_append, ← List.append_assoc] at hp
    obtain ⟨spot', hw⟩ := exists_walk?_of_append (Template.grouped_iff.mp hp)
    obtain ⟨n', hn', -⟩ := exists_raised ht setting ('>' :: (y ++ ')' :: rest)) hw
    obtain ⟨rfl, -⟩ := hn'.eq_of_angles? hw hm
    exact (grouped_behind_angle hgrouped).mp (Template.grouped_iff.mpr hw)
  · intro hw
    obtain ⟨y, hy⟩ := within_list ((grouped_behind_angle hgrouped).mp hp) hw hafter
    have hwalk := Template.grouped_iff.mp ((grouped_behind_angle hgrouped).mpr hw)
    obtain ⟨n', hn', -⟩ := exists_raised ht setting ('>' :: (y ++ ')' :: rest)) hwalk
    exact ⟨y, hy, by rw [hn'.angles?]; simp⟩

/-- Directly in the list the depth is zero just when every depth that a `<` has raised has
come back. -/
theorem exists_depth (setting : Setting) (after : List Char) :
    ∃ d, (t.through setting p after).angles? = some d ∧ (d = 0 ↔
      ∀ q x n, p = q ++ '<' :: x →
        (t.through setting q ('<' :: (x ++ after))).Raises (x ++ after) n →
          Lowered setting t q x after n) := by
  obtain ⟨d, hd, hraised⟩ := exists_raised ht setting after (Template.grouped_iff.mp hp)
  refine ⟨d, hd.angles?, ?_, fun hlowered => ?_⟩
  · rintro rfl q x n rfl -
    exact ⟨x, [], 0, (List.append_nil x).symm, hd.angles?, Nat.zero_le n⟩
  · by_contra hdepth
    obtain ⟨q, x, hsplit, hraises, hstays⟩ := hraised (d - 1) (Nat.zero_le _) (by omega)
    exact hstays (hlowered q x (d - 1) hsplit hraises)

/-- If search and list agree throughout, every depth comes back at its `>`. -/
theorem comesBack_of_met (hlayered : Layered t.stack)
    (hmet : ∀ q x n, p = q ++ '<' :: x →
      (t.through setting q ('<' :: (x ++ ')' :: rest))).Raises (x ++ ')' :: rest) n →
        Met (x ++ ')' :: rest)) (hsplit : p = q ++ '<' :: x)
    (hraises : (t.through setting q ('<' :: (x ++ ')' :: rest))).Raises (x ++ ')' :: rest) n) :
    ∃ w y m, x = w ++ '>' :: y ∧ ClosedBehind w ∧ m ≤ n ∧
      (t.through setting (q ++ '<' :: (w ++ ['>'])) (y ++ ')' :: rest)).angles? = some m := by
  obtain ⟨w, z, hafter, hw, hgrouped⟩ := hmet q x n hsplit hraises
  obtain ⟨y, rfl, -⟩ := (met_iff ht hp hsplit hraises hafter).mpr hgrouped
  obtain ⟨m, hle, hm⟩ := comesBack ht hlayered (Template.grouped_iff.mp hp) hmet hsplit hraises
    hw hgrouped
  exact ⟨w, y, m, rfl, hw, hle, hm⟩

end List

end State

open State

/-- **Search and list agree on a `>` just when no group is open in front of it.** Let `p`
be the list of a call. To each `<` that raises the depth of the list, and has no two
colons before it, there is the `>` at which the search has ended; the scanner meets it
directly in the list just when the code between is grouped. Wherever the list is innermost,
at its commas and at its end, its depth is zero just when every depth that was raised has
come back. If for every `<` that raises the depth the two agree, each one has come back at
its `>`, and at the end of the list the depth is zero. -/
theorem angles_agree_iff (setting : Setting) (read p rest : List Char) (kind : CallKind) :
    let s := State.through setting {} read ('(' :: (p ++ ')' :: rest))
    let t := s.step setting '(' (p ++ ')' :: rest)
    let behind (q x : List Char) := t.through setting q (x ++ ')' :: rest)
    let RaisedAt (q x : List Char) (n : Nat) :=
      p = q ++ '<' :: x ∧ (behind q ('<' :: x)).Raises (x ++ ')' :: rest) n
    s.top = .reference kind → Grouped .parentheses p →
    (∀ q x n, RaisedAt q x n → [':', ':'].isPrefixOf (behind q ('<' :: x)).before = false →
      ∃ w z, x ++ ')' :: rest = w ++ '>' :: z ∧ ClosedBehind w ∧
        ((∃ y, x = w ++ '>' :: y ∧ (behind (q ++ '<' :: w) ('>' :: y)).angles? ≠ none) ↔
          Grouped .parentheses w)) ∧
    (∀ v y, p = v ++ y → Grouped .parentheses v → ∃ d, (behind v y).angles? = some d ∧
      (d = 0 ↔ ∀ q x n, v = q ++ '<' :: x → RaisedAt q (x ++ y) n →
        Lowered setting t q x (y ++ ')' :: rest) n)) ∧
    ((∀ q x n, RaisedAt q x n → Met (x ++ ')' :: rest)) →
      (behind p []).angles? = some 0 ∧ ∀ q x n, RaisedAt q x n →
        ∃ w y m, x = w ++ '>' :: y ∧ ClosedBehind w ∧ m ≤ n ∧
          (behind (q ++ '<' :: (w ++ ['>'])) y).angles? = some m) := by
  intro s t behind RaisedAt htop hp
  obtain ⟨reference, htop', -⟩ := step_call setting (p ++ ')' :: rest) htop
  obtain ⟨⟨k, line⟩, base, hstack, rfl⟩ := stack_of_top htop' (by simp)
  have ht : Lists base {} 0 t := lists_iff.mpr ⟨_, line, hstack⟩
  have hlayered : Layered t.stack :=
    layered_upheld.step setting '(' _ (layered_upheld.through setting layered_start read _)
  refine ⟨?_, ?_, ?_⟩
  · rintro q x n ⟨hsplit, hraises⟩ hcolons
    obtain ⟨w, z, hafter, hw⟩ := closesAngle_iff.mp (closesAngle_of_raises hraises hcolons)
    exact ⟨w, z, hafter, hw, met_iff ht hp hsplit hraises hafter⟩
  · rintro v y rfl hv
    obtain ⟨d, hd, hzero⟩ := exists_depth ht hv setting (y ++ ')' :: rest)
    refine ⟨d, hd, hzero.trans (forall₃_congr fun q x n => forall_congr' fun hsplit => ?_)⟩
    refine imp_congr ?_ Iff.rfl
    simp [RaisedAt, behind, hsplit]
  · intro hmet
    have hback (q x : List Char) (n : Nat) (h : RaisedAt q x n) :=
      comesBack_of_met ht hp hlayered (fun q x n hsplit hraises => hmet q x n ⟨hsplit, hraises⟩)
        h.1 h.2
    obtain ⟨d, hd, hzero⟩ := exists_depth ht hp setting (')' :: rest)
    have hdepth : d = 0 := by
      refine hzero.mpr fun q x n hsplit hraises => ?_
      obtain ⟨w, y, m, rfl, -, hle, hm⟩ := hback q x n ⟨hsplit, hraises⟩
      exact ⟨w ++ ['>'], y, m, by simp, hm, hle⟩
    exact ⟨hdepth ▸ hd, hback⟩

theorem angles_agree_iff_generic :
    let p := "a<b>, c".toList
    let x := "b>, c".toList
    let t := State.through {} {} "@tag.t(".toList (p ++ [')'])
    ∃ w z, x ++ [')'] = w ++ '>' :: z ∧ ClosedBehind w ∧
      ((∃ y, x = w ++ '>' :: y ∧
        (t.through {} ('a' :: '<' :: w) ('>' :: (y ++ [')']))).angles? ≠ none) ↔
          Grouped .parentheses w) :=
  (angles_agree_iff {} "@tag.t".toList "a<b>, c".toList [] .tag (by decide +kernel)
    (by decide +kernel)).1 ['a'] "b>, c".toList 0
      ⟨by decide, by decide +kernel, by decide +kernel⟩ (by decide +kernel)

/-- A comparison in parentheses leaves an angle bracket open. -/
theorem angle_left_open : ¬ ∀ (setting : Setting) (read p rest : List Char) (kind : CallKind),
    let s := State.through setting {} read ('(' :: (p ++ ')' :: rest))
    let t := s.step setting '(' (p ++ ')' :: rest)
    s.top = .reference kind → Grouped .parentheses p → ¬ [':', ':'] <:+: p →
      (t.through setting p (')' :: rest)).angles? = some 0 := by
  intro h
  have hdepth := h {} "@tag.t".toList "a<(b > c), d".toList [] .tag (by decide +kernel)
    (by decide +kernel) (by decide +kernel)
  revert hdepth
  decide +kernel

end Templating.Scan

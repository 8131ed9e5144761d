import Mathlib.Data.List.Induction
import Templating.Proofs.Template.Tree
import Templating.Proofs.Text.Trim

/-!
# Groups of code

A group is what stands between an opening bracket and the bracket that closes it.
`Grouped` says of a stretch of code that its strings end and its groups are closed,
where it depends on the `Grouping` which brackets count. Reading from left to right
tells the same: `walk?` keeps the groups that are open, and code is grouped just when
nothing is open behind it. So the code up to the first bracket that closes none of its
groups is determined, and what follows grouped code is judged without it.
-/

namespace Templating.Template

/-- Which brackets count in a stretch of code. -/
inductive Grouping where
  /-- Braces. -/
  | braces
  /-- Parentheses, and braces, within which braces count. -/
  | parentheses
  /-- Parentheses, square brackets and braces. -/
  | all
deriving DecidableEq

namespace Grouping

/-- The bracket that closes the group which the character opens, and what counts
in that group. -/
def opens? : Grouping → Char → Option (Char × Grouping)
  | braces, '\x7b' => some ('\x7d', braces)
  | parentheses, '\x7b' => some ('\x7d', braces)
  | parentheses, '(' => some (')', parentheses)
  | all, '\x7b' => some ('\x7d', all)
  | all, '(' => some (')', all)
  | all, '[' => some (']', all)
  | _, _ => none

/-- The character may only stand where it closes a group. -/
def closes : Grouping → Char → Bool
  | braces, c => c == '\x7d'
  | parentheses, c => c == ')'
  | all, c => c == '\x7d' || c == ')' || c == ']'

/-- Where only one sort of bracket must not stand alone, this is the one. -/
def closer? : Grouping → Option Char
  | braces => some '\x7d'
  | parentheses => some ')'
  | all => none

variable {g h : Grouping} {o close : Char}

theorem closes_iff (hg : g.closer? = some close) (c : Char) : g.closes c = true ↔ c = close := by
  cases g <;> cases hg <;> exact beq_iff_eq

theorem closer?_of_opens? {k : Char} (hg : g.closer? = some k)
    (ho : g.opens? o = some (close, h)) : h.closer? = some close := by
  unfold opens? at ho
  split at ho <;> cases ho <;> first | rfl | cases hg

/-- There are three sorts of brackets. -/
theorem bracket_of_opens? (ho : g.opens? o = some (close, h)) :
    o = '\x7b' ∧ close = '\x7d' ∨ o = '(' ∧ close = ')' ∨ o = '[' ∧ close = ']' := by
  unfold opens? at ho
  split at ho <;> cases ho <;> simp

theorem opens?_ne_quote (ho : g.opens? o = some (close, h)) : o ≠ '"' := by
  rintro rfl
  cases g <;> cases ho

/-- What closes a group opens none, and may only stand there. -/
theorem closes_of_opens? (ho : g.opens? o = some (close, h)) :
    close ≠ '"' ∧ h.opens? close = none ∧ h.closes close = true := by
  unfold opens? at ho
  split at ho <;> cases ho <;> decide

end Grouping

/-- Code in which strings end, and in which every bracket that counts stands where it
opens or closes a group. -/
inductive Grouped : Grouping → List Char → Prop where
  | nil {g : Grouping} : Grouped g []
  | plain {g : Grouping} {c : Char} {cs : List Char} : c ≠ '"' → g.opens? c = none →
      g.closes c = false → Grouped g cs → Grouped g (c :: cs)
  | string {g : Grouping} {inner cs : List Char} : Quoted inner → Grouped g cs →
      Grouped g ('"' :: (inner ++ '"' :: cs))
  | group {g h : Grouping} {o close : Char} {inner cs : List Char} :
      g.opens? o = some (close, h) → Grouped h inner → Grouped g cs →
      Grouped g (o :: (inner ++ close :: cs))

/-! ## Reading from left to right -/

/-- Where a reading stands: in which groups, innermost first, and whether in a string,
there perhaps behind a backslash. -/
structure Spot where
  groups : List (Char × Grouping) := []
  string? : Option Bool := none
deriving DecidableEq

namespace Spot

/-- What counts at the spot. -/
def inside (g : Grouping) (p : Spot) : Grouping :=
  (p.groups.head?.map Prod.snd).getD g

/-- The spot behind one more character, unless that closes a group that is not
open. -/
def read? (g : Grouping) (p : Spot) (c : Char) : Option Spot :=
  match p.string? with
  | some true => some { p with string? := some false }
  | some false =>
      some { p with string? := if c = '"' then none else some (decide (c = '\\')) }
  | none =>
      if c = '"' then some { p with string? := some false }
      else match (p.inside g).opens? c with
        | some group => some { p with groups := group :: p.groups }
        | none =>
            if (p.inside g).closes c = true then
              match p.groups with
              | (close, _) :: rest => if c = close then some { p with groups := rest } else none
              | [] => none
            else some p

/-- What one character can do. -/
inductive Reads (g : Grouping) : Spot → Char → Spot → Prop where
  | escaped (groups : List (Char × Grouping)) (c : Char) :
      Reads g ⟨groups, some true⟩ c ⟨groups, some false⟩
  | backslash (groups : List (Char × Grouping)) :
      Reads g ⟨groups, some false⟩ '\\' ⟨groups, some true⟩
  | unquote (groups : List (Char × Grouping)) : Reads g ⟨groups, some false⟩ '"' ⟨groups, none⟩
  | quoted (groups : List (Char × Grouping)) {c : Char} : c ≠ '"' → c ≠ '\\' →
      Reads g ⟨groups, some false⟩ c ⟨groups, some false⟩
  | quote (groups : List (Char × Grouping)) : Reads g ⟨groups, none⟩ '"' ⟨groups, some false⟩
  | opens (groups : List (Char × Grouping)) {c : Char} {group : Char × Grouping} :
      (inside g ⟨groups, none⟩).opens? c = some group →
      Reads g ⟨groups, none⟩ c ⟨group :: groups, none⟩
  | closes (close : Char) (h : Grouping) (groups : List (Char × Grouping)) :
      h.closes close = true → Reads g ⟨(close, h) :: groups, none⟩ close ⟨groups, none⟩
  | plain (groups : List (Char × Grouping)) {c : Char} : c ≠ '"' →
      (inside g ⟨groups, none⟩).opens? c = none → (inside g ⟨groups, none⟩).closes c = false →
      Reads g ⟨groups, none⟩ c ⟨groups, none⟩

theorem reads_of_read? {g : Grouping} {p q : Spot} {c : Char} (h : p.read? g c = some q) :
    Reads g p c q := by
  obtain ⟨groups, string?⟩ := p
  unfold read? at h
  match string? with
  | some true =>
      cases h
      exact .escaped groups c
  | some false =>
      by_cases hquote : c = '"'
      · subst hquote
        cases h
        exact .unquote groups
      · by_cases hbackslash : c = '\\'
        · subst hbackslash
          cases h
          exact .backslash groups
        · simp only [hquote, hbackslash, if_false, decide_false] at h
          cases h
          exact .quoted groups hquote hbackslash
  | none =>
      by_cases hquote : c = '"'
      · subst hquote
        cases h
        exact .quote groups
      · simp only [hquote, if_false] at h
        cases hopens : (inside g ⟨groups, none⟩).opens? c with
        | some group =>
            rw [hopens] at h
            cases h
            exact .opens groups hopens
        | none =>
            simp only [hopens] at h
            cases hcloses : (inside g ⟨groups, none⟩).closes c with
            | false =>
                simp only [hcloses, Bool.false_eq_true, if_false] at h
                cases h
                exact .plain groups hquote hopens hcloses
            | true =>
                simp only [hcloses, if_true] at h
                match groups with
                | [] => cases h
                | (close, k) :: rest =>
                    by_cases hclose : c = close
                    · subst hclose
                      simp only [if_true] at h
                      cases h
                      exact .closes c k rest hcloses
                    · simp [hclose] at h

/-- Reading only stops at a bracket that should close a group and closes none. -/
theorem closes_of_read?_eq_none {g : Grouping} {p : Spot} {c : Char}
    (h : p.read? g c = none) : p.string? = none ∧ (p.inside g).closes c = true ∧
      ∀ group ∈ p.groups.head?, group.1 ≠ c := by
  obtain ⟨groups, string?⟩ := p
  unfold read? at h
  match string? with
  | some true => cases h
  | some false => cases h
  | none =>
      simp only at h
      split at h
      · cases h
      · split at h
        · cases h
        · split at h
          · rename_i hcloses
            refine ⟨rfl, hcloses, ?_⟩
            rintro ⟨close, k⟩ hhead rfl
            cases groups with
            | nil => cases hhead
            | cons group rest =>
                obtain rfl := Option.some.inj hhead
                simp at h
          · cases h

end Spot

/-- The spot behind the code. -/
def walk? (g : Grouping) (p : Spot) (cs : List Char) : Option Spot :=
  cs.foldlM (Spot.read? g) p

section Walk

variable {g h : Grouping} {p : Spot} {c : Char} {cs xs ys : List Char}

theorem walk?_cons : walk? g p (c :: cs) = (p.read? g c).bind fun q => walk? g q cs := rfl

theorem walk?_append : walk? g p (xs ++ ys) = (walk? g p xs).bind fun q => walk? g q ys :=
  List.foldlM_append

theorem walk?_snoc : walk? g p (cs ++ [c]) = (walk? g p cs).bind fun q => q.read? g c := by
  rw [walk?_append]
  congr 1
  funext q
  rw [walk?_cons]
  cases q.read? g c <;> rfl

/-- **Grouped code leads back** to the spot from which it is read. -/
theorem Grouped.walk? (hcs : Grouped h cs) {groups : List (Char × Grouping)}
    (hinside : Spot.inside g { groups } = h) :
    Template.walk? g { groups } cs = some { groups } := by
  induction hcs generalizing groups with
  | nil => rfl
  | @plain h c cs hquote hopens hcloses _ ih =>
      have hread : Spot.read? g { groups } c = some { groups } := by
        simp [Spot.read?, hquote, hinside, hopens, hcloses]
      rw [walk?_cons, hread]
      exact ih hinside
  | @string h inner cs hinner _ ih =>
      let quoted : Spot := { groups, string? := some false }
      have hquoted (inner : List Char) (hinner : Quoted inner) :
          Template.walk? g quoted inner = some quoted := by
        induction hinner with
        | nil => rfl
        | @plain c cs hquote hbackslash _ ih =>
            have hread : quoted.read? g c = some quoted := by
              simp [Spot.read?, quoted, hquote, hbackslash]
            rw [walk?_cons, hread]
            exact ih
        | escape c _ ih => exact ih
      rw [walk?_cons, show Spot.read? g { groups } '"' = some quoted from rfl, Option.bind_some,
        walk?_append, hquoted inner hinner, Option.bind_some, walk?_cons,
        show quoted.read? g '"' = some { groups } from rfl]
      exact ih hinside
  | @group h k o close inner cs ho _ _ ihinner ih =>
      let within : Spot := { groups := (close, k) :: groups }
      obtain ⟨hquote, hopens, hcloses⟩ := Grouping.closes_of_opens? ho
      have hopen : Spot.read? g { groups } o = some within := by
        simp [Spot.read?, Grouping.opens?_ne_quote ho, hinside, ho, within]
      have hclose : within.read? g close = some { groups } := by
        simp [Spot.read?, hquote, Spot.inside, hopens, hcloses, within]
      rw [walk?_cons, hopen, Option.bind_some, walk?_append, ihinner rfl, Option.bind_some,
        walk?_cons, hclose]
      exact ih hinside

/-! ## What is still to be closed -/

/-- The code closes the groups one after the other, and is grouped between. -/
def Closes (g : Grouping) : List (Char × Grouping) → List Char → Prop
  | [], cs => Grouped g cs
  | (close, h) :: rest, cs =>
      ∃ inner after, cs = inner ++ close :: after ∧ Grouped h inner ∧ Closes g rest after

/-- The same behind the string that the spot may be in. -/
def Completes (g : Grouping) (p : Spot) (cs : List Char) : Prop :=
  match p.string? with
  | none => Closes g p.groups cs
  | some escaping => ∃ inner after,
      cs = inner ++ '"' :: after ∧ Quoted (if escaping then '\\' :: inner else inner) ∧
        Closes g p.groups after

/-- A piece that may come first in grouped code may come first here. -/
theorem Closes.piece {groups : List (Char × Grouping)} (hcs : Closes g groups cs)
    (piece : List Char) (hpiece : ∀ xs, Grouped (Spot.inside g { groups }) xs →
      Grouped (Spot.inside g { groups }) (piece ++ xs)) : Closes g groups (piece ++ cs) := by
  cases groups with
  | nil => exact hpiece cs hcs
  | cons group rest =>
      obtain ⟨inner, after, rfl, hinner, hafter⟩ := hcs
      exact ⟨piece ++ inner, after, by simp, hpiece inner hinner, hafter⟩

/-- **A reading that comes to its end completes what was open.** -/
theorem completes_of_walk? (hcs : walk? g p cs = some {}) : Completes g p cs := by
  induction cs generalizing p with
  | nil =>
      obtain rfl := Option.some.inj hcs
      exact .nil
  | cons c cs ih =>
      rw [walk?_cons] at hcs
      obtain ⟨q, hread, hq⟩ := Option.bind_eq_some_iff.mp hcs
      have hcompletes := ih hq
      cases Spot.reads_of_read? hread with
      | escaped groups =>
          obtain ⟨inner, after, rfl, hinner, hafter⟩ := hcompletes
          exact ⟨c :: inner, after, rfl, .escape c hinner, hafter⟩
      | backslash groups =>
          obtain ⟨inner, after, rfl, hinner, hafter⟩ := hcompletes
          exact ⟨'\\' :: inner, after, rfl, hinner, hafter⟩
      | unquote groups => exact ⟨[], cs, rfl, .nil, hcompletes⟩
      | quoted groups hquote hbackslash =>
          obtain ⟨inner, after, rfl, hinner, hafter⟩ := hcompletes
          exact ⟨c :: inner, after, rfl, .plain hquote hbackslash hinner, hafter⟩
      | quote groups =>
          obtain ⟨inner, after, rfl, hinner, hafter⟩ := hcompletes
          have hstring := hafter.piece ('"' :: (inner ++ ['"'])) fun xs hxs => by
            simpa using Grouped.string hinner hxs
          simpa [Completes] using hstring
      | @opens groups _ group hopens =>
          obtain ⟨inner, after, rfl, hinner, hafter⟩ := hcompletes
          have hgroup := hafter.piece (c :: (inner ++ [group.1])) fun xs hxs => by
            simpa using Grouped.group hopens hinner hxs
          simpa [Completes] using hgroup
      | closes h groups _ => exact ⟨[], cs, rfl, .nil, hcompletes⟩
      | plain groups hquote hopens hcloses =>
          have hafter : Closes g groups cs := hcompletes
          exact hafter.piece [c] fun xs hxs => .plain hquote hopens hcloses hxs

/-- **Code is grouped just when nothing is open behind it.** -/
theorem grouped_iff : Grouped g cs ↔ walk? g {} cs = some {} :=
  ⟨fun hcs => hcs.walk? rfl, completes_of_walk?⟩

instance (g : Grouping) (cs : List Char) : Decidable (Grouped g cs) :=
  decidable_of_iff _ grouped_iff.symm

/-! ## Parts of grouped code -/

/-- What follows grouped code is judged without it. -/
theorem Grouped.append_iff (hxs : Grouped g xs) : Grouped g (xs ++ ys) ↔ Grouped g ys := by
  rw [grouped_iff, grouped_iff, walk?_append, grouped_iff.mp hxs, Option.bind_some]

/-- What is open has been opened. -/
theorem exists_opening (hwalk : walk? g {} cs = some p) :
    ∀ group ∈ p.groups, ∃ o ∈ cs, ∃ h : Grouping, h.opens? o = some group := by
  induction cs using List.reverseRecOn generalizing p with
  | nil =>
      obtain rfl := Option.some.inj hwalk
      exact fun _ hgroup => absurd hgroup List.not_mem_nil
  | append_singleton cs c ih =>
      rw [walk?_snoc] at hwalk
      obtain ⟨p', hp', hread⟩ := Option.bind_eq_some_iff.mp hwalk
      have hold (group : Char × Grouping) (hgroup : group ∈ p'.groups) :
          ∃ o ∈ cs ++ [c], ∃ h : Grouping, h.opens? o = some group := by
        obtain ⟨o, ho, hopens⟩ := ih hp' group hgroup
        exact ⟨o, List.mem_append_left _ ho, hopens⟩
      cases Spot.reads_of_read? hread with
      | opens groups hopens =>
          exact List.forall_mem_cons.mpr ⟨⟨c, by simp, _, hopens⟩, hold⟩
      | closes h groups _ => exact fun group hgroup => hold group (List.mem_cons_of_mem _ hgroup)
      | _ => exact hold

/-- A blank belongs to no group. -/
theorem Grouping.plain_of_isBlank (hc : Text.isBlank c = true) :
    c ≠ '"' ∧ g.opens? c = none ∧ g.closes c = false := by
  refine ⟨?_, ?_, ?_⟩
  · rintro rfl
    cases hc
  · unfold Grouping.opens?
    split <;> first | rfl | cases hc
  · by_contra hcloses
    rw [Bool.not_eq_false] at hcloses
    cases g <;> simp only [Grouping.closes, Bool.or_eq_true, beq_iff_eq] at hcloses
    · subst hcloses
      cases hc
    · subst hcloses
      cases hc
    · rcases hcloses with (rfl | rfl) | rfl <;> cases hc

theorem Grouped.of_blank (hcs : ∀ c ∈ cs, Text.isBlank c = true) : Grouped g cs := by
  induction cs with
  | nil => exact .nil
  | cons c cs ih =>
      obtain ⟨hquote, hopens, hcloses⟩ := Grouping.plain_of_isBlank (hcs c List.mem_cons_self)
      exact .plain hquote hopens hcloses (ih fun d hd => hcs d (List.mem_cons_of_mem _ hd))

/-- Blanks complete nothing. -/
theorem Grouped.of_append_blank {back : List Char} (hback : ∀ c ∈ back, Text.isBlank c = true)
    (h : Grouped g (cs ++ back)) : Grouped g cs := by
  induction back using List.reverseRecOn with
  | nil => rwa [List.append_nil] at h
  | append_singleton back c ih =>
      rw [← List.append_assoc, grouped_iff, walk?_snoc] at h
      obtain ⟨p, hp, hread⟩ := Option.bind_eq_some_iff.mp h
      have hc : Text.isBlank c = true := hback c (by simp)
      obtain ⟨hquote, hopens, hcloses⟩ := @Grouping.plain_of_isBlank (p.inside g) c hc
      have hp' : p = {} := by
        cases Spot.reads_of_read? hread with
        | unquote groups => exact absurd rfl hquote
        | closes _ k _ hclose =>
            rw [show Spot.inside g { groups := [(c, k)] } = k from rfl, hclose] at hcloses
            cases hcloses
        | plain groups _ _ _ => rfl
      exact ih (fun d hd => hback d (by simp [hd])) (grouped_iff.mpr (hp' ▸ hp))

/-- Trimming does not tell on groups. -/
theorem grouped_trim : Grouped g (Text.trim cs) ↔ Grouped g cs := by
  obtain ⟨front, back, hcs, hfront, hback⟩ := Text.exists_trim cs
  conv => rhs; rw [hcs]
  rw [List.append_assoc, (Grouped.of_blank hfront).append_iff]
  constructor
  · intro h
    exact h.append_iff.mpr (.of_blank hback)
  · exact Grouped.of_append_blank hback

/-! ## Brackets that close nothing -/

/-- Each group that is open is closed by the one bracket that must not stand alone in
it. -/
def Spot.Paired (p : Spot) : Prop :=
  ∀ group ∈ p.groups, group.2.closer? = some group.1

theorem Spot.inside_closer? {k : Char} (hg : g.closer? = some k) (hp : p.Paired) :
    ∃ close, (p.inside g).closer? = some close := by
  obtain ⟨groups, string?⟩ := p
  cases groups with
  | nil => exact ⟨k, hg⟩
  | cons group rest => exact ⟨group.1, hp group List.mem_cons_self⟩

theorem Spot.Paired.reads {k : Char} {q : Spot} (hg : g.closer? = some k) (hp : p.Paired)
    (hread : Reads g p c q) : q.Paired := by
  cases hread with
  | opens groups hopens =>
      obtain ⟨close, hclose⟩ := Spot.inside_closer? hg hp
      exact List.forall_mem_cons.mpr ⟨Grouping.closer?_of_opens? hclose hopens, hp⟩
  | closes h groups _ => exact fun group hgroup => hp group (List.mem_cons_of_mem _ hgroup)
  | _ => exact hp

theorem Spot.paired_of_walk? {k : Char} (hg : g.closer? = some k)
    (hwalk : walk? g {} cs = some p) : p.Paired := by
  induction cs using List.reverseRecOn generalizing p with
  | nil =>
      obtain rfl := Option.some.inj hwalk
      exact fun _ hgroup => absurd hgroup List.not_mem_nil
  | append_singleton cs c ih =>
      rw [walk?_snoc] at hwalk
      obtain ⟨q, hq, hread⟩ := Option.bind_eq_some_iff.mp hwalk
      exact (ih hq).reads hg (Spot.reads_of_read? hread)

/-- **Code that goes on**: if no grouped code before it is followed by the closing
bracket, the code is read to its end. -/
theorem exists_walk? {close : Char} (hg : g.closer? = some close)
    (hcs : ∀ inner after, cs = inner ++ close :: after → ¬ Grouped g inner) :
    ∃ q, walk? g {} cs = some q ∧ q.Paired := by
  induction cs using List.reverseRecOn with
  | nil => exact ⟨{}, rfl, fun _ hgroup => absurd hgroup (List.not_mem_nil)⟩
  | append_singleton cs c ih =>
      obtain ⟨q, hq, hpaired⟩ := ih fun inner after hsplit =>
        hcs inner (after ++ [c]) (by rw [hsplit, List.append_assoc, List.cons_append])
      rw [walk?_snoc, hq, Option.bind_some]
      cases hread : q.read? g c with
      | some q' => exact ⟨q', rfl, hpaired.reads hg (Spot.reads_of_read? hread)⟩
      | none =>
          obtain ⟨groups, string?⟩ := q
          obtain ⟨rfl, hcloses, hstray⟩ := Spot.closes_of_read?_eq_none hread
          cases groups with
          | nil =>
              obtain rfl := (Grouping.closes_iff hg c).mp hcloses
              exact absurd (grouped_iff.mpr hq) (hcs cs [] rfl)
          | cons group rest =>
              have hclose := hpaired group List.mem_cons_self
              exact absurd ((Grouping.closes_iff hclose c).mp hcloses).symm (hstray group rfl)

/-- Reading does not come past a bracket that closes nothing. -/
theorem not_grouped_of_walk? {close : Char} (hg : g.closer? = some close)
    (hcs : (walk? g {} cs).isSome = true) {inner after : List Char}
    (hsplit : cs = inner ++ close :: after) : ¬ Grouped g inner := by
  subst hsplit
  intro hinner
  have hread : Spot.read? g {} close = none := by
    cases g <;> cases hg <;> rfl
  rw [walk?_append, grouped_iff.mp hinner, Option.bind_some, walk?_cons, hread] at hcs
  cases hcs

end Walk

end Templating.Template

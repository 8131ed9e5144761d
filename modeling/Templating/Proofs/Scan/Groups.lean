import Templating.Proofs.Scan.Fragments
import Templating.Proofs.Scan.Invariant
import Templating.Proofs.Template.Groups

/-!
# Groups in a scan

While code is read, the constructs on the stack are those of the groups that are open:
a block for each brace, a parenthesis for each parenthesis that counts, and a string.
So the stack can be told from the spot at which the code is read, whatever the code
is, and nothing else changes but the place and the ends of lines.
-/

namespace Templating.Scan

open Template (Grouping Spot walk?)

namespace State

/-! ## Reading on -/

/-- The state behind characters that are read and change nothing. -/
def past (s : State) (cs : List Char) : State :=
  cs.foldl (fun s c => (s.advance c).endLine c) s

/-- The ends of lines in a stretch of source that begins on that line. -/
def newlines (line depth : Nat) : List Char → List Event
  | [] => []
  | c :: cs =>
      if c = '\n' then ⟨line, depth, .lineEnd⟩ :: newlines (line + 1) depth cs
      else newlines line depth cs

section Fields

variable (s : State) (c : Char) (cs : List Char)

@[simp] theorem endLine_pending : (s.endLine c).pending = s.pending := by
  unfold endLine
  split <;> simp

@[simp] theorem endLine_position : (s.endLine c).position = s.position := by
  unfold endLine
  split <;> simp

@[simp] theorem endLine_stack : (s.endLine c).stack = s.stack := by
  unfold endLine
  split <;> simp

@[simp] theorem endLine_depth : (s.endLine c).depth = s.depth := by
  unfold endLine
  split <;> simp

@[simp] theorem endLine_headerOver : (s.endLine c).headerOver = s.headerOver := by
  unfold endLine
  split
  · simp [Event.Body.isHeader]
  · rfl

theorem endLine_of_ne {c : Char} (hc : c ≠ '\n') : s.endLine c = s :=
  if_neg hc

theorem past_cons : s.past (c :: cs) = ((s.advance c).endLine c).past cs := rfl

theorem past_snoc : s.past (cs ++ [c]) = ((s.past cs).advance c).endLine c := by
  simp [past]

@[simp] theorem past_stack : (s.past cs).stack = s.stack := by
  induction cs generalizing s with
  | nil => rfl
  | cons c cs ih => simp [past_cons, ih]

@[simp] theorem past_depth : (s.past cs).depth = s.depth := by
  induction cs generalizing s with
  | nil => rfl
  | cons c cs ih => simp [past_cons, ih]

@[simp] theorem past_headerOver : (s.past cs).headerOver = s.headerOver := by
  induction cs generalizing s with
  | nil => rfl
  | cons c cs ih =>
      rw [past_cons, ih, endLine_headerOver]
      rfl

@[simp] theorem past_pending : (s.past cs).pending = cs.reverse ++ s.pending := by
  induction cs generalizing s with
  | nil => rfl
  | cons c cs ih => simp [past_cons, ih, advance]

@[simp] theorem past_position : (s.past cs).position = s.position + Text.byteSize cs := by
  induction cs generalizing s with
  | nil => rfl
  | cons c cs ih =>
      rw [past_cons, ih, endLine_position]
      exact Nat.add_assoc _ _ _

theorem past_line : (s.past cs).line = s.line + cs.count '\n' := by
  induction cs generalizing s with
  | nil => rfl
  | cons c cs ih =>
      rw [past_cons, ih, endLine, List.count_cons]
      by_cases hc : c = '\n'
      · simp [hc]
        omega
      · simp [hc]

theorem past_signals : (s.past cs).signals =
    s.signals ++ (newlines s.line s.depth cs).map Signal.event := by
  induction cs generalizing s with
  | nil => simp [past, newlines]
  | cons c cs ih =>
      rw [past_cons, ih, newlines, endLine]
      split
      · have hemit : ({ (s.advance c).emit .lineEnd with line := (s.advance c).line + 1 } :
            State).signals = s.signals ++ [.event ⟨s.line, s.depth, .lineEnd⟩] := by
          show (State.emit _ _).signals = _
          rw [emit_signals, announcement, if_pos (by simp [Event.Body.isHeader])]
          rfl
        rw [hemit]
        simp
      · rfl

/-- Content that is said next is preceded by the end of the header, if it is the first. -/
theorem announcement_past {body : Event.Body} (hbody : body.isHeader = false) :
    (s.past cs).announcement body =
      (if s.headerOver then [] else [⟨s.line + cs.count '\n', s.depth, .headerEnd⟩]) ++
        [⟨s.line + cs.count '\n', s.depth, body⟩] := by
  unfold announcement
  rw [past_headerOver, past_depth, past_line, hbody]
  cases s.headerOver <;> rfl

end Fields

/-! ## The stack of the groups -/

/-- The state `t` is `s`, but inside the constructs `ks` on top of `base`. -/
def Inside (base : List Frame) (ks : List Construct) (s t : State) : Prop :=
  ∃ frames : List Frame, frames.map Frame.construct = ks ∧ t = { s with stack := frames ++ base }

namespace Inside

variable {base : List Frame} {k : Construct} {ks : List Construct} {s t : State}

theorem of_stack (frames : List Frame) (h : t.stack = frames ++ base) :
    Inside base (frames.map Frame.construct) t t :=
  ⟨frames, rfl, by rw [← h]⟩

theorem top (h : Inside base (k :: ks) s t) : t.top = k := by
  obtain ⟨frames, hframes, rfl⟩ := h
  cases frames with
  | nil => cases hframes
  | cons frame frames => exact (List.cons.inj hframes).1

theorem advance (h : Inside base ks s t) (c : Char) :
    Inside base ks (s.advance c) (t.advance c) := by
  obtain ⟨frames, hframes, rfl⟩ := h
  exact ⟨frames, hframes, rfl⟩

theorem settle (h : Inside base ks s t) : Inside base ks s.settle t.settle := by
  obtain ⟨frames, hframes, rfl⟩ := h
  exact ⟨frames, hframes, rfl⟩

theorem slice (h : Inside base ks s t) (n : Nat) : t.slice n = s.slice n := by
  obtain ⟨frames, -, rfl⟩ := h
  rfl

theorem endLine (h : Inside base ks s t) (c : Char) :
    Inside base ks (s.endLine c) (t.endLine c) := by
  obtain ⟨frames, hframes, rfl⟩ := h
  refine ⟨frames, hframes, ?_⟩
  unfold State.endLine
  split
  · simp [emit_eq, announcement]
  · rfl

theorem push (h : Inside base ks s t) (hk : k ≠ .text) : Inside base (k :: ks) s (t.push k) := by
  obtain ⟨frames, hframes, rfl⟩ := h
  exact ⟨⟨k, s.line⟩ :: frames, by rw [List.map_cons, hframes], by simp [State.push, hk]⟩

theorem pop (h : Inside base (k :: ks) s t) (hk : k ≠ .text) : Inside base ks s t.pop := by
  obtain ⟨frames, hframes, rfl⟩ := h
  cases frames with
  | nil => cases hframes
  | cons frame frames =>
      obtain ⟨rfl, hks⟩ := List.cons.inj hframes
      exact ⟨frames, hks, by simp [State.pop, hk]⟩

theorem pop_eq (h : Inside base [k] s t) (hk : k ≠ .text) :
    t.pop = { s with stack := base } := by
  obtain ⟨frames, hframes, hpop⟩ := h.pop hk
  obtain rfl := List.map_eq_nil_iff.mp hframes
  exact hpop

theorem become (h : Inside base (k :: ks) s t) (k' : Construct) :
    Inside base (k' :: ks) s (t.become k') := by
  obtain ⟨frames, hframes, rfl⟩ := h
  cases frames with
  | nil => cases hframes
  | cons frame frames =>
      obtain ⟨rfl, rfl⟩ := List.cons.inj hframes
      exact ⟨{ frame with construct := k' } :: frames, rfl, rfl⟩

end Inside

end State

/-! ## Which constructs groups are -/

namespace Construct

/-- In code of the construct the brackets of the grouping are the ones that are
followed. -/
def suits (k : Construct) (g : Grouping) : Bool :=
  k.readsCode && match g with
    | .braces => k.parenthesis?.isNone
    | .parentheses => k.parenthesis?.isSome
    | .all => true

/-- The construct, and on it those of the groups that are open in its code. A
square bracket begins none. -/
def within (k : Construct) : List (Char × Grouping) → List Construct
  | [] => [k]
  | (close, _) :: groups =>
      if close = '\x7d' then block :: k.within groups
      else if close = ')' then
        ((k.within groups).head?.bind parenthesis?).toList ++ k.within groups
      else k.within groups

/-- The constructs that are open at the spot. -/
def upTo (k : Construct) (p : Spot) : List Construct :=
  (p.string?.map string).toList ++ k.within p.groups

/-- Each group could be opened where it was. -/
def Fits (k : Construct) (g : Grouping) : List (Char × Grouping) → Prop
  | [] => k.suits g = true
  | group :: groups =>
      (∃ o, (Spot.inside g { groups }).opens? o = some group) ∧ k.Fits g groups

variable {k k' : Construct} {g h : Grouping} {c close : Char} {groups : List (Char × Grouping)}

theorem suits_readsCode (hk : k.suits g = true) : k.readsCode = true :=
  (Bool.and_eq_true_iff.mp hk).1

theorem suits_iff : k.suits g = true ↔ k.readsCode = true ∧
    (g = .braces → k.parenthesis? = none) ∧ (g = .parentheses → k.parenthesis? ≠ none) := by
  cases g <;> simp [suits, Option.ne_none_iff_isSome]

theorem suits_parenthesis (hk : k.parenthesis? = some k') (hg : g ≠ .braces) :
    k'.suits g = true := by
  cases k <;> cases hk <;> cases g <;> first | rfl | exact absurd rfl hg

/-- Inside the groups code is read in which the innermost one counts. -/
theorem Fits.within (h : k.Fits g groups) :
    ∃ top below, k.within groups = top :: below ∧
      top.suits (Spot.inside g { groups }) = true := by
  induction groups with
  | nil => exact ⟨k, [], rfl, h⟩
  | cons group groups ih =>
      obtain ⟨⟨o, ho⟩, hgroups⟩ := h
      obtain ⟨top, below, hwithin, hsuits⟩ := ih hgroups
      obtain ⟨-, hbraces, hparentheses⟩ := suits_iff.mp hsuits
      generalize Spot.inside g { groups } = i at ho hsuits hbraces hparentheses
      unfold Grouping.opens? at ho
      split at ho <;> cases ho
      · exact ⟨block, _, rfl, rfl⟩
      · exact ⟨block, _, rfl, rfl⟩
      · obtain ⟨k', hk'⟩ := Option.ne_none_iff_exists'.mp (hparentheses rfl)
        have hk'suits : k'.suits .parentheses = true := suits_parenthesis hk' (by decide)
        refine ⟨k', top :: below, ?_, hk'suits⟩
        simp [Construct.within, hwithin, hk']
      · exact ⟨block, _, rfl, rfl⟩
      · cases hk' : top.parenthesis? with
        | none => exact ⟨top, below, by simp [Construct.within, hwithin, hk'], hsuits⟩
        | some k' =>
            have hk'suits : k'.suits .all = true := suits_parenthesis hk' (by decide)
            refine ⟨k', top :: below, ?_, hk'suits⟩
            simp [Construct.within, hwithin, hk']
      · exact ⟨top, below, by simp [Construct.within, hwithin], hsuits⟩

theorem within_ne_nil (k : Construct) (groups : List (Char × Grouping)) :
    k.within groups ≠ [] := by
  induction groups with
  | nil => simp [Construct.within]
  | cons group groups ih =>
      rw [Construct.within]
      split
      · simp
      · split
        · simp [ih]
        · exact ih

/-- A list of arguments is innermost only where no construct stands in it. -/
theorem within_arguments {top : Construct} {below : List Construct}
    (h : k.within groups = top :: below) (htop : top.isArguments = true) :
    top = k ∧ below = [] := by
  induction groups generalizing top below with
  | nil => exact ⟨(List.cons.inj h).1.symm, (List.cons.inj h).2.symm⟩
  | cons group groups ih =>
      rw [Construct.within] at h
      split at h
      · rw [← (List.cons.inj h).1] at htop
        cases htop
      · split at h
        · cases hk' : (k.within groups).head?.bind parenthesis? with
          | none =>
              rw [hk'] at h
              exact ih h htop
          | some k' =>
              rw [hk'] at h
              obtain ⟨lower, -, hlower⟩ := Option.bind_eq_some_iff.mp hk'
              rw [← (List.cons.inj h).1, (isArguments_of_parenthesis hlower).2.1] at htop
              cases htop
        · exact ih h htop

/-- Reading on, only groups are opened that may be. -/
theorem Fits.reads {p q : Spot} (h : k.Fits g p.groups) (hread : Spot.Reads g p c q) :
    k.Fits g q.groups := by
  cases hread with
  | opens groups hopens => exact ⟨⟨c, hopens⟩, h⟩
  | closes h groups _ => exact h.2
  | _ => exact h

theorem Fits.walk {p q : Spot} {cs : List Char} (h : k.Fits g p.groups)
    (hwalk : walk? g p cs = some q) : k.Fits g q.groups := by
  induction cs generalizing p with
  | nil =>
      obtain rfl := Option.some.inj hwalk
      exact h
  | cons c cs ih =>
      rw [Template.walk?_cons] at hwalk
      obtain ⟨p', hread, hwalk⟩ := Option.bind_eq_some_iff.mp hwalk
      exact ih (h.reads (Spot.reads_of_read? hread)) hwalk

end Construct

/-! ## Reading code -/

namespace State

variable {setting : Setting} {after : List Char} {base : List Frame} {s t : State}
  {k : Construct} {g g' : Grouping} {p q : Spot} {c : Char}

/-- A character that belongs to no group. -/
theorem readCode_suits (hsuits : t.top.suits g = true) (hquote : c ≠ '"')
    (hopens : g.opens? c = none) (hcloses : g.closes c = false)
    (hlisted : t.top.isArguments = true → c ∉ [',', '<', '>']) : t.readCode c after = t := by
  obtain ⟨hcode, hbraces, hparentheses⟩ := Construct.suits_iff.mp hsuits
  by_cases hc : c ∈ ['(', ')', '\x7b', '\x7d', '"']
  · simp only [List.mem_cons, List.not_mem_nil, or_false] at hc
    rcases hc with rfl | rfl | rfl | rfl | rfl
    · cases g with
      | braces =>
          show t.openParenthesis = t
          rw [openParenthesis_eq, hbraces rfl]
          rfl
      | parentheses => cases hopens
      | all => cases hopens
    · cases g with
      | braces => exact closeParenthesis_idle hcode (hbraces rfl)
      | parentheses => cases hcloses
      | all => cases hcloses
    · cases g <;> cases hopens
    · cases g with
      | parentheses =>
          have hparenthesis := hparentheses rfl
          show t.closeBrace = t
          unfold closeBrace
          cases htop : t.top <;> simp_all [Construct.parenthesis?]
      | braces => cases hcloses
      | all => cases hcloses
    · exact absurd rfl hquote
  · exact readCode_plain hc hlisted

/-- Where a group begins, its construct does. -/
theorem readCode_opens {o close : Char} {h : Grouping} {groups : List (Char × Grouping)}
    (ho : g.opens? o = some (close, h)) (hfits : k.Fits g' groups)
    (ht : Inside base (k.within groups) s t) :
    Inside base (k.within ((close, h) :: groups)) s (t.readCode o after) := by
  obtain ⟨top, below, hwithin, hsuits⟩ := hfits.within
  rw [hwithin] at ht
  rcases Grouping.bracket_of_opens? ho with ⟨rfl, rfl⟩ | ⟨rfl, rfl⟩ | ⟨rfl, rfl⟩
  · rw [Construct.within, if_pos rfl, hwithin]
    exact ht.push (by simp)
  · show Inside _ _ _ t.openParenthesis
    rw [openParenthesis_eq, ht.top, Construct.within, if_neg (by decide), if_pos rfl, hwithin]
    cases hk' : top.parenthesis? with
    | none => simpa [hk'] using ht
    | some k' => simpa [hk'] using ht.push (isArguments_of_parenthesis hk').2.2
  · rw [readCode_plain (by decide) fun _ => by decide, Construct.within, if_neg (by decide),
      if_neg (by decide), hwithin]
    exact ht

/-- Where a group ends, its construct does. -/
theorem readCode_closes {o close : Char} {h : Grouping} {groups : List (Char × Grouping)}
    (ho : g.opens? o = some (close, h)) (hfits : k.Fits g' groups)
    (ht : Inside base (k.within ((close, h) :: groups)) s t) :
    Inside base (k.within groups) s (t.readCode close after) := by
  obtain ⟨top, below, hwithin, hsuits⟩ := hfits.within
  have hcode := Construct.suits_readsCode hsuits
  rcases Grouping.bracket_of_opens? ho with ⟨-, rfl⟩ | ⟨-, rfl⟩ | ⟨-, rfl⟩
  · rw [Construct.within, if_pos rfl] at ht
    show Inside _ _ _ t.closeBrace
    rw [closeBrace, ht.top]
    exact ht.pop (by simp)
  · rw [Construct.within, if_neg (by decide), if_pos rfl, hwithin, List.head?_cons,
      Option.bind_some] at ht
    show Inside _ _ _ t.closeParenthesis
    cases hk' : top.parenthesis? with
    | none =>
        rw [hk'] at ht
        have htop : t.top = top := ht.top
        rw [closeParenthesis_idle (htop ▸ hcode) (htop ▸ hk'), hwithin]
        exact ht
    | some k' =>
        rw [hk'] at ht
        have hpop := ht.pop (isArguments_of_parenthesis hk').2.2
        have hbelow : t.pop.top = top := hpop.top
        rw [closeParenthesis_inner (hbelow ▸ hcode) (hbelow ▸ hk') ht.top, hwithin]
        exact hpop
  · rw [Construct.within, if_neg (by decide), if_neg (by decide)] at ht
    rw [readCode_plain (by decide) fun _ => by decide]
    exact ht

/-- **Reading a character of code moves the stack from spot to spot.** Only a comma or
an angle bracket directly in a list of arguments does more. -/
theorem readChar_reads (setting : Setting) (after : List Char) (hread : Spot.Reads g p c q)
    (hfits : k.Fits g p.groups) (ht : Inside base (k.upTo p) s t)
    (hlisted : t.top.isArguments = true → c ∉ [',', '<', '>']) :
    Inside base (k.upTo q) s (t.readChar setting c after) := by
  obtain ⟨top, below, hwithin, hsuits⟩ := hfits.within
  have hcode (h : p.string? = none) : t.top = top ∧
      t.readChar setting c after = t.readCode c after := by
    have htop : t.top = top := by
      rw [Construct.upTo, h, hwithin] at ht
      exact ht.top
    exact ⟨htop, readChar_readsCode (htop ▸ Construct.suits_readsCode hsuits)⟩
  cases hread with
  | escaped groups =>
      rw [readChar_string ht.top]
      exact ht.become _
  | backslash groups =>
      rw [readChar_string ht.top]
      exact ht.become _
  | unquote groups =>
      rw [readChar_string ht.top]
      exact ht.pop (by simp)
  | quoted groups hquote hbackslash =>
      rw [readChar_string ht.top]
      simpa [readString, hquote, hbackslash] using ht
  | quote groups =>
      rw [(hcode rfl).2]
      exact ht.push (by simp)
  | opens groups hopens =>
      rw [(hcode rfl).2]
      exact readCode_opens hopens hfits ht
  | closes close h groups hcloses =>
      obtain ⟨⟨o, ho⟩, hgroups⟩ := hfits
      rw [(hcode rfl).2]
      exact readCode_closes ho hgroups ht
  | plain groups hquote hopens hcloses =>
      obtain ⟨htop, hread⟩ := hcode rfl
      rw [hread, readCode_suits (htop ▸ hsuits) hquote hopens hcloses hlisted]
      exact ht

theorem not_isArguments (hk : k.isArguments = false) (hfits : k.Fits g p.groups)
    (ht : Inside base (k.upTo p) s t) : t.top.isArguments = false := by
  obtain ⟨groups, string?⟩ := p
  cases string? with
  | some escaping => rw [show t.top = .string escaping from ht.top]; rfl
  | none =>
      obtain ⟨top, below, hwithin, -⟩ := hfits.within
      have htop : Inside base (k.within groups) s t := ht
      rw [hwithin] at htop
      rw [htop.top]
      by_contra harguments
      rw [← (Construct.within_arguments hwithin (by simpa using harguments)).1] at hk
      exact harguments hk

/-- **Code is read from spot to spot**, while nothing changes but the place, the ends
of lines and the constructs of the groups that are open. -/
theorem through_walk (setting : Setting) (after : List Char) (hk : k.isArguments = false)
    {cs : List Char}
    (hwalk : walk? g p cs = some q) (hfits : k.Fits g p.groups)
    (ht : Inside base (k.upTo p) s t) :
    Inside base (k.upTo q) (s.past cs) (t.through setting cs after) := by
  induction cs generalizing p s t with
  | nil =>
      obtain rfl := Option.some.inj hwalk
      exact ht
  | cons c cs ih =>
      rw [Template.walk?_cons] at hwalk
      obtain ⟨p', hread, hwalk⟩ := Option.bind_eq_some_iff.mp hwalk
      have hreads := Spot.reads_of_read? hread
      have hother : (t.advance c).top.isArguments = false :=
        not_isArguments hk hfits (ht.advance c)
      have hstep := (readChar_reads setting (cs ++ after) hreads hfits
        (ht.advance c) fun h => absurd (hother.symm.trans h) (by decide)).endLine c
      exact ih hwalk (hfits.reads hreads) hstep

end State

end Templating.Scan

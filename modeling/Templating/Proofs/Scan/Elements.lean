import Templating.Proofs.Scan.Marks
import Templating.Proofs.Text.Everywhere

/-!
# Where elements are closed

The scanner closes the innermost element that it follows where `</` and the name of the
element stand. It looks neither for the end of the name nor at what else it knows: the
opening tag may not be complete yet, or the place may be in a quoted value. Whether the
tags that are said match depends on just this, since the elements whose opening tags are
complete are those that have been said and not closed.
-/

namespace Templating.Scan

open Templating.Markup

/-- A tag as it was said. An opening tag `lasts` unless it closes itself or its element
is void. -/
inductive Tag where
  | opened (e : Element) (lasts : Bool)
  | closed (e : Element)
deriving DecidableEq

/-- The elements that are open behind one more tag. Only the innermost one can be
closed. -/
def Tag.follow : List Element → Tag → Option (List Element)
  | open', .opened e lasts => some (if lasts then e :: open' else open')
  | e' :: open', .closed e => if e = e' then some open' else none
  | [], .closed _ => none

/-- The event that says the tag. -/
def Tag.body : Tag → Event.Body
  | .opened e _ => .elementOpened e
  | .closed e => .elementClosed e

/-- The event says a tag. -/
def saysTag : Event.Body → Bool
  | .elementOpened _ | .elementClosed _ => true
  | _ => false

/-- The name of a tag is over. -/
def NameEnds (rest : List Char) : Prop :=
  ∀ x ∈ rest.head?, x = '>' ∨ x = '/' ∨ Text.isAsciiBlank x = true

instance : (rest : List Char) → Decidable (NameEnds rest)
  | [] => .isTrue nofun
  | x :: _ => decidable_of_iff (x = '>' ∨ x = '/' ∨ Text.isAsciiBlank x = true) (by simp [NameEnds])

namespace State

variable {setting : Setting} {s : State} {c : Char} {read after : List Char} {e : Element}

/-- The tags that are said in the step over `c`. -/
def tags (s : State) (setting : Setting) (c : Char) (after : List Char) : List Tag :=
  ((s.step setting c after).marks.drop s.marks.length).filterMap fun
    | .elementOpened e => some (.opened e (s.before.head? != some '/' && !e.isVoid))
    | .elementClosed e => some (.closed e)
    | _ => none

/-- The tags that are said while `read` is taken. -/
def tagsSaid (setting : Setting) : State → List Char → List Char → List Tag
  | _, [], _ => []
  | s, c :: cs, after =>
      s.tags setting c (cs ++ after) ++ tagsSaid setting (s.step setting c (cs ++ after)) cs after

theorem tagsSaid_snoc : tagsSaid setting s (read ++ [c]) after =
    tagsSaid setting s read (c :: after) ++
      (s.through setting read (c :: after)).tags setting c after := by
  induction read generalizing s with
  | nil => simp [tagsSaid, through]
  | cons d read ih =>
      rw [List.cons_append, tagsSaid, ih, tagsSaid, List.append_assoc]
      simp [through]

/-! ## One step -/

/-- What the tags of a step have to do with the elements whose opening tags are
complete. -/
inductive Tagged (s : State) (setting : Setting) (c : Char) (after : List Char) : Prop where
  | silent : s.tags setting c after = [] →
      (s.step setting c after).elements.filter Element.opened = s.elements.filter Element.opened →
      Tagged s setting c after
  | opened (e : Element) (lasts : Bool) : s.tags setting c after = [.opened e lasts] →
      (s.step setting c after).elements.filter Element.opened =
        (if lasts then e :: s.elements.filter Element.opened
          else s.elements.filter Element.opened) → Tagged s setting c after
  | closed (e : Element) (rest : List Element) : s.tags setting c after = [.closed e] →
      s.elements = e :: rest → (s.step setting c after).elements = rest → c = '/' →
      s.before.head? = some '<' → e.name.toList <+: after → e.isVoid = false →
      Tagged s setting c after

theorem tags_of_marks {new : List Event.Body}
    (h : (s.step setting c after).marks = s.marks ++ new) :
    s.tags setting c after = new.filterMap fun
      | .elementOpened e => some (.opened e (s.before.head? != some '/' && !e.isVoid))
      | .elementClosed e => some (.closed e)
      | _ => none := by
  rw [tags, h, List.drop_left]

/-- **A step says at most one tag.** -/
theorem tagged (s : State) (setting : Setting) (c : Char) (after : List Char) :
    Tagged s setting c after := by
  obtain ⟨new, hmarks, hfollows⟩ := s.step_follows setting c after
  have htags := tags_of_marks hmarks
  rcases hfollows with ⟨helements, rfl⟩ | ⟨interest, -, -, -, hfollowed⟩
  · exact .silent htags (by rw [helements])
  · generalize helements : (s.step setting c after).elements = elements at hfollowed
    cases hfollowed with
    | begun name after _ _ =>
        exact .silent htags (by simp [helements])
    | closed e rest after he hbefore hname hvoid =>
        exact .closed e elements htags he helements rfl hbefore hname hvoid
    | named e rest after he hopened _ _ =>
        exact .silent htags (by simp [helements, he, hopened])
    | valueBegun e rest a begun after he hopened _ _ _ =>
        refine .silent ?_ (by simp [helements, he, hopened, Element.setCurrent])
        rw [htags]
        split <;> rfl
    | valueEnded e rest a text after he hopened _ _ =>
        exact .silent htags (by simp [helements, he, hopened, Element.setCurrent])
    | opened e opened rest after he hopened _ heq =>
        have hbelow : s.elements.filter Element.opened = rest.filter Element.opened := by
          simp [he, hopened]
        have hvoid : opened.isVoid = e.isVoid := by
          rw [heq]
          rfl
        refine .opened opened _ htags ?_
        rw [helements, hbelow, hvoid]
        by_cases hends : s.before.head? = some '/' ∨ e.isVoid = true
        · rw [if_pos hends, if_neg (by rcases hends with h | h <;> simp [h])]
        · rw [if_neg hends, if_pos (by simpa [not_or] using hends)]
          simp [heq]

/-- Behind its opening tag an element is in no value. -/
theorem quiet_step (h : ∀ x ∈ s.elements, x.opened = true → x.inValue = false) :
    ∀ x ∈ (s.step setting c after).elements, x.opened = true → x.inValue = false := by
  obtain ⟨new, -, hfollows⟩ := s.step_follows setting c after
  have cons {e : Element} {rest : List Element} (hrest : ∀ x ∈ rest, x ∈ s.elements)
      (he : e.opened = true → e.inValue = false) :
      ∀ x ∈ e :: rest, x.opened = true → x.inValue = false :=
    List.forall_mem_cons.mpr ⟨he, fun x hx => h x (hrest x hx)⟩
  rcases hfollows with ⟨helements, -⟩ | ⟨interest, -, -, -, hfollowed⟩
  · rwa [helements]
  · generalize (s.step setting c after).elements = elements at hfollowed
    cases hfollowed with
    | begun name after _ _ => exact cons (fun _ hx => hx) nofun
    | closed e rest after he _ _ _ => exact fun x hx => h x (by simp [he, hx])
    | named e rest after he hopened _ _ =>
        exact cons (by simp_all) fun ho => absurd (hopened.symm.trans ho) (by decide)
    | valueBegun e rest a begun after he hopened _ _ _ =>
        exact cons (by simp_all) fun ho => absurd (hopened.symm.trans ho) (by decide)
    | valueEnded e rest a text after he hopened _ _ =>
        exact cons (by simp_all) fun ho => absurd (hopened.symm.trans ho) (by decide)
    | opened e opened rest after he _ hvalue heq =>
        split
        · exact fun x hx => h x (by simp [he, hx])
        · exact cons (by simp_all) fun _ => by rw [heq]; exact hvalue

theorem through_quiet (setting : Setting) (read after : List Char) :
    ∀ x ∈ (State.through setting {} read after).elements, x.opened = true → x.inValue = false :=
  through_preserves (P := fun s => ∀ x ∈ s.elements, x.opened = true → x.inValue = false)
    (fun _ _ _ h => quiet_step h) (by simp) read after

/-! ## All steps -/

theorem map_tags (s : State) (setting : Setting) (c : Char) (after : List Char) :
    s.marks.filter saysTag ++ (s.tags setting c after).map Tag.body =
      (s.step setting c after).marks.filter saysTag := by
  obtain ⟨new, hmarks, -⟩ := s.step_follows setting c after
  rw [tags_of_marks hmarks, hmarks, List.filter_append, List.append_cancel_left_eq,
    List.map_filterMap, ← List.filterMap_eq_filter]
  congr 1
  funext body
  cases body <;> rfl

/-- The tags are what is said of them. -/
theorem map_tagsSaid (setting : Setting) (read after : List Char) :
    (tagsSaid setting {} read after).map Tag.body =
      (State.through setting {} read after).marks.filter saysTag := by
  induction read using List.reverseRecOn generalizing after with
  | nil => rfl
  | append_singleton read c ih =>
      rw [tagsSaid_snoc, List.map_append, ih, map_tags, through_snoc]

/-- Every element that is closed in `read` has a complete opening tag. -/
def ClosedComplete (setting : Setting) (read after : List Char) : Prop :=
  Everywhere (fun before c more => ∀ e,
    .closed e ∈ (State.through setting {} before (c :: (more ++ after))).tags setting c
      (more ++ after) → e.opened = true) read

theorem closedComplete_snoc : ClosedComplete setting (read ++ [c]) after ↔
    ClosedComplete setting read (c :: after) ∧
      ∀ e, .closed e ∈ (State.through setting {} read (c :: after)).tags setting c after →
        e.opened = true := by
  unfold ClosedComplete
  rw [everywhere_snoc]
  simp

/-- One step of that: an element can be closed in its turn just when its opening tag has
been said. -/
theorem tags_follow (s : State) (setting : Setting) (c : Char) (after : List Char) :
    ((∀ e, .closed e ∈ s.tags setting c after → e.opened = true) →
      (s.tags setting c after).foldlM Tag.follow (s.elements.filter Element.opened) =
        some ((s.step setting c after).elements.filter Element.opened)) ∧
    ∀ es, (s.tags setting c after).foldlM Tag.follow (s.elements.filter Element.opened) = some es →
      ∀ e, .closed e ∈ s.tags setting c after → e.opened = true := by
  cases s.tagged setting c after with
  | silent htags helements => simp [htags, helements]
  | opened e lasts htags helements => simp [htags, helements, Tag.follow]
  | closed e rest htags he helements _ _ _ _ =>
      rw [htags, he, helements]
      simp only [List.mem_singleton, Tag.closed.injEq, forall_eq]
      cases hopened : e.opened with
      | true => simp [hopened, Tag.follow]
      | false =>
          refine ⟨fun h => absurd h (by decide), fun es hes => ?_⟩
          -- What is open has a complete opening tag, so it is not this element.
          rw [List.filter_cons_of_neg (by simp [hopened]), List.foldlM_cons] at hes
          obtain ⟨es', hfollow, -⟩ := Option.bind_eq_some_iff.mp hes
          cases hfilter : rest.filter Element.opened with
          | nil =>
              rw [hfilter] at hfollow
              cases hfollow
          | cons x xs =>
              have hx : x ∈ rest.filter Element.opened := by simp [hfilter]
              rw [hfilter, Tag.follow] at hfollow
              split at hfollow
              · rename_i heq
                rw [← hopened, heq]
                exact (List.mem_filter.mp hx).2
              · cases hfollow

/-- **The tags are nested just when every element that is closed has a complete opening
tag**, and then those that stay open are the ones that the scanner holds. -/
theorem nested_iff (setting : Setting) (read after : List Char) :
    (ClosedComplete setting read after → (tagsSaid setting {} read after).foldlM Tag.follow [] =
      some ((State.through setting {} read after).elements.filter Element.opened)) ∧
    (∀ es, (tagsSaid setting {} read after).foldlM Tag.follow [] = some es →
      ClosedComplete setting read after) := by
  induction read using List.reverseRecOn generalizing after with
  | nil => exact ⟨fun _ => rfl, fun _ _ => everywhere_nil _⟩
  | append_singleton read c ih =>
      obtain ⟨ihmp, ihmpr⟩ := ih (c :: after)
      obtain ⟨hmp, hmpr⟩ := (State.through setting {} read (c :: after)).tags_follow setting c after
      rw [closedComplete_snoc, tagsSaid_snoc, List.foldlM_append, through_snoc]
      constructor
      · rintro ⟨hread, hc⟩
        rw [ihmp hread]
        exact hmp hc
      · intro es hes
        obtain ⟨es', hread, hc⟩ := Option.bind_eq_some_iff.mp hes
        have hcomplete := ihmpr es' hread
        obtain rfl := Option.some.inj ((ihmp hcomplete).symm.trans hread)
        exact ⟨hcomplete, hmpr es hc⟩

end State

open State

/-! ## The whole template -/

/-- The tags of a template match: an element is closed at `</` and its whole name, in no
value of an attribute, and never if it is void; and the tags are nested. -/
structure TagsMatch (setting : Setting) (source : List Char) : Prop where
  closed : Everywhere (fun read c after =>
    let s := State.through setting {} read (c :: after)
    ∀ e, .closed e ∈ s.tags setting c after →
      c = '/' ∧ ['<'] <:+ read ∧ (∃ rest, after = e.name.toList ++ rest ∧ NameEnds rest) ∧
        (∀ x ∈ s.elements, x.inValue = false) ∧ e.isVoid = false) source
  nested : ∃ es, (tagsSaid setting {} source []).foldlM Tag.follow [] = some es

/-- **The tags are those of the events**, in their order. -/
theorem tagsSaid_of_events (setting : Setting) (source : List Char) :
    (tagsSaid setting {} source []).map Tag.body =
      ((events setting source).map Event.body).filter saysTag := by
  rw [map_tagsSaid, ← marks_of_events, List.filter_filter]
  congr 1
  funext body
  cases body <;> rfl

/-- What is closed, is closed at `</` and its name. -/
theorem closed_here {setting : Setting} {read after : List Char} {c : Char} {e : Element}
    (h : .closed e ∈ (State.through setting {} read (c :: after)).tags setting c after) :
    c = '/' ∧ ['<'] <:+ read ∧ e.name.toList <+: after ∧ e.isVoid = false ∧
      ∃ rest, (State.through setting {} read (c :: after)).elements = e :: rest := by
  cases (State.through setting {} read (c :: after)).tagged setting c after with
  | silent htags _ => simp [htags] at h
  | opened e' lasts htags _ => simp [htags] at h
  | closed e' rest htags he _ hc hbefore hname hvoid =>
      obtain rfl : e = e' := by simpa [htags] using h
      refine ⟨hc, ?_, hname, hvoid, rest, he⟩
      rw [through_before layered_start, List.append_nil, List.head?_reverse] at hbefore
      obtain ⟨front, rfl⟩ := List.getLast?_eq_some_iff.mp hbefore
      exact List.suffix_append _ _

/-- **Tags match just when elements are closed behind complete names, in no value, and
only once their opening tags are complete.** The rest holds of every template: the tags
are those that its events say, what is closed is the innermost element, at `</` and its
name, and it is not void. -/
theorem tagsMatch_iff (setting : Setting) (source : List Char) :
    (tagsSaid setting {} source []).map Tag.body =
      ((events setting source).map Event.body).filter saysTag ∧
    Everywhere (fun read c after =>
      let s := State.through setting {} read (c :: after)
      ∀ e, .closed e ∈ s.tags setting c after →
        c = '/' ∧ ['<'] <:+ read ∧ e.name.toList <+: after ∧ e.isVoid = false ∧
          s.elements.head? = some e) source ∧
    (TagsMatch setting source ↔ Everywhere (fun read c after =>
      let s := State.through setting {} read (c :: after)
      ∀ e, .closed e ∈ s.tags setting c after →
        NameEnds (after.drop e.name.toList.length) ∧ e.opened = true ∧
          ∀ x ∈ s.elements.tail, x.inValue = false) source) := by
  have hcomplete : ClosedComplete setting source [] ↔ Everywhere (fun read c after => ∀ e,
      .closed e ∈ (State.through setting {} read (c :: after)).tags setting c after →
        e.opened = true) source := by
    unfold ClosedComplete
    simp only [List.append_nil]
  obtain ⟨hmp, hmpr⟩ := nested_iff setting source []
  refine ⟨tagsSaid_of_events setting source, ?_, ?_, ?_⟩
  · intro read c after _ s e he
    obtain ⟨hc, hread, hname, hvoid, rest, hrest⟩ := closed_here he
    exact ⟨hc, hread, hname, hvoid, by rw [hrest]; rfl⟩
  · rintro ⟨hclosed, es, hnested⟩ read c after hsplit s e he
    obtain ⟨-, -, ⟨rest, hafter, hends⟩, hvalues, -⟩ := hclosed read c after hsplit e he
    refine ⟨?_, hcomplete.mp (hmpr es hnested) read c after hsplit e he,
      fun x hx => hvalues x (List.mem_of_mem_tail hx)⟩
    rw [hafter, List.drop_left]
    exact hends
  · intro h
    refine ⟨?_, _, hmp (hcomplete.mpr fun read c after hsplit e he =>
      (h read c after hsplit e he).2.1)⟩
    intro read c after hsplit s e he
    obtain ⟨hends, hopened, hvalues⟩ := h read c after hsplit e he
    obtain ⟨hc, hread, ⟨rest, hname⟩, hvoid, outer, houter⟩ := closed_here he
    have hquiet := through_quiet setting read (c :: after)
    rw [houter] at hquiet hvalues
    refine ⟨hc, hread, ⟨rest, hname.symm, ?_⟩, ?_, hvoid⟩
    · rwa [← hname, List.drop_left] at hends
    · rw [houter]
      exact List.forall_mem_cons.mpr ⟨hquiet e List.mem_cons_self hopened, hvalues⟩

/-- An element is closed by the tag of another one whose name goes on. -/
theorem closed_by_longer_name : ¬ ∀ setting source, TagsMatch setting source := by
  intro h
  have hclosed := (h { interest? := some { tags := ["a"] } } "<a >x</abbr>".toList).closed
    "<a >x<".toList '/' ['a', 'b', 'b', 'r', '>'] rfl { name := "a", opened := true }
    (by decide +kernel)
  obtain ⟨rest, hname, hends⟩ := hclosed.2.2.1
  obtain rfl := (List.cons.inj (hname.trans (show _ = 'a' :: rest from rfl))).2
  exact absurd hends (by decide)

end Templating.Scan

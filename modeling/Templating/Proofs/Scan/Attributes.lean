import Templating.Proofs.Scan.Interception
import Templating.Proofs.Scan.Marks
import Templating.Proofs.Scan.Reading
import Templating.Proofs.Text.Everywhere

/-!
# Names of attributes

The name of an attribute is looked for backwards from its `=`, in everything that has
been read. So it is found in the text of the tag unless the name directly follows a
directive or code: then what is found includes the end of that. Every attribute that is
known of an element got its name this way, and whether a hook hears of the attribute
depends on the name that was found.
-/

namespace Templating

/-- The element that the event is about, as it was known then. -/
def Event.Body.element? : Event.Body → Option Markup.Element
  | .elementOpened e | .elementClosed e | .attributeBegun e _ => some e
  | _ => none

namespace Scan

open Templating.Markup
open State (nameBackwards)

/-! ## Looking backwards -/

/-- A name does not go on over the character. -/
def endsName (c : Char) : Bool :=
  Text.isAsciiBlank c || c == '<'

/-- Between the text `w` and what stands before it, both last character first, a name
at the end of the text does not go on: it begins in the text, or what stands before
ends names. -/
def Seam (w before : List Char) : Prop :=
  (∃ c ∈ w.dropWhile Text.isAsciiBlank, endsName c = true) ∨
    w.dropWhile Text.isAsciiBlank ≠ [] ∧ ∀ c ∈ before.head?, endsName c = true

theorem nameBackwards_eq (before : List Char) : nameBackwards before =
    ((before.dropWhile Text.isAsciiBlank).takeWhile fun c => !endsName c).reverse := by
  simp [nameBackwards, endsName, bne]

theorem takeWhile_append_iff {t before : List Char} :
    ((t ++ before).takeWhile fun c => !endsName c) = (t.takeWhile fun c => !endsName c) ↔
      (∃ c ∈ t, endsName c = true) ∨ ∀ c ∈ before.head?, endsName c = true := by
  induction t with
  | nil =>
      cases before with
      | nil => simp
      | cons c before => cases h : endsName c <;> simp [h]
  | cons c t ih =>
      cases h : endsName c with
      | true => simp [h]
      | false => simp [h, ih]

/-- **A name is found in the text just when it does not go on before it.** -/
theorem nameBackwards_append_iff {w before : List Char} (h : nameBackwards (w ++ before) ≠ []) :
    nameBackwards (w ++ before) = nameBackwards w ↔ Seam w before := by
  unfold Seam
  rw [nameBackwards_eq, List.dropWhile_append] at h
  rw [nameBackwards_eq, nameBackwards_eq, List.dropWhile_append]
  cases ht : w.dropWhile Text.isAsciiBlank with
  | nil =>
      rw [ht, List.isEmpty_nil, if_pos rfl] at h
      simp only [List.isEmpty_nil, if_true, List.takeWhile_nil, List.reverse_nil]
      refine iff_of_false h ?_
      rintro (⟨c, hc, -⟩ | ⟨hne, -⟩)
      · cases hc
      · exact hne rfl
  | cons c t =>
      rw [List.isEmpty_cons, if_neg (by decide), List.reverse_inj, takeWhile_append_iff,
        and_iff_right (List.cons_ne_nil c t)]

/-! ## Where attributes begin -/

/-- The text directly before a place, last character first: what a scan that does not
follow the markup has pending there. -/
def textBehind (setting : Setting) (read after : List Char) : List Char :=
  (State.through { setting with interest? := none } {} read after).pending

/-- At the `=` behind `read` an attribute of that name begins. -/
def Names (setting : Setting) (read after name : List Char) : Prop :=
  ∃ e rest, (State.through setting {} read ('=' :: after)).elements = e :: rest ∧
    (State.through setting {} (read ++ ['=']) after).elements =
      { e with attributes := e.attributes ++ [{ name := String.ofList name }] } :: rest

/-- The attribute of that name was begun in what has been read. -/
def Known (setting : Setting) (read after : List Char) (name : String) : Prop :=
  ∃ front behind cs, read = front ++ '=' :: behind ∧ Names setting front (behind ++ after) cs ∧
    name = String.ofList cs

theorem Known.snoc {setting : Setting} {read after : List Char} {c : Char} {n : String}
    (h : Known setting read (c :: after) n) : Known setting (read ++ [c]) after n := by
  obtain ⟨front, behind, cs, rfl, hnames, hn⟩ := h
  exact ⟨front, behind ++ [c], cs, by simp, by simpa using hnames, hn⟩

namespace State

variable {setting : Setting} {s : State} {c : Char} {read after name : List Char} {e : Element}

/-- **The name of an attribute is what stands before its `=`.** Behind it the value is
awaited. -/
theorem named_of_names (h : Names setting read after name) :
    name = nameBackwards read.reverse ∧ name ≠ [] ∧
      (State.through setting {} (read ++ ['=']) after).top = .text ∧ ∃ interest e rest,
        Interest.active? setting.interest? = some interest ∧
        (State.through setting {} (read ++ ['=']) after).elements = e :: rest ∧
        e.opened = false ∧ e.current? = some { name := String.ofList name } := by
  obtain ⟨e, rest, he, hstep⟩ := h
  rw [through_snoc] at hstep ⊢
  have hbefore : (State.through setting {} read ('=' :: after)).before = read.reverse := by
    rw [through_before layered_start, List.append_nil]
  generalize State.through setting {} read ('=' :: after) = s at he hstep hbefore ⊢
  obtain ⟨new, -, hfollows⟩ := s.step_follows setting '=' after
  rcases hfollows with ⟨helements, -⟩ | ⟨interest, -, htop, hactive, hfollowed⟩
  · -- An attribute more is a change.
    have heq := helements.symm.trans hstep
    rw [he] at heq
    have hattributes := congrArg Element.attributes (List.cons.inj heq).1
    simp at hattributes
  · generalize helements : (s.step setting '=' after).elements = elements at hfollowed
    cases hfollowed with
    | named e' rest' after he' hopened _ hname =>
        obtain ⟨rfl, rfl⟩ := List.cons.inj (he.symm.trans he')
        have hattributes :=
          congrArg Element.attributes (List.cons.inj (hstep.symm.trans helements)).1
        have hlast := (List.append_inj' hattributes rfl).2
        have hname' : name = nameBackwards s.before := by
          simpa [String.ofList_inj] using hlast
        rw [hbefore] at hname' hname
        refine ⟨hname', hname' ▸ hname, htop, interest, _, rest, hactive,
          helements.symm.trans hstep, hopened, ?_⟩
        simp [Element.current?]

/-- **A hook hears of the attribute under the name that was found**, at the quote with
which its value begins. -/
theorem step_quote {interest : Interest} {rest : List Element} {a : Attribute}
    (htop : s.top = .text) (hactive : Interest.active? setting.interest? = some interest)
    (he : s.elements = e :: rest) (hopened : e.opened = false) (ha : e.current? = some a)
    (hvalue : a.value = .awaited) :
    (∃ e' begun, (s.step setting '"' after).marks = s.marks ++ [.attributeBegun e' begun] ∧
      begun.name = a.name) ↔ interest.wantsAttribute a.name = true := by
  have hread : s.step setting '"' after = (s.advance '"').quote interest e := by
    have hquiet : Directive.endingAt? (s.advance '"').before after = none :=
      endingAt?_foreign (by decide +kernel) _
    have htext : (s.advance '"').readText setting '"' after =
        (s.advance '"').followMarkup interest '"' after := by
      unfold readText
      rw [hquiet, hactive, advance_top, htop]
      rfl
    rw [step, readChar_readsText _ _ _ _ (by rw [advance_top, htop]; rfl), htext, endLine,
      if_neg (by decide), followMarkup, if_neg (by decide),
      show (s.advance '"').elements = e :: rest from he]
    simp [hopened]
  rw [hread]
  rcases quote_follows (s := s.advance '"') he interest with
    ⟨-, -, hwhole⟩ | ⟨a', begun, ha', -, hbegun, hmarks, -⟩ | ⟨a', text, ha', hvalue', -⟩
  · obtain ⟨text, htext⟩ := hwhole a ha
    rw [hvalue] at htext
    cases htext
  · obtain rfl := Option.some.inj (ha.symm.trans ha')
    rw [hmarks, advance_marks]
    cases hwants : interest.wantsAttribute a.name with
    | true => exact iff_of_true ⟨_, begun, rfl, by rw [hbegun]⟩ rfl
    | false => simp
  · obtain rfl := Option.some.inj (ha.symm.trans ha')
    rw [hvalue] at hvalue'
    cases hvalue'

/-! ## What is known of attributes -/

/-- The names of all attributes are `P`: those of the elements that are followed, and those
of the elements as they have been said. -/
structure AllNamed (P : String → Prop) (s : State) : Prop where
  elements : ∀ e ∈ s.elements, ∀ a ∈ e.attributes, P a.name
  marks : ∀ body ∈ s.marks, ∀ e ∈ body.element?, ∀ a ∈ e.attributes, P a.name

variable {P Q : String → Prop}

theorem AllNamed.mono (h : AllNamed P s) (hPQ : ∀ n, P n → Q n) : AllNamed Q s :=
  ⟨fun e he a ha => hPQ _ (h.elements e he a ha),
    fun body hbody e he a ha => hPQ _ (h.marks body hbody e he a ha)⟩

/-- Changing the value of an attribute leaves the names alone. -/
theorem setCurrent_names {a b : Attribute} (h : ∀ x ∈ e.attributes, P x.name)
    (ha : e.current? = some a) (hb : b.name = a.name) :
    ∀ x ∈ (e.setCurrent b).attributes, P x.name := by
  intro x hx
  rcases List.mem_append.mp hx with hx | hx
  · exact h x (List.dropLast_subset _ hx)
  · rw [List.mem_singleton.mp hx, hb]
    exact h a (List.mem_of_getLast? ha)

/-- A step brings no new name but where an attribute begins. -/
theorem AllNamed.step (h : AllNamed P s) (hnew : ∀ name e rest, c = '=' → s.elements = e :: rest →
      (s.step setting c after).elements =
        { e with attributes := e.attributes ++ [{ name := String.ofList name }] } :: rest →
      P (String.ofList name)) : AllNamed P (s.step setting c after) := by
  obtain ⟨new, hmarks, hfollows⟩ := s.step_follows setting c after
  have split {e : Element} {rest : List Element} (he : s.elements = e :: rest) :
      (∀ a ∈ e.attributes, P a.name) ∧ ∀ x ∈ rest, ∀ a ∈ x.attributes, P a.name :=
    List.forall_mem_cons.mp (he ▸ h.elements)
  have said (hsaid : ∀ body ∈ new, ∀ e ∈ body.element?, ∀ a ∈ e.attributes, P a.name) :
      ∀ body ∈ (s.step setting c after).marks, ∀ e ∈ body.element?,
        ∀ a ∈ e.attributes, P a.name := by
    rw [hmarks]
    exact List.forall_mem_append.mpr ⟨h.marks, hsaid⟩
  rcases hfollows with ⟨helements, rfl⟩ | ⟨interest, -, -, -, hfollowed⟩
  · exact ⟨helements ▸ h.elements, said nofun⟩
  · generalize helements : (s.step setting c after).elements = elements at hfollowed
    cases hfollowed with
    | begun name after _ _ =>
        refine ⟨?_, said nofun⟩
        rw [helements]
        exact List.forall_mem_cons.mpr ⟨nofun, h.elements⟩
    | closed e rest after he _ _ _ =>
        refine ⟨?_, said ?_⟩
        · rw [helements]
          exact (split he).2
        · simpa [Event.Body.element?] using (split he).1
    | named e rest after he _ _ _ =>
        have hname := hnew _ e rest rfl he helements
        refine ⟨?_, said nofun⟩
        rw [helements]
        refine List.forall_mem_cons.mpr ⟨?_, (split he).2⟩
        exact List.forall_mem_append.mpr ⟨(split he).1, by simpa using hname⟩
    | valueBegun e rest a begun after he _ hcurrent _ hbegun =>
        have hnames := setCurrent_names (b := begun) (split he).1 hcurrent (by rw [hbegun])
        refine ⟨?_, said ?_⟩
        · rw [helements]
          exact List.forall_mem_cons.mpr ⟨hnames, (split he).2⟩
        · split
          · simpa [Event.Body.element?] using hnames
          · nofun
    | valueEnded e rest a text after he _ hcurrent _ =>
        refine ⟨?_, said nofun⟩
        rw [helements]
        refine List.forall_mem_cons.mpr ⟨?_, (split he).2⟩
        exact setCurrent_names (split he).1 hcurrent rfl
    | opened e opened rest after he _ _ heq =>
        have hnames : ∀ a ∈ opened.attributes, P a.name := by
          rw [heq]
          exact (split he).1
        refine ⟨?_, said ?_⟩
        · rw [helements]
          split
          · exact (split he).2
          · exact List.forall_mem_cons.mpr ⟨hnames, (split he).2⟩
        · simpa [Event.Body.element?] using hnames

/-- **Every attribute that is known was begun at an `=`.** -/
theorem through_known (setting : Setting) (read after : List Char) :
    AllNamed (Known setting read after) (State.through setting {} read after) := by
  induction read using List.reverseRecOn generalizing after with
  | nil => exact ⟨nofun, nofun⟩
  | append_singleton read c ih =>
      rw [through_snoc]
      refine ((ih (c :: after)).mono fun n hn => hn.snoc).step ?_
      rintro name e rest rfl he hstep
      refine ⟨read, [], name, by simp, ⟨e, rest, he, ?_⟩, rfl⟩
      rw [List.nil_append, through_snoc]
      exact hstep

end State

/-! ## The whole template -/

/-- **Every attribute of an element that is said was begun at an `=`**, under the name found
before that. The name stands in the text of the tag just when it does not go on before
that text; and where the value follows at once, a hook hears of the attribute just when
the name that was found is of interest. -/
theorem attributes_named (setting : Setting) (source : List Char) :
    (∀ event ∈ events setting source, ∀ e ∈ event.body.element?, ∀ a ∈ e.attributes,
      Known setting source [] a.name) ∧
    Everywhere (fun read c after => c = '=' → ∀ name, Names setting read after name →
      let w := textBehind setting read ('=' :: after)
      let t := State.through setting {} (read ++ ['=']) after
      name = nameBackwards read.reverse ∧
      (name = nameBackwards w ↔ Seam w (read.reverse.drop w.length)) ∧
      ∀ interest ∈ Interest.active? setting.interest?, ∀ rest, after = '"' :: rest →
        ((∃ e begun, (t.step setting '"' rest).marks = t.marks ++ [.attributeBegun e begun] ∧
          begun.name = String.ofList name) ↔
          interest.wantsAttribute (String.ofList name) = true)) source := by
  constructor
  · intro event hevent e he a ha
    have hmarkup : event.body.isMarkup = true := by
      cases hbody : event.body <;> rw [hbody] at he <;> first | rfl | cases he
    have hmark := List.mem_filter.mpr ⟨List.mem_map_of_mem hevent, hmarkup⟩
    rw [marks_of_events] at hmark
    exact (State.through_known setting source []).marks _ hmark e he a ha
  · rintro read c after - rfl name hnames w t
    obtain ⟨hname, hne, htop, interest, e, rest, hactive, he, hopened, hcurrent⟩ :=
      State.named_of_names hnames
    refine ⟨hname, ?_, ?_⟩
    · have hlaid : Laid (State.through { setting with interest? := none } {} read ('=' :: after)) :=
        laid_upheld.through _ Laid.start _ _
      have hprefix : w <+: read.reverse := by
        have hpending := hlaid.pending
        rwa [State.through_before layered_start, List.append_nil] at hpending
      obtain ⟨before, hbefore⟩ := hprefix
      rw [hname] at hne ⊢
      rw [← hbefore] at hne ⊢
      rw [List.drop_left]
      exact nameBackwards_append_iff hne
    · rintro interest' hactive' tail rfl
      obtain rfl := Option.some.inj (hactive.symm.trans hactive')
      exact State.step_quote htop hactive he hopened hcurrent rfl

/-- The name of an attribute goes on over the directive that it follows. -/
theorem name_runs_on : ¬ ∀ setting read after name, Names setting read after name →
    name = nameBackwards (textBehind setting read ('=' :: after)) := by
  intro h
  have hname := h { interest? := some { tags := ["input"], attributes := ["name"] } }
    "<input @if(c)name".toList "\"a\"@endif>".toList "@if(c)name".toList
    ⟨{ name := "input" }, [], by decide +kernel, by decide +kernel⟩
  exact absurd hname (by decide +kernel)

end Scan

end Templating

import Templating.Proofs.Scan.Blocks
import Templating.Proofs.Scan.Invariant

/-!
# A template is read as it is written

A tree of the template language that is written down and read again gives its
own events, whatever its nesting. The proof goes along the tree: a piece of
content is read from the state behind what stands before it, and each closing
word is found because the words of the language cannot run into each other.
-/

namespace Templating.Template

open Scan (Construct Content Reading Reads place withoutLineEnds announced)
open Directive (Firm IsForeign isMarker)

/-! ## What a piece of content begins and ends with -/

def Node.isText : Node → Bool
  | .text _ => true
  | _ => false

/-- All that is not text begins with a marker. -/
theorem Node.exists_marker (gap : List Char) {node : Node} (h : node.isText = false) :
    ∃ k t, node.print gap = k :: t ∧ isMarker k = true := by
  cases node with
  | text run => exact absurd h (by simp [isText])
  | expression escaping code =>
      cases escaping <;> rw [print] <;> exact ⟨_, _, rfl, rfl⟩
  | _ =>
      rw [print]
      exact ⟨_, _, rfl, rfl⟩

/-- Behind all that is not text anything may follow. -/
theorem Node.firm_behind (gap before : List Char) {node : Node} (h : node.isText = false)
    (next? : Option Char) : Firm (before ++ node.print gap).reverse next? := by
  have hforeign (c : Char) (hc : IsForeign c) (cs : List Char) :
      Firm (before ++ (cs ++ [c])).reverse next? := by
    simpa using Firm.of_foreign hc (before ++ cs).reverse next?
  have hword (d : Directive) (hd : d ≠ .conditionElse) (cs : List Char) :
      Firm (before ++ (cs ++ d.word.toList)).reverse next? := by
    simpa using Firm.of_word d (before ++ cs).reverse fun he => absurd he hd
  cases node with
  | text run => exact absurd h (by simp [isText])
  | expression escaping code =>
      cases escaping <;> rw [print] <;> exact hforeign '\x7d' (by decide +kernel) _
  | statement code =>
      rw [print]
      exact hforeign '\x7d' (by decide +kernel) _
  | comment remark =>
      have := hforeign '>' (by decide +kernel) (spell "<%--" ++ remark.chars ++ spell "--%")
      simpa [print, spell] using this
  | condition code body rest =>
      rw [print]
      exact hword .conditionEnd (by simp) _
  | loop header body =>
      rw [print]
      exact hword .loopEnd (by simp) _
  | tag reference arguments =>
      rw [print]
      exact hforeign ')' (by decide +kernel) _
  | layout reference arguments slots =>
      rw [print]
      exact hword .layoutEnd (by simp) _

/-- Whether content begins with the letter `i` does not depend on the gap. -/
theorem head?_print_ne {body : List Node} (h : (print [] body).head? ≠ some 'i')
    (gap : List Char) : (print gap body).head? ≠ some 'i' := by
  cases body with
  | nil => simp [print]
  | cons node body =>
      by_cases hnode : node.isText = true
      · cases node with
        | text run =>
            obtain ⟨c, cs, hrun⟩ := List.exists_cons_of_ne_nil run.nonempty
            simpa [print, Node.print, hrun] using h
        | _ => exact absurd hnode (by simp [Node.isText])
      · rw [Bool.not_eq_true] at hnode
        obtain ⟨k, t, hprint, hk⟩ := Node.exists_marker gap hnode
        rw [print, hprint]
        simp only [List.cons_append, List.head?_cons, ne_eq, Option.some.injEq]
        rintro rfl
        exact absurd hk (by decide)

/-! ## Reading along the tree -/

/-- Content has been read, and all of it is said if text comes next. -/
def Ready (nodes : List Node) (front : List Char) (depth : Nat) (stack : List Construct)
    (es : List Event) (s : Scan.State) : Prop :=
  if startsWithText nodes = true then Reading front [] depth stack es s
  else Content front depth stack es s

theorem ready_of_reading {nodes : List Node} {front : List Char} {depth : Nat}
    {stack : List Construct} {es : List Event} {s : Scan.State}
    (h : Reading front [] depth stack es s) : Ready nodes front depth stack es s := by
  unfold Ready
  split
  · exact h
  · exact h.content

theorem ready_of_content {nodes : List Node} (h : startsWithText nodes = false)
    {front : List Char} {depth : Nat} {stack : List Construct} {es : List Event} {s : Scan.State}
    (hs : Content front depth stack es s) : Ready nodes front depth stack es s := by
  rw [Ready, if_neg (by simp [h])]
  exact hs

theorem content_of_ready {nodes : List Node} {front : List Char} {depth : Nat}
    {stack : List Construct} {es : List Event} {s : Scan.State}
    (h : Ready nodes front depth stack es s) : Content front depth stack es s := by
  unfold Ready at h
  split at h
  · exact h.content
  · exact h

variable {kind : Kind} {gap : List Char}

theorem reads_of_ready {rest xs front : List Char} {depth : Nat} {stack : List Construct}
    {es : List Event} {nodes : List Node} {Q : Scan.State → Prop}
    (h : Reads kind rest xs (Ready nodes front depth stack es) Q) :
    Reads kind rest xs (Reading front [] depth stack es) Q :=
  h.mono (fun _ => ready_of_reading) fun _ => id

theorem firm_behind_header (before code : List Char) (next? : Option Char) :
    Firm (before ++ (['('] ++ code ++ [')'])).reverse next? := by
  have hforeign : IsForeign ')' := by decide +kernel
  simpa using Firm.of_foreign hforeign (before ++ (['('] ++ code)).reverse next?

/-- Content that does not begin with text begins with a marker, or is empty. -/
theorem firm_of_not_text {nodes : List Node} (h : startsWithText nodes = false)
    (gap before : List Char) : Firm before (print gap nodes).head? := by
  cases nodes with
  | nil => exact Firm.none
  | cons node nodes =>
      have hnode : node.isText = false := by
        cases node <;> simp_all [startsWithText, Node.isText]
      obtain ⟨k, t, hprint, hk⟩ := Node.exists_marker gap hnode
      rw [print, hprint]
      exact Firm.of_marker hk

theorem proper_cons {node : Node} {nodes : List Node} (h : Proper (node :: nodes)) :
    node.Proper ∧ Proper nodes ∧ (node.isText = true → startsWithText nodes = false) := by
  cases node <;> simp_all [Proper, Node.Proper, Node.isText]

/-- Text is read up to its end, and is pending there. -/
theorem Run.reads (run : Run) {rest front : List Char} {depth : Nat} {stack : List Construct}
    {es : List Event} (htop : stack.head?.getD .text = .text)
    (hfirm : Firm front.reverse run.chars.head?) :
    Reads kind rest run.chars (Reading front [] depth stack es)
      (Content (front ++ run.chars) depth stack
        (es ++ [(place front).quote depth run.chars .text])) := by
  have hreads : Reads kind rest run.chars (Reading front [] depth stack es)
      (Reading front ([] ++ run.chars) depth stack es) := by
    refine Scan.reads_quiet (by rw [htop]; rfl) ?_ (Or.inl htop)
    exact Directive.quiet_of_plain run.plain (by simpa using hfirm)
  refine hreads.mono (fun _ => id) fun s hs => ⟨front, run.chars, es, rfl, ?_, hs⟩
  rw [Scan.textEvents, if_neg run.nonempty]

mutual

/-- A piece of content that is not text is read to its end, and so is the text
before it. -/
theorem Node.reads (hgap : ∀ c ∈ gap, Text.isBlank c = true) : ∀ node : Node,
    node.isText = false → node.Proper →
    ∀ (rest front : List Char) (depth : Nat) (stack : List Construct) (es : List Event),
      stack.head?.getD .text = .text →
      Reads kind rest (node.print gap) (Content front depth stack es)
        (Reading (front ++ node.print gap) [] depth stack
          (es ++ node.events gap (place front) depth))
  | .text run, h, _ => absurd h (by simp [Node.isText])
  | .expression .escaped code, _, _ => fun rest front depth stack es htop => by
      rw [Node.print, Node.events, Scan.place_past]
      exact Scan.reads_braced (.expression .escaped) code htop
  | .expression .raw code, _, _ => fun rest front depth stack es htop => by
      rw [Node.print, Node.events, Scan.place_past]
      exact Scan.reads_braced (.expression .raw) code htop
  | .statement code, _, _ => fun rest front depth stack es htop => by
      rw [Node.print, Node.events, Scan.place_past]
      exact Scan.reads_braced .statement code htop
  | .comment remark, _, _ => fun rest front depth stack es htop => by
      rw [Node.print, Node.events, List.append_nil]
      exact Scan.reads_comment remark htop
  | .condition code body branches, _, hproper => fun rest front depth stack es htop => by
      rw [Node.Proper] at hproper
      have hbegin (after : List Char) : Reads kind after (spell "@if")
          (Content front depth stack es) _ := Scan.reads_begin .condition htop
      have hheader (after : List Char) : Reads kind after (['('] ++ code.chars ++ [')'])
          (Reading (front ++ spell "@if") [] depth (.condition :: stack) es) _ :=
        Scan.reads_header .condition code
      -- The branches end with `@endif`, so the body is read with all of them to come.
      have hbody := reads_nodes hgap body hproper.1 (branches.print gap ++ spell "@endif" ++ rest)
        (front ++ spell "@if" ++ (['('] ++ code.chars ++ [')'])) (depth + 1)
        (.text :: .condition :: stack)
        (es ++ [(place (front ++ spell "@if" ++ ['('])).quote depth code.chars .conditionBegin])
        rfl (firm_behind_header _ _ _)
      have hbranches := Branches.reads hgap branches hproper.2 rest
        (front ++ spell "@if" ++ (['('] ++ code.chars ++ [')']) ++ print gap body) depth stack
        (es ++ [(place (front ++ spell "@if" ++ ['('])).quote depth code.chars .conditionBegin] ++
          events gap (place (front ++ spell "@if" ++ (['('] ++ code.chars ++ [')']))) (depth + 1)
            body) .condition .condition
      have := (hbegin _).append ((hheader _).append ((reads_of_ready hbody).append hbranches))
      have hspell : spell "@if(" = spell "@if" ++ ['('] := rfl
      simpa [Node.print, Node.events, hspell] using this
  | .loop header body, _, hproper => fun rest front depth stack es htop => by
      rw [Node.Proper] at hproper
      have hbegin (after : List Char) : Reads kind after (spell "@for")
          (Content front depth stack es) _ := Scan.reads_begin .loop htop
      have hheader (after : List Char) : Reads kind after (['('] ++ header.chars ++ [')'])
          (Reading (front ++ spell "@for") [] depth (.loop :: stack) es) _ :=
        Scan.reads_header .loop header
      have hbody := reads_nodes hgap body hproper (spell "@endfor" ++ rest)
        (front ++ spell "@for" ++ (['('] ++ header.chars ++ [')'])) (depth + 1)
        (.text :: .loop :: stack)
        (es ++ [(place (front ++ spell "@for" ++ ['('])).quote depth header.chars .loopBegin])
        rfl (firm_behind_header _ _ _)
      have hend (front : List Char) (es : List Event) : Reads kind rest (spell "@endfor")
          (Content front (depth + 1) (.text :: .loop :: stack) es)
          (Reading (front ++ spell "@endfor") [] depth stack _) := Scan.reads_end .loop
      have := (hbegin _).append ((hheader _).append ((reads_of_ready hbody).append (hend _ _)))
      have hspell : spell "@for(" = spell "@for" ++ ['('] := rfl
      simpa [Node.print, Node.events, hspell] using this
  | .tag reference arguments, _, _ => fun rest front depth stack es htop => by
      rw [Node.print, Node.events, Scan.place_past]
      exact Scan.reads_call hgap .tag reference arguments htop
  | .layout reference arguments slots, _, hproper => fun rest front depth stack es htop => by
      rw [Node.Proper] at hproper
      have hcall (after : List Char) : Reads kind after (spell "@layout." ++ reference.chars ++
          ['('] ++ printArguments gap arguments ++ [')']) (Content front depth stack es)
          (Reading (front ++ (spell "@layout." ++ reference.chars ++ ['('] ++
            printArguments gap arguments ++ [')'])) [] depth (.layoutBody :: stack) _) :=
        Scan.reads_call hgap .layout reference arguments htop
      have hslots := reads_printSlots hgap slots hproper (spell "@endlayout" ++ rest)
        (front ++ (spell "@layout." ++ reference.chars ++ ['('] ++
          printArguments gap arguments ++ [')'])) depth stack
        (es ++ [quoteCall gap (place (front ++ spell "@layout.")) depth .layout reference
          arguments])
      have hend (front : List Char) (es : List Event) : Reads kind rest (spell "@endlayout")
          (Reading front [] depth (.layoutBody :: stack) es)
          (Reading (front ++ spell "@endlayout") [] depth stack _) := Scan.reads_layoutEnd
      have := (hcall _).append (hslots.append (hend _ _))
      simpa [Node.print, Node.events] using this

/-- The branches of a condition are read up to its end, in the text of the
branch before them. -/
theorem Branches.reads (hgap : ∀ c ∈ gap, Text.isBlank c = true) : ∀ branches : Branches,
    branches.Proper →
    ∀ (rest front : List Char) (depth : Nat) (stack : List Construct) (es : List Event)
      (k : Construct), Scan.Finishes .conditionEnd k .conditionEnd →
      Reads kind rest (branches.print gap ++ spell "@endif")
        (Content front (depth + 1) (.text :: k :: stack) es)
        (Reading (front ++ (branches.print gap ++ spell "@endif")) [] depth stack
          (es ++ branches.events gap (place front) depth ++
            [(place (front ++ branches.print gap)).say depth .conditionEnd]))
  | .done, _ => fun rest front depth stack es k hk => by
      rw [Branches.print, Branches.events, List.nil_append, List.append_nil, List.append_nil]
      exact Scan.reads_end hk
  | .otherwise body, hproper => fun rest front depth stack es k hk => by
      rw [Branches.Proper] at hproper
      have hcondition : k.isCondition = true := by
        cases hk <;> rfl
      -- In front of an `i` the word is held back, for it may become `@elseif`.
      have hletter := head?_print_ne hproper.2 gap
      have hnext : (print gap body ++ spell "@endif" ++ rest).head? ≠ some 'i' := by
        rw [List.append_assoc, List.head?_append]
        cases hhead : (print gap body).head? with
        | none => simp [spell]
        | some c => simpa [hhead] using hletter
      have helse : Reads kind (print gap body ++ spell "@endif" ++ rest) (spell "@else")
          (Content front (depth + 1) (.text :: k :: stack) es)
          (Reading (front ++ spell "@else") [] (depth + 1) (.text :: k :: stack) _) :=
        Scan.reads_otherwise hcondition hnext
      have hfirm : Firm (front ++ spell "@else").reverse (print gap body).head? := by
        have := Firm.of_word .conditionElse front.reverse fun _ => hletter
        rwa [← List.reverse_append] at this
      have hbody := reads_nodes hgap body hproper.1 (spell "@endif" ++ rest)
        (front ++ spell "@else") (depth + 1) (.text :: k :: stack)
        (es ++ [(place front).say depth .conditionElse]) rfl hfirm
      have hend (front : List Char) (es : List Event) : Reads kind rest (spell "@endif")
          (Content front (depth + 1) (.text :: k :: stack) es)
          (Reading (front ++ spell "@endif") [] depth stack _) := Scan.reads_end hk
      have := helse.append ((reads_of_ready hbody).append (hend _ _))
      simpa [Branches.print, Branches.events] using this
  | .elseIf code body branches, hproper => fun rest front depth stack es k hk => by
      rw [Branches.Proper] at hproper
      have hcondition : k.isCondition = true := by
        cases hk <;> rfl
      have hword (after : List Char) : Reads kind after (spell "@elseif")
          (Content front (depth + 1) (.text :: k :: stack) es)
          (Reading (front ++ spell "@elseif") [] depth (.conditionElseIf :: stack) _) :=
        Scan.reads_elseIf hcondition
      have hheader (after : List Char) : Reads kind after (['('] ++ code.chars ++ [')'])
          (Reading (front ++ spell "@elseif") [] depth (.conditionElseIf :: stack) es) _ :=
        Scan.reads_header .conditionElseIf code
      have hbody := reads_nodes hgap body hproper.1 (branches.print gap ++ spell "@endif" ++ rest)
        (front ++ spell "@elseif" ++ (['('] ++ code.chars ++ [')'])) (depth + 1)
        (.text :: .conditionElseIf :: stack)
        (es ++ [(place (front ++ spell "@elseif" ++ ['('])).quote depth code.chars
          .conditionElseIf])
        rfl (firm_behind_header _ _ _)
      have hbranches := Branches.reads hgap branches hproper.2 rest
        (front ++ spell "@elseif" ++ (['('] ++ code.chars ++ [')']) ++ print gap body) depth stack
        (es ++ [(place (front ++ spell "@elseif" ++ ['('])).quote depth code.chars
          .conditionElseIf] ++
          events gap (place (front ++ spell "@elseif" ++ (['('] ++ code.chars ++ [')'])))
            (depth + 1) body) .conditionElseIf .conditionElseIf
      have := (hword _).append ((hheader _).append ((reads_of_ready hbody).append hbranches))
      have hspell : spell "@elseif(" = spell "@elseif" ++ ['('] := rfl
      simpa [Branches.print, Branches.events, hspell] using this

/-- A slot is read in the body of a layout call. -/
theorem Slot.reads (hgap : ∀ c ∈ gap, Text.isBlank c = true) : ∀ slot : Slot, slot.Proper →
    ∀ (rest front : List Char) (depth : Nat) (stack : List Construct) (es : List Event),
      Reads kind rest (slot.print gap) (Reading front [] depth (.layoutBody :: stack) es)
        (Reading (front ++ slot.print gap) [] depth (.layoutBody :: stack)
          (es ++ slot.events gap (place front) depth))
  | .mk name body, hproper => fun rest front depth stack es => by
      rw [Slot.Proper] at hproper
      have hhead (after : List Char) : Reads kind after (spell "@define(" ++ name.chars ++ [')'])
          (Reading front [] depth (.layoutBody :: stack) es)
          (Reading (front ++ (spell "@define(" ++ name.chars ++ [')'])) [] (depth + 3) _
            (_ ++ [(place (front ++ spell "@define(")).quote depth name.chars .slotBegin])) :=
        Scan.reads_slot name
      have hfirm : Firm (front ++ (spell "@define(" ++ name.chars ++ [')'])).reverse
          (print gap body).head? := by
        have hforeign : IsForeign ')' := by decide +kernel
        simpa using Firm.of_foreign hforeign (front ++ (spell "@define(" ++ name.chars)).reverse _
      have hbody := reads_nodes hgap body hproper (spell "@enddefine" ++ rest)
        (front ++ (spell "@define(" ++ name.chars ++ [')'])) (depth + 3)
        (.text :: .slot :: .layoutBody :: stack)
        (es ++ [(place (front ++ spell "@define(")).quote depth name.chars .slotBegin]) rfl hfirm
      have hend (front : List Char) (es : List Event) : Reads kind rest (spell "@enddefine")
          (Content front (depth + 3) (.text :: .slot :: .layoutBody :: stack) es)
          (Reading (front ++ spell "@enddefine") [] depth (.layoutBody :: stack) _) :=
        Scan.reads_slotEnd
      have := (hhead _).append ((reads_of_ready hbody).append (hend _ _))
      simpa [Slot.print, Slot.events] using this

/-- Content is read to its end, where text may be pending. -/
theorem reads_nodes (hgap : ∀ c ∈ gap, Text.isBlank c = true) : ∀ nodes : List Node,
    Proper nodes →
    ∀ (rest front : List Char) (depth : Nat) (stack : List Construct) (es : List Event),
      stack.head?.getD .text = .text → Firm front.reverse (print gap nodes).head? →
      Reads kind rest (print gap nodes) (Ready nodes front depth stack es)
        (Content (front ++ print gap nodes) depth stack
          (es ++ events gap (place front) depth nodes))
  | [], _ => fun rest front depth stack es _ _ => .nil fun s hs => by
      simpa [print, events, Ready, startsWithText] using hs
  | node :: nodes, hproper => fun rest front depth stack es htop hfirm => by
      obtain ⟨hnode, hnodes, hapart⟩ := proper_cons hproper
      have hrest := reads_nodes hgap nodes hnodes rest (front ++ node.print gap) depth stack
        (es ++ node.events gap (place front) depth) htop
      by_cases htext : node.isText = true
      · -- Text stays pending, and the node behind it is none.
        obtain ⟨run, rfl⟩ : ∃ run, node = .text run := by
          cases node with
          | text run => exact ⟨run, rfl⟩
          | _ => exact absurd htext (by simp [Node.isText])
        have hstarts := hapart rfl
        have hrun : Reads kind (print gap nodes ++ rest) run.chars
            (Ready (.text run :: nodes) front depth stack es) _ :=
          run.reads htop (by rwa [print, Node.print, List.head?_append_of_ne_nil _ run.nonempty]
            at hfirm)
        have hrest' := (hrest (firm_of_not_text hstarts gap _)).mono
          (fun _ => ready_of_content hstarts) fun _ => id
        simpa [print, events, Node.print, Node.events] using hrun.append hrest'
      · -- Any other node hands out the text before it.
        rw [Bool.not_eq_true] at htext
        have hfirst := Node.reads hgap node htext hnode (print gap nodes ++ rest) front depth
          stack es htop
        have hrest' := reads_of_ready (hrest (Node.firm_behind gap front htext _))
        have hready : ∀ s, Ready (node :: nodes) front depth stack es s →
            Content front depth stack es s := fun s => content_of_ready
        simpa [print, events] using (hfirst.append hrest').mono hready fun _ => id

theorem reads_printSlots (hgap : ∀ c ∈ gap, Text.isBlank c = true) : ∀ slots : List Slot,
    ProperSlots slots →
    ∀ (rest front : List Char) (depth : Nat) (stack : List Construct) (es : List Event),
      Reads kind rest (printSlots gap slots) (Reading front [] depth (.layoutBody :: stack) es)
        (Reading (front ++ printSlots gap slots) [] depth (.layoutBody :: stack)
          (es ++ eventsOfSlots gap (place front) depth slots))
  | [], _ => fun rest front depth stack es => .nil fun s hs => by
      simpa [printSlots, eventsOfSlots] using hs
  | slot :: slots, hproper => fun rest front depth stack es => by
      rw [ProperSlots] at hproper
      have hslot := Slot.reads hgap slot hproper.1 (printSlots gap slots ++ rest) front depth
        stack es
      have hrest := reads_printSlots hgap slots hproper.2 rest (front ++ slot.print gap) depth
        stack (es ++ slot.events gap (place front) depth)
      simpa [printSlots, eventsOfSlots] using hslot.append hrest

end

/-- The end of a template that has been read without a problem. -/
theorem finish_of_content {front : List Char} {es : List Event} {s : Scan.State}
    (h : Content front 0 [] es s) :
    Reading front [] 0 [] (es ++ [(place front).say 0 .complete]) s.finish := by
  obtain ⟨settled, pending, said, rfl, rfl, hs⟩ := h
  have htop : s.top = .text := hs.top
  rw [← List.append_nil pending] at hs
  have hend := hs.flush_settle htop (by simp)
  have hsettled : s.settled = (s.flush 0).settle := by
    rw [Scan.State.settled, if_neg (by simp [htop])]
  have hstack : (s.flush 0).settle.stack = [] := List.map_eq_nil_iff.mp hend.stack_eq
  have hunfinished : s.settled.unfinished? = none := by
    rw [hsettled, Scan.State.unfinished?, hstack]
    rfl
  rw [Scan.State.finish_eq, hunfinished, hsettled]
  simpa using hend.emit .complete rfl

/-- **Reading undoes writing.** A tree that is written down is read without a
problem, as a template of any kind, and says its own events, at their lines and
depths and with the slices they quote. -/
theorem scan_print (kind : Kind) {gap : List Char} (hgap : ∀ c ∈ gap, Text.isBlank c = true)
    {nodes : List Node} (h : Proper nodes) :
    Scan.problems { kind } (print gap nodes) = [] ∧
      withoutLineEnds (Scan.events { kind } (print gap nodes)) =
        announced (events gap {} 0 nodes ++
          [(({} : Place).past (print gap nodes)).say 0 .complete]) := by
  have hread : Reads kind [] (print gap nodes) (Ready nodes [] 0 [] [])
      (Content (print gap nodes) 0 [] (events gap {} 0 nodes)) :=
    reads_nodes hgap nodes h [] [] 0 [] [] rfl (Firm.start _)
  obtain ⟨s, hrun, hs⟩ := hread {} (ready_of_reading Reading.start)
  rw [List.append_nil] at hrun
  have hfinish := finish_of_content hs
  rw [Scan.problems_eq, Scan.events_eq, hrun]
  exact ⟨hfinish.problems_eq, hfinish.events_eq⟩

/-- A condition with an alternative, around a call with two arguments. -/
def branching : List Node :=
  [.condition ⟨['a'], .plain (by decide) (by decide) .nil⟩
    [.tag ⟨['t'], by decide, List.forall_mem_singleton.mpr (by decide)⟩
      [⟨['x'], .plain (by decide) (by decide) .nil, by decide, by decide +kernel⟩,
        ⟨['y'], .plain (by decide) (by decide) .nil, by decide, by decide +kernel⟩]]
    (.otherwise [.text ⟨['-'], by decide, by decide +kernel⟩])]

theorem scan_print_branching :
    print [' '] branching = "@if(a)@tag.t(x, y)@else-@endif".toList ∧
      Scan.problems {} (print [' '] branching) = [] ∧
      withoutLineEnds (Scan.events {} (print [' '] branching)) =
        [⟨1, 0, .headerEnd⟩, ⟨1, 0, .conditionBegin ⟨4, "a"⟩⟩,
          ⟨1, 1, .call .tag "t" [⟨13, "x"⟩, ⟨16, "y"⟩]⟩, ⟨1, 0, .conditionElse⟩,
          ⟨1, 1, .text ⟨23, "-"⟩⟩, ⟨1, 0, .conditionEnd⟩, ⟨1, 0, .complete⟩] := by
  have hproper : Proper branching := by
    simp [branching, Proper, Node.Proper, Branches.Proper, startsWithText, print, Node.print]
  have hblank : ∀ c ∈ [' '], Text.isBlank c = true :=
    List.forall_mem_singleton.mpr (by decide)
  have hscan := scan_print .page hblank hproper
  refine ⟨by decide +kernel, hscan.1, hscan.2.trans ?_⟩
  decide +kernel

end Templating.Template

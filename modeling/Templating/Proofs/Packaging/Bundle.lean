import Mathlib.Data.List.Induction
import Mathlib.Data.List.Infix
import Mathlib.Data.List.Nodup
import Templating.Packaging.Bundle

/-!
# What a bundle consists of

The text of a bundle is made of pieces: a piece opens a module, copies a unit, or
closes the module that was opened last. Reading the pieces from the front, it is
known at each of them which modules are open. Each unit is copied once, with just
the modules of its package open around it, and each module is opened once, because
the packages inside another one are kept in order.
-/

namespace Templating.Packaging

/-! ## Pieces -/

inductive Piece where
  | opening (name : String)
  | unit (code : String)
  | closing
deriving DecidableEq

/-- The modules that are open behind a piece, outermost first. -/
def Piece.pass (path : List String) : Piece → List String
  | opening name => path ++ [name]
  | unit _ => path
  | closing => path.dropLast

def indentation (depth : Nat) : String :=
  String.join (List.replicate depth "    ")

/-- The text of a piece with these modules open in front of it. -/
def Piece.text (path : List String) : Piece → String
  | opening name => "\n" ++ indentation path.length ++ "pub mod " ++ name ++ " \x7b\n"
  | unit code => "\n" ++ code
  | closing => indentation path.dropLast.length ++ "\x7d\n"

/-- The pieces, each with the modules that are open in front of it. -/
def located : List String → List Piece → List (List String × Piece)
  | _, [] => []
  | path, piece :: pieces => (path, piece) :: located (piece.pass path) pieces

/-- The text that located pieces make up. -/
def textOf (pieces : List (List String × Piece)) : String :=
  String.join (pieces.map fun p => p.2.text p.1)

/-- The units that are copied, each with the modules around it. -/
def unitsOf (pieces : List (List String × Piece)) : List (List String × String) :=
  pieces.filterMap fun
    | (path, .unit code) => some (path, code)
    | _ => none

/-- The modules that are opened, each by its path. -/
def opened (pieces : List (List String × Piece)) : List (List String) :=
  pieces.filterMap fun
    | (path, .opening name) => some (path ++ [name])
    | _ => none

/-- Only an open module is closed, and in the end none is open. -/
def Closed (pieces : List Piece) : Prop :=
  (∀ path, (path, Piece.closing) ∈ located [] pieces → path ≠ []) ∧
    pieces.foldl Piece.pass [] = []

theorem located_append (path : List String) (xs ys : List Piece) :
    located path (xs ++ ys) = located path xs ++ located (xs.foldl Piece.pass path) ys := by
  induction xs generalizing path with
  | nil => rfl
  | cons x xs ih => rw [List.cons_append, located, ih, located, List.foldl_cons, List.cons_append]

theorem textOf_append (xs ys : List (List String × Piece)) :
    textOf (xs ++ ys) = textOf xs ++ textOf ys := by
  rw [textOf, List.map_append, String.join_append]
  rfl

theorem unitsOf_append (xs ys : List (List String × Piece)) :
    unitsOf (xs ++ ys) = unitsOf xs ++ unitsOf ys :=
  List.filterMap_append

theorem opened_append (xs ys : List (List String × Piece)) :
    opened (xs ++ ys) = opened xs ++ opened ys :=
  List.filterMap_append

/-! ## The pieces of a tree -/

mutual

def Package.pieces : Package → List Piece
  | .mk units inner => units.map .unit ++ inner.pieces

def Packages.pieces : Packages → List Piece
  | .nil => []
  | .cons name package rest => .opening name :: (package.pieces ++ .closing :: rest.pieces)

end

mutual

/-- Behind a package the same modules are open as in front of it. -/
theorem Package.pass_pieces (path : List String) :
    ∀ p : Package, p.pieces.foldl Piece.pass path = path
  | .mk units inner => by
      have hunits (units : List String) :
          (units.map Piece.unit).foldl Piece.pass path = path := by
        induction units with
        | nil => rfl
        | cons code units ih => exact ih
      rw [Package.pieces, List.foldl_append, hunits, inner.pass_pieces path]

theorem Packages.pass_pieces (path : List String) :
    ∀ ps : Packages, ps.pieces.foldl Piece.pass path = path
  | .nil => rfl
  | .cons name package rest => by
      rw [Packages.pieces, List.foldl_cons, List.foldl_append, package.pass_pieces, List.foldl_cons,
        Piece.pass, Piece.pass, List.dropLast_concat, rest.pass_pieces path]

end

/-- The modules around the units of a package and around what is inside it. -/
theorem located_package (path : List String) (units : List String) (inner : Packages) :
    located path (Package.mk units inner).pieces =
      units.map (fun code => (path, Piece.unit code)) ++ located path inner.pieces := by
  have hunits (rest : List Piece) : located path (units.map Piece.unit ++ rest) =
      units.map (fun code => (path, Piece.unit code)) ++ located path rest := by
    induction units with
    | nil => rfl
    | cons code units ih =>
        rw [List.map_cons, List.cons_append, located, List.map_cons, List.cons_append]
        exact congrArg _ ih
  rw [Package.pieces, hunits]

/-- The modules around the pieces of packages, one package after the other. -/
theorem located_packages (path : List String) (name : String) (package : Package)
    (rest : Packages) : located path (Packages.cons name package rest).pieces =
      (path, .opening name) :: (located (path ++ [name]) package.pieces ++
        (path ++ [name], .closing) :: located path rest.pieces) := by
  rw [Packages.pieces, located, located_append, Piece.pass, package.pass_pieces, located,
    Piece.pass, List.dropLast_concat]

/-! ## The text of a tree -/

mutual

/-- **A package is written in its pieces.** -/
theorem Package.write_eq (path : List String) :
    ∀ p : Package, p.write path.length = textOf (located path p.pieces)
  | .mk units inner => by
      have hunits : textOf (units.map fun code => (path, Piece.unit code)) =
          String.join (units.map fun code => "\n" ++ code) := by
        rw [textOf, List.map_map]
        rfl
      rw [located_package, textOf_append, hunits, Package.write, inner.write_eq path]

theorem Packages.write_eq (path : List String) :
    ∀ ps : Packages, ps.write path.length = textOf (located path ps.pieces)
  | .nil => rfl
  | .cons name package rest => by
      have hpackage := package.write_eq (path ++ [name])
      rw [List.length_append, List.length_singleton] at hpackage
      rw [located_packages, textOf, List.map_cons, String.join_cons, ← textOf, textOf_append,
        ← hpackage, textOf, List.map_cons, String.join_cons, ← textOf, ← rest.write_eq path,
        Packages.write]
      simp only [Piece.text, indentation, List.dropLast_concat, String.append_assoc]

end

mutual

/-- Only an open module is closed. -/
theorem Package.ne_nil_of_closing (path : List String) :
    ∀ p : Package, ∀ q, (q, Piece.closing) ∈ located path p.pieces → q ≠ []
  | .mk units inner => by
      intro q hq
      rw [located_package] at hq
      rcases List.mem_append.mp hq with hq | hq
      · simp at hq
      · exact inner.ne_nil_of_closing path q hq

theorem Packages.ne_nil_of_closing (path : List String) :
    ∀ ps : Packages, ∀ q, (q, Piece.closing) ∈ located path ps.pieces → q ≠ []
  | .nil => by
      intro q hq
      cases hq
  | .cons name package rest => by
      intro q hq
      rw [located_packages] at hq
      rcases List.mem_cons.mp hq with hq | hq
      · cases hq
      · rcases List.mem_append.mp hq with hq | hq
        · exact package.ne_nil_of_closing _ q hq
        · rcases List.mem_cons.mp hq with hq | hq
          · cases hq
            simp
          · exact rest.ne_nil_of_closing path q hq

end

/-- The pieces of a tree close what they open. -/
theorem closed_pieces (p : Package) : Closed p.pieces :=
  ⟨p.ne_nil_of_closing [], p.pass_pieces []⟩

/-! ## Units -/

@[simp] theorem unitsOf_package (path : List String) (units : List String) (inner : Packages) :
    unitsOf (located path (Package.mk units inner).pieces) =
      units.map (fun code => (path, code)) ++ unitsOf (located path inner.pieces) := by
  rw [located_package, unitsOf_append, unitsOf, List.filterMap_map]
  simp

@[simp] theorem unitsOf_packages (path : List String) (name : String) (package : Package)
    (rest : Packages) : unitsOf (located path (Packages.cons name package rest).pieces) =
      unitsOf (located (path ++ [name]) package.pieces) ++ unitsOf (located path rest.pieces) := by
  rw [located_packages, ← List.singleton_append, unitsOf_append, unitsOf_append,
    ← List.singleton_append, unitsOf_append]
  rfl

@[simp] theorem unitsOf_nil (path : List String) :
    unitsOf (located path Packages.nil.pieces) = [] :=
  rfl

theorem unitsOf_single (path rel : List String) (code : String) :
    unitsOf (located path (Package.single rel code).pieces) = [(path ++ rel, code)] := by
  induction rel generalizing path with
  | nil => simp [Package.single]
  | cons name rel ih => simp [Package.single, ih]

mutual

/-- **A unit is added to a tree at the end of its path**, and no other is touched. -/
theorem Package.unitsOf_insert (path rel : List String) (code : String) :
    ∀ p : Package, (unitsOf (located path (p.insert rel code).pieces)).Perm
      ((path ++ rel, code) :: unitsOf (located path p.pieces))
  | .mk units inner => by
      cases rel with
      | nil =>
          rw [Package.insert, unitsOf_package, unitsOf_package, List.map_append, List.map_singleton,
            List.append_assoc, List.append_nil]
          exact List.perm_middle
      | cons name rel =>
          rw [Package.insert, unitsOf_package, unitsOf_package]
          exact ((inner.unitsOf_insert path name rel code).append_left _).trans List.perm_middle

theorem Packages.unitsOf_insert (path : List String) (name : String) (rel : List String)
    (code : String) :
    ∀ ps : Packages, (unitsOf (located path (ps.insert name rel code).pieces)).Perm
      ((path ++ name :: rel, code) :: unitsOf (located path ps.pieces))
  | .nil => by
      rw [Packages.insert, unitsOf_packages, unitsOf_single, List.append_assoc]
      exact .refl _
  | .cons other package rest => by
      rw [Packages.insert]
      split
      · rename_i heq
        subst heq
        have hpackage := package.unitsOf_insert (path ++ [name]) rel code
        rw [List.append_assoc, List.singleton_append] at hpackage
        rw [unitsOf_packages, unitsOf_packages]
        exact hpackage.append_right _
      · split
        · rw [unitsOf_packages, unitsOf_single, List.append_assoc]
          exact .refl _
        · rw [unitsOf_packages, unitsOf_packages]
          exact ((rest.unitsOf_insert path name rel code).append_left _).trans List.perm_middle

end

/-! ## Modules -/

@[simp] theorem opened_package (path : List String) (units : List String) (inner : Packages) :
    opened (located path (Package.mk units inner).pieces) =
      opened (located path inner.pieces) := by
  rw [located_package, opened_append, opened, List.filterMap_map]
  simp

@[simp] theorem opened_packages (path : List String) (name : String) (package : Package)
    (rest : Packages) : opened (located path (Packages.cons name package rest).pieces) =
      (path ++ [name]) :: (opened (located (path ++ [name]) package.pieces) ++
        opened (located path rest.pieces)) := by
  rw [located_packages, ← List.singleton_append, opened_append, opened_append,
    ← List.singleton_append, opened_append]
  rfl

@[simp] theorem opened_nil (path : List String) : opened (located path Packages.nil.pieces) = [] :=
  rfl

/-- The path goes on from `path` in the direction of `rel`. -/
def Toward (path rel q : List String) : Prop :=
  ∃ r, r ≠ [] ∧ r <+: rel ∧ q = path ++ r

theorem not_toward_nil (path q : List String) : ¬Toward path [] q := by
  rintro ⟨r, hr, hprefix, -⟩
  exact hr (List.prefix_nil.mp hprefix)

theorem toward_cons {path rel q : List String} {name : String} :
    Toward path (name :: rel) q ↔ q = path ++ [name] ∨ Toward (path ++ [name]) rel q := by
  constructor
  · rintro ⟨r, hr, hprefix, rfl⟩
    obtain ⟨first, r, rfl⟩ := List.exists_cons_of_ne_nil hr
    obtain ⟨rfl, hrest⟩ := List.cons_prefix_cons.mp hprefix
    by_cases hempty : r = []
    · exact .inl (by rw [hempty])
    · exact .inr ⟨r, hempty, hrest, by rw [List.append_assoc, List.singleton_append]⟩
  · rintro (rfl | ⟨r, -, hprefix, rfl⟩)
    · exact ⟨[name], by simp, List.cons_prefix_cons.mpr ⟨rfl, List.nil_prefix⟩, rfl⟩
    · exact ⟨name :: r, by simp, List.cons_prefix_cons.mpr ⟨rfl, hprefix⟩,
        by rw [List.append_assoc, List.singleton_append]⟩

theorem mem_opened_single {path rel q : List String} {code : String} :
    q ∈ opened (located path (Package.single rel code).pieces) ↔ Toward path rel q := by
  induction rel generalizing path with
  | nil =>
      rw [Package.single, opened_package, opened_nil]
      exact iff_of_false List.not_mem_nil (not_toward_nil path q)
  | cons name rel ih =>
      rw [Package.single, opened_package, opened_packages, opened_nil, List.append_nil,
        List.mem_cons, ih, toward_cons]

mutual

/-- **The modules that a unit adds are those on its way.** -/
theorem Package.mem_opened_insert {path rel q : List String} {code : String} :
    ∀ p : Package, q ∈ opened (located path (p.insert rel code).pieces) ↔
      q ∈ opened (located path p.pieces) ∨ Toward path rel q
  | .mk units inner => by
      cases rel with
      | nil =>
          rw [Package.insert, opened_package, opened_package, or_iff_left (not_toward_nil path q)]
      | cons name rel =>
          rw [Package.insert, opened_package, opened_package]
          exact inner.mem_opened_insert

theorem Packages.mem_opened_insert {path rel q : List String} {name code : String} :
    ∀ ps : Packages, q ∈ opened (located path (ps.insert name rel code).pieces) ↔
      q ∈ opened (located path ps.pieces) ∨ Toward path (name :: rel) q
  | .nil => by
      rw [Packages.insert, opened_packages, opened_nil, List.append_nil, List.mem_cons,
        mem_opened_single, toward_cons, or_iff_right List.not_mem_nil]
  | .cons other package rest => by
      rw [Packages.insert, toward_cons]
      split
      · rename_i heq
        subst heq
        rw [opened_packages, opened_packages, List.mem_cons, List.mem_cons, List.mem_append,
          List.mem_append, package.mem_opened_insert]
        tauto
      · split
        · rw [opened_packages, List.mem_cons, List.mem_append, mem_opened_single]
          tauto
        · rw [opened_packages, opened_packages, List.mem_cons, List.mem_cons, List.mem_append,
            List.mem_append, rest.mem_opened_insert, toward_cons]
          tauto

end

/-! ## Order -/

def Packages.names : Packages → List String
  | .nil => []
  | .cons name _ rest => name :: rest.names

mutual

/-- The packages inside a package are in order, each under a name of its own. -/
def Package.Ordered : Package → Prop
  | .mk _ inner => inner.Ordered

def Packages.Ordered : Packages → Prop
  | .nil => True
  | .cons name package rest => (∀ other ∈ rest.names, name < other) ∧ package.Ordered ∧ rest.Ordered

end

theorem Packages.mem_names_insert {name code n : String} {rel : List String} (ps : Packages) :
    n ∈ (ps.insert name rel code).names ↔ n = name ∨ n ∈ ps.names :=
  match ps with
  | .nil => by simp [Packages.insert, Packages.names]
  | .cons other package rest => by
      rw [Packages.insert]
      split
      · rename_i heq
        simp [Packages.names, heq]
      · split
        · simp [Packages.names]
        · simp only [Packages.names, List.mem_cons, rest.mem_names_insert]
          tauto

theorem ordered_single (rel : List String) (code : String) : (Package.single rel code).Ordered := by
  induction rel with
  | nil => trivial
  | cons name rel ih => exact ⟨by simp [Packages.names], ih, trivial⟩

mutual

/-- **A unit is added in order.** -/
theorem Package.ordered_insert {rel : List String} {code : String} :
    ∀ p : Package, p.Ordered → (p.insert rel code).Ordered
  | .mk units inner => by
      intro h
      cases rel with
      | nil => exact h
      | cons name rel => exact inner.ordered_insert h

theorem Packages.ordered_insert {name code : String} {rel : List String} :
    ∀ ps : Packages, ps.Ordered → (ps.insert name rel code).Ordered
  | .nil => fun _ => ⟨by simp [Packages.names], ordered_single rel code, trivial⟩
  | .cons other package rest => by
      rintro ⟨hlater, hpackage, hrest⟩
      rw [Packages.insert]
      split
      · exact ⟨hlater, package.ordered_insert hpackage, hrest⟩
      · rename_i hne
        split
        · rename_i hlt
          refine ⟨?_, ordered_single rel code, hlater, hpackage, hrest⟩
          intro n hn
          rcases List.mem_cons.mp hn with rfl | hn
          · exact hlt
          · exact String.lt_trans hlt (hlater n hn)
        · rename_i hnlt
          have hlt : other < name := Decidable.not_not.mp fun h =>
            hne (String.le_antisymm (String.not_lt.mp h) (String.not_lt.mp hnlt))
          refine ⟨?_, hpackage, rest.ordered_insert hrest⟩
          intro n hn
          rcases rest.mem_names_insert.mp hn with rfl | hn
          · exact hlt
          · exact hlater n hn

end

mutual

/-- What is opened inside a package goes on from its path. -/
theorem Package.opened_beyond {path q : List String} :
    ∀ p : Package, q ∈ opened (located path p.pieces) → ∃ name, path ++ [name] <+: q
  | .mk units inner => by
      intro hq
      rw [opened_package] at hq
      obtain ⟨name, -, hprefix⟩ := inner.opened_beyond hq
      exact ⟨name, hprefix⟩

theorem Packages.opened_beyond {path q : List String} :
    ∀ ps : Packages, q ∈ opened (located path ps.pieces) →
      ∃ name ∈ ps.names, path ++ [name] <+: q
  | .nil => by
      intro hq
      cases hq
  | .cons name package rest => by
      intro hq
      rw [opened_packages] at hq
      rcases List.mem_cons.mp hq with rfl | hq
      · exact ⟨name, List.mem_cons_self, List.prefix_rfl⟩
      · rcases List.mem_append.mp hq with hq | hq
        · obtain ⟨inner, hprefix⟩ := package.opened_beyond hq
          exact ⟨name, List.mem_cons_self, (List.prefix_append _ _).trans hprefix⟩
        · obtain ⟨other, hother, hprefix⟩ := rest.opened_beyond hq
          exact ⟨other, List.mem_cons_of_mem _ hother, hprefix⟩

end

mutual

/-- **In order, each module is opened once.** -/
theorem Package.opened_nodup (path : List String) :
    ∀ p : Package, p.Ordered → (opened (located path p.pieces)).Nodup
  | .mk units inner => by
      intro h
      rw [opened_package]
      exact inner.opened_nodup path h

theorem Packages.opened_nodup (path : List String) :
    ∀ ps : Packages, ps.Ordered → (opened (located path ps.pieces)).Nodup
  | .nil => fun _ => List.nodup_nil
  | .cons name package rest => by
      rintro ⟨hlater, hpackage, hrest⟩
      -- What the rest opens begins with a later name.
      have hapart {q : List String} (hq : q ∈ opened (located path rest.pieces)) :
          ¬path ++ [name] <+: q := by
        intro hprefix
        obtain ⟨other, hother, hprefix'⟩ := rest.opened_beyond hq
        have hsame := List.prefix_of_prefix_length_le hprefix hprefix' (by simp)
        obtain ⟨-, hname⟩ := List.append_inj' (hsame.eq_of_length (by simp)) rfl
        obtain rfl := List.singleton_inj.mp hname
        exact String.lt_irrefl _ (hlater _ hother)
      rw [opened_packages, List.nodup_cons, List.nodup_append]
      refine ⟨?_, package.opened_nodup _ hpackage, rest.opened_nodup path hrest, ?_⟩
      · intro hmem
        rcases List.mem_append.mp hmem with hmem | hmem
        · obtain ⟨inner, hprefix⟩ := package.opened_beyond hmem
          simpa using hprefix.length_le
        · exact hapart hmem List.prefix_rfl
      · rintro q hq _ hq' rfl
        obtain ⟨inner, hprefix⟩ := package.opened_beyond hq
        exact hapart hq' ((List.prefix_append _ _).trans hprefix)

end

/-! ## Whole bundles -/

theorem tree_snoc (units : List SourceUnit) (u : SourceUnit) :
    tree (units ++ [u]) = (tree units).insert u.address.package u.code := by
  rw [tree, List.foldl_append]
  rfl

theorem ordered_tree (units : List SourceUnit) : (tree units).Ordered := by
  induction units using List.reverseRecOn with
  | nil => trivial
  | append_singleton units u ih =>
      rw [tree_snoc]
      exact (tree units).ordered_insert ih

/-- The tree has the units in their packages. -/
theorem unitsOf_tree (units : List SourceUnit) : (unitsOf (located [] (tree units).pieces)).Perm
    (units.map fun u => (u.address.package, u.code)) := by
  induction units using List.reverseRecOn with
  | nil => exact .refl _
  | append_singleton units u ih =>
      rw [tree_snoc, List.map_append, List.map_singleton]
      exact (((tree units).unitsOf_insert [] _ _).trans (ih.cons _)).trans
        (List.perm_append_singleton _ _).symm

/-- The tree has the packages of the units, and those that they are in. -/
theorem mem_opened_tree {units : List SourceUnit} {path : List String} :
    path ∈ opened (located [] (tree units).pieces) ↔
      path ≠ [] ∧ ∃ u ∈ units, path <+: u.address.package := by
  induction units using List.reverseRecOn with
  | nil => simp [tree]
  | append_singleton units u ih =>
      have htoward : Toward [] u.address.package path ↔
          path ≠ [] ∧ path <+: u.address.package := by
        constructor
        · rintro ⟨r, hr, hprefix, rfl⟩
          exact ⟨hr, hprefix⟩
        · rintro ⟨hpath, hprefix⟩
          exact ⟨path, hpath, hprefix, rfl⟩
      rw [tree_snoc, (tree units).mem_opened_insert, ih, htoward, ← and_or_left]
      simp only [List.mem_append, List.mem_singleton, or_and_right, exists_or, exists_eq_left]

/-- **A bundle is made of pieces.** Each unit is copied once, inside the modules of
its package, and each package is opened once, as a module inside those that it is
in. -/
theorem bundle_pieces (units : List SourceUnit) : ∃ pieces : List Piece, Closed pieces ∧
    bundle units = "// @generated by stencil. Do not edit.\n" ++ textOf (located [] pieces) ∧
    (unitsOf (located [] pieces)).Perm (units.map fun u => (u.address.package, u.code)) ∧
    (opened (located [] pieces)).Nodup ∧
    ∀ path, path ∈ opened (located [] pieces) ↔
      path ≠ [] ∧ ∃ u ∈ units, path <+: u.address.package := by
  refine ⟨(tree units).pieces, closed_pieces _, ?_, unitsOf_tree units,
    (tree units).opened_nodup [] (ordered_tree units), fun path => mem_opened_tree⟩
  rw [← Package.write_eq []]
  rfl

end Templating.Packaging

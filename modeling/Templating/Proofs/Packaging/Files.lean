import Templating.Proofs.Files.Places
import Templating.Proofs.Session.Addresses
import Templating.Proofs.Session.Supply

/-!
# The files of a batch

The files of a unit are named after the segments of its address, so they lie below
the directory of the output whatever the template is called. The units of a served
request have addresses of their own, and so each has files of its own, none of which
is a file of the whole batch.
-/

namespace Templating

open Files (IsDown)

/-! ## Files of one unit -/

namespace Address

variable {a b : Address}

/-- The names in a path that ends a word of an address with a suffix. -/
theorem names_qualified (ha : ∀ segment ∈ a.segments, IsWord segment) {suffix : String}
    (hsuffix : '/' ∉ suffix.toList) :
    Files.names (a.qualified "/" ++ suffix) = a.package ++ [a.unitName ++ suffix] := by
  have hwords : ∀ segment ∈ a.package ++ [a.unitName ++ suffix], '/' ∉ segment.toList := by
    intro segment hsegment
    rcases List.mem_append.mp hsegment with hpackage | hunit
    · exact (ha _ (List.mem_append_left _ hpackage)).not_mem (by decide)
    · rw [List.mem_singleton.mp hunit, String.toList_append]
      refine List.mem_append.not.mpr (not_or.mpr ⟨?_, hsuffix⟩)
      exact (ha _ (List.mem_append_right _ List.mem_cons_self)).not_mem (by decide)
  have hpath : (a.qualified "/" ++ suffix).toList =
      ['/'].intercalate ((a.package ++ [a.unitName ++ suffix]).map String.toList) := by
    rw [qualified, String.toList_append, String.toList_intercalate, List.map_append,
      List.map_append, List.map_singleton, List.map_singleton, String.toList_append]
    exact Text.intercalate_concat_append _ _ _ _
  rw [Files.names, hpath, Text.pieces_intercalate (List.forall_mem_map.mpr hwords) (by simp)]
  simp

/-- A word leads down, and it still does with a suffix. -/
theorem IsWord.isDown {segment : String} (h : IsWord segment) (suffix : String) :
    IsDown (segment ++ suffix) := by
  obtain ⟨hne, hplain⟩ := h
  cases hsegment : segment.toList with
  | nil => exact absurd (String.toList_eq_nil_iff.mp hsegment) hne
  | cons c cs =>
      have hc : isPlain c = true := hplain c (by rw [hsegment]; exact List.mem_cons_self)
      have hother (word : String) (hword : word.toList.head?.any isPlain = false) :
          segment ++ suffix ≠ word := by
        rintro rfl
        rw [String.toList_append, hsegment, List.cons_append, List.head?_cons, Option.any_some,
          hc] at hword
        cases hword
      have hempty : segment ++ suffix ≠ "" := hother "" (by decide)
      have hdot : segment ++ suffix ≠ "." := hother "." (by decide)
      exact ⟨by simp [Files.isStill, hempty, hdot], hother ".." (by decide)⟩

/-- **The files of an address lead down.** -/
theorem isDown_qualified (ha : ∀ segment ∈ a.segments, IsWord segment) {suffix : String}
    (hsuffix : '/' ∉ suffix.toList) :
    ∀ name ∈ Files.names (a.qualified "/" ++ suffix), IsDown name := by
  rw [names_qualified ha hsuffix, List.forall_mem_append, List.forall_mem_singleton]
  constructor
  · intro segment hsegment
    have hdown := (ha segment (List.mem_append_left _ hsegment)).isDown ""
    rwa [String.append_empty] at hdown
  · exact (ha _ (List.mem_append_right _ List.mem_cons_self)).isDown suffix

theorem sourceFile_eq (a : Address) :
    a.sourceFile = a.qualified "/" ++ ("." ++ a.target.sourceExtension) :=
  String.append_assoc ..

theorem slash_not_mem_sourceExtension (t : Target) : '/' ∉ ("." ++ t.sourceExtension).toList := by
  cases t <;> decide

/-- An address is known by a file, if its suffix is. -/
theorem segments_eq_of_file (ha : ∀ segment ∈ a.segments, IsWord segment)
    (hb : ∀ segment ∈ b.segments, IsWord segment) {suffix : String}
    (h : a.qualified "/" ++ suffix = b.qualified "/" ++ suffix) : a.segments = b.segments :=
  (qualified_inj ha hb (c := '/') (by decide) (by decide)).mp
    ((String.append_left_inj suffix).mp h)

/-- Source files and binary files do not end alike. -/
theorem sourceFile_ne_binaryFile (a b : Address) : a.sourceFile ≠ b.binaryFile := by
  intro h
  have hlast := congrArg (fun path => path.toList.getLast?) h
  rw [sourceFile, binaryFile] at hlast
  cases htarget : a.target <;>
    simp [htarget, Target.sourceExtension, List.getLast?_append] at hlast

/-- The unit of a template is in no file whose name begins with a small letter. -/
theorem ofName_file_ne (name : Name) (root : String) {suffix : String}
    (hsuffix : '/' ∉ suffix.toList) {file : String} (hfile : Files.names file = [file])
    (hsmall : file.toList.head? ≠ some 'S') :
    (ofName name root).qualified "/" ++ suffix ≠ file := by
  rintro rfl
  rw [names_qualified (isWord_ofName name root) hsuffix] at hfile
  -- Either the file has no directories, or no name is left for it.
  rcases List.append_eq_singleton_iff.mp hfile with ⟨-, hunit⟩ | ⟨-, hnone⟩
  · rw [← (List.singleton_inj.mp hunit), unitName_ofName] at hsmall
    simp at hsmall
  · simp at hnone

end Address

namespace Packaging

/-! ## Files of a batch -/

/-- The files in which a batch is delivered are among those of its units and those of
the whole batch. -/
theorem files_subperm (delivery : Delivery) (units : List SourceUnit) :
    ((files delivery units).map OutputFile.path).Subperm
      (units.map (fun u => u.address.sourceFile) ++ units.map (fun u => u.address.binaryFile) ++
        [bundleFile, manifestFile]) := by
  have hbinary : ((binaryFiles units).map OutputFile.path).Sublist
      (units.map fun u => u.address.binaryFile) := by
    rw [binaryFiles, List.map_map]
    exact List.filter_sublist.map _
  cases delivery with
  | bundle =>
      have hperm : ((files .bundle units).map OutputFile.path).Perm
          ((binaryFiles units).map OutputFile.path ++ [bundleFile, manifestFile]) := by
        simp only [files, List.map_append]
        exact List.perm_middle.symm
      have hsublist :
          ((binaryFiles units).map OutputFile.path ++ [bundleFile, manifestFile]).Sublist
            (units.map (fun u => u.address.sourceFile) ++
              units.map (fun u => u.address.binaryFile) ++ [bundleFile, manifestFile]) :=
        (hbinary.trans (List.sublist_append_right _ _)).append (List.Sublist.refl _)
      exact hperm.subperm.trans hsublist.subperm
  | separate =>
      have hsublist : ((files .separate units).map OutputFile.path).Sublist
          (units.map (fun u => u.address.sourceFile) ++ units.map (fun u => u.address.binaryFile) ++
            [bundleFile, manifestFile]) := by
        simp only [files, List.map_append, List.map_map]
        exact ((List.Sublist.refl _).append hbinary).append (List.sublist_cons_self _ _)
      exact hsublist.subperm

section Batch

variable {c : Configuration} {sources : Table Name String} {names : List Name}
  {units : List SourceUnit} (h : Session.Batched c sources names units)

include h

/-- **The files of units lead down.** -/
theorem isDown_file {u : SourceUnit} (hu : u ∈ units) :
    ∀ path ∈ [u.address.sourceFile, u.address.binaryFile],
      ∀ name ∈ Files.names path, IsDown name := by
  rw [List.forall_mem_cons, List.forall_mem_singleton, Address.sourceFile_eq]
  exact ⟨Address.isDown_qualified (h.isWord hu) (Address.slash_not_mem_sourceExtension _),
    Address.isDown_qualified (h.isWord hu) (by decide)⟩

/-- **The files of a batch are apart**, those of its units from each other and from
those of the whole batch. -/
theorem files_nodup (hservable : Session.Servable c sources names) {target : Target}
    (htarget : ∀ u ∈ units, u.address.target = target) :
    (units.map (fun u => u.address.sourceFile) ++ units.map (fun u => u.address.binaryFile) ++
      [bundleFile, manifestFile]).Nodup := by
  have hsame {u v : SourceUnit} (hu : u ∈ units) (hv : v ∈ units) {suffix : String}
      (hfile : u.address.qualified "/" ++ suffix = v.address.qualified "/" ++ suffix) : u = v := by
    have hsegments := Address.segments_eq_of_file (h.isWord hu) (h.isWord hv) hfile
    exact h.eq_of_segments hservable hu hv ((htarget u hu).trans (htarget v hv).symm) hsegments
  have hnodup : units.Nodup := List.Nodup.of_map _ h.nodup
  have hshared {u : SourceUnit} (hu : u ∈ units) :
      ∀ file ∈ [bundleFile, manifestFile], u.address.sourceFile ≠ file ∧
        u.address.binaryFile ≠ file := by
    have hapart {file : String} (hfile : Files.names file = [file])
        (hsmall : file.toList.head? ≠ some 'S') :
        u.address.sourceFile ≠ file ∧ u.address.binaryFile ≠ file := by
      rw [Address.sourceFile_eq, h.address_eq hu]
      exact ⟨Address.ofName_file_ne _ _ (Address.slash_not_mem_sourceExtension _) hfile hsmall,
        Address.ofName_file_ne _ _ (by decide) hfile hsmall⟩
    rw [List.forall_mem_cons, List.forall_mem_singleton]
    exact ⟨hapart (by decide) (by decide), hapart (by decide) (by decide)⟩
  rw [List.nodup_append, List.nodup_append]
  refine ⟨⟨?_, ?_, ?_⟩, by decide, ?_⟩
  · apply hnodup.map_on
    intro u hu v hv hfile
    rw [Address.sourceFile_eq, Address.sourceFile_eq, htarget u hu, htarget v hv] at hfile
    exact hsame hu hv hfile
  · exact hnodup.map_on fun u hu v hv hfile => hsame hu hv hfile
  · intro source hsource binary hbinary
    obtain ⟨u, -, rfl⟩ := List.mem_map.mp hsource
    obtain ⟨v, -, rfl⟩ := List.mem_map.mp hbinary
    exact Address.sourceFile_ne_binaryFile _ _
  · intro path hpath file hfile
    rcases List.mem_append.mp hpath with hpath | hpath
    · obtain ⟨u, hu, rfl⟩ := List.mem_map.mp hpath
      exact (hshared hu file hfile).1
    · obtain ⟨u, hu, rfl⟩ := List.mem_map.mp hpath
      exact (hshared hu file hfile).2

/-- **The files in which a batch is delivered lead down.** -/
theorem isDown_files (delivery : Delivery) :
    ∀ f ∈ files delivery units, ∀ name ∈ Files.names f.path, IsDown name := by
  intro f hf
  have hmem := (files_subperm delivery units).subset (List.mem_map_of_mem hf)
  rw [List.mem_append, List.mem_append] at hmem
  rcases hmem with (hmem | hmem) | hmem
  · obtain ⟨u, hu, hpath⟩ := List.mem_map.mp hmem
    exact hpath ▸ isDown_file h hu _ List.mem_cons_self
  · obtain ⟨u, hu, hpath⟩ := List.mem_map.mp hmem
    exact hpath ▸ isDown_file h hu _ (List.mem_cons_of_mem _ List.mem_cons_self)
  · have hshared : ∀ path ∈ [bundleFile, manifestFile],
        ∀ name ∈ Files.names path, IsDown name := by decide
    exact hshared _ hmem

/-- **They are apart.** -/
theorem paths_nodup (hservable : Session.Servable c sources names) {target : Target}
    (htarget : ∀ u ∈ units, u.address.target = target) (delivery : Delivery) :
    ((files delivery units).map OutputFile.path).Nodup := by
  obtain ⟨paths, hperm, hsublist⟩ := files_subperm delivery units
  exact hperm.nodup_iff.mp ((files_nodup h hservable htarget).sublist hsublist)

end Batch

/-! ## Delivery -/

section Deliver

variable {delivery : Delivery} {units : List SourceUnit}
  (hdown : ∀ f ∈ files delivery units, ∀ name ∈ Files.names f.path, IsDown name)

include hdown

/-- **A delivery writes its files below the directory**, and each of them is there in
the end if none fails. -/
theorem deliver_files (hnodup : ((files delivery units).map OutputFile.path).Nodup)
    (here : Files.Place) (directory : String) (tree : Files.Tree) :
    (∀ place, (∀ f ∈ files delivery units,
        place ≠ Files.destination here directory ++ Files.names f.path) →
      (deliver delivery here directory units tree).1.files.get? place = tree.files.get? place) ∧
    ((deliver delivery here directory units tree).2 = none → ∀ f ∈ files delivery units,
      (deliver delivery here directory units tree).1.files.get?
        (Files.destination here directory ++ Files.names f.path) =
          some { content := f.content }) := by
  have hplaces : ((files delivery units).map fun f =>
      (Files.join directory f.path, ({ content := f.content } : Files.File))).map
        (fun f => Files.destination here f.1) =
      (files delivery units).map fun f =>
        Files.destination here directory ++ Files.names f.path := by
    rw [List.map_map]
    apply List.map_congr_left
    intro f hf
    exact Files.destination_join (hdown f hf) here directory
  unfold deliver
  obtain ⟨hframe, hwritten⟩ := Files.Tree.writeAll_files (Prod.eta (tree.writeAll here
    ((files delivery units).map fun f =>
      (Files.join directory f.path, { content := f.content })))).symm
  rw [hplaces] at hframe hwritten
  constructor
  · intro place hplace
    apply hframe
    intro hmem
    obtain ⟨f, hf, rfl⟩ := List.mem_map.mp hmem
    exact hplace f hf rfl
  · intro hnone f hf
    have hinjective : Function.Injective fun path =>
        Files.destination here directory ++ Files.names path :=
      fun a b hab => Files.names_injective (List.append_cancel_left hab)
    have hapart := hnodup.map hinjective
    rw [List.map_map] at hapart
    rw [← Files.destination_join (hdown f hf)]
    exact hwritten hnone hapart (Files.join directory f.path, { content := f.content })
      (List.mem_map.mpr ⟨f, hf, rfl⟩)

end Deliver

/-- **A delivery in a bundle leaves the text of the bundle in its file**, if none
fails. -/
theorem delivered_bundle {c : Configuration} {sources : Table Name String} {names : List Name}
    {units : List SourceUnit} (h : Session.Batched c sources names units)
    (hservable : Session.Servable c sources names) {target : Target}
    (htarget : ∀ u ∈ units, u.address.target = target) (here : Files.Place) (directory : String)
    (tree : Files.Tree) (hnone : (deliver .bundle here directory units tree).2 = none) :
    (deliver .bundle here directory units tree).1.files.get?
      (Files.destination here directory ++ [bundleFile]) =
        some { content := Text.toBytes (bundle units).toList } := by
  have hmem : textFile bundleFile (bundle units) ∈ files .bundle units := by
    rw [files, List.append_assoc]
    exact List.mem_append_left _ List.mem_cons_self
  have hnames : Files.names (textFile bundleFile (bundle units)).path = [bundleFile] := by
    show Files.names bundleFile = [bundleFile]
    decide
  have hfile := (deliver_files (isDown_files h .bundle) (paths_nodup h hservable htarget .bundle)
    here directory tree).2 hnone _ hmem
  rw [hnames] at hfile
  exact hfile

end Packaging

namespace Session

variable {L : Type} [Library L]

/-- **Units never write over each other's files**, and what they write stays below
the directory of the output. The files of a unit are named by words, and so lead down
from wherever they are joined to; no two files of a batch are the same; and whatever
the delivery and the directory, each file that is delivered is at its own place below
the directory, and no other file is touched. -/
theorem files_apart {s : Session L} {names : List Name} {batch : Batch}
    (h : ((generate names).run s).1 = .ok batch) {target : Target}
    (htarget : ∀ u ∈ batch.units, u.address.target = target) :
    (∀ u ∈ batch.units, ∃ segments : List String, segments ≠ [] ∧
      (∀ segment ∈ segments, Address.IsWord segment) ∧
      u.address.sourceFile =
        String.intercalate "/" segments ++ "." ++ target.sourceExtension ∧
      u.address.binaryFile = String.intercalate "/" segments ++ ".bin" ∧
      ∀ path ∈ [u.address.sourceFile, u.address.binaryFile], Files.isAbsolute path = false ∧
        ∀ name ∈ Files.names path, IsDown name) ∧
    (batch.units.map (fun u => u.address.sourceFile) ++
      batch.units.map (fun u => u.address.binaryFile) ++
      [Packaging.bundleFile, Packaging.manifestFile]).Nodup ∧
    ∀ (delivery : Delivery) (here : Files.Place) (directory : String) (tree : Files.Tree),
      (∀ place, (∀ below, place ≠ Files.destination here directory ++ below) →
        (Packaging.deliver delivery here directory batch.units tree).1.files.get? place =
          tree.files.get? place) ∧
      ((Packaging.deliver delivery here directory batch.units tree).2 = none →
        ∀ f ∈ Packaging.files delivery batch.units,
          (Packaging.deliver delivery here directory batch.units tree).1.files.get?
            (Files.destination here directory ++ Files.names f.path) =
              some { content := f.content }) := by
  obtain ⟨sources, -, hbatched, hservable⟩ := batched_of_ok h
  have hnodup := Packaging.files_nodup hbatched hservable htarget
  refine ⟨?_, hnodup, ?_⟩
  · intro u hu
    refine ⟨u.address.segments, u.address.segments_ne_nil, hbatched.isWord hu, ?_, rfl, ?_⟩
    · rw [← htarget u hu]
      rfl
    · intro path hpath
      have hdown := Packaging.isDown_file hbatched hu path hpath
      exact ⟨Files.isAbsolute_of_isDown hdown, hdown⟩
  · intro delivery here directory tree
    have hdelivered := Packaging.deliver_files (Packaging.isDown_files hbatched delivery)
      (Packaging.paths_nodup hbatched hservable htarget delivery) here directory tree
    exact ⟨fun place hplace => hdelivered.1 place fun f _ => hplace _, hdelivered.2⟩

/-- Names that would lead out of the directory, or have parts that are empty. -/
theorem files_apart_odd :
    let memory : Memory := ((({} : Memory).insert ⟨"../é-b/a.stn"⟩ "a").insert
      ⟨"tag//.stn"⟩ "b").insert ⟨"/c/..stn"⟩ "@tag..()"
    let s : Session Memory := { configuration := { package := "" }, library := memory }
    ∃ batch, ((generate [⟨"../é-b/a.stn"⟩, ⟨"/c/..stn"⟩]).run s).1 = .ok batch ∧
      batch.units.map SourceUnit.template = [⟨"../é-b/a.stn"⟩, ⟨"tag//.stn"⟩, ⟨"/c/..stn"⟩] ∧
      (batch.units.map (fun u => u.address.sourceFile) ++
        batch.units.map (fun u => u.address.binaryFile) ++
        [Packaging.bundleFile, Packaging.manifestFile]).Nodup := by
  intro memory s
  obtain ⟨batch, hok, htemplates⟩ : ∃ batch,
      ((generate [⟨"../é-b/a.stn"⟩, ⟨"/c/..stn"⟩]).run s).1 = .ok batch ∧
        batch.units.map SourceUnit.template =
          [⟨"../é-b/a.stn"⟩, ⟨"tag//.stn"⟩, ⟨"/c/..stn"⟩] :=
    exists_batch (by decide +kernel)
  have htarget := (served_of_ok hok).batched.forall_target htemplates (t := .rust) (by decide)
  exact ⟨batch, hok, htemplates, (files_apart hok htarget).2.1⟩

end Session

end Templating

import Ontogram.Proofs.Storage.Output
import Ontogram.Proofs.Storage.WellFormed

/-!
# Output stays in its directory

Names of ontologies are free texts, and a run that writes a diagram can end at any of its files.
However far it comes, it has set the texts of some files of the diagram and of no others: creating
the output directory changes no file, and each file is written to its own path only. These paths are
the output directory with one name each, a name that leads to an entry of that directory.

* `isFileName_of_mem_pathsOf` — the names that are joined to the output directory.
* `leaves_write` — what is there after a run, one of the trees that a stopped run can leave.
* `Leaves.text?_of_forall_ne` — files that no path of the diagram leads to keep their texts.
* `write_stays_in_directory` — both together, with the place of each file that changed.
* `wellFormed_write` — all that is there after a run stands in a directory.
-/

namespace Ontogram.Storage.OutputDirectory

variable {o : OutputDirectory} {d : CompiledDiagram} {tree : FileTree}

/-! ## Names -/

/-- The name of a file in a directory: not empty, without separators, and no step that stays in the
directory or leaves it. -/
structure IsFileName (name : String) : Prop where
  ne_empty : name ≠ ""
  slash_notMem : '/' ∉ name.toList
  backslash_notMem : '\\' ∉ name.toList
  ne_here : name ≠ "."
  ne_above : name ≠ ".."

theorem IsFileName.isName {name : String} (h : IsFileName name) : Path.IsName name where
  notMem := h.slash_notMem
  not_idle := by
    unfold Path.isIdle
    rw [Bool.or_eq_false_iff, decide_eq_false_iff_not, decide_eq_false_iff_not]
    exact ⟨h.ne_empty, h.ne_here⟩
  ne_above := h.ne_above

theorem isFileName_of_extension {stem : String} (hslash : '/' ∉ stem.toList)
    (hbackslash : '\\' ∉ stem.toList) : IsFileName (stem ++ ".json") := by
  have hname := isName_of_extension hslash
  have hidle := hname.not_idle
  unfold Path.isIdle at hidle
  rw [Bool.or_eq_false_iff, decide_eq_false_iff_not, decide_eq_false_iff_not] at hidle
  refine ⟨hidle.1, hname.notMem, ?_, hidle.2, hname.ne_above⟩
  rw [String.toList_append, List.mem_append, not_or]
  exact ⟨hbackslash, by decide⟩

/-- The paths of the files of a diagram, the report last. -/
def pathsOf (o : OutputDirectory) (d : CompiledDiagram) : List String :=
  d.ontologies.map o.pathFor ++ [o.reportPath]

theorem map_fst_filesOf (o : OutputDirectory) (d : CompiledDiagram) :
    (o.filesOf d).map Prod.fst = o.pathsOf d := by
  unfold filesOf pathsOf
  rw [List.map_append, List.map_map, List.map_singleton]
  simp only [Function.comp_def]

/-- **Each path is the output directory with one name.** -/
theorem isFileName_of_mem_pathsOf {path : String} (h : path ∈ o.pathsOf d) :
    ∃ name, IsFileName name ∧ path = Path.join o.path name := by
  rcases List.mem_append.1 h with h | h
  · obtain ⟨x, -, rfl⟩ := List.mem_map.1 h
    exact ⟨fileStem x.name ++ ".json", isFileName_of_extension
      (separator_notMem_fileStem (.inl rfl) x.name) (separator_notMem_fileStem (.inr rfl) x.name),
      rfl⟩
  · exact ⟨"report" ++ ".json", isFileName_of_extension (by decide) (by decide),
      List.mem_singleton.1 h⟩

/-! ## Texts -/

/-- Files that are not written keep their texts, whether or not all others can be written. -/
theorem text?_writeAll_of_forall_ne {files : List (String × String)} {p : List String}
    (h : ∀ file ∈ files, tree.locate? file.1 ≠ some p) :
    (writeAll files tree).1.text? p = tree.text? p := by
  induction files generalizing tree with
  | nil => rfl
  | cons file rest ih =>
    unfold writeAll
    split
    · next written hwritten =>
      obtain ⟨q, hq, rfl⟩ := write?_eq_some hwritten
      have hne : p ≠ q := fun heq => h file List.mem_cons_self (heq ▸ hq)
      rw [ih, FileTree.text?_setText, if_neg hne]
      intro other hother
      rw [locate?_setText]
      exact h other (List.mem_cons_of_mem _ hother)
    · rfl

/-- What a run can leave behind, wherever it is stopped: some directories are made, and some of the
files are written, from the first one on. A file that is cut short can have any text. -/
def Leaves (o : OutputDirectory) (d : CompiledDiagram) (tree after : FileTree) : Prop :=
  ∃ made files, made.files = tree.files ∧ files.map Prod.fst <+: o.pathsOf d ∧
    after = (writeAll files made).1

/-- **A file that no path of the diagram leads to keeps its text, wherever a run is stopped.** -/
theorem Leaves.text?_of_forall_ne {after : FileTree} (h : o.Leaves d tree after) {p : List String}
    (hp : ∀ path ∈ o.pathsOf d, after.locate? path ≠ some p) : after.text? p = tree.text? p := by
  obtain ⟨made, files, hfiles, hpaths, rfl⟩ := h
  have hmade : made.text? p = tree.text? p := by
    unfold FileTree.text?
    rw [hfiles]
  rw [text?_writeAll_of_forall_ne, hmade]
  intro file hfile
  rw [← locate?_writeAll made files]
  exact hp file.1 (hpaths.mem (List.mem_map_of_mem hfile))

/-- How far a run can come: it ends with the directories that could be created, or it writes files
into them. The directories are created without a change to any file. -/
theorem write_cases (o : OutputDirectory) (d : CompiledDiagram) (tree : FileTree) :
    ∃ made : FileTree, made.files = tree.files ∧
      ((o.write d tree) = (made, .error (.createOutput o.path)) ∨
        (∃ failure, o.write d tree = ((writeAll (o.filesOf d) made).1, .error failure)) ∨
        o.write d tree = ((writeAll (o.filesOf d) made).1, .ok (o.pathsOf d))) := by
  have hfiles := tree.createDirs_files o.path
  unfold write
  split
  · next made hmade =>
    rw [hmade] at hfiles
    exact ⟨made, hfiles, .inl rfl⟩
  · next made hmade =>
    rw [hmade] at hfiles
    refine ⟨made, hfiles, .inr ?_⟩
    split
    · next written failure hwritten => exact .inl ⟨failure, by rw [hwritten]⟩
    · next written hwritten => exact .inr (by rw [hwritten, map_fst_filesOf])

theorem leaves_write (o : OutputDirectory) (d : CompiledDiagram) (tree : FileTree) :
    o.Leaves d tree (o.write d tree).1 := by
  obtain ⟨made, hfiles, heq | ⟨failure, heq⟩ | heq⟩ := o.write_cases d tree
  · exact ⟨made, [], hfiles, List.nil_prefix, congrArg Prod.fst heq⟩
  · exact ⟨made, o.filesOf d, hfiles, map_fst_filesOf o d ▸ List.prefix_rfl, congrArg Prod.fst heq⟩
  · exact ⟨made, o.filesOf d, hfiles, map_fst_filesOf o d ▸ List.prefix_rfl, congrArg Prod.fst heq⟩

/-- A file that changed is an entry of the directory that the output path leads to. -/
theorem Leaves.exists_place {after : FileTree} (h : o.Leaves d tree after) {p : List String}
    (hp : after.text? p ≠ tree.text? p) :
    ∃ place name, after.locate? (Path.join o.path ".") = some place ∧
      after.isDir place = true ∧ IsFileName name ∧ p = place ++ [name] := by
  obtain ⟨path, hpath, hleads⟩ : ∃ path ∈ o.pathsOf d, after.locate? path = some p := by
    by_contra hnone
    exact hp (h.text?_of_forall_ne fun path hpath heq => hnone ⟨path, hpath, heq⟩)
  obtain ⟨name, hname, rfl⟩ := isFileName_of_mem_pathsOf hpath
  obtain ⟨place, hplace, hdir, rfl⟩ := FileTree.exists_place_of_locate?_join hname.isName hleads
  exact ⟨place, name, hplace, hdir, hname, rfl⟩

/-- **Whether or not a diagram can be written, the output stays in its directory.** A file that no
path of the diagram leads to keeps its text, also if the run is stopped from outside; each of these
paths is the output directory with one name; so a file that changed is an entry of the directory
that the output path leads to. A run that succeeds gives these paths, one for each ontology in
order, the report last. -/
theorem write_stays_in_directory (o : OutputDirectory) (d : CompiledDiagram) (tree : FileTree) :
    (∀ p, (∀ path ∈ d.ontologies.map o.pathFor ++ [o.reportPath],
        (o.write d tree).1.locate? path ≠ some p) →
      (o.write d tree).1.text? p = tree.text? p) ∧
    (∀ after, o.Leaves d tree after → ∀ p,
      (∀ path ∈ d.ontologies.map o.pathFor ++ [o.reportPath], after.locate? path ≠ some p) →
      after.text? p = tree.text? p) ∧
    (∀ path ∈ d.ontologies.map o.pathFor ++ [o.reportPath],
      ∃ name, IsFileName name ∧ path = Path.join o.path name) ∧
    (∀ p, (o.write d tree).1.text? p ≠ tree.text? p →
      ∃ place name, (o.write d tree).1.locate? (Path.join o.path ".") = some place ∧
        (o.write d tree).1.isDir place = true ∧ IsFileName name ∧ p = place ++ [name]) ∧
    ∀ paths, (o.write d tree).2 = .ok paths →
      paths = d.ontologies.map o.pathFor ++ [o.reportPath] := by
  have hwrite := o.leaves_write d tree
  refine ⟨fun p hp => hwrite.text?_of_forall_ne hp, fun after h p hp => h.text?_of_forall_ne hp,
    fun path h => isFileName_of_mem_pathsOf h, fun p hp => hwrite.exists_place hp,
    fun paths h => ?_⟩
  obtain ⟨made, -, heq | ⟨failure, heq⟩ | heq⟩ := o.write_cases d tree
  · rw [heq] at h
    cases h
  · rw [heq] at h
    cases h
  · rw [heq] at h
    exact (Except.ok.inj h).symm

/-- A directory in the place of the second file stops a run. The first file, whose name would lead
out of the output directory, is an entry of it, and what stands above keeps its text. -/
example :
    let d : CompiledDiagram := ⟨[⟨"r1", "../a", []⟩, ⟨"r2", "", []⟩], ⟨[], [], []⟩⟩
    let tree : FileTree :=
      ⟨[], [(["a.json"], "[]")], [["out"], ["out", "unnamed.json"]]⟩
    (write ⟨"out"⟩ d tree).2 = .error (.writeFile "out/unnamed.json") ∧
      (write ⟨"out"⟩ d tree).1.files = [(["a.json"], "[]"), (["out", ".._a.json"], "[]")] := by
  decide +kernel

/-! ## The tree -/

theorem wellFormed_writeAll (ht : tree.WellFormed) (files : List (String × String)) :
    (writeAll files tree).1.WellFormed := by
  induction files generalizing tree with
  | nil => exact ht
  | cons file rest ih =>
    unfold writeAll
    split
    · next written hwritten => exact ih (ht.write? hwritten)
    · exact ht

/-- Writing a diagram keeps a tree a tree, however far the run comes. -/
theorem wellFormed_write (ht : tree.WellFormed) : (o.write d tree).1.WellFormed := by
  have hmade := ht.createDirs o.path
  unfold write
  split
  · next made heq => rwa [heq] at hmade
  · next made heq =>
    rw [heq] at hmade
    have hwritten := wellFormed_writeAll hmade (o.filesOf d)
    split
    · next heq => rwa [heq] at hwritten
    · next heq => rwa [heq] at hwritten

end Ontogram.Storage.OutputDirectory

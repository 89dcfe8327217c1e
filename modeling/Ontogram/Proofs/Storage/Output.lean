import Mathlib.Data.List.Find
import Ontogram.Proofs.Diagram.Report
import Ontogram.Proofs.Storage.FileTree
import Ontogram.Storage.Output

/-!
# What is in an output directory

A diagram is written file by file, and a file that is written twice has its last text. Which files
are the same shows in their names alone: ontologies share a file if their names differ in nothing
but separators of paths, or if one is called `unnamed` and the other has no name, and an ontology
that is called `report` shares its file with the report. The report is written last.

* `text?_writeAll` — the texts after some files are written in turn.
* `read?_written` — the text of each file of a diagram.
* `table_read_back` — the table of an ontology that has a file of its own.
* `written_files_read_back` — the report, and the table that the file of an ontology has in the end.
-/

namespace Ontogram.Storage.OutputDirectory

variable {o : OutputDirectory} {d : CompiledDiagram} {tree tree' : FileTree}

/-! ## Writing in turn -/

theorem write?_eq_some {path text : String} (h : tree.write? path text = some tree') :
    ∃ p, tree.locate? path = some p ∧ tree' = tree.setText p text := by
  unfold FileTree.write? at h
  split at h
  · next p hp =>
    split at h
    · cases h
    · exact ⟨p, hp, (Option.some.inj h).symm⟩
  · cases h

theorem writeAll_cons {path text : String} {rest : List (String × String)}
    (h : writeAll ((path, text) :: rest) tree = (tree', none)) :
    ∃ p, tree.locate? path = some p ∧ writeAll rest (tree.setText p text) = (tree', none) := by
  unfold writeAll at h
  split at h
  · next written hwritten =>
    obtain ⟨p, hp, rfl⟩ := write?_eq_some hwritten
    exact ⟨p, hp, h⟩
  · cases h

theorem locate?_setText (p : List String) (text path : String) :
    (tree.setText p text).locate? path = tree.locate? path :=
  FileTree.locate?_congr (tree.setText_here p text) (tree.setText_dirs p text) path

/-- Writing files changes no place, however far it comes. -/
theorem locate?_writeAll (tree : FileTree) (files : List (String × String)) (path : String) :
    (writeAll files tree).1.locate? path = tree.locate? path := by
  induction files generalizing tree with
  | nil => rfl
  | cons file rest ih =>
    unfold writeAll
    split
    · next written hwritten =>
      obtain ⟨p, -, rfl⟩ := write?_eq_some hwritten
      rw [ih, locate?_setText]
    · rfl

/-- Every file that is written has a place. -/
theorem exists_locate?_of_writeAll {files : List (String × String)}
    (h : writeAll files tree = (tree', none)) {path text : String}
    (hfile : (path, text) ∈ files) : ∃ p, tree.locate? path = some p := by
  induction files generalizing tree with
  | nil => exact absurd hfile List.not_mem_nil
  | cons first rest ih =>
    obtain ⟨p, hp, hrest⟩ := writeAll_cons h
    rcases List.mem_cons.1 hfile with rfl | hfile
    · exact ⟨p, hp⟩
    · obtain ⟨q, hq⟩ := ih hrest hfile
      exact ⟨q, by rwa [locate?_setText] at hq⟩

/-- **A place has the text of the last file that is written to it.** -/
theorem text?_writeAll {files : List (String × String)} (h : writeAll files tree = (tree', none))
    (p : List String) :
    tree'.text? p =
      ((files.reverse.find? fun f => tree.locate? f.1 == some p).map Prod.snd).or
        (tree.text? p) := by
  induction files generalizing tree with
  | nil =>
    obtain rfl := (Prod.mk.inj h).1
    rfl
  | cons file rest ih =>
    obtain ⟨q, hq, hrest⟩ := writeAll_cons h
    rw [ih hrest, List.reverse_cons, List.find?_append]
    simp only [locate?_setText, FileTree.text?_setText]
    cases hfind : rest.reverse.find? fun f => tree.locate? f.1 == some p with
    | some f => rfl
    | none =>
      by_cases heq : p = q
      · simp [hq, heq]
      · simp [hq, heq, Ne.symm heq]

/-! ## The files of a diagram -/

/-- The file name of an ontology. -/
def fileName (name : String) : String :=
  fileStem name ++ ".json"

/-- The names of the files of a diagram with their texts, the report last. -/
def namedTexts (d : CompiledDiagram) : List (String × String) :=
  d.ontologies.map (fun x => (fileName x.name, (Row.tableToJson x.relationships).pretty))
    ++ [(reportFile, d.report.toJson.pretty)]

theorem filesOf_eq (o : OutputDirectory) (d : CompiledDiagram) :
    o.filesOf d = (namedTexts d).map fun e => (Path.join o.path e.1, e.2) := by
  unfold filesOf namedTexts
  rw [List.map_append, List.map_map]
  rfl

theorem separator_notMem_fileStem {c : Char} (hc : c = '/' ∨ c = '\\') (name : String) :
    c ∉ (fileStem name).toList := by
  unfold fileStem
  dsimp only
  split
  · rcases hc with rfl | rfl <;> decide
  · unfold withoutSeparators
    rw [String.toList_ofList]
    intro h
    obtain ⟨c', -, hc'⟩ := List.mem_map.1 h
    split at hc'
    · rw [← hc'] at hc
      exact absurd hc (by decide)
    · next hsep =>
      rw [hc'] at hsep
      exact hsep (by simpa using hc)

/-- The name of a file with an extension leads to an entry of its directory. -/
theorem isName_of_extension {stem : String} (h : '/' ∉ stem.toList) :
    Path.IsName (stem ++ ".json") := by
  have hlong : ∀ {s : String}, s.toList.length < 5 → stem ++ ".json" ≠ s := by
    rintro s hs rfl
    have hjson : ".json".toList.length = 5 := by decide
    rw [String.toList_append, List.length_append] at hs
    omega
  refine ⟨?_, ?_, hlong (by decide)⟩
  · rw [String.toList_append, List.mem_append, not_or]
    exact ⟨h, by decide⟩
  · unfold Path.isIdle
    rw [Bool.or_eq_false_iff, decide_eq_false_iff_not, decide_eq_false_iff_not]
    exact ⟨hlong (by decide), hlong (by decide)⟩

theorem isName_of_mem_namedTexts {e : String × String} (he : e ∈ namedTexts d) :
    Path.IsName e.1 := by
  rcases List.mem_append.1 he with he | he
  · obtain ⟨x, -, rfl⟩ := List.mem_map.1 he
    exact isName_of_extension (separator_notMem_fileStem (.inl rfl) x.name)
  · obtain rfl := List.mem_singleton.1 he
    show Path.IsName ("report" ++ ".json")
    exact isName_of_extension (by decide)

theorem write_ok {paths : List String} (h : (o.write d tree).2 = .ok paths) :
    ∃ made, writeAll (o.filesOf d) made = ((o.write d tree).1, none) := by
  unfold write at h ⊢
  split at h
  · cases h
  · next made _ =>
    refine ⟨made, ?_⟩
    split at h
    · cases h
    · next written hwritten => rw [hwritten]

/-- **A file of a diagram has the last text that the diagram has for its name.** -/
theorem read?_written {paths : List String} (h : (o.write d tree).2 = .ok paths)
    {name text : String} (hname : (name, text) ∈ namedTexts d) :
    (o.write d tree).1.read? (Path.join o.path name) =
      ((namedTexts d).reverse.find? fun e => e.1 == name).map Prod.snd := by
  obtain ⟨made, hmade⟩ := write_ok h
  rw [filesOf_eq] at hmade
  have hplace : ∀ e ∈ namedTexts d, ∃ p, made.locate? (Path.join o.path e.1) = some p :=
    fun _ he => exists_locate?_of_writeAll hmade (List.mem_map_of_mem he)
  obtain ⟨p, hp⟩ := hplace _ hname
  -- A file is at the place of the one that is read exactly if it has the same name.
  have hsame : ∀ e ∈ (namedTexts d).reverse,
      (made.locate? (Path.join o.path e.1) == some p) = (e.1 == name) := by
    intro e he
    rw [List.mem_reverse] at he
    obtain ⟨q, hq⟩ := hplace e he
    rw [hq, Bool.eq_iff_iff, beq_iff_eq, beq_iff_eq]
    constructor
    · intro heq
      exact FileTree.locate?_join_inj (isName_of_mem_namedTexts he)
        (isName_of_mem_namedTexts hname) (hq.trans heq) hp
    · intro heq
      rw [← hq, heq, hp]
  obtain ⟨last, hlast⟩ : ∃ e, (namedTexts d).reverse.find? (fun e => e.1 == name) = some e :=
    Option.isSome_iff_exists.1
      (List.find?_isSome.2 ⟨_, List.mem_reverse.2 hname, beq_self_eq_true name⟩)
  unfold FileTree.read?
  have hlocate : (o.write d tree).1.locate? (Path.join o.path name) =
      made.locate? (Path.join o.path name) := by
    have hplaces := locate?_writeAll made ((namedTexts d).map fun e =>
      (Path.join o.path e.1, e.2)) (Path.join o.path name)
    rwa [hmade] at hplaces
  rw [hlocate, hp, Option.bind_some, text?_writeAll hmade, ← List.map_reverse, List.find?_map]
  simp only [Function.comp_def]
  rw [List.find?_congr hsame, hlast]
  rfl

/-! ## Tables and the report -/

/-- Reads a table from a file. -/
def readTable? (tree : FileTree) (path : String) : Option (List Row) :=
  (tree.read? path).bind fun text => (Json.parse? text).bind Row.tableOfJson?

/-- Reads a report from a file. -/
def readReport? (tree : FileTree) (path : String) : Option CompileReport :=
  (tree.read? path).bind fun text => (Json.parse? text).bind CompileReport.ofJson?

/-- The ontology whose table is in the file of a name in the end: the last one whose file that is,
but none if it is the file of the report. -/
def lastInFile? (d : CompiledDiagram) (name : String) : Option CompiledOntology :=
  if fileStem name = "report" then none
  else d.ontologies.reverse.find? fun y => fileStem y.name == fileStem name

theorem fileName_eq_iff {m n : String} : fileName m = fileName n ↔ fileStem m = fileStem n :=
  String.append_left_inj _

theorem fileName_eq_reportFile_iff {name : String} :
    fileName name = reportFile ↔ fileStem name = "report" := by
  show fileStem name ++ ".json" = "report" ++ ".json" ↔ _
  exact String.append_left_inj _

theorem reverse_namedTexts (d : CompiledDiagram) :
    (namedTexts d).reverse = (reportFile, d.report.toJson.pretty) ::
      d.ontologies.reverse.map fun x => (fileName x.name, (Row.tableToJson x.relationships).pretty) := by
  unfold namedTexts
  rw [List.reverse_append, List.map_reverse]
  rfl

/-- The report is written last, so its file is its own. -/
theorem readReport?_written {paths : List String} (h : (o.write d tree).2 = .ok paths)
    (hfit : d.report.CountsFit) :
    readReport? (o.write d tree).1 o.reportPath = some d.report := by
  have hread := read?_written h (List.mem_append_right _ (List.mem_singleton_self _))
  rw [reverse_namedTexts, List.find?_cons_of_pos (by exact beq_self_eq_true reportFile),
    Option.map_some] at hread
  unfold readReport? reportPath
  rw [hread, Option.bind_some]
  exact CompileReport.parse_report hfit

/-- The file of an ontology has the table of the last ontology whose file it is, but no table if it
is the file of the report. -/
theorem readTable?_written {paths : List String} (h : (o.write d tree).2 = .ok paths)
    {x : CompiledOntology} (hx : x ∈ d.ontologies) :
    readTable? (o.write d tree).1 (o.pathFor x) =
      (lastInFile? d x.name).map CompiledOntology.relationships := by
  have hread : (o.write d tree).1.read? (o.pathFor x) =
      ((namedTexts d).reverse.find? fun e => e.1 == fileName x.name).map Prod.snd :=
    read?_written h (List.mem_append_left _ (List.mem_map_of_mem hx))
  rw [reverse_namedTexts] at hread
  unfold readTable? lastInFile?
  rw [hread]
  split
  · next hreport =>
    have heq : (reportFile == fileName x.name) = true :=
      beq_iff_eq.2 (fileName_eq_reportFile_iff.2 hreport).symm
    rw [List.find?_cons_of_pos (by exact heq), Option.map_some, Option.bind_some]
    exact d.report.parse_report_table
  · next hreport =>
    have hne : ¬ (reportFile == fileName x.name) = true := fun heq =>
      hreport (fileName_eq_reportFile_iff.1 (beq_iff_eq.1 heq).symm)
    have hsame : ∀ y ∈ d.ontologies.reverse,
        (fileName y.name == fileName x.name) = (fileStem y.name == fileStem x.name) := by
      intro y _
      rw [Bool.eq_iff_iff, beq_iff_eq, beq_iff_eq]
      exact fileName_eq_iff
    rw [List.find?_cons_of_neg (by exact hne), List.find?_map]
    simp only [Function.comp_def]
    rw [List.find?_congr hsame]
    cases d.ontologies.reverse.find? fun y => fileStem y.name == fileStem x.name with
    | none => rfl
    | some y => exact Row.parse_table y.relationships

/-- An ontology whose file is neither that of another ontology nor that of the report has its table
there. -/
theorem table_read_back {paths : List String} (h : (o.write d tree).2 = .ok paths)
    {x : CompiledOntology} (hx : x ∈ d.ontologies) (hreport : fileStem x.name ≠ "report")
    (hown : ∀ y ∈ d.ontologies, fileStem y.name = fileStem x.name → y = x) :
    readTable? (o.write d tree).1 (o.pathFor x) = some x.relationships := by
  rw [readTable?_written h hx]
  unfold lastInFile?
  rw [if_neg hreport]
  cases hlast : d.ontologies.reverse.find? fun y => fileStem y.name == fileStem x.name with
  | none =>
    have hx := List.find?_eq_none.1 hlast x (List.mem_reverse.2 hx)
    exact absurd (beq_self_eq_true _) hx
  | some y =>
    obtain rfl := hown y (List.mem_reverse.1 (List.mem_of_find?_eq_some hlast))
      (beq_iff_eq.1 (List.find?_some hlast :))
    rfl

/-- **After a diagram is written, the report is read back, and from the file of an ontology the table
of the last ontology whose file that is; from the file of the report no table is read.** So an
ontology that has its file to itself is read back. -/
theorem written_files_read_back {paths : List String} (h : (o.write d tree).2 = .ok paths)
    (hfit : d.report.CountsFit) :
    readReport? (o.write d tree).1 o.reportPath = some d.report ∧
      ∀ x ∈ d.ontologies,
        readTable? (o.write d tree).1 (o.pathFor x) =
          (lastInFile? d x.name).map CompiledOntology.relationships ∧
        (fileStem x.name ≠ "report" →
          (∀ y ∈ d.ontologies, fileStem y.name = fileStem x.name → y = x) →
          readTable? (o.write d tree).1 (o.pathFor x) = some x.relationships) :=
  ⟨readReport?_written h hfit, fun _ hx => ⟨readTable?_written h hx, table_read_back h hx⟩⟩

/-- Two ontologies whose names differ in a separator, one that is called like the report, and one
with a file of its own. -/
theorem written_files_read_back_separator :
    let slash : CompiledOntology := ⟨"r1", "a/b", [⟨"x", "y", "has", false⟩]⟩
    let plain : CompiledOntology := ⟨"r2", "a_b", [⟨"u", "v", "has", false⟩]⟩
    let report : CompiledOntology := ⟨"r3", "report", [⟨"p", "q", "has", false⟩]⟩
    let own : CompiledOntology := ⟨"r4", "M", [⟨"s", "t", "has", false⟩]⟩
    let d : CompiledDiagram := ⟨[slash, plain, report, own], ⟨[], [], []⟩⟩
    let o : OutputDirectory := ⟨"out"⟩
    (o.write d (.empty [])).2 = .ok ["out/a_b.json", "out/a_b.json", "out/report.json",
        "out/M.json", "out/report.json"] ∧
      readReport? (o.write d (.empty [])).1 o.reportPath = some d.report ∧
      readTable? (o.write d (.empty [])).1 (o.pathFor slash) = some plain.relationships ∧
      readTable? (o.write d (.empty [])).1 (o.pathFor report) = none ∧
      readTable? (o.write d (.empty [])).1 (o.pathFor own) = some own.relationships := by
  intro slash plain report own d o
  have hpaths : (o.write d (.empty [])).2 = .ok ["out/a_b.json", "out/a_b.json",
      "out/report.json", "out/M.json", "out/report.json"] := by
    decide +kernel
  have hfit : d.report.CountsFit := fun _ hc => absurd hc List.not_mem_nil
  obtain ⟨hreport, htable⟩ := written_files_read_back hpaths hfit
  refine ⟨hpaths, hreport, ?_, ?_, ?_⟩
  · rw [(htable slash (by decide)).1]
    decide +kernel
  · rw [(htable report (by decide)).1]
    decide +kernel
  · exact (htable own (by decide)).2 (by decide +kernel) (by decide +kernel)

end Ontogram.Storage.OutputDirectory

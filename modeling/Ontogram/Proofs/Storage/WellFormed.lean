import Mathlib.Data.List.Induction
import Ontogram.Proofs.Storage.FileTree

/-!
# File trees are trees

Every file and every directory stands in a directory under a name of its own, and nothing is both a
file and a directory. What changes a tree keeps it so: directories are created one below the other,
and a file is written only where a path text leads, which is into a directory.

* `WellFormed.isDir_of_append` — what leads to an entry is a directory.
* `WellFormed.addDir`, `WellFormed.setText`, `WellFormed.removeFile` — one change.
* `WellFormed.createDirs`, `WellFormed.write?` — what a path text leads to.
-/

namespace Ontogram.Storage

/-! ## Characters of segments -/

namespace Path

/-- A segment has characters of the text, and no separator. -/
theorem mem_of_mem_segmentsOf {cs s : List Char} {c : Char} (h : s ∈ segmentsOf cs) (hc : c ∈ s) :
    c ≠ '/' ∧ c ∈ cs := by
  induction cs generalizing s with
  | nil =>
    obtain rfl := List.mem_singleton.1 h
    exact absurd hc List.not_mem_nil
  | cons d cs ih =>
    unfold segmentsOf at h
    split at h
    · rcases List.mem_cons.1 h with rfl | h
      · exact absurd hc List.not_mem_nil
      · exact (ih h hc).imp_right (List.mem_cons_of_mem _)
    · next hd =>
      obtain ⟨first, rest, hrest⟩ := List.exists_cons_of_ne_nil (segmentsOf_ne_nil cs)
      rw [hrest] at h ih
      rcases List.mem_cons.1 h with rfl | h
      · rcases List.mem_cons.1 hc with rfl | hc
        · exact ⟨hd, List.mem_cons_self⟩
        · exact (ih List.mem_cons_self hc).imp_right (List.mem_cons_of_mem _)
      · exact (ih (List.mem_cons_of_mem _ h) hc).imp_right (List.mem_cons_of_mem _)

end Path

namespace FileTree

/-- A name that an entry of a directory can have. -/
structure IsEntryName (name : String) : Prop extends Path.IsName name where
  nul_notMem : '\x00' ∉ name.toList
  fits : FileTree.fits name = true

/-- Says that there is a file or a directory. -/
def Holds (t : FileTree) (p : List String) : Prop :=
  t.isDir p = true ∨ t.isFile p = true

/-- A tree: what is in it stands in a directory under a name of its own, as a file or as a directory
but not as both. The working directory has a name too, whether or not it is still there. -/
structure WellFormed (t : FileTree) : Prop where
  isDir_above : ∀ {dir name}, t.Holds (dir ++ [name]) → t.isDir dir = true
  isEntryName : ∀ {dir name}, t.Holds (dir ++ [name]) → IsEntryName name
  not_isFile : ∀ {p}, t.isDir p = true → t.isFile p = false
  isEntryName_here : ∀ {name}, name ∈ t.here → IsEntryName name

variable {t t' : FileTree} {dir here p q steps : List String} {name path text : String}

instance : Decidable (IsEntryName name) :=
  decidable_of_iff
    (('/' ∉ name.toList ∧ Path.isIdle name = false ∧ name ≠ "..") ∧
      '\x00' ∉ name.toList ∧ FileTree.fits name = true)
    ⟨fun ⟨⟨hslash, hidle, habove⟩, hnul, hfits⟩ => ⟨⟨hslash, hidle, habove⟩, hnul, hfits⟩,
      fun h => ⟨⟨h.notMem, h.not_idle, h.ne_above⟩, h.nul_notMem, h.fits⟩⟩

/-! ## Entries -/

theorem isDir_iff : t.isDir p = true ↔ p = [] ∨ p ∈ t.dirs := by
  unfold isDir
  rw [Bool.or_eq_true, List.isEmpty_iff, List.contains_iff_mem]

theorem isFile_iff : t.isFile p = true ↔ p ∈ t.files.map Prod.fst := by
  unfold isFile text?
  rw [Option.isSome_map, List.find?_isSome, List.mem_map]
  simp only [beq_iff_eq]

theorem holds_append_singleton :
    t.Holds (dir ++ [name]) ↔ dir ++ [name] ∈ t.dirs ++ t.files.map Prod.fst := by
  have hne : dir ++ [name] ≠ [] := by simp
  unfold Holds
  rw [isDir_iff, isFile_iff, List.mem_append, or_iff_right hne]

/-- Whether files and directories form a tree can be seen from each of them. -/
theorem wellFormed_iff :
    t.WellFormed ↔
      (∀ p ∈ t.dirs ++ t.files.map Prod.fst,
        p = [] ∨ t.isDir p.dropLast = true ∧ IsEntryName (p.getLast?.getD "")) ∧
      (∀ p ∈ t.files.map Prod.fst, t.isDir p = false) ∧ ∀ name ∈ t.here, IsEntryName name := by
  constructor
  · intro ht
    refine ⟨fun p hp => ?_, fun p hp => ?_, fun _ hname => ht.isEntryName_here hname⟩
    · rcases List.eq_nil_or_concat p with hnil | ⟨dir, name, rfl⟩
      · exact .inl hnil
      · rw [List.concat_eq_append] at hp ⊢
        have hholds := holds_append_singleton.2 hp
        rw [List.dropLast_concat, List.getLast?_concat, Option.getD_some]
        exact .inr ⟨ht.isDir_above hholds, ht.isEntryName hholds⟩
    · refine Bool.eq_false_iff.2 fun hdir => ?_
      exact Bool.eq_false_iff.1 (ht.not_isFile hdir) (isFile_iff.2 hp)
  · rintro ⟨hentries, hfiles, hhere⟩
    have hentry : ∀ {dir name}, t.Holds (dir ++ [name]) →
        t.isDir dir = true ∧ IsEntryName name := by
      intro dir name h
      have hstands := (hentries _ (holds_append_singleton.1 h)).resolve_left (by simp)
      rwa [List.dropLast_concat, List.getLast?_concat, Option.getD_some] at hstands
    refine ⟨fun h => (hentry h).1, fun h => (hentry h).2, fun h => ?_, fun h => hhere _ h⟩
    refine Bool.eq_false_iff.2 fun hfile => ?_
    exact Bool.eq_false_iff.1 (hfiles _ (isFile_iff.1 hfile)) h

instance : Decidable t.WellFormed :=
  decidable_of_iff _ wellFormed_iff.symm

/-- What leads to an entry is a directory. -/
theorem WellFormed.isDir_of_append (ht : t.WellFormed) (hq : q ≠ []) (h : t.Holds (p ++ q)) :
    t.isDir p = true := by
  induction q using List.reverseRecOn with
  | nil => exact absurd rfl hq
  | append_singleton q name ih =>
    rw [← List.append_assoc] at h
    have hdir := ht.isDir_above h
    by_cases hnil : q = []
    · rwa [hnil, List.append_nil] at hdir
    · exact ih hnil (.inl hdir)

theorem WellFormed.isDir_dropLast (ht : t.WellFormed) (h : t.isDir p = true) :
    t.isDir p.dropLast = true := by
  by_cases hnil : p = []
  · rw [hnil]
    exact isDir_iff.2 (.inl rfl)
  · rw [← List.dropLast_concat_getLast hnil] at h
    exact ht.isDir_above (.inl h)

/-! ## Changes at an address -/

theorem isDir_addDir : (t.addDir p).isDir q = true ↔ t.isDir q = true ∨ q = p := by
  unfold addDir
  split
  · next hdir =>
    rw [or_iff_left_of_imp]
    rintro rfl
    exact hdir
  · rw [isDir_iff, isDir_iff, List.mem_append, List.mem_singleton, or_assoc]

theorem isFile_addDir : (t.addDir p).isFile q = t.isFile q := by
  unfold isFile text?
  rw [addDir_files]

theorem addDir_here : (t.addDir p).here = t.here := by
  unfold addDir
  split <;> rfl

theorem isDir_setText : (t.setText p text).isDir q = t.isDir q := by
  unfold isDir
  rw [setText_dirs]

theorem isFile_setText : (t.setText p text).isFile q = true ↔ t.isFile q = true ∨ q = p := by
  unfold isFile
  rw [text?_setText]
  by_cases h : q = p
  · simp [h]
  · rw [if_neg h, or_iff_left h]

theorem isFile_of_removeFile (h : (t.removeFile p).isFile q = true) : t.isFile q = true := by
  rw [isFile_iff] at h ⊢
  obtain ⟨f, hf, hq⟩ := List.mem_map.1 h
  exact List.mem_map.2 ⟨f, (List.mem_filter.1 hf).1, hq⟩

/-- A tree with nothing in it, wherever it is worked in. -/
theorem wellFormed_empty (hhere : ∀ name ∈ here, IsEntryName name) : (empty here).WellFormed :=
  wellFormed_iff.2 ⟨fun _ hp => absurd hp List.not_mem_nil, fun _ hp => absurd hp List.not_mem_nil,
    hhere⟩

/-- A tree with one more entry in a directory, which is a file or a directory but not both. -/
theorem WellFormed.grow (ht : t.WellFormed) (hdir : t.isDir dir = true) (hname : IsEntryName name)
    (hholds : ∀ {p}, t'.Holds p → t.Holds p ∨ p = dir ++ [name])
    (hdirs : ∀ {p}, t.isDir p = true → t'.isDir p = true)
    (hnot : ∀ {p}, t'.isDir p = true → t'.isFile p = false) (hhere : t'.here = t.here) :
    t'.WellFormed where
  isDir_above h := by
    rcases hholds h with h | heq
    · exact hdirs (ht.isDir_above h)
    · exact hdirs ((List.append_inj' heq rfl).1 ▸ hdir)
  isEntryName h := by
    rcases hholds h with h | heq
    · exact ht.isEntryName h
    · exact List.singleton_inj.1 (List.append_inj' heq rfl).2 ▸ hname
  not_isFile := hnot
  isEntryName_here h := ht.isEntryName_here (hhere ▸ h)

/-- A directory is added to a directory, unless there is a file of its name. -/
theorem WellFormed.addDir (ht : t.WellFormed) (hdir : t.isDir dir = true)
    (hname : IsEntryName name) (hfile : t.isFile (dir ++ [name]) = false) :
    (t.addDir (dir ++ [name])).WellFormed := by
  refine ht.grow hdir hname (fun h => ?_) (fun h => isDir_addDir.2 (.inl h)) (fun h => ?_)
    addDir_here
  · rcases h with h | h
    · exact (isDir_addDir.1 h).imp_left .inl
    · exact .inl (.inr (isFile_addDir ▸ h))
  · rw [isFile_addDir]
    rcases isDir_addDir.1 h with h | rfl
    · exact ht.not_isFile h
    · exact hfile

/-- A file is set in a directory, unless there is a directory of its name. -/
theorem WellFormed.setText (ht : t.WellFormed) (hdir : t.isDir dir = true)
    (hname : IsEntryName name) (hnot : t.isDir (dir ++ [name]) = false) (text : String) :
    (t.setText (dir ++ [name]) text).WellFormed := by
  refine ht.grow hdir hname (fun h => ?_) (fun h => isDir_setText.trans h) (fun {p} h => ?_)
    (t.setText_here _ _)
  · rcases h with h | h
    · exact .inl (.inl (isDir_setText ▸ h))
    · exact (isFile_setText.1 h).imp_left .inr
  · rw [isDir_setText] at h
    rw [Bool.eq_false_iff, Ne, isFile_setText, not_or]
    refine ⟨Bool.eq_false_iff.1 (ht.not_isFile h), ?_⟩
    rintro rfl
    rw [hnot] at h
    cases h

theorem WellFormed.removeFile (ht : t.WellFormed) (p : List String) :
    (t.removeFile p).WellFormed where
  isDir_above h := ht.isDir_above (h.imp_right isFile_of_removeFile)
  isEntryName h := ht.isEntryName (h.imp_right isFile_of_removeFile)
  not_isFile h := Bool.eq_false_iff.2 fun hfile =>
    Bool.eq_false_iff.1 (ht.not_isFile h) (isFile_of_removeFile hfile)
  isEntryName_here := ht.isEntryName_here

/-! ## Changes along a path text -/

/-- The steps of a path text are names, or steps that add no name. -/
theorem WellFormed.notMem_of_mem_steps? (ht : t.WellFormed) (h : t.steps? path = some steps)
    {s : String} (hs : s ∈ steps) : '/' ∉ s.toList ∧ '\x00' ∉ s.toList := by
  have husable := exists_steps?_iff.1 ⟨steps, h⟩
  rw [steps?_eq h, List.mem_append] at hs
  rcases hs with hs | hs
  · split at hs
    · exact absurd hs List.not_mem_nil
    · have hname := ht.isEntryName_here hs
      exact ⟨hname.notMem, hname.nul_notMem⟩
  · obtain ⟨cs, hcs, rfl⟩ := List.mem_map.1 hs
    rw [String.toList_ofList]
    exact ⟨fun hslash => (Path.mem_of_mem_segmentsOf hcs hslash).1 rfl,
      fun hnul => husable.nul_notMem (Path.mem_of_mem_segmentsOf hcs hnul).2⟩

theorem isEntryName_of_step {s : String} (hidle : Path.isIdle s = false) (habove : s ≠ "..")
    (hfits : fits s = true) (h : '/' ∉ s.toList ∧ '\x00' ∉ s.toList) : IsEntryName s :=
  ⟨⟨h.1, hidle, habove⟩, h.2, hfits⟩

theorem WellFormed.createAlong (ht : t.WellFormed) (hhere : t.isDir here = true)
    (hsteps : ∀ s ∈ steps, '/' ∉ s.toList ∧ '\x00' ∉ s.toList) :
    (t.createAlong here steps).1.WellFormed := by
  induction steps generalizing t here with
  | nil => exact ht
  | cons s ss ih =>
    have hrest : ∀ s ∈ ss, '/' ∉ s.toList ∧ '\x00' ∉ s.toList :=
      fun s hs => hsteps s (List.mem_cons_of_mem _ hs)
    unfold FileTree.createAlong
    split
    · exact ih ht hhere hrest
    · next hidle =>
      split
      · exact ih ht (ht.isDir_dropLast hhere) hrest
      · next habove =>
        dsimp only
        split
        · exact ht
        · next hfree =>
          rw [Bool.or_eq_true, not_or, Bool.not_eq_true, Bool.not_eq_true, Bool.not_eq_false'] at hfree
          have hname := isEntryName_of_step (Bool.eq_false_iff.2 hidle) habove hfree.2
            (hsteps s List.mem_cons_self)
          exact ih (ht.addDir hhere hname hfree.1) (isDir_addDir.2 (.inr rfl)) hrest

/-- Creating directories keeps a tree a tree, however far it comes. -/
theorem WellFormed.createDirs (ht : t.WellFormed) (path : String) :
    (t.createDirs path).1.WellFormed := by
  have hroot : t.isDir [] = true := isDir_iff.2 (.inl rfl)
  unfold FileTree.createDirs
  split
  · exact ht
  · split
    · exact ht
    · next steps hsteps =>
      have hall : ∀ s ∈ steps, '/' ∉ s.toList ∧ '\x00' ∉ s.toList :=
        fun s hs => ht.notMem_of_mem_steps? hsteps hs
      split
      · have halong : (t.createAlong [] (Path.withoutIdle steps).dropLast).1.WellFormed := by
          refine ht.createAlong hroot fun s hs => hall s ?_
          have hs := (List.dropLast_sublist _).mem hs
          unfold Path.withoutIdle at hs
          exact List.mem_reverse.1 (List.dropWhile_subset _ (List.mem_reverse.1 hs))
        split
        · next h => rw [h] at halong; exact halong
        · exact halong
      · exact ht.createAlong hroot hall

/-- An entry of a directory, there or not. -/
def StandsIn (t : FileTree) (p : List String) : Prop :=
  ∃ dir name, p = dir ++ [name] ∧ t.isDir dir = true ∧ IsEntryName name

/-- Steps lead to a directory or to an entry of one. -/
theorem WellFormed.standsIn_of_follow (ht : t.WellFormed)
    (hsteps : ∀ s ∈ steps, '/' ∉ s.toList ∧ '\x00' ∉ s.toList)
    (hhere : t.isDir here = true ∨ t.StandsIn here) (h : t.follow here steps = some p) :
    t.isDir p = true ∨ t.StandsIn p := by
  induction steps generalizing here with
  | nil =>
    obtain rfl := Option.some.inj h
    exact hhere
  | cons s ss ih =>
    have hrest : ∀ s ∈ ss, '/' ∉ s.toList ∧ '\x00' ∉ s.toList :=
      fun s hs => hsteps s (List.mem_cons_of_mem _ hs)
    have hdir := isDir_of_follow h
    unfold follow at h
    rw [hdir, Bool.not_true, if_neg Bool.false_ne_true] at h
    split at h
    · exact ih hrest (.inl hdir) h
    · next hidle =>
      split at h
      · exact ih hrest (.inl (ht.isDir_dropLast hdir)) h
      · next habove =>
        split at h
        · next hfits =>
          have hname := isEntryName_of_step (Bool.eq_false_iff.2 hidle) habove hfits
            (hsteps s List.mem_cons_self)
          exact ih hrest (.inr ⟨here, s, rfl, hdir, hname⟩) h
        · cases h

/-- Writing a file keeps a tree a tree. -/
theorem WellFormed.write? (ht : t.WellFormed) (h : t.write? path text = some t') :
    t'.WellFormed := by
  unfold FileTree.write? at h
  split at h
  · next p hp =>
    split at h
    · cases h
    · next hnot =>
      obtain rfl := Option.some.inj h
      obtain ⟨steps, hsteps, hfollow⟩ := Option.bind_eq_some_iff.1 hp
      have hstands := ht.standsIn_of_follow (fun s hs => ht.notMem_of_mem_steps? hsteps hs)
        (.inl (isDir_iff.2 (.inl rfl))) hfollow
      obtain ⟨dir, name, rfl, hdir, hname⟩ := hstands.resolve_left hnot
      exact ht.setText hdir hname (Bool.eq_false_iff.2 hnot) text
  · cases h

end FileTree

end Ontogram.Storage

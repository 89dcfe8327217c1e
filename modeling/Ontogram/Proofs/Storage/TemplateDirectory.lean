import Mathlib.Data.List.TakeWhile
import Ontogram.Proofs.Storage.Traversal
import Ontogram.Storage.TemplateDirectory

/-!
# Which file is a template

A template directory is indexed by a walk through all that is below it. The index has a name exactly
if some file below is called so, with the extension `json`, and it has the path of the first such
file that the walk visits. That path leads to the file, if it is not too long to be followed.

* `stemBefore?_eq_some_iff` — the part of a file name before its extension.
* `lookup?_index` — of the files of one name the first one is indexed.
* `locate?_pathText` — the path of an indexed file leads to it.
* `load_indexes_first_files` — what is found in a directory, and what is not.
-/

namespace Ontogram.Storage

/-! ## Stems -/

namespace Path

theorem cutAtDot_append {before after : List Char} (hbefore : before ≠ []) (hafter : '.' ∉ after) :
    cutAtDot (before ++ '.' :: after) = some (before, after) := by
  have hkept : ∀ c ∈ after.reverse, (c != '.') = true := by
    intro c hc
    rw [bne_iff_ne]
    rintro rfl
    exact hafter (List.mem_reverse.1 hc)
  have hcs : (before ++ '.' :: after).reverse = after.reverse ++ '.' :: before.reverse := by simp
  unfold cutAtDot
  dsimp only
  rw [hcs, List.takeWhile_append_of_pos hkept, List.dropWhile_append_of_pos hkept]
  simp [hbefore]

theorem eq_append_of_cutAtDot {cs before after : List Char}
    (h : cutAtDot cs = some (before, after)) :
    before ≠ [] ∧ '.' ∉ after ∧ cs = before ++ '.' :: after := by
  unfold cutAtDot at h
  dsimp only at h
  split at h
  · cases h
  · next hbefore =>
    obtain ⟨rfl, rfl⟩ := Prod.mk.inj (Option.some.inj h)
    have hcs : cs.reverse = cs.reverse.takeWhile (· != '.') ++ cs.reverse.dropWhile (· != '.') :=
      List.takeWhile_append_dropWhile.symm
    refine ⟨fun hnil => hbefore (List.isEmpty_iff.2 hnil), fun hmem => ?_, ?_⟩
    · exact absurd (List.mem_takeWhile_imp (List.mem_reverse.1 hmem)) (by decide)
    · -- What is dropped starts with the dot, read from the end.
      have hdrop : cs.reverse.dropWhile (· != '.') ≠ [] := fun hnil => by
        rw [hnil] at hbefore
        exact hbefore rfl
      have hdot := List.head_dropWhile_not _ hdrop
      obtain ⟨c, rest, hrest⟩ := List.exists_cons_of_ne_nil hdrop
      simp only [hrest, List.head_cons, bne_eq_false_iff_eq] at hdot
      rw [hrest, hdot] at hcs
      rw [hrest, List.reverse_cons, List.dropLast_concat, ← List.reverse_inj]
      exact hcs.trans (by simp)

/-- A name is cut at its last dot, if something stands before it. -/
theorem cutAtDot_eq_some_iff {cs before after : List Char} :
    cutAtDot cs = some (before, after) ↔
      before ≠ [] ∧ '.' ∉ after ∧ cs = before ++ '.' :: after := by
  refine ⟨eq_append_of_cutAtDot, ?_⟩
  rintro ⟨hbefore, hafter, rfl⟩
  exact cutAtDot_append hbefore hafter

theorem stemBefore?_eq_some_iff_cutAtDot {extension name stem : String} :
    stemBefore? extension name = some stem ↔
      cutAtDot name.toList = some (stem.toList, extension.toList) ∧ name ≠ ".." := by
  unfold stemBefore?
  cases cutAtDot name.toList with
  | none => exact ⟨fun h => (by cases h), fun h => (by cases h.1)⟩
  | some cut =>
    obtain ⟨before, after⟩ := cut
    rw [Option.some.injEq, Prod.mk.injEq]
    dsimp only
    split
    · next hext =>
      rw [Bool.and_eq_true, decide_eq_true_iff, decide_eq_true_iff] at hext
      constructor
      · intro h
        obtain rfl := Option.some.inj h
        exact ⟨⟨String.toList_ofList.symm, hext.1⟩, hext.2⟩
      · rintro ⟨⟨rfl, -⟩, -⟩
        rw [String.ofList_toList]
    · next hext =>
      refine ⟨fun h => (by cases h), ?_⟩
      rintro ⟨⟨-, hafter⟩, habove⟩
      exact absurd (by rw [Bool.and_eq_true, decide_eq_true_iff, decide_eq_true_iff]
                       exact ⟨hafter, habove⟩) hext

/-- **A file has a stem and an extension exactly if both stand around the last dot of its name.** -/
theorem stemBefore?_eq_some_iff {extension name stem : String} (h : '.' ∉ extension.toList) :
    stemBefore? extension name = some stem ↔
      stem ≠ "" ∧ name = stem ++ "." ++ extension ∧ name ≠ ".." := by
  have hname : name.toList = stem.toList ++ '.' :: extension.toList ↔
      name = stem ++ "." ++ extension := by
    rw [← String.toList_inj]
    simp
  rw [stemBefore?_eq_some_iff_cutAtDot, cutAtDot_eq_some_iff, hname, Ne, Ne,
    String.toList_eq_nil_iff]
  constructor
  · rintro ⟨⟨hne, -, heq⟩, habove⟩
    exact ⟨hne, heq, habove⟩
  · rintro ⟨hne, heq, habove⟩
    exact ⟨⟨hne, h, heq⟩, habove⟩

/-- A path is no longer than one below it. -/
theorem isTooLong_of_join {dir name : String} (hname : '/' ∉ name.toList)
    (h : isTooLong (join dir name) = false) : isTooLong dir = false := by
  have hahead : dir.utf8ByteSize ≤ (ahead dir).utf8ByteSize := by
    unfold ahead
    split
    · next hempty => rw [String.isEmpty_iff.1 hempty]
    · split
      · exact Nat.le_refl _
      · rw [String.utf8ByteSize_append]
        exact Nat.le_add_right _ _
  unfold isTooLong at h ⊢
  rw [decide_eq_false_iff_not, join_eq hname, String.utf8ByteSize_append] at h
  rw [decide_eq_false_iff_not]
  omega

end Path

/-! ## Order -/

/-- What is visited first comes first among the lists of names. -/
theorem VisitedBefore.lt {p q : List String} (h : VisitedBefore p q) : p < q := by
  obtain ⟨above, a, b, hab, ⟨p', rfl⟩, ⟨q', rfl⟩⟩ := h
  rw [List.append_assoc, List.append_assoc]
  exact List.append_left_lt (List.cons_lt_cons_iff.2 (.inl (Text.lt_iff_bytes_lt.2 hab)))

theorem VisitedBefore.asymm {p q : List String} (h : VisitedBefore p q) : ¬ VisitedBefore q p :=
  fun h' => List.lt_asymm h.lt h'.lt

namespace TemplateDirectory

variable {t : FileTree} {root : String} {dir below : List String} {name : String}

/-! ## Templates -/

/-- A file below a directory that is a template: its name is that of the template with the extension
`json`. -/
structure IsTemplate (t : FileTree) (dir : List String) (name : String) (below : List String) :
    Prop where
  isFile : t.isFile (dir ++ below) = true
  fileName : below.getLast? = some (name ++ ".json")
  ne_empty : name ≠ ""

/-- The template of a name that a walk visits first. -/
structure IsFirstTemplate (t : FileTree) (dir : List String) (name : String)
    (below : List String) : Prop extends IsTemplate t dir name below where
  first : ∀ other, IsTemplate t dir name other → other ≠ below →
    VisitedBefore (dir ++ below) (dir ++ other)

theorem templateName?_eq_some_iff {path : List String} :
    templateName? path = some name ↔ path.getLast? = some (name ++ ".json") ∧ name ≠ "" := by
  have hdots : name ++ "." ++ "json" = name ++ ".json" := by rw [String.append_assoc]; rfl
  have habove : name ++ ".json" ≠ ".." := fun heq => by
    have hlength := congrArg (fun s : String => s.toList.length) heq
    rw [String.toList_append, List.length_append] at hlength
    exact absurd hlength (by change _ + 5 ≠ 2; omega)
  unfold templateName? extension
  rw [Option.bind_eq_some_iff]
  simp only [Path.stemBefore?_eq_some_iff (show '.' ∉ "json".toList by decide), hdots]
  constructor
  · rintro ⟨file, hfile, hne, rfl, -⟩
    exact ⟨hfile, hne⟩
  · rintro ⟨hfile, hne⟩
    exact ⟨_, hfile, hne, rfl, habove⟩

/-- What a walk visits below a directory, and which of that is a template. -/
theorem isTemplate_iff (ht : t.WellFormed) (hdir : t.isDir dir = true) :
    IsTemplate t dir name below ↔
      dir ++ below ∈ t.filesBelow dir ∧ templateName? (dir ++ below) = some name := by
  have hfile : dir ++ below ∈ t.filesBelow dir ↔ t.isFile (dir ++ below) = true := by
    rw [FileTree.mem_filesBelow ht hdir]
    constructor
    · rintro ⟨-, -, h⟩
      exact h
    · exact fun h => ⟨below, rfl, h⟩
  have hlast : t.isFile (dir ++ below) = true → (dir ++ below).getLast? = below.getLast? := by
    intro h
    have hne : below ≠ [] := by
      rintro rfl
      rw [List.append_nil, ht.not_isFile hdir] at h
      cases h
    rw [List.getLast?_append_of_ne_nil _ hne]
  rw [hfile, templateName?_eq_some_iff]
  constructor
  · rintro ⟨h, hname, hne⟩
    exact ⟨h, hlast h ▸ hname, hne⟩
  · rintro ⟨h, hname, hne⟩
    exact ⟨h, hlast h ▸ hname, hne⟩

/-! ## The index -/

theorem lookup?_append (paths others : List (String × String)) (name : String) :
    lookup? (paths ++ others) name = (lookup? paths name).or (lookup? others name) := by
  unfold lookup?
  rw [List.find?_append, Option.map_or]

theorem lookup?_singleton (key path name : String) :
    lookup? [(key, path)] name = if key = name then some path else none := by
  unfold lookup?
  rw [List.find?_singleton]
  by_cases h : key = name <;> simp [h]

theorem lookup?_indexFile (root : String) (dir : List String) (paths : List (String × String))
    (file : List String) (name : String) :
    lookup? (indexFile root dir paths file) name = (lookup? paths name).or
      (if templateName? file = some name then some (pathText root (file.drop dir.length))
        else none) := by
  unfold indexFile
  split
  · next key hkey =>
    simp only [hkey, Option.some.injEq]
    split
    · next hold =>
      by_cases h : key = name
      · obtain ⟨path, hpath⟩ := Option.isSome_iff_exists.1 hold
        rw [← h, hpath, Option.some_or]
      · rw [if_neg h, Option.or_none]
    · rw [lookup?_append, lookup?_singleton]
  · next hkey => rw [hkey, if_neg (by simp), Option.or_none]

theorem lookup?_foldl_indexFile (root : String) (dir : List String) (files : List (List String))
    (paths : List (String × String)) (name : String) :
    lookup? (files.foldl (indexFile root dir) paths) name = (lookup? paths name).or
      ((files.find? fun file => templateName? file = some name).map fun file =>
        pathText root (file.drop dir.length)) := by
  induction files generalizing paths with
  | nil => rw [List.foldl_nil, List.find?_nil, Option.map_none, Option.or_none]
  | cons file files ih =>
    rw [List.foldl_cons, ih, lookup?_indexFile, Option.or_assoc]
    by_cases h : templateName? file = some name
    · rw [if_pos h, List.find?_cons_of_pos (by simpa using h), Option.some_or, Option.map_some]
    · rw [if_neg h, List.find?_cons_of_neg (by simpa using h), Option.none_or]

/-- **Of the files of one name the first one is indexed.** -/
theorem lookup?_index (root : String) (dir : List String) (files : List (List String))
    (name : String) :
    lookup? (index root dir files) name =
      (files.find? fun file => templateName? file = some name).map fun file =>
        pathText root (file.drop dir.length) :=
  lookup?_foldl_indexFile root dir files [] name

theorem isSome_lookup?_iff {paths : List (String × String)} :
    (lookup? paths name).isSome = true ↔ name ∈ paths.map Prod.fst := by
  unfold lookup?
  rw [Option.isSome_map, List.find?_isSome, List.mem_map]
  simp only [beq_iff_eq]

/-- Ordering the index by names changes no look-up. -/
theorem lookup?_byName (paths : List (String × String)) (name : String) :
    lookup? (byName paths) name = lookup? paths name := by
  have hkey : ∀ e ∈ byName paths, lookup? paths e.1 = some e.2 := by
    intro e he
    obtain ⟨key, -, hpair⟩ := List.mem_filterMap.1 he
    obtain ⟨path, hpath, rfl⟩ := Option.map_eq_some_iff.1 hpair
    exact hpath
  cases hfind : (byName paths).find? fun e => e.1 == name with
  | some e =>
    have hname : e.1 = name := beq_iff_eq.1 (List.find?_some hfind :)
    unfold lookup?
    rw [hfind, Option.map_some]
    exact (hname ▸ hkey e (List.mem_of_find?_eq_some hfind)).symm
  | none =>
    unfold lookup?
    rw [hfind, Option.map_none]
    cases hpath : lookup? paths name with
    | none => exact hpath.symm
    | some path =>
      have hmem : (name, path) ∈ byName paths := by
        refine List.mem_filterMap.2 ⟨name, Text.mem_ascending.2 ?_, by rw [hpath]; rfl⟩
        exact isSome_lookup?_iff.1 (by rw [hpath]; rfl)
      exact absurd (beq_self_eq_true name) (List.find?_eq_none.1 hfind _ hmem)

/-! ## Opening a directory -/

theorem pathText_append_singleton (root : String) (below : List String) (name : String) :
    pathText root (below ++ [name]) = Path.join (pathText root below) name := by
  unfold pathText
  rw [List.foldl_append]
  rfl

/-- The path of an entry below a directory leads to it, if it is not too long. -/
theorem locate?_pathText (ht : t.WellFormed) (hroot : t.locate? root = some dir)
    (hholds : t.Holds (dir ++ below)) (hlong : Path.isTooLong (pathText root below) = false) :
    t.locate? (pathText root below) = some (dir ++ below) := by
  induction below using List.reverseRecOn with
  | nil => rwa [List.append_nil]
  | append_singleton below name ih =>
    rw [← List.append_assoc] at hholds ⊢
    have hname := ht.isEntryName hholds
    have hdir := ht.isDir_above hholds
    rw [pathText_append_singleton] at hlong ⊢
    exact FileTree.locate?_join_of_isDir
      (ih (.inl hdir) (Path.isTooLong_of_join hname.notMem hlong)) hdir hname.toIsName
      hname.nul_notMem hname.fits hlong

/-- A path text leads to a directory that can be walked through: no directory below it has a path
that is too long. -/
structure Opens (t : FileTree) (root : String) (dir : List String) : Prop where
  locate? : t.locate? root = some dir
  isDir : t.isDir dir = true
  not_tooLong : ∀ below, t.isDir (dir ++ below) = true →
    Path.isTooLong (pathText root below) = false

theorem mem_dirsBelow {p : List String} :
    p ∈ t.dirsBelow dir ↔ ∃ below, below ≠ [] ∧ p = dir ++ below ∧ t.isDir p = true := by
  unfold FileTree.dirsBelow
  rw [List.mem_filter, Bool.and_eq_true, decide_eq_true_iff, decide_eq_true_iff]
  constructor
  · rintro ⟨hp, hlength, htake⟩
    refine ⟨p.drop dir.length, ?_, ?_, FileTree.isDir_iff.2 (.inr hp)⟩
    · rw [Ne, List.drop_eq_nil_iff]
      omega
    · calc p = p.take dir.length ++ p.drop dir.length := (List.take_append_drop _ _).symm
        _ = dir ++ p.drop dir.length := by rw [htake]
  · rintro ⟨below, hne, rfl, hdir⟩
    have hpos := List.length_pos_of_ne_nil hne
    refine ⟨(FileTree.isDir_iff.1 hdir).resolve_left (by simp [hne]), ?_, List.take_left⟩
    rw [List.length_append]
    omega

theorem any_isTooLong_eq_false_iff (t : FileTree) (dir : List String)
    (hroot : Path.isTooLong root = false) :
    (t.dirsBelow dir).any (Path.isTooLong ∘ fun path => pathText root (path.drop dir.length)) =
        false ↔
      ∀ below, t.isDir (dir ++ below) = true → Path.isTooLong (pathText root below) = false := by
  rw [List.any_eq_false]
  constructor
  · intro h below hdir
    by_cases hnil : below = []
    · rw [hnil]
      exact hroot
    · have hshort := h _ (mem_dirsBelow.2 ⟨below, hnil, rfl, hdir⟩)
      rwa [Function.comp_apply, List.drop_left, Bool.not_eq_true] at hshort
  · intro h p hp
    obtain ⟨below, -, rfl, hdir⟩ := mem_dirsBelow.1 hp
    rw [Function.comp_apply, List.drop_left, h below hdir]
    exact Bool.false_ne_true

/-- **A directory is indexed exactly if all directories in it can be opened.** -/
theorem load_eq_ok_iff {d : TemplateDirectory} :
    load t root = .ok d ↔ ∃ dir, Opens t root dir ∧
      d = ⟨root, byName (index root dir (t.filesBelow dir))⟩ := by
  unfold load
  cases hroot : t.locate? root with
  | none =>
    refine ⟨fun h => (by cases h), ?_⟩
    rintro ⟨dir, hopens, -⟩
    rw [hopens.locate?] at hroot
    cases hroot
  | some dir =>
    have husable := FileTree.exists_steps?_iff.1
      ((Option.bind_eq_some_iff.1 hroot).imp fun _ h => h.1)
    have hlong := any_isTooLong_eq_false_iff t dir husable.not_tooLong
    dsimp only
    constructor
    · intro h
      split at h
      · cases h
      · next hdir =>
        split at h
        · cases h
        · next hshort =>
          exact ⟨dir, ⟨hroot, by simpa using hdir, hlong.1 (Bool.eq_false_iff.2 hshort)⟩,
            (Except.ok.inj h).symm⟩
    · rintro ⟨dir', hopens, rfl⟩
      obtain rfl := Option.some.inj (hroot.symm.trans hopens.locate?)
      rw [hopens.isDir, hlong.2 hopens.not_tooLong]
      rfl

/-! ## What is found -/

/-- The file under a name that a walk visits first. -/
def firstFile? (t : FileTree) (dir : List String) (name : String) : Option (List String) :=
  (t.filesBelow dir).find? fun file => templateName? file = some name

theorem isSome_firstFile?_iff (ht : t.WellFormed) (hdir : t.isDir dir = true) :
    (firstFile? t dir name).isSome = true ↔ ∃ below, IsTemplate t dir name below := by
  unfold firstFile?
  rw [List.find?_isSome]
  simp only [decide_eq_true_iff]
  constructor
  · rintro ⟨file, hfile, hname⟩
    obtain ⟨below, rfl, -⟩ := (FileTree.mem_filesBelow ht hdir).1 hfile
    exact ⟨below, (isTemplate_iff ht hdir).2 ⟨hfile, hname⟩⟩
  · rintro ⟨below, hbelow⟩
    exact ⟨_, (isTemplate_iff ht hdir).1 hbelow⟩

theorem isFirstTemplate_of_firstFile? (ht : t.WellFormed) (hdir : t.isDir dir = true)
    {file : List String} (h : firstFile? t dir name = some file) :
    ∃ below, IsFirstTemplate t dir name below ∧ file = dir ++ below := by
  have hpairwise := t.filesBelow_pairwise dir
  have hfile : file ∈ t.filesBelow dir := List.mem_of_find?_eq_some h
  obtain ⟨hname, before, after, hfiles, hbefore⟩ := List.find?_eq_some_iff_append.1 h
  obtain ⟨below, rfl, -⟩ := (FileTree.mem_filesBelow ht hdir).1 hfile
  refine ⟨below, ⟨(isTemplate_iff ht hdir).2 ⟨hfile, of_decide_eq_true hname⟩,
    fun other hother hne => ?_⟩, rfl⟩
  -- Another template of the name is not visited before this one, and it is another file.
  obtain ⟨hmem, hotherName⟩ := (isTemplate_iff ht hdir).1 hother
  rw [hfiles] at hmem hpairwise
  rcases List.mem_append.1 hmem with hmem | hmem
  · exact absurd (hbefore _ hmem) (by simp [hotherName])
  · rcases List.mem_cons.1 hmem with heq | hmem
    · exact absurd (List.append_cancel_left heq) hne
    · exact List.rel_of_pairwise_cons (List.pairwise_append.1 hpairwise).2.1 hmem

/-- **The first file under a name is the first template of that name.** -/
theorem firstFile?_eq_some_iff (ht : t.WellFormed) (hdir : t.isDir dir = true)
    {file : List String} :
    firstFile? t dir name = some file ↔
      ∃ below, IsFirstTemplate t dir name below ∧ file = dir ++ below := by
  refine ⟨isFirstTemplate_of_firstFile? ht hdir, ?_⟩
  rintro ⟨below, hbelow, rfl⟩
  obtain ⟨file, hfile⟩ := Option.isSome_iff_exists.1
    ((isSome_firstFile?_iff ht hdir).2 ⟨below, hbelow.toIsTemplate⟩)
  obtain ⟨other, hother, rfl⟩ := isFirstTemplate_of_firstFile? ht hdir hfile
  by_cases heq : other = below
  · rw [hfile, heq]
  · exact absurd (hother.first below hbelow.toIsTemplate (Ne.symm heq))
      (hbelow.first other hother.toIsTemplate heq).asymm

variable {d : TemplateDirectory}

theorem opens_of_load (hroot : t.locate? root = some dir) (h : load t root = .ok d) :
    Opens t root dir := by
  obtain ⟨dir', hopens, -⟩ := load_eq_ok_iff.1 h
  rwa [Option.some.inj (hroot.symm.trans hopens.locate?)]

theorem pathOf?_eq (hopens : Opens t root dir) (h : load t root = .ok d) (name : String) :
    d.pathOf? name =
      (firstFile? t dir name).map fun file => pathText root (file.drop dir.length) := by
  obtain ⟨dir', hopens', rfl⟩ := load_eq_ok_iff.1 h
  obtain rfl := Option.some.inj (hopens.locate?.symm.trans hopens'.locate?)
  unfold pathOf?
  rw [lookup?_byName, lookup?_index]
  rfl

theorem pathOf?_eq_some_iff (ht : t.WellFormed) (hopens : Opens t root dir)
    (h : load t root = .ok d) {path : String} :
    d.pathOf? name = some path ↔
      ∃ below, IsFirstTemplate t dir name below ∧ path = pathText root below := by
  rw [pathOf?_eq hopens h, Option.map_eq_some_iff]
  constructor
  · rintro ⟨file, hfile, rfl⟩
    obtain ⟨below, hbelow, rfl⟩ := (firstFile?_eq_some_iff ht hopens.isDir).1 hfile
    exact ⟨below, hbelow, by rw [List.drop_left]⟩
  · rintro ⟨below, hbelow, rfl⟩
    exact ⟨_, (firstFile?_eq_some_iff ht hopens.isDir).2 ⟨below, hbelow, rfl⟩,
      by rw [List.drop_left]⟩

theorem contains_iff (ht : t.WellFormed) (hopens : Opens t root dir) (h : load t root = .ok d) :
    d.contains name = true ↔ ∃ below, IsTemplate t dir name below := by
  unfold contains
  rw [pathOf?_eq hopens h, Option.isSome_map, isSome_firstFile?_iff ht hopens.isDir]

theorem mem_names_iff : name ∈ d.names ↔ d.contains name = true :=
  isSome_lookup?_iff.symm

/-- What is not in a directory is not found, whatever has become of the files. -/
theorem rows_eq_notFound_iff {later : FileTree} {missing : String} :
    d.rows later name = .error (.notFound missing) ↔
      missing = name ∧ d.contains name = false := by
  unfold rows contains
  cases d.pathOf? name with
  | none => simp [eq_comm]
  | some path =>
    dsimp only
    refine ⟨fun h => ?_, fun h => (by cases h.2)⟩
    split at h
    · cases h
    · split at h <;> cases h

/-- **A directory is indexed if all directories in it can be opened. Then the index has exactly the
stems of the files below with the extension `json`, each with the path of the first file of its name
that a walk visits, and that path leads to the file unless it is too long. No other name is
contained, and of no other name it is said later that it is not found.** -/
theorem load_indexes_first_files (ht : t.WellFormed) (root : String) :
    ((∃ d, load t root = .ok d) ↔ ∃ dir, Opens t root dir) ∧
    ∀ dir d, t.locate? root = some dir → load t root = .ok d →
      (∀ name, name ∈ d.names ↔ ∃ below, IsTemplate t dir name below) ∧
      (∀ name path, d.pathOf? name = some path ↔
        ∃ below, IsFirstTemplate t dir name below ∧ path = pathText root below) ∧
      (∀ name below, IsTemplate t dir name below →
        Path.isTooLong (pathText root below) = false →
        t.locate? (pathText root below) = some (dir ++ below)) ∧
      (∀ name, d.contains name = false ↔ ¬ ∃ below, IsTemplate t dir name below) ∧
      ∀ later name missing, d.rows later name = .error (.notFound missing) ↔
        missing = name ∧ ¬ ∃ below, IsTemplate t dir name below := by
  refine ⟨?_, fun dir d hroot h => ?_⟩
  · constructor
    · rintro ⟨d, h⟩
      obtain ⟨dir, hopens, -⟩ := load_eq_ok_iff.1 h
      exact ⟨dir, hopens⟩
    · rintro ⟨dir, hopens⟩
      exact ⟨_, load_eq_ok_iff.2 ⟨dir, hopens, rfl⟩⟩
  · have hopens := opens_of_load hroot h
    have hcontains : ∀ name, d.contains name = false ↔ ¬ ∃ below, IsTemplate t dir name below :=
      fun name => by rw [← contains_iff ht hopens h, Bool.not_eq_true]
    refine ⟨fun name => mem_names_iff.trans (contains_iff ht hopens h),
      fun name path => pathOf?_eq_some_iff ht hopens h, fun name below hbelow hlong => ?_,
      hcontains, fun later name missing => ?_⟩
    · exact locate?_pathText ht hroot (.inr hbelow.isFile) hlong
    · rw [rows_eq_notFound_iff, hcontains]

/-- Files of one name in directories one of which is itself called like a template, a stem with a
dot, a name that is all extension, and a text file. -/
theorem load_indexes_first_files_nested :
    let t : FileTree := ⟨[],
      [(["t", "b", "X.json"], "[1]"), (["t", "a.json", "X.json"], "[2]"),
        (["t", "a.json", "Y.old.json"], "[]"), (["t", "a", "X.json"], "[]"),
        (["t", ".json"], "[]"), (["t", "n.txt"], "")],
      [["t"], ["t", "b"], ["t", "a.json"], ["t", "a"]]⟩
    t.WellFormed ∧ Opens t "t" ["t"] ∧
      load t "t" = .ok ⟨"t", [("X", "t/a/X.json"), ("Y.old", "t/a.json/Y.old.json")]⟩ ∧
      (∃ below, IsFirstTemplate t ["t"] "X" below ∧ "t/a/X.json" = pathText "t" below) ∧
      (∃ below, IsTemplate t ["t"] "Y.old" below) ∧
      (¬ ∃ below, IsTemplate t ["t"] "n" below) ∧
      ¬ ∃ below, IsTemplate t ["t"] "" below := by
  intro t
  have ht : t.WellFormed := by decide +kernel
  have hload : load t "t" =
      .ok ⟨"t", [("X", "t/a/X.json"), ("Y.old", "t/a.json/Y.old.json")]⟩ := by decide +kernel
  obtain ⟨hopens, hfound⟩ := load_indexes_first_files ht "t"
  obtain ⟨dir, hdir⟩ := hopens.1 ⟨_, hload⟩
  obtain rfl : dir = ["t"] := Option.some.inj (hdir.locate?.symm.trans (by decide +kernel))
  obtain ⟨hnames, hpaths, -, hmissing, -⟩ := hfound ["t"] _ hdir.locate? hload
  refine ⟨ht, hdir, hload, (hpaths "X" "t/a/X.json").1 (by decide +kernel),
    (hnames "Y.old").1 (by decide +kernel), (hmissing "n").1 (by decide +kernel),
    (hmissing "").1 (by decide +kernel)⟩

end TemplateDirectory

end Ontogram.Storage

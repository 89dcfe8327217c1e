import Ontogram.Storage.FileTree

/-!
# Where files are

A path in a directory leads where the directory leads, and one step on. So two file names in one
directory are two files, whatever path text names the directory. Writing a file changes its text
and no place.

* `exists_steps?_iff` — which path texts can be followed.
* `locate?_join_of_isDir` — an entry of a directory is found under its name.
* `exists_place_of_locate?_join`, `locate?_join` — where the path of a file in a directory leads.
* `locate?_join_inj` — different names in a directory lead to different places.
* `text?_setText` — the texts after one of them is set.
-/

namespace Ontogram.Storage

/-! ## Segments -/

namespace Path

theorem segmentsOf_ne_nil (cs : List Char) : segmentsOf cs ≠ [] := by
  cases cs with
  | nil => exact List.cons_ne_nil _ _
  | cons c cs =>
    unfold segmentsOf
    split
    · exact List.cons_ne_nil _ _
    · split <;> exact List.cons_ne_nil _ _

theorem segmentsOf_of_notMem {cs : List Char} (h : '/' ∉ cs) : segmentsOf cs = [cs] := by
  induction cs with
  | nil => rfl
  | cons c cs ih =>
    rw [List.mem_cons, not_or] at h
    rw [segmentsOf, if_neg (Ne.symm h.1), ih h.2]

theorem segmentsOf_append (as bs : List Char) :
    segmentsOf (as ++ '/' :: bs) = segmentsOf as ++ segmentsOf bs := by
  induction as with
  | nil => rfl
  | cons a as ih =>
    rw [List.cons_append, segmentsOf, segmentsOf, ih]
    split
    · rfl
    · obtain ⟨s, ss, hs⟩ := List.exists_cons_of_ne_nil (segmentsOf_ne_nil as)
      rw [hs]
      rfl

/-- A name that leads to an entry of the directory it is looked up in. -/
structure IsName (name : String) : Prop where
  notMem : '/' ∉ name.toList
  not_idle : isIdle name = false
  ne_above : name ≠ ".."

theorem isAbsolute_of_notMem {name : String} (h : '/' ∉ name.toList) : isAbsolute name = false := by
  unfold isAbsolute
  cases hcs : name.toList with
  | nil => rfl
  | cons c cs =>
    have hc : c ≠ '/' := fun heq => h (by rw [hcs, heq]; exact List.mem_cons_self)
    simp [hc]

theorem isAbsolute_append {base : String} (h : base.isEmpty = false) (path : String) :
    isAbsolute (base ++ path) = isAbsolute base := by
  unfold isAbsolute
  rw [String.toList_append]
  cases hcs : base.toList with
  | nil =>
    rw [String.toList_eq_nil_iff.1 hcs] at h
    exact absurd h (by decide)
  | cons c cs => rfl

theorem segments_of_notMem {name : String} (h : '/' ∉ name.toList) : segments name = [name] := by
  unfold segments
  rw [segmentsOf_of_notMem h, List.map_singleton, String.ofList_toList]

theorem segments_append {name : String} (h : '/' ∉ name.toList) (base : String) :
    segments (base ++ "/" ++ name) = segments base ++ [name] := by
  have hlist : (base ++ "/" ++ name).toList = base.toList ++ '/' :: name.toList := by simp
  unfold segments
  rw [hlist, segmentsOf_append, segmentsOf_of_notMem h, List.map_append, List.map_singleton,
    String.ofList_toList]

/-- What stands before the name in the path of a file in a directory. -/
def ahead (dir : String) : String :=
  if dir.isEmpty then "" else if dir.toList.getLast? = some '/' then dir else dir ++ "/"

theorem join_eq {name : String} (h : '/' ∉ name.toList) (dir : String) :
    join dir name = ahead dir ++ name := by
  unfold join ahead
  rw [isAbsolute_of_notMem h, Bool.false_or]
  split
  · exact String.empty_append.symm
  · split <;> rfl

/-- The segments on the way to the files in a directory. -/
def segmentsInto (dir : String) : List String :=
  if dir.isEmpty then []
  else if dir.toList.getLast? = some '/' then (segments dir).dropLast else segments dir

/-- A path that ends in `/` has an empty last segment. -/
theorem segments_eq_concat {dir : String} (h : dir.toList.getLast? = some '/') :
    ∃ base, dir = base ++ "/" ∧ segments dir = segments base ++ [""] := by
  obtain ⟨cs, hcs⟩ := List.getLast?_eq_some_iff.1 h
  have hdir : dir = String.ofList cs ++ "/" ++ "" := by
    apply String.toList_inj.1
    rw [hcs]
    simp
  refine ⟨String.ofList cs, hdir.trans String.append_empty, ?_⟩
  rw [hdir]
  exact segments_append List.not_mem_nil _

theorem segments_ahead_append {name : String} (h : '/' ∉ name.toList) (dir : String) :
    segments (ahead dir ++ name) = segmentsInto dir ++ [name] := by
  unfold ahead segmentsInto
  split
  · rw [String.empty_append, segments_of_notMem h, List.nil_append]
  · split
    · next hslash =>
      obtain ⟨base, hbase, hsegments⟩ := segments_eq_concat hslash
      rw [hsegments, List.dropLast_concat, hbase, segments_append h]
    · exact segments_append h dir

theorem isAbsolute_ahead_append {name : String} (h : '/' ∉ name.toList) (dir : String) :
    isAbsolute (ahead dir ++ name) = isAbsolute dir := by
  unfold ahead
  split
  · next hempty =>
    rw [String.empty_append, isAbsolute_of_notMem h, String.isEmpty_iff.1 hempty]
    rfl
  · next hempty =>
    have hempty := Bool.eq_false_iff.2 hempty
    split
    · exact isAbsolute_append hempty name
    · rw [String.append_assoc]
      exact isAbsolute_append hempty _

theorem segments_of_getLast? {dir : String} (h : dir.toList.getLast? = some '/') :
    segments dir = segmentsInto dir ++ [""] := by
  obtain ⟨base, hbase, hsegments⟩ := segments_eq_concat h
  have hempty : dir.isEmpty = false := by
    rw [hbase, Bool.eq_false_iff, Ne, String.isEmpty_iff]
    intro heq
    simpa using congrArg (fun s => s.toList.length) heq
  unfold segmentsInto
  rw [hempty, if_neg Bool.false_ne_true, if_pos h, hsegments, List.dropLast_concat]

theorem segmentsInto_of_getLast? {dir : String} (hempty : dir.isEmpty = false)
    (h : dir.toList.getLast? ≠ some '/') : segmentsInto dir = segments dir := by
  unfold segmentsInto
  rw [hempty, if_neg Bool.false_ne_true, if_neg h]

/-- A text that can be followed: not empty, without NUL, and not too long. -/
structure IsUsable (path : String) : Prop where
  not_empty : path.isEmpty = false
  nul_notMem : '\x00' ∉ path.toList
  not_tooLong : isTooLong path = false

theorem IsName.not_isEmpty {name : String} (h : IsName name) : name.isEmpty = false := by
  rw [Bool.eq_false_iff, Ne, String.isEmpty_iff]
  rintro rfl
  exact absurd h.not_idle (by decide)

theorem isEmpty_ahead_append {name : String} (h : name.isEmpty = false) (dir : String) :
    (ahead dir ++ name).isEmpty = false := by
  rw [Bool.eq_false_iff, Ne, String.isEmpty_iff] at h ⊢
  exact fun heq => h (String.append_eq_empty_iff.1 heq).2

theorem mem_ahead {c : Char} (hc : c ≠ '/') (dir : String) :
    c ∈ (ahead dir).toList ↔ c ∈ dir.toList := by
  unfold ahead
  split
  · next hempty =>
    rw [String.isEmpty_iff.1 hempty]
  · split
    · rfl
    · rw [String.toList_append, List.mem_append, or_iff_left]
      exact fun h => hc (List.mem_singleton.1 h)

/-- A shorter name in a directory whose path can be followed with a longer one. -/
theorem IsUsable.join {dir name other : String} (h : IsUsable (join dir other))
    (hother : '/' ∉ other.toList) (hname : '/' ∉ name.toList) (hnul : '\x00' ∉ name.toList)
    (hempty : name.isEmpty = false) (hsize : name.utf8ByteSize ≤ other.utf8ByteSize) :
    IsUsable (join dir name) := by
  have hlong := h.not_tooLong
  have hfree := h.nul_notMem
  rw [join_eq hother] at hlong hfree
  rw [join_eq hname]
  unfold isTooLong at hlong
  rw [decide_eq_false_iff_not, String.utf8ByteSize_append] at hlong
  rw [String.toList_append, List.mem_append, not_or] at hfree
  refine ⟨?_, ?_, ?_⟩
  · exact isEmpty_ahead_append hempty dir
  · rw [String.toList_append, List.mem_append, not_or]
    exact ⟨hfree.1, hnul⟩
  · unfold isTooLong
    rw [decide_eq_false_iff_not, String.utf8ByteSize_append]
    omega

end Path

namespace FileTree

/-! ## Places -/

theorem exists_steps?_iff {t : FileTree} {path : String} :
    (∃ steps, t.steps? path = some steps) ↔ Path.IsUsable path := by
  unfold steps?
  constructor
  · rintro ⟨steps, h⟩
    split at h
    · cases h
    · next hbad =>
      rw [Bool.or_eq_true, Bool.or_eq_true, not_or, not_or] at hbad
      exact ⟨Bool.eq_false_iff.2 hbad.1.1, fun hnul => hbad.1.2 (List.contains_iff_mem.2 hnul),
        Bool.eq_false_iff.2 hbad.2⟩
  · intro h
    have hnul : path.toList.contains '\x00' = false :=
      Bool.eq_false_iff.2 fun hc => h.nul_notMem (List.contains_iff_mem.1 hc)
    rw [h.not_empty, hnul, h.not_tooLong, if_neg (by decide)]
    split
    · exact ⟨_, rfl⟩
    · exact ⟨_, rfl⟩

/-- A path that starts with `/`, or else the one from the working directory. -/
theorem steps?_eq {t : FileTree} {path : String} {steps : List String}
    (h : t.steps? path = some steps) :
    steps = (if Path.isAbsolute path then [] else t.here) ++ Path.segments path := by
  unfold steps? at h
  split at h
  · cases h
  · split at h
    · next habs =>
      rw [if_pos habs]
      exact (Option.some.inj h).symm
    · next habs =>
      rw [if_neg habs]
      exact (Option.some.inj h).symm

/-- The steps to the directory in which the files of a path stand. -/
def stepsInto (t : FileTree) (dir : String) : List String :=
  (if Path.isAbsolute dir then [] else t.here) ++ Path.segmentsInto dir

/-- The path of a file in a directory has one step more than that of the directory. -/
theorem steps?_join {t : FileTree} {dir name : String} {steps : List String}
    (hname : '/' ∉ name.toList) (h : t.steps? (Path.join dir name) = some steps) :
    steps = t.stepsInto dir ++ [name] := by
  rw [Path.join_eq hname] at h
  rw [steps?_eq h, Path.isAbsolute_ahead_append hname, Path.segments_ahead_append hname,
    ← List.append_assoc]
  rfl

theorem follow_append (t : FileTree) (here ss ss' : List String) :
    t.follow here (ss ++ ss') = (t.follow here ss).bind fun dir => t.follow dir ss' := by
  induction ss generalizing here with
  | nil => rfl
  | cons s ss ih =>
    rw [List.cons_append, follow, follow]
    split
    · rfl
    · split
      · exact ih here
      · split
        · exact ih here.dropLast
        · split
          · exact ih (here ++ [s])
          · rfl

/-- The last step leads from a directory to its entry. -/
theorem follow_name {t : FileTree} {dir p : List String} {name : String} (hname : Path.IsName name)
    (h : t.follow dir [name] = some p) : p = dir ++ [name] := by
  unfold follow at h
  split at h
  · cases h
  · rw [hname.not_idle, if_neg Bool.false_ne_true, if_neg hname.ne_above] at h
    split at h
    · exact (Option.some.inj h).symm
    · cases h

theorem follow_of_isIdle {t : FileTree} {dir : List String} {s : String}
    (h : Path.isIdle s = true) :
    t.follow dir [s] = if t.isDir dir then some dir else none := by
  unfold follow
  rw [if_pos h]
  cases t.isDir dir <;> rfl

theorem follow_of_isName {t : FileTree} {dir : List String} {name : String}
    (hname : Path.IsName name) (hfits : fits name = true) (hdir : t.isDir dir = true) :
    t.follow dir [name] = some (dir ++ [name]) := by
  unfold follow
  rw [hdir, Bool.not_true, if_neg Bool.false_ne_true, hname.not_idle, if_neg Bool.false_ne_true,
    if_neg hname.ne_above, if_pos hfits]
  rfl

theorem isDir_of_follow {t : FileTree} {dir p : List String} {s : String} {ss : List String}
    (h : t.follow dir (s :: ss) = some p) : t.isDir dir = true := by
  unfold follow at h
  split at h
  · cases h
  · next hdir => simpa using hdir

/-- The path of a file in a directory leads into the directory. -/
theorem exists_place_of_locate?_join {t : FileTree} {dir name : String} {p : List String}
    (hname : Path.IsName name) (h : t.locate? (Path.join dir name) = some p) :
    ∃ place, t.locate? (Path.join dir ".") = some place ∧ t.isDir place = true ∧
      p = place ++ [name] := by
  obtain ⟨steps, hsteps, hfollow⟩ := Option.bind_eq_some_iff.1 h
  rw [steps?_join hname.notMem hsteps, follow_append] at hfollow
  obtain ⟨place, hplace, hlast⟩ := Option.bind_eq_some_iff.1 hfollow
  have hdir := isDir_of_follow hlast
  refine ⟨place, ?_, hdir, follow_name hname hlast⟩
  have hdot : '/' ∉ ".".toList := by decide
  have hbytes : ".".utf8ByteSize ≤ name.utf8ByteSize := by
    have hpos : name.utf8ByteSize ≠ 0 := fun hzero => by
      rw [String.utf8ByteSize_eq_zero_iff.1 hzero] at hname
      exact absurd hname.not_idle (by decide)
    have hone : ".".utf8ByteSize = 1 := by decide
    omega
  obtain ⟨steps', hsteps'⟩ := exists_steps?_iff.2
    ((exists_steps?_iff.1 ⟨steps, hsteps⟩).join hname.notMem hdot (by decide) (by decide) hbytes)
  unfold locate?
  rw [hsteps', Option.bind_some, steps?_join hdot hsteps', follow_append, hplace, Option.bind_some,
    follow_of_isIdle (by decide), if_pos hdir]

theorem follow_stepsInto {t : FileTree} {dir : String} {place : List String}
    (h : t.locate? dir = some place) : t.follow [] (t.stepsInto dir) = some place := by
  obtain ⟨steps, hsteps, hfollow⟩ := Option.bind_eq_some_iff.1 h
  have hempty := (exists_steps?_iff.1 ⟨steps, hsteps⟩).not_empty
  rw [steps?_eq hsteps] at hfollow
  unfold stepsInto
  by_cases hslash : dir.toList.getLast? = some '/'
  · rw [Path.segments_of_getLast? hslash, ← List.append_assoc, follow_append] at hfollow
    obtain ⟨above, habove, hlast⟩ := Option.bind_eq_some_iff.1 hfollow
    rw [follow_of_isIdle (by decide)] at hlast
    split at hlast
    · rw [habove, hlast]
    · cases hlast
  · rwa [Path.segmentsInto_of_getLast? hempty hslash]

/-- An entry of a directory is found under its name, if the path is not too long. -/
theorem locate?_join_of_isDir {t : FileTree} {dir name : String} {place : List String}
    (h : t.locate? dir = some place) (hdir : t.isDir place = true) (hname : Path.IsName name)
    (hnul : '\x00' ∉ name.toList) (hfits : fits name = true)
    (hlong : Path.isTooLong (Path.join dir name) = false) :
    t.locate? (Path.join dir name) = some (place ++ [name]) := by
  obtain ⟨steps, hsteps, -⟩ := Option.bind_eq_some_iff.1 h
  have hdirUsable := exists_steps?_iff.1 ⟨steps, hsteps⟩
  obtain ⟨steps', hsteps'⟩ : ∃ steps, t.steps? (Path.join dir name) = some steps := by
    refine exists_steps?_iff.2 ⟨?_, ?_, hlong⟩
    · rw [Path.join_eq hname.notMem]
      exact Path.isEmpty_ahead_append hname.not_isEmpty dir
    · rw [Path.join_eq hname.notMem, String.toList_append, List.mem_append, not_or,
        Path.mem_ahead (by decide)]
      exact ⟨hdirUsable.nul_notMem, hnul⟩
  unfold locate?
  rw [hsteps', Option.bind_some, steps?_join hname.notMem hsteps', follow_append,
    follow_stepsInto h, Option.bind_some, follow_of_isName hname hfits hdir]

/-- **The path of a file in a directory leads to its name in the place of the directory.** -/
theorem locate?_join (t : FileTree) (dir : String) :
    ∃ place, ∀ {name p}, Path.IsName name → t.locate? (Path.join dir name) = some p →
      p = place ++ [name] := by
  refine ⟨(t.follow [] (t.stepsInto dir)).getD [], fun {name p} hname hp => ?_⟩
  obtain ⟨steps, hsteps, hfollow⟩ := Option.bind_eq_some_iff.1 hp
  rw [steps?_join hname.notMem hsteps, follow_append] at hfollow
  obtain ⟨place, hplace, hlast⟩ := Option.bind_eq_some_iff.1 hfollow
  rw [hplace]
  exact follow_name hname hlast

/-- Different names in a directory lead to different places. -/
theorem locate?_join_inj {t : FileTree} {dir m n : String} {p : List String} (hm : Path.IsName m)
    (hn : Path.IsName n) (hp : t.locate? (Path.join dir m) = some p)
    (hq : t.locate? (Path.join dir n) = some p) : m = n := by
  obtain ⟨place, hplace⟩ := t.locate?_join dir
  have heq := (hplace hm hp).symm.trans (hplace hn hq)
  exact (List.singleton_inj.1 (List.append_cancel_left heq))

/-! ## Writing -/

/-- A tree with the same directories leads to the same places. -/
theorem locate?_congr {t t' : FileTree} (hhere : t'.here = t.here) (hdirs : t'.dirs = t.dirs)
    (path : String) : t'.locate? path = t.locate? path := by
  have hdir : ∀ p, t'.isDir p = t.isDir p := fun p => by unfold isDir; rw [hdirs]
  have hfollow : ∀ here steps, t'.follow here steps = t.follow here steps := by
    intro here steps
    induction steps generalizing here with
    | nil => rfl
    | cons s ss ih =>
      rw [follow, follow, hdir, ih, ih, ih]
  unfold locate? steps?
  rw [hhere]
  simp only [hfollow]

theorem setText_here (t : FileTree) (path : List String) (text : String) :
    (t.setText path text).here = t.here := by
  unfold setText
  split <;> rfl

theorem setText_dirs (t : FileTree) (path : List String) (text : String) :
    (t.setText path text).dirs = t.dirs := by
  unfold setText
  split <;> rfl

/-- Setting a text sets that text alone. -/
theorem text?_setText (t : FileTree) (path other : List String) (text : String) :
    (t.setText path text).text? other = if other = path then some text else t.text? other := by
  unfold setText
  split
  · next hfile =>
    have hkey : ((fun f : List String × String => f.1 == other) ∘
        fun f => if f.1 = path then (path, text) else f) = fun f => f.1 == other := by
      funext f
      simp only [Function.comp_apply]
      split
      · next heq => rw [heq]
      · rfl
    unfold isFile at hfile
    unfold text? at hfile ⊢
    rw [List.find?_map, hkey]
    cases hfind : t.files.find? fun f => f.1 == other with
    | none =>
      rw [if_neg]
      · rfl
      · rintro rfl
        rw [hfind] at hfile
        exact absurd hfile (by decide)
    | some f =>
      have hf : f.1 = other := eq_of_beq (List.find?_some hfind :)
      simp only [Option.map_some, hf]
      split <;> rfl
  · next hfile =>
    unfold isFile at hfile
    unfold text? at hfile ⊢
    rw [List.find?_append]
    by_cases heq : other = path
    · have hnone : (t.files.find? fun f => f.1 == path) = none :=
        Option.map_eq_none_iff.1 (Option.not_isSome_iff_eq_none.1 hfile)
      rw [heq, hnone, if_pos rfl]
      simp
    · have hlast : [(path, text)].find? (fun f => f.1 == other) = none := by
        simpa using fun h => heq h.symm
      rw [hlast, if_neg heq, Option.or_none]

end FileTree

end Ontogram.Storage

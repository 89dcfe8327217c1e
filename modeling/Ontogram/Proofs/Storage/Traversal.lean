import Mathlib.Data.List.Nodup
import Mathlib.Data.List.Perm.Subperm
import Ontogram.Proofs.Storage.WellFormed
import Ontogram.Proofs.Text.Bytes

/-!
# Walking through a file tree

A walk visits the entries of a directory in ascending order of their names and, where an entry is a
directory, all below it before the next entry. So of two files the one comes first whose name is
smaller where the ways to them part. The walk is told how deep it may go, and the number of
directories is deep enough: the directories on the way to a file are different ones.

* `mem_names` — the names of the entries of a directory.
* `mem_filesBelow` — a walk visits the files below a directory and nothing else.
* `filesBelow_pairwise` — the order of the visits.
-/

namespace Ontogram.Storage

/-- What a walk visits first, by the bytes of the names where the ways part. -/
def VisitedBefore (p q : List String) : Prop :=
  ∃ above a b, Text.bytes a < Text.bytes b ∧ above ++ [a] <+: p ∧ above ++ [b] <+: q

namespace FileTree

variable {t : FileTree} {dir p : List String} {name : String} {depth : Nat}

theorem mem_names : name ∈ t.names dir ↔ t.Holds (dir ++ [name]) := by
  have hentry : ∀ path : List String,
      (if (path.length = dir.length + 1 && path.take dir.length = dir) = true
        then path.getLast? else none) = some name ↔ path = dir ++ [name] := by
    intro path
    constructor
    · intro h
      split at h
      · next hbelow =>
        rw [Bool.and_eq_true, decide_eq_true_iff, decide_eq_true_iff] at hbelow
        obtain ⟨above, rfl⟩ := List.getLast?_eq_some_iff.1 h
        have hlength : above.length = dir.length := by simpa using hbelow.1
        rw [← hlength, List.take_left] at hbelow
        rw [hbelow.2]
      · cases h
    · rintro rfl
      rw [if_pos (by simp), List.getLast?_concat]
  unfold names Holds
  dsimp only
  rw [Text.mem_ascending, List.mem_append, List.mem_filterMap, List.mem_filterMap, isDir_iff,
    isFile_iff, or_comm]
  simp only [hentry, exists_eq_right, List.append_eq_nil_iff, List.cons_ne_self, and_false,
    false_or]

/-! ## The files that are visited -/

theorem mem_walk (ht : t.WellFormed) :
    p ∈ t.walk depth dir ↔
      ∃ below, p = dir ++ below ∧ t.isFile p = true ∧ below ≠ [] ∧ below.length ≤ depth := by
  induction depth generalizing dir p with
  | zero =>
    unfold walk
    refine ⟨fun h => absurd h List.not_mem_nil, ?_⟩
    rintro ⟨below, -, -, hne, hlength⟩
    exact absurd (List.eq_nil_of_length_eq_zero (Nat.le_zero.1 hlength)) hne
  | succ depth ih =>
    unfold walk
    rw [List.mem_flatMap]
    constructor
    · rintro ⟨name, hname, hp⟩
      dsimp only at hp
      split at hp
      · obtain ⟨below, rfl, hfile, -, hlength⟩ := ih.1 hp
        exact ⟨name :: below, by simp, hfile, List.cons_ne_nil _ _, Nat.succ_le_succ hlength⟩
      · next hdir =>
        obtain rfl := List.mem_singleton.1 hp
        exact ⟨[name], rfl, (mem_names.1 hname).resolve_left hdir, List.cons_ne_nil _ _, by simp⟩
    · rintro ⟨below, rfl, hfile, hne, hlength⟩
      obtain ⟨name, rest, rfl⟩ := List.exists_cons_of_ne_nil hne
      have hsplit : dir ++ name :: rest = dir ++ [name] ++ rest := by simp
      rw [hsplit] at hfile ⊢
      by_cases hrest : rest = []
      · rw [hrest, List.append_nil] at hfile ⊢
        have hdir : t.isDir (dir ++ [name]) ≠ true := fun hdir => by
          rw [ht.not_isFile hdir] at hfile
          cases hfile
        refine ⟨name, mem_names.2 (.inr hfile), ?_⟩
        rw [if_neg hdir]
        exact List.mem_singleton_self _
      · have hdir := ht.isDir_of_append hrest (.inr hfile)
        refine ⟨name, mem_names.2 (.inl hdir), ?_⟩
        rw [if_pos hdir]
        exact ih.2 ⟨rest, rfl, hfile, hrest, Nat.le_of_succ_le_succ hlength⟩

/-- The way to an entry is no longer than there are directories. -/
theorem WellFormed.length_le (ht : t.WellFormed) {below : List String}
    (h : t.Holds (dir ++ below)) : below.length ≤ t.dirs.length + 1 := by
  -- The directories on the way, without the one that it starts from.
  let way := (List.range (below.length - 1)).map fun n => dir ++ below.take (n + 1)
  have hnodup : way.Nodup := by
    refine List.Nodup.map_on (fun m hm n hn heq => ?_) List.nodup_range
    rw [List.mem_range] at hm hn
    have hlength := congrArg List.length (List.append_cancel_left heq)
    rw [List.length_take, List.length_take] at hlength
    omega
  have hsubset : way ⊆ t.dirs := by
    intro p hp
    obtain ⟨n, hn, rfl⟩ := List.mem_map.1 hp
    rw [List.mem_range] at hn
    have hdrop : below.drop (n + 1) ≠ [] := by
      rw [Ne, List.drop_eq_nil_iff]
      omega
    have hdir : t.isDir (dir ++ below.take (n + 1)) = true := by
      refine ht.isDir_of_append hdrop ?_
      rwa [List.append_assoc, List.take_append_drop]
    refine (isDir_iff.1 hdir).resolve_left fun hnil => ?_
    have hlength := congrArg List.length hnil
    rw [List.length_append, List.length_take, List.length_nil] at hlength
    omega
  have hle := (hnodup.subperm hsubset).length_le
  rw [List.length_map, List.length_range] at hle
  omega

/-- **A walk visits the files below a directory and nothing else.** -/
theorem mem_filesBelow (ht : t.WellFormed) (hdir : t.isDir dir = true) :
    p ∈ t.filesBelow dir ↔ ∃ below, p = dir ++ below ∧ t.isFile p = true := by
  unfold filesBelow
  rw [mem_walk ht]
  constructor
  · rintro ⟨below, hp, hfile, -, -⟩
    exact ⟨below, hp, hfile⟩
  · rintro ⟨below, rfl, hfile⟩
    refine ⟨below, rfl, hfile, ?_, ht.length_le (.inr hfile)⟩
    rintro rfl
    rw [List.append_nil, ht.not_isFile hdir] at hfile
    cases hfile

/-! ## The order of the visits -/

theorem prefix_of_mem_walk (h : p ∈ t.walk depth dir) : dir <+: p := by
  induction depth generalizing dir with
  | zero => exact absurd h List.not_mem_nil
  | succ depth ih =>
    unfold walk at h
    obtain ⟨name, -, hp⟩ := List.mem_flatMap.1 h
    dsimp only at hp
    split at hp
    · exact (List.prefix_append _ _).trans (ih hp)
    · rw [List.mem_singleton.1 hp]
      exact List.prefix_append _ _

theorem walk_pairwise (t : FileTree) (depth : Nat) (dir : List String) :
    (t.walk depth dir).Pairwise VisitedBefore := by
  induction depth generalizing dir with
  | zero => exact List.Pairwise.nil
  | succ depth ih =>
    unfold walk
    dsimp only
    have hbelow : ∀ {name p}, p ∈ (if t.isDir (dir ++ [name]) = true
        then t.walk depth (dir ++ [name]) else [dir ++ [name]]) → dir ++ [name] <+: p := by
      intro name p hp
      split at hp
      · exact prefix_of_mem_walk hp
      · exact List.mem_singleton.1 hp ▸ List.prefix_rfl
    refine List.pairwise_flatMap.2 ⟨fun name _ => ?_, ?_⟩
    · split
      · exact ih _
      · exact List.pairwise_singleton _ _
    · refine (Text.ascending_pairwise _).imp fun {a b} hab p hp q hq => ?_
      exact ⟨dir, a, b, Text.lt_iff_bytes_lt.1 hab, hbelow hp, hbelow hq⟩

/-- **Of two files below a directory the one is visited first whose name has the smaller bytes where
the ways to them part.** -/
theorem filesBelow_pairwise (t : FileTree) (dir : List String) :
    (t.filesBelow dir).Pairwise VisitedBefore :=
  t.walk_pairwise _ dir

end FileTree

end Ontogram.Storage

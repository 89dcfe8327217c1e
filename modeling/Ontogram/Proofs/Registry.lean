import Mathlib.Tactic.SplitIfs
import Ontogram.Registry

/-!
# The registry is a bijection

A variable stands for a term in one direction exactly if the term has the variable as its key in the
other. `set` takes out the entry of the key and that of the value, each in both directions, so it
keeps this and has one effect: the key stands for the value, and the entries that had one of the two
are gone.

* `Valid.get?_eq_some_iff_keyOf?` — the two directions agree.
* `Valid.get?_set`, `Valid.keyOf?_set` — what a registry gives after `set`.
* `reachable_bijective` — both, for every registry that changes lead to.
* `Valid.termOf_set`, `Valid.variableOf_set` — the same for the readings that give back what is not
  registered.
* `Valid.ext` — a registry is known by what its variables stand for.
* `Valid.recordRename_comm` — renames of two terms to new ones, in either order.
* `recordRename_keeps_iff` — what a rename keeps: all but the term of a variable that is called like
  the old term, if none stands for the old term.
-/

namespace Ontogram.Registry

variable {r s : Registry} {key value k v : String}

/-- The two directions are in step. -/
def Valid (r : Registry) : Prop :=
  ∀ k v, r.get? k = some v ↔ r.keyOf? v = some k

theorem valid_empty : Valid empty :=
  fun _ _ => iff_of_false nofun nofun

/-- **A variable stands for a term exactly if it is the key of the term.** -/
theorem Valid.get?_eq_some_iff_keyOf? (hr : r.Valid) :
    r.get? k = some v ↔ r.keyOf? v = some k :=
  hr k v

theorem Valid.isSome_keyOf? (hr : r.Valid) : (r.keyOf? v).isSome ↔ ∃ k, r.get? k = some v := by
  rw [Option.isSome_iff_exists]
  exact exists_congr fun k => (hr k v).symm

theorem keyOf_eq_ok : r.keyOf v = .ok k ↔ r.keyOf? v = some k := by
  unfold keyOf
  cases r.keyOf? v <;> simp

/-- Registries in which every variable stands for the same are equal. -/
theorem Valid.ext (hr : r.Valid) (hs : s.Valid) (h : ∀ k, r.get? k = s.get? k) : r = s := by
  have hforward : r.forward = s.forward := Text.Dictionary.ext_get? h
  have hinverse : r.inverse = s.inverse := Text.Dictionary.ext_get? fun v => Option.ext fun k => by
    rw [← keyOf?, ← keyOf?, ← hr, ← hs, h]
  cases r
  cases s
  cases hforward
  cases hinverse
  rfl

/-! ## Releasing -/

theorem get?_releaseKey (r : Registry) (key k : String) :
    (r.releaseKey key).get? k = if k = key then none else r.get? k := by
  unfold releaseKey get?
  split
  · exact r.forward.get?_erase key k
  · next hn =>
    split
    · next hk => rw [hk, hn]
    · rfl

theorem keyOf?_releaseKey (r : Registry) (key v : String) :
    (r.releaseKey key).keyOf? v = if r.get? key = some v then none else r.keyOf? v := by
  unfold releaseKey get? keyOf?
  split
  · grind
  · grind

theorem get?_releaseValue (r : Registry) (value k : String) :
    (r.releaseValue value).get? k = if r.keyOf? value = some k then none else r.get? k := by
  unfold releaseValue get? keyOf?
  split
  · grind
  · grind

theorem keyOf?_releaseValue (r : Registry) (value v : String) :
    (r.releaseValue value).keyOf? v = if v = value then none else r.keyOf? v := by
  unfold releaseValue keyOf?
  split
  · exact r.inverse.get?_erase value v
  · next hn =>
    split
    · next hv => rw [hv, hn]
    · rfl

/-! ## Setting -/

/-- **What a registry gives for a variable after `set`.** -/
theorem Valid.get?_set (hr : r.Valid) :
    (r.set key value).get? k =
      if k = key then some value else if r.get? k = some value then none else r.get? k := by
  have hins : (r.set key value).get? k =
      if k = key then some value else ((r.releaseKey key).releaseValue value).get? k :=
    Text.Dictionary.get?_insert _ key value k
  have hpair := hr key value
  have hvalue := hr k value
  rw [hins, get?_releaseValue, get?_releaseKey, keyOf?_releaseKey]
  grind

/-- **What a registry gives for a term after `set`.** -/
theorem Valid.keyOf?_set (hr : r.Valid) :
    (r.set key value).keyOf? v =
      if v = value then some key else if r.keyOf? v = some key then none else r.keyOf? v := by
  have hins : (r.set key value).keyOf? v =
      if v = value then some key else ((r.releaseKey key).releaseValue value).keyOf? v :=
    Text.Dictionary.get?_insert _ value key v
  have hpair := hr key value
  have hkey := hr key v
  rw [hins, keyOf?_releaseValue, keyOf?_releaseKey]
  grind

/-- **`set` keeps the two directions in step**, whatever the key and the value were in use for. -/
theorem Valid.set (hr : r.Valid) (key value : String) : (r.set key value).Valid := by
  intro k v
  -- The pair itself, and the two it can lose its place to.
  have hpair := hr k v
  have hkey := hr key v
  have hvalue := hr k value
  rw [hr.get?_set, hr.keyOf?_set]
  grind

/-! ## Terms of variables, and variables of terms -/

/-- The term of a variable: what it stands for, or else the variable itself. -/
def termOf (r : Registry) (k : String) : String :=
  (r.get? k).getD k

/-- The variable of a term: the one that stands for it, or else the term itself. -/
def variableOf (r : Registry) (v : String) : String :=
  (r.keyOf? v).getD v

theorem termOf_eq_of_get? (h : r.get? k = some v) : r.termOf k = v := by
  rw [termOf, h]
  rfl

theorem variableOf_eq_of_keyOf? (h : r.keyOf? v = some k) : r.variableOf v = k := by
  rw [variableOf, h]
  rfl

theorem get?_eq_of_termOf (h : r.termOf k = v) (hne : k ≠ v) : r.get? k = some v := by
  cases hk : r.get? k with
  | none =>
    rw [termOf, hk] at h
    exact absurd h hne
  | some w => rw [← h, termOf_eq_of_get? hk]

theorem Valid.termOf_set (hr : r.Valid) :
    (r.set key value).termOf k =
      if k = key then value else if r.get? k = some value then k else r.termOf k := by
  unfold termOf
  rw [hr.get?_set]
  split_ifs <;> rfl

theorem Valid.variableOf_set (hr : r.Valid) :
    (r.set key value).variableOf v =
      if v = value then key else if r.keyOf? v = some key then v else r.variableOf v := by
  unfold variableOf
  rw [hr.keyOf?_set]
  split_ifs <;> rfl

/-- A variable is that of a term if it stands for it, or if none does and it is the term itself. -/
theorem Valid.eq_variableOf_iff (hr : r.Valid) :
    k = r.variableOf v ↔ r.get? k = some v ∨ k = v ∧ r.keyOf? v = none := by
  rw [hr.get?_eq_some_iff_keyOf?, variableOf]
  cases r.keyOf? v with
  | none => simp
  | some key => simp [eq_comm]

/-! ## Renames -/

variable {key' old old' new new' : String}

theorem recordRename_eq_set (r : Registry) (old new : String) :
    r.recordRename old new = r.set (r.variableOf old) new :=
  rfl

theorem Valid.recordRename (hr : r.Valid) (old new : String) : (r.recordRename old new).Valid :=
  hr.set _ new

/-- After a rename a variable stands for the new term or for what it stood for, and none for the old
term. -/
theorem Valid.eq_or_get?_of_recordRename (hr : r.Valid)
    (h : (r.recordRename old new).get? k = some v) :
    v = new ∨ v ≠ old ∧ r.get? k = some v := by
  rw [recordRename_eq_set, hr.get?_set] at h
  split at h
  · exact Or.inl (Option.some.inj h).symm
  · next hkey =>
    split at h
    · cases h
    · refine Or.inr ⟨?_, h⟩
      -- The variable of the old term is the one that was re-pointed.
      rintro rfl
      exact hkey (variableOf_eq_of_keyOf? (hr.get?_eq_some_iff_keyOf?.1 h)).symm

/-- A rename of a registered term to one that is not registered changes this one term. -/
theorem Valid.get?_recordRename (hr : r.Valid) (hold : (r.keyOf? old).isSome)
    (hnew : ∀ k, r.get? k ≠ some new) :
    (r.recordRename old new).get? k = (r.get? k).map fun v => if old = v then new else v := by
  obtain ⟨key, hkey⟩ := Option.isSome_iff_exists.1 hold
  rw [recordRename_eq_set, variableOf_eq_of_keyOf? hkey, hr.get?_set, if_neg (hnew k)]
  by_cases hk : k = key
  · rw [if_pos hk, hk, hr.get?_eq_some_iff_keyOf?.2 hkey, Option.map_some, if_pos rfl]
  · rw [if_neg hk]
    cases hv : r.get? k with
    | none => rfl
    | some v =>
      have hne : old ≠ v := by
        rintro rfl
        exact hk (Option.some.inj ((hr.get?_eq_some_iff_keyOf?.1 hv).symm.trans hkey))
      rw [Option.map_some, if_neg hne]

/-- Renames of two registered terms to terms that are not registered. -/
theorem Valid.get?_recordRename_recordRename (hr : r.Valid) (hold : r.get? key = some old)
    (hold' : r.get? key' = some old') (hne : old ≠ old') (hnew : ∀ k, r.get? k ≠ some new)
    (hnew' : ∀ k, r.get? k ≠ some new') (hne' : new ≠ new') :
    ((r.recordRename old new).recordRename old' new').get? k =
      (r.get? k).map fun v => if old = v then new else if old' = v then new' else v := by
  have hrenamed : ∀ k, (r.recordRename old new).get? k =
      (r.get? k).map fun v => if old = v then new else v :=
    fun k => hr.get?_recordRename (hr.isSome_keyOf?.2 ⟨key, hold⟩) hnew
  have hstays : (r.recordRename old new).get? key' = some old' := by
    rw [hrenamed, hold', Option.map_some, if_neg hne]
  have hfresh : ∀ k, (r.recordRename old new).get? k ≠ some new' := by
    intro k hk
    rw [hrenamed, Option.map_eq_some_iff] at hk
    obtain ⟨v, hv, heq⟩ := hk
    split at heq
    · exact hne' heq
    · exact hnew' k (heq ▸ hv)
  have hv := hr.recordRename old new
  rw [hv.get?_recordRename (hv.isSome_keyOf?.2 ⟨key', hstays⟩) hfresh, hrenamed, Option.map_map]
  refine Option.map_congr fun v _ => ?_
  have hnewne : old' ≠ new := fun heq => hnew key' (heq ▸ hold')
  by_cases hv : old = v
  · simp only [if_pos hv, if_neg hnewne, Function.comp_apply]
  · simp only [if_neg hv, Function.comp_apply]

/-- **Renames of two registered terms to terms that are not registered, in either order.** -/
theorem Valid.recordRename_comm (hr : r.Valid) (hold : r.get? key = some old)
    (hold' : r.get? key' = some old') (hne : old ≠ old') (hnew : ∀ k, r.get? k ≠ some new)
    (hnew' : ∀ k, r.get? k ≠ some new') (hne' : new ≠ new') :
    (r.recordRename old new).recordRename old' new' =
      (r.recordRename old' new').recordRename old new := by
  refine ((hr.recordRename _ _).recordRename _ _).ext ((hr.recordRename _ _).recordRename _ _)
    fun k => ?_
  rw [hr.get?_recordRename_recordRename hold hold' hne hnew hnew' hne',
    hr.get?_recordRename_recordRename hold' hold hne.symm hnew' hnew hne'.symm]
  refine Option.map_congr fun v _ => ?_
  split_ifs with h h' <;> first | rfl | exact absurd (h.trans h'.symm) hne

/-! ## The registry of a template -/

/-- Every variable stands for itself. -/
def Unbound (r : Registry) : Prop :=
  ∀ k, r.termOf k = k

theorem Unbound.set (h : r.Unbound) (hr : r.Valid) (key : String) : (r.set key key).Unbound := by
  intro k
  rw [hr.termOf_set]
  split_ifs with hk
  · exact hk.symm
  · rfl
  · exact h k

theorem Unbound.variableOf (h : r.Unbound) (hr : r.Valid) (v : String) : r.variableOf v = v := by
  cases hk : r.keyOf? v with
  | none =>
    rw [Registry.variableOf, hk]
    rfl
  | some k =>
    rw [variableOf_eq_of_keyOf? hk, ← h k]
    exact termOf_eq_of_get? (hr.get?_eq_some_iff_keyOf?.2 hk)

theorem valid_unbound_identity (keys : List String) :
    (identity keys).Valid ∧ (identity keys).Unbound := by
  unfold identity
  exact List.foldlRecOn (motive := fun r => Valid r ∧ Unbound r) keys _
    ⟨valid_empty, fun _ => rfl⟩ fun r h key _ => ⟨h.1.set key key, h.2.set h.1 key⟩

theorem Unbound.eq_of_get? (h : r.Unbound) (hget : r.get? k = some v) : v = k := by
  rw [← h k]
  exact (termOf_eq_of_get? hget).symm

theorem Unbound.get?_set (h : r.Unbound) (hr : r.Valid) :
    (r.set key key).get? k = if k = key then some k else r.get? k := by
  rw [hr.get?_set]
  split_ifs with hk hget
  · rw [hk]
  · exact absurd (h.eq_of_get? hget).symm hk
  · rfl

theorem Unbound.get?_foldl_set (h : r.Unbound) (hr : r.Valid) (keys : List String) :
    (keys.foldl (fun r key => r.set key key) r).get? k =
      if k ∈ keys then some k else r.get? k := by
  induction keys generalizing r with
  | nil => rfl
  | cons key keys ih =>
    rw [List.foldl_cons, ih (h.set hr key) (hr.set key key), h.get?_set hr]
    by_cases hk : k = key <;> simp [hk]

/-- The registry of a template has the template's variables and no others. -/
theorem get?_identity (keys : List String) :
    (identity keys).get? k = if k ∈ keys then some k else none :=
  Unbound.get?_foldl_set (fun _ => rfl) valid_empty keys

/-! ## Runs -/

/-- The registries that changes lead to from the empty one or from that of a template. -/
inductive Reachable : Registry → Prop where
  | empty : Reachable empty
  | identity (keys : List String) : Reachable (identity keys)
  | set {r : Registry} (key value : String) : Reachable r → Reachable (r.set key value)
  | recordRename {r : Registry} (old new : String) : Reachable r → Reachable (r.recordRename old new)

theorem Reachable.valid (hr : r.Reachable) : r.Valid := by
  induction hr with
  | empty => exact valid_empty
  | identity keys => exact (valid_unbound_identity keys).1
  | set key value _ ih => exact ih.set key value
  | recordRename old new _ ih => exact ih.recordRename old new

/--
**The two directions stay in step, and `set` has one effect.**

The key stands for the value afterwards. Another key that held the value stands for nothing, and so
does the former value of the key; everything else is as before, in both directions.
-/
theorem reachable_bijective (hr : r.Reachable) :
    (∀ k v, r.get? k = some v ↔ r.keyOf v = .ok k) ∧
    (∀ key value k, (r.set key value).get? k =
      if k = key then some value else if r.get? k = some value then none else r.get? k) ∧
    (∀ key value v, (r.set key value).keyOf? v =
      if v = value then some key else if r.keyOf? v = some key then none else r.keyOf? v) :=
  ⟨fun k v => (hr.valid k v).trans keyOf_eq_ok.symm, fun _ _ _ => hr.valid.get?_set,
    fun _ _ _ => hr.valid.keyOf?_set⟩

/-- Key and value are both in use: the key lets go of its term, and the value of its variable. -/
theorem reachable_bijective_taken :
    let r := (identity ["a_", "b_"]).recordRename "a_" "M a"
    r.Reachable ∧ r.entries = [("a_", "M a"), ("b_", "b_")] ∧
      (r.set "a_" "b_").get? "a_" = some "b_" ∧ (r.set "a_" "b_").get? "b_" = none ∧
      (r.set "a_" "b_").keyOf? "M a" = none := by
  intro r
  have hr : r.Reachable := (Reachable.identity _).recordRename _ _
  obtain ⟨-, hget, hkey⟩ := reachable_bijective hr
  refine ⟨hr, by decide, ?_, ?_, ?_⟩
  · rw [hget]
    decide
  · rw [hget]
    decide
  · rw [hkey]
    decide

/--
**What a rename keeps.**

A variable stands for the new term afterwards, and none for the old one. A variable that stood for
another term still does, unless it is called like the old term and no variable stood for that: then
its own entry is overwritten.
-/
theorem recordRename_keeps_iff (hr : r.Reachable) (hne : old ≠ new) :
    (r.recordRename old new).get? (r.variableOf old) = some new ∧
    (∀ k, (r.recordRename old new).get? k ≠ some old) ∧
    ∀ k v, r.get? k = some v → v ≠ old → v ≠ new →
      ((r.recordRename old new).get? k = some v ↔ k ≠ old ∨ ∃ key, r.get? key = some old) := by
  have hv := hr.valid
  refine ⟨?_, fun k hk => ?_, fun k v hk hvo hvn => ?_⟩
  · rw [recordRename_eq_set, hv.get?_set, if_pos rfl]
  · rcases hv.eq_or_get?_of_recordRename hk with he | ⟨he, -⟩
    · exact hne he
    · exact he rfl
  · have hstep : (r.recordRename old new).get? k = some v ↔ k ≠ r.variableOf old := by
      rw [recordRename_eq_set, hv.get?_set, hk]
      split_ifs with hkey hnew
      · simp [hkey, hvn.symm]
      · exact absurd (Option.some.inj hnew) hvn
      · simp [hkey]
    -- The variable stands for another term than the old one, so what is left is its name.
    rw [hstep, Ne, hv.eq_variableOf_iff, hk, or_iff_right (by simpa using hvo),
      Classical.not_and_iff_not_or_not, ← hv.isSome_keyOf?, Option.isSome_iff_ne_none]

/-- A term comes back that is called like the variable it was renamed from: the variable loses what
it stands for. -/
theorem recordRename_keeps_iff_cameBack :
    let r := (identity ["speed_"]).recordRename "speed_" "M speed"
    r.Reachable ∧ "speed_" ≠ "1500" ∧ r.get? "speed_" = some "M speed" ∧
      (r.recordRename "speed_" "1500").get? "speed_" = some "1500" ∧
      (r.recordRename "speed_" "1500").get? "speed_" ≠ some "M speed" ∧
      (r.recordRename "speed_" "1500").entries = [("speed_", "1500")] := by
  intro r
  have hr : r.Reachable := (Reachable.identity _).recordRename _ _
  have hne : "speed_" ≠ "1500" := by decide
  have hget : r.get? "speed_" = some "M speed" := by decide
  obtain ⟨hnew, -, hkeeps⟩ := recordRename_keeps_iff hr hne
  refine ⟨hr, hne, hget, hnew, fun hstays => ?_, by decide⟩
  rcases (hkeeps "speed_" "M speed" hget (by decide) (by decide)).1 hstays with h | ⟨key, hkey⟩
  · exact h rfl
  · exact absurd (hr.valid.isSome_keyOf?.2 ⟨key, hkey⟩) (by decide)

end Ontogram.Registry

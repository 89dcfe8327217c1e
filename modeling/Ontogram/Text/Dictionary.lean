import Ontogram.Text.Ascending

/-!
# Dictionaries

What some texts stand for. The entries are in strictly ascending order of their keys, so no key is
there twice, and a dictionary is read in that order.

An insertion goes through the entries once and replaces the one of its key, so what it does to the
look-up needs no order.

* `get?_insert`, `get?_erase` — what a key stands for after each change.
* `ext_get?` — a dictionary is known by what each key stands for.
-/

namespace Ontogram.Text

/-- Compares two entries by their keys. -/
def byKey (e f : String × String) : Ordering :=
  order e.1 f.1

/-- Places an entry in a list in ascending order of keys, in place of the one of its key. -/
def insertEntry (e : String × String) : List (String × String) → List (String × String) :=
  Sorting.place byKey e

theorem insertEntry_pairwise (e : String × String) {es : List (String × String)}
    (h : es.Pairwise fun e f => e.1 < f.1) : (insertEntry e es).Pairwise fun e f => e.1 < f.1 :=
  (orders.on Prod.fst).pairwise_place h e

theorem find?_insertEntry (e : String × String) (k : String) (es : List (String × String)) :
    ((insertEntry e es).find? fun f => f.1 == k) =
      if k = e.1 then some e else es.find? fun f => f.1 == k := by
  unfold insertEntry
  by_cases hk : k = e.1
  · rw [if_pos hk]
    have hfound : ∀ fs : List (String × String), ((e :: fs).find? fun f => f.1 == k) = some e :=
      fun fs => List.find?_cons_of_pos (by simp [hk])
    induction es with
    | nil => exact hfound []
    | cons f es ih =>
      cases ho : byKey e f with
      | lt =>
        rw [Sorting.place_cons_of_lt ho]
        exact hfound _
      | eq =>
        rw [Sorting.place_cons_of_eq ho]
        exact hfound _
      | gt =>
        have hne : f.1 ≠ k := fun heq => String.lt_irrefl _ (heq.trans hk ▸ orders.of_gt ho)
        rw [Sorting.place_cons_of_gt ho, List.find?_cons_of_neg (by simpa using hne), ih]
  · rw [if_neg hk]
    have hskip : ∀ fs : List (String × String),
        ((e :: fs).find? fun f => f.1 == k) = fs.find? fun f => f.1 == k :=
      fun fs => List.find?_cons_of_neg (by simpa using Ne.symm hk)
    induction es with
    | nil => exact hskip []
    | cons f es ih =>
      cases ho : byKey e f with
      | lt =>
        rw [Sorting.place_cons_of_lt ho]
        exact hskip _
      | eq =>
        have hne : f.1 ≠ k := fun heq => hk ((eq_of_order ho).trans heq).symm
        rw [Sorting.place_cons_of_eq ho, hskip, List.find?_cons_of_neg (by simpa using hne)]
      | gt => rw [Sorting.place_cons_of_gt ho, List.find?_cons, List.find?_cons, ih]

/-- Texts with what they stand for. -/
structure Dictionary where
  entries : List (String × String)
  ascending : entries.Pairwise fun e f => e.1 < f.1
deriving Repr, DecidableEq

namespace Dictionary

/-- The dictionary without entries. -/
def empty : Dictionary :=
  ⟨[], List.Pairwise.nil⟩

/-- What a key stands for. -/
def get? (d : Dictionary) (key : String) : Option String :=
  (d.entries.find? fun e => e.1 == key).map Prod.snd

/-- Makes a key stand for a value. -/
def insert (d : Dictionary) (key value : String) : Dictionary :=
  ⟨insertEntry (key, value) d.entries, insertEntry_pairwise _ d.ascending⟩

/-- Takes out the entry of a key, if there is one. -/
def erase (d : Dictionary) (key : String) : Dictionary :=
  ⟨d.entries.filter fun e => e.1 != key, d.ascending.filter _⟩

@[simp]
theorem get?_empty (key : String) : empty.get? key = none := rfl

@[grind =]
theorem get?_insert (d : Dictionary) (key value k : String) :
    (d.insert key value).get? k = if k = key then some value else d.get? k := by
  unfold get? insert
  rw [find?_insertEntry]
  split <;> rfl

@[grind =]
theorem get?_erase (d : Dictionary) (key k : String) :
    (d.erase key).get? k = if k = key then none else d.get? k := by
  unfold get? erase
  rw [List.find?_filter]
  by_cases hk : k = key
  · subst hk
    rw [if_pos rfl, Option.map_eq_none_iff, List.find?_eq_none]
    simp
  · rw [if_neg hk]
    congr 2
    funext e
    by_cases he : e.1 = k
    · simp [he, hk]
    · simp [he]

/-! ## What a dictionary is known by -/

variable {d d' : Dictionary} {key value : String}

/-- No key has two entries. -/
theorem eq_of_mem {e f : String × String} (he : e ∈ d.entries) (hf : f ∈ d.entries)
    (hkey : e.1 = f.1) : e = f := by
  refine List.Pairwise.forall_of_forall_of_flip (R := fun e f => e.1 = f.1 → e = f)
    (fun _ _ _ => rfl) ?_ ?_ he hf hkey
  · exact d.ascending.imp fun hlt heq => absurd heq (String.ne_of_lt hlt)
  · exact d.ascending.imp fun hlt heq => absurd heq.symm (String.ne_of_lt hlt)

theorem get?_eq_some : d.get? key = some value ↔ (key, value) ∈ d.entries := by
  unfold get?
  rw [Option.map_eq_some_iff]
  constructor
  · rintro ⟨⟨k, v⟩, hf, rfl⟩
    have hk : k = key := by simpa using List.find?_some hf
    exact hk ▸ List.mem_of_find?_eq_some hf
  · intro he
    cases hf : d.entries.find? fun e => e.1 == key with
    | none => exact absurd (List.find?_eq_none.1 hf _ he) (by simp)
    | some e =>
      have hk : e.1 = key := by simpa using List.find?_some hf
      exact ⟨e, rfl, congrArg Prod.snd (eq_of_mem (List.mem_of_find?_eq_some hf) he hk)⟩

/-- **Dictionaries in which every key stands for the same are equal.** -/
theorem ext_get? (h : ∀ key, d.get? key = d'.get? key) : d = d' := by
  have hnodup : ∀ d : Dictionary, d.entries.Nodup := fun d =>
    d.ascending.imp fun hlt heq => String.ne_of_lt hlt (congrArg Prod.fst heq)
  have hperm : d.entries.Perm d'.entries :=
    (List.perm_ext_iff_of_nodup (hnodup d) (hnodup d')).2 fun e => by
      rw [← get?_eq_some, h e.1, get?_eq_some]
  have hentries : d.entries = d'.entries := hperm.eq_of_pairwise
    (fun _ _ _ _ hab hba => absurd hba (String.lt_asymm hab)) d.ascending d'.ascending
  cases d
  cases d'
  cases hentries
  rfl

end Dictionary

end Ontogram.Text

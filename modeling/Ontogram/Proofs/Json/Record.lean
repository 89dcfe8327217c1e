import Ontogram.Json.Record
import Ontogram.Proofs.Json.RoundTrip

/-!
# Records that are written are read back

A record goes out as an object with its fields in order. Its names are different, so each field is
found again, and found once.

* `fields?_zip` — the fields of an object, if their names are different.
* `readAll_map` — a list, if its items are read back.
* `count?_count` — a count that fits into 64 bits.
-/

namespace Ontogram.Json

/-! ## Fields -/

theorem membersNamed_of_notMem {name : String} {members : List (String × Json)}
    (h : name ∉ members.map Prod.fst) : membersNamed name members = [] := by
  refine List.filterMap_eq_nil_iff.2 fun m hm => if_neg ?_
  rintro rfl
  exact h (List.mem_map_of_mem hm)

/-- A name that stands once has one value. -/
theorem membersNamed_of_mem {members : List (String × Json)}
    (hnodup : (members.map Prod.fst).Nodup) {m : String × Json} (hm : m ∈ members) :
    membersNamed m.1 members = [m.2] := by
  induction members with
  | nil => exact absurd hm List.not_mem_nil
  | cons first members ih =>
    rw [List.map_cons, List.nodup_cons] at hnodup
    rcases List.mem_cons.1 hm with rfl | hm
    · calc membersNamed m.1 (m :: members)
        _ = m.2 :: membersNamed m.1 members := List.filterMap_cons_some (if_pos rfl)
        _ = [m.2] := by rw [membersNamed_of_notMem hnodup.1]
    · have hne : first.1 ≠ m.1 := fun heq => hnodup.1 (heq ▸ List.mem_map_of_mem hm)
      calc membersNamed m.1 (first :: members)
        _ = membersNamed m.1 members := List.filterMap_cons_none (if_neg hne)
        _ = [m.2] := ih hnodup.2 hm

/-- An object with different names has its members as its fields. -/
theorem fields?_object {members : List (String × Json)} (hnodup : (members.map Prod.fst).Nodup) :
    fields? (members.map Prod.fst) (.object members) =
      some ⟨(members.map Prod.snd).map some, false⟩ := by
  unfold fields?
  dsimp only
  rw [if_neg, List.map_map, List.map_map]
  · congr 2
    refine List.map_congr_left fun m hm => ?_
    rw [Function.comp_apply, membersNamed_of_mem hnodup hm]
    rfl
  · rw [List.any_eq_true]
    rintro ⟨name, hname, hlong⟩
    obtain ⟨m, hm, rfl⟩ := List.mem_map.1 hname
    rw [membersNamed_of_mem hnodup hm] at hlong
    simp at hlong

/-- A record that goes out with a value for each of its names comes in with these values. -/
theorem fields?_zip {names : List String} (hnodup : names.Nodup) (values : List Json)
    (hlength : names.length = values.length) :
    fields? names (.object (names.zip values)) = some ⟨values.map some, false⟩ := by
  have hnames : (names.zip values).map Prod.fst = names := List.map_fst_zip (by omega)
  have hvalues : (names.zip values).map Prod.snd = values := List.map_snd_zip (by omega)
  have hfields := fields?_object (hnames ▸ hnodup)
  rwa [hnames, hvalues] at hfields

/-! ## Values of fields -/

theorem readAll_map {α : Type} {read : Json → Option α} {write : α → Json} {as : List α}
    (h : ∀ a ∈ as, read (write a) = some a) : readAll read (as.map write) = some as := by
  induction as with
  | nil => rfl
  | cons a as ih =>
    obtain ⟨ha, has⟩ := List.forall_mem_cons.1 h
    rw [List.map_cons, readAll, ha, ih has]

theorem list?_strings (ss : List String) : list? string? (.strings ss) = some ss :=
  readAll_map fun _ _ => rfl

theorem optional?_optional (o : Option String) : optional? string? (.optional o) = some o := by
  cases o <;> rfl

theorem count?_count {n : Nat} (h : n ≤ 0xFFFFFFFFFFFFFFFF) : count? (.count n) = some n := by
  have hdigits : (toString n).toList = Nat.toDigits 10 n := Nat.toList_repr
  have hvalue : (Nat.toDigits 10 n).foldl (fun n c => n * 10 + (c.toNat - 0x30)) 0 = n := by
    calc (Nat.toDigits 10 n).foldl (fun n c => n * 10 + (c.toNat - 0x30)) 0
      _ = Nat.ofDigitChars 10 (Nat.toDigits 10 n) 0 := by
        simp only [Nat.ofDigitChars, Nat.mul_comm]
        rfl
      _ = n := Nat.ofDigitChars_ten_toDigits
  unfold count count?
  dsimp only
  rw [hdigits, if_pos, hvalue, if_pos h]
  exact List.all_eq_true.2 fun _ => isDigit_of_mem_toDigits

/-! ## What is written -/

theorem written_object (names : List String) (values : List Json) (h : ∀ v ∈ values, v.Written) :
    (Json.object (names.zip values)).Written :=
  .object _ fun _ hm => h _ (List.of_mem_zip hm).2

theorem written_map {α : Type} {write : α → Json} {as : List α} (h : ∀ a ∈ as, (write a).Written) :
    (Json.array (as.map write)).Written :=
  .array _ (List.forall_mem_map.2 h)

theorem written_strings (ss : List String) : (strings ss).Written :=
  written_map fun s _ => .string s

theorem written_optional (o : Option String) : (optional o).Written := by
  cases o with
  | none => exact .null
  | some s => exact .string s

end Ontogram.Json

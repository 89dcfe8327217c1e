import Ontogram.Sorting

/-!
# Ascending lists of texts

Lists of texts in ascending order without repetitions. Texts are ordered by code points, which is
also the order of their UTF-8 bytes.

* `mem_ascending` — no text is lost and none is added.
* `ascending_pairwise` — the texts are in strictly ascending order, so each is there once.
-/

namespace Ontogram.Text

/-- Compares two texts. -/
def order (s t : String) : Ordering :=
  compareOfLessAndEq s t

theorem eq_of_order {s t : String} (h : order s t = .eq) : s = t :=
  (compareOfLessAndEq_eq_eq String.le_refl String.not_le).1 h

theorem orders : Sorting.Orders order (· < ·) where
  trans := String.lt_trans
  of_lt := compareOfLessAndEq_eq_lt.1
  of_gt := (compareOfLessAndEq_eq_gt String.le_antisymm String.le_total String.not_le _ _).1
  of_eq heq hlt := eq_of_order heq ▸ hlt

/-- Places a text in an ascending list, unless it is there. -/
def insertAscending (s : String) : List String → List String :=
  Sorting.place order s

/-- The texts of a list in ascending order, each once. -/
def ascending (ss : List String) : List String :=
  Sorting.sort order ss

theorem mem_insertAscending {s x : String} {ts : List String} :
    x ∈ insertAscending s ts ↔ x = s ∨ x ∈ ts :=
  Sorting.mem_place fun _ => eq_of_order

theorem mem_ascending {x : String} {ss : List String} : x ∈ ascending ss ↔ x ∈ ss :=
  Sorting.mem_sort fun _ _ => eq_of_order

/-- **The texts are in strictly ascending order.** -/
theorem ascending_pairwise (ss : List String) : (ascending ss).Pairwise (· < ·) :=
  orders.pairwise_sort ss

end Ontogram.Text

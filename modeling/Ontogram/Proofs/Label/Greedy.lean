import Mathlib.Data.List.Basic
import Ontogram.Label.Directive

/-!
# The form of a label as a greedy pattern

A form `Head[Body]` or `Head(Body)` is a pattern with two greedy runs. Among its matches the longest
head is preferred, and among the matches with that head the longest body. This is the rule by
positions: the body ends at the last closing delimiter of the first line and starts at the last
opening delimiter before it, however the delimiters are nested.

* `captures_pairwise` — the matches of any pattern come with longer earlier groups first.
* `cutForm?_eq_some_iff_isGreediestForm` — cutting at the last delimiters gives the preferred match.
* `TermMapping.parse?_is_greedy` — reading a label by positions, by preference and by search.
-/

namespace Ontogram.Label

open Ontogram.Text

/-! ## Patterns -/

/-- A piece of a pattern that is matched from the start of a text. -/
inductive Piece where
  /-- The character itself. -/
  | char (c : Char)
  /-- A group of any number of characters other than a line break, as many as possible. -/
  | run

/-- The ways to take a run off a text, with what is left of the text. The longest run is tried
first. -/
def runs : List Char → List (List Char × List Char)
  | [] => [([], [])]
  | c :: cs =>
    if c = '\n' then [([], c :: cs)]
    else ((runs cs).map fun taken => (c :: taken.1, taken.2)) ++ [([], c :: cs)]

/-- The groups of every match of a pattern at the start of a text, in the order in which a search
that goes back to the latest choice finds them. -/
def captures : List Piece → List Char → List (List (List Char))
  | [], _ => [[]]
  | .char _ :: _, [] => []
  | .char c :: pieces, x :: xs => if x = c then captures pieces xs else []
  | .run :: pieces, cs =>
    (runs cs).flatMap fun taken => (captures pieces taken.2).map (taken.1 :: ·)

/-- The pattern of a form, with the head and the body as its groups. -/
def Delimiters.pattern (d : Delimiters) : List Piece :=
  [.run, .char d.opening, .run, .char d.closing]

/-- Says that groups are preferred to others: the first group that differs is longer. -/
def IsPreferred : List (List Char) → List (List Char) → Prop
  | g :: gs, h :: hs => h.length < g.length ∨ g = h ∧ IsPreferred gs hs
  | _, _ => False

theorem mem_runs_cons {c : Char} {cs taken rest : List Char} :
    (taken, rest) ∈ runs (c :: cs) ↔
      (taken = [] ∧ rest = c :: cs) ∨
        c ≠ '\n' ∧ ∃ taken', taken = c :: taken' ∧ (taken', rest) ∈ runs cs := by
  rw [runs]
  split
  · next hc => simp [hc]
  · next hc =>
    rw [List.mem_append, or_comm]
    refine or_congr (by simp) ?_
    rw [and_iff_right hc, List.mem_map]
    constructor
    · rintro ⟨⟨taken', _⟩, hmem, he⟩
      obtain ⟨rfl, rfl⟩ := Prod.mk.inj he
      exact ⟨taken', rfl, hmem⟩
    · rintro ⟨taken', rfl, hmem⟩
      exact ⟨(taken', rest), hmem, rfl⟩

/-- A run is any start of a text without line breaks. -/
theorem mem_runs {cs taken rest : List Char} :
    (taken, rest) ∈ runs cs ↔ cs = taken ++ rest ∧ '\n' ∉ taken := by
  induction cs generalizing taken with
  | nil =>
    rw [runs, List.mem_singleton, Prod.mk.injEq, eq_comm (a := []), List.append_eq_nil_iff]
    refine (and_iff_left_of_imp ?_).symm
    rintro ⟨rfl, -⟩
    exact List.not_mem_nil
  | cons c cs ih =>
    rw [mem_runs_cons]
    cases taken with
    | nil => simp [eq_comm]
    | cons x xs =>
      simp only [reduceCtorEq, false_and, false_or, List.cons_append, List.cons.injEq,
        List.mem_cons, not_or, ih]
      constructor
      · rintro ⟨hc, _, ⟨rfl, rfl⟩, rfl, hn⟩
        exact ⟨⟨rfl, rfl⟩, Ne.symm hc, hn⟩
      · rintro ⟨⟨rfl, rfl⟩, hc, hn⟩
        exact ⟨Ne.symm hc, xs, ⟨rfl, rfl⟩, rfl, hn⟩

/-- Longer runs come first. -/
theorem runs_pairwise (cs : List Char) :
    (runs cs).Pairwise fun a b => b.1.length < a.1.length := by
  induction cs with
  | nil => simp [runs]
  | cons c cs ih =>
    rw [runs]
    split
    · exact List.pairwise_singleton _ _
    · refine List.pairwise_append.2 ⟨?_, List.pairwise_singleton _ _, ?_⟩
      · exact List.pairwise_map.2 (ih.imp fun h => Nat.succ_lt_succ h)
      · intro a ha b hb
        obtain ⟨taken, -, rfl⟩ := List.mem_map.1 ha
        rw [List.mem_singleton.1 hb]
        exact Nat.succ_pos _

/-- **The matches of a pattern come with longer earlier groups first.** -/
theorem captures_pairwise (pieces : List Piece) (cs : List Char) :
    (captures pieces cs).Pairwise IsPreferred := by
  fun_induction captures pieces cs with
  | case1 cs => exact List.pairwise_singleton _ _
  | case2 => exact List.Pairwise.nil
  | case3 c pieces xs ih => exact ih
  | case4 => exact List.Pairwise.nil
  | case5 pieces cs ih =>
    refine List.pairwise_flatMap.2 ⟨fun taken _ => ?_, ?_⟩
    · exact List.pairwise_map.2 ((ih taken).imp fun h => Or.inr ⟨rfl, h⟩)
    · refine (runs_pairwise cs).imp fun {a b} hlt x hx y hy => ?_
      obtain ⟨_, -, rfl⟩ := List.mem_map.1 hx
      obtain ⟨_, -, rfl⟩ := List.mem_map.1 hy
      exact Or.inl hlt

theorem IsPreferred.asymm {gs hs : List (List Char)} (h : IsPreferred gs hs) :
    ¬ IsPreferred hs gs := by
  fun_induction IsPreferred gs hs with
  | case1 g gs h' hs ih =>
    rintro (hlt | ⟨rfl, hrest⟩)
    · rcases h with hlt' | ⟨rfl, -⟩
      · omega
      · exact Nat.lt_irrefl _ hlt
    · exact ih (h.resolve_left (Nat.lt_irrefl _)).2 hrest
  | case2 => exact h.elim

theorem isPreferred_pair {g h g' h' : List Char} :
    IsPreferred [g, h] [g', h'] ↔ g'.length < g.length ∨ g = g' ∧ h'.length < h.length := by
  simp [IsPreferred]

/-- The first match is the one that is preferred to all others. -/
theorem head?_captures_eq_some {pieces : List Piece} {cs : List Char} {gs : List (List Char)} :
    (captures pieces cs).head? = some gs ↔
      gs ∈ captures pieces cs ∧ ∀ hs ∈ captures pieces cs, hs = gs ∨ IsPreferred gs hs := by
  cases hall : captures pieces cs with
  | nil => simp
  | cons first others =>
    have hsorted := captures_pairwise pieces cs
    rw [hall, List.pairwise_cons] at hsorted
    rw [List.head?_cons, Option.some.injEq]
    constructor
    · rintro rfl
      refine ⟨List.mem_cons_self, fun hs hmem => ?_⟩
      exact (List.mem_cons.1 hmem).imp id (hsorted.1 hs)
    · rintro ⟨hmem, hbest⟩
      rcases List.mem_cons.1 hmem with rfl | hother
      · rfl
      · refine (hbest first List.mem_cons_self).resolve_right fun hpref => ?_
        exact hpref.asymm (hsorted.1 gs hother)

theorem mem_captures_char {c : Char} {pieces : List Piece} {cs : List Char}
    {gs : List (List Char)} :
    gs ∈ captures (.char c :: pieces) cs ↔ ∃ rest, cs = c :: rest ∧ gs ∈ captures pieces rest := by
  cases cs with
  | nil => simp [captures]
  | cons x xs =>
    rw [captures]
    split
    · next hx => simp [hx]
    · next hx => simp [hx]

theorem mem_captures_run {pieces : List Piece} {cs : List Char} {gs : List (List Char)} :
    gs ∈ captures (.run :: pieces) cs ↔ ∃ taken rest, cs = taken ++ rest ∧ '\n' ∉ taken ∧
      ∃ hs ∈ captures pieces rest, gs = taken :: hs := by
  rw [captures, List.mem_flatMap]
  constructor
  · rintro ⟨⟨taken, rest⟩, hmem, hgs⟩
    obtain ⟨hs, hhs, rfl⟩ := List.mem_map.1 hgs
    obtain ⟨he, hn⟩ := mem_runs.1 hmem
    exact ⟨taken, rest, he, hn, hs, hhs, rfl⟩
  · rintro ⟨taken, rest, he, hn, hs, hhs, rfl⟩
    exact ⟨(taken, rest), mem_runs.2 ⟨he, hn⟩, List.mem_map_of_mem hhs⟩

/-! ## Forms -/

/-- Says that a text starts with a form, the head and the body of which have no line breaks. -/
def IsForm (d : Delimiters) (text head body : List Char) : Prop :=
  (∃ rest, text = head ++ d.opening :: (body ++ d.closing :: rest)) ∧ '\n' ∉ head ∧ '\n' ∉ body

/-- Says that a text starts with a form, that no such form has a longer head, and that none with
that head has a longer body. -/
structure IsGreediestForm (d : Delimiters) (text head body : List Char) : Prop where
  isForm : IsForm d text head body
  longest : ∀ head' body', IsForm d text head' body' →
    head'.length < head.length ∨ head' = head ∧ body'.length ≤ body.length

/-- The head and the body of a form in a line. -/
def cutForm? (d : Delimiters) (cs : List Char) : Option (List Char × List Char) :=
  (cutLast d.closing cs).bind fun cut => cutLast d.opening cut.1

/-- What the groups of a form say: the first is the head, the second the body with its parts. -/
def TermMapping.ofGroups (groups : List (List Char)) : TermMapping where
  head := String.ofList (trimChars (groups.getD 0 []))
  parts := ((groups.getD 1 []).splitOn '|').map fun part => String.ofList (trimChars part)

variable {d : Delimiters} {text cs head body head' body' : List Char}

theorem Delimiters.opening_ne_break (d : Delimiters) : d.opening ≠ '\n' := by
  cases d <;> decide

theorem Delimiters.closing_ne_break (d : Delimiters) : d.closing ≠ '\n' := by
  cases d <;> decide

theorem fields_eq_splitOn (c : Char) (cs : List Char) : fields c cs = cs.splitOn c := by
  induction cs with
  | nil => rfl
  | cons x xs ih =>
    rw [fields, List.splitOn, List.splitOnP_cons_eq_if_modifyHead, ih, List.splitOn]
    simp only [beq_iff_eq]
    split
    · rfl
    · cases hfs : List.splitOnP (fun x => x == c) xs with
      | nil => exact absurd hfs (List.splitOnP_ne_nil _ _)
      | cons f fs => rfl

theorem TermMapping.ofPlain?_eq (d : Delimiters) (text : List Char) :
    TermMapping.ofPlain? d text =
      (cutForm? d (firstLine text)).map fun cut => .ofGroups [cut.1, cut.2] := by
  unfold TermMapping.ofPlain? cutForm?
  cases cutLast d.closing (firstLine text) with
  | none => rfl
  | some cut =>
    cases hopen : cutLast d.opening cut.1 with
    | none => simp [hopen]
    | some form => simp [hopen, ofGroups, fields_eq_splitOn]

theorem firstLine_append (hx : '\n' ∉ head) (rest : List Char) :
    firstLine (head ++ rest) = head ++ firstLine rest := by
  refine List.takeWhile_append_of_pos fun c hc => ?_
  rw [bne_iff_ne]
  rintro rfl
  exact hx hc

theorem firstLine_cons {c : Char} (hc : c ≠ '\n') (rest : List Char) :
    firstLine (c :: rest) = c :: firstLine rest :=
  List.takeWhile_cons_of_pos (bne_iff_ne.2 hc)

theorem break_notMem_firstLine (text : List Char) : '\n' ∉ firstLine text := fun hm =>
  absurd (List.all_eq_true.1 List.all_takeWhile _ hm) (by decide)

theorem firstLine_form (hhead : '\n' ∉ head) (hbody : '\n' ∉ body) (rest : List Char) :
    firstLine (head ++ d.opening :: (body ++ d.closing :: rest)) =
      head ++ d.opening :: (body ++ d.closing :: firstLine rest) := by
  rw [firstLine_append hhead, firstLine_cons d.opening_ne_break, firstLine_append hbody,
    firstLine_cons d.closing_ne_break]

/-- A text starts with the forms of its first line. -/
theorem isForm_iff_firstLine :
    IsForm d text head body ↔
      ∃ rest, firstLine text = head ++ d.opening :: (body ++ d.closing :: rest) := by
  constructor
  · rintro ⟨⟨rest, rfl⟩, hhead, hbody⟩
    exact ⟨firstLine rest, firstLine_form hhead hbody rest⟩
  · rintro ⟨rest, he⟩
    have hn := break_notMem_firstLine text
    have htext : text = firstLine text ++ text.dropWhile (· != '\n') :=
      List.takeWhile_append_dropWhile.symm
    rw [he] at hn htext
    refine ⟨⟨rest ++ text.dropWhile (· != '\n'), ?_⟩, fun hm => hn ?_, fun hm => hn ?_⟩
    · simpa using htext
    · simp [hm]
    · simp [hm]

/-! ## Positions -/

/-- Says that the last occurrence of a character in a text is at a position. -/
def IsLast (c : Char) (cs : List Char) (i : Nat) : Prop :=
  cs[i]? = some c ∧ ∀ j, i < j → cs[j]? ≠ some c

theorem IsLast.le {c : Char} {cs : List Char} {i j : Nat} (hi : IsLast c cs i)
    (hj : cs[j]? = some c) : j ≤ i :=
  Nat.le_of_not_lt fun hlt => hi.2 j hlt hj

/-- What is last before a position is before it. -/
theorem IsLast.lt {c : Char} {cs : List Char} {p q : Nat} (hp : IsLast c (cs.take q) p) :
    p < q ∧ cs[p]? = some c := by
  have hc := hp.1
  rw [List.getElem?_take] at hc
  split at hc
  · next hlt => exact ⟨hlt, hc⟩
  · cases hc

theorem isLast_append {c : Char} {before after : List Char} (hafter : c ∉ after) :
    IsLast c (before ++ c :: after) before.length := by
  refine ⟨by simp, fun j hj he => hafter ?_⟩
  rw [List.getElem?_append_right (Nat.le_of_lt hj)] at he
  obtain ⟨n, hn⟩ : ∃ n, j - before.length = n + 1 := ⟨j - before.length - 1, by omega⟩
  rw [hn, List.getElem?_cons_succ] at he
  exact List.mem_of_getElem? he

theorem IsLast.notMem_drop {c : Char} {cs : List Char} {i : Nat} (hi : IsLast c cs i) :
    c ∉ cs.drop (i + 1) := by
  intro hmem
  obtain ⟨j, hj⟩ := List.mem_iff_getElem?.1 hmem
  rw [List.getElem?_drop] at hj
  exact hi.2 _ (by omega) hj

theorem IsLast.eq_append {c : Char} {cs : List Char} {i : Nat} (hi : IsLast c cs i) :
    cs = cs.take i ++ c :: cs.drop (i + 1) := by
  obtain ⟨hlt, rfl⟩ := List.getElem?_eq_some_iff.1 hi.1
  rw [← List.drop_eq_getElem_cons hlt, List.take_append_drop]

/-- A text is cut at the position of the last occurrence. -/
theorem cutLast_eq_some_iff_isLast {c : Char} {cs before after : List Char} :
    cutLast c cs = some (before, after) ↔
      ∃ i, IsLast c cs i ∧ before = cs.take i ∧ after = cs.drop (i + 1) := by
  rw [cutLast_eq_some]
  constructor
  · rintro ⟨rfl, hafter⟩
    exact ⟨before.length, isLast_append hafter, by simp, by simp⟩
  · rintro ⟨i, hi, rfl, rfl⟩
    exact ⟨hi.eq_append, hi.notMem_drop⟩

/-- **The body ends at the last closing delimiter and starts at the last opening delimiter before
it.** -/
theorem cutForm?_eq_some :
    cutForm? d cs = some (head, body) ↔ ∃ q p, IsLast d.closing cs q ∧
      IsLast d.opening (cs.take q) p ∧ head = cs.take p ∧
      body = (cs.take q).drop (p + 1) := by
  unfold cutForm?
  rw [Option.bind_eq_some_iff]
  have htake : ∀ {q p : Nat}, IsLast d.opening (cs.take q) p →
      (cs.take q).take p = cs.take p := fun hp => by
    rw [List.take_take, Nat.min_eq_left (Nat.le_of_lt hp.lt.1)]
  constructor
  · rintro ⟨⟨inside, rest⟩, hclose, hopen⟩
    obtain ⟨q, hq, rfl, rfl⟩ := cutLast_eq_some_iff_isLast.1 hclose
    obtain ⟨p, hp, rfl, rfl⟩ := cutLast_eq_some_iff_isLast.1 hopen
    exact ⟨q, p, hq, hp, htake hp, rfl⟩
  · rintro ⟨q, p, hq, hp, rfl, rfl⟩
    exact ⟨(cs.take q, cs.drop (q + 1)), cutLast_eq_some_iff_isLast.2 ⟨q, hq, rfl, rfl⟩,
      cutLast_eq_some_iff_isLast.2 ⟨p, hp, (htake hp).symm, rfl⟩⟩

/-- A line is cut if one of its opening delimiters stands before one of its closing delimiters. -/
theorem isSome_cutForm? :
    (cutForm? d cs).isSome ↔
      ∃ p q : Nat, p < q ∧ cs[p]? = some d.opening ∧ cs[q]? = some d.closing := by
  rw [Option.isSome_iff_exists]
  constructor
  · rintro ⟨⟨head, body⟩, hcut⟩
    obtain ⟨q, p, hq, hp, -⟩ := cutForm?_eq_some.1 hcut
    exact ⟨p, q, hp.lt.1, hp.lt.2, hq.1⟩
  · rintro ⟨p, q, hlt, hopen, hclose⟩
    -- The last closing delimiter is not before the given one, so an opening one is before it.
    cases hlast : cutLast d.closing cs with
    | none => exact absurd (List.mem_of_getElem? hclose) (cutLast_eq_none.1 hlast)
    | some cut =>
      obtain ⟨q', hq', hinside, -⟩ := cutLast_eq_some_iff_isLast.1 hlast
      have hle := hq'.le hclose
      have hmem : d.opening ∈ cut.1 := by
        refine List.mem_iff_getElem?.2 ⟨p, ?_⟩
        rw [hinside, List.getElem?_take, if_pos (Nat.lt_of_lt_of_le hlt hle), hopen]
      cases hcut : cutLast d.opening cut.1 with
      | none => exact absurd hmem (cutLast_eq_none.1 hcut)
      | some form => exact ⟨form, by rw [cutForm?, hlast, Option.bind_some, hcut]⟩

/-! ## The preferred form -/

/-- The delimiters of a form are where its head and its body end. -/
theorem getElem?_form (d : Delimiters) (head body rest : List Char) :
    (head ++ d.opening :: (body ++ d.closing :: rest))[head.length]? = some d.opening ∧
      (head ++ d.opening :: (body ++ d.closing :: rest))[head.length + (body.length + 1)]? =
        some d.closing := by
  constructor <;> simp

theorem isForm_of_cutForm? (hcut : cutForm? d (firstLine text) = some (head, body)) :
    IsForm d text head body := by
  obtain ⟨⟨inside, rest⟩, hclose, hopen⟩ := Option.bind_eq_some_iff.1 hcut
  obtain ⟨hline, -⟩ := cutLast_eq_some.1 hclose
  obtain ⟨rfl, -⟩ := cutLast_eq_some.1 hopen
  exact isForm_iff_firstLine.2 ⟨rest, by rw [hline, List.append_assoc, List.cons_append]⟩

/-- No form has a longer head than the one between the last delimiters, and none with that head has
a longer body. -/
theorem longest_of_cutForm? (hcut : cutForm? d (firstLine text) = some (head, body))
    (hform : IsForm d text head' body') :
    head'.length < head.length ∨ head' = head ∧ body'.length ≤ body.length := by
  obtain ⟨q, p, hq, hp, rfl, rfl⟩ := cutForm?_eq_some.1 hcut
  obtain ⟨rest, hline⟩ := isForm_iff_firstLine.1 hform
  obtain ⟨hopen, hclose⟩ := getElem?_form d head' body' rest
  rw [← hline] at hopen hclose
  have hbody : head'.length + (body'.length + 1) ≤ q := hq.le hclose
  have hhead : head'.length ≤ p := hp.le (by rw [List.getElem?_take, if_pos (by omega), hopen])
  obtain ⟨hplen, -⟩ := List.getElem?_eq_some_iff.1 hp.lt.2
  obtain ⟨hqlen, -⟩ := List.getElem?_eq_some_iff.1 hq.1
  simp only [List.length_take, List.length_drop]
  rcases Nat.lt_or_eq_of_le hhead with hlt | heq
  · left
    omega
  · refine Or.inr ⟨?_, by omega⟩
    rw [hline, List.take_left' heq]

/-- Two bodies of one length that follow the same head are the same. -/
theorem IsForm.body_eq (h : IsForm d text head body) (h' : IsForm d text head body')
    (hlen : body'.length = body.length) : body' = body := by
  obtain ⟨⟨rest, rfl⟩, -⟩ := h
  obtain ⟨⟨rest', he⟩, -⟩ := h'
  have htail := (List.cons.inj (List.append_cancel_left he)).2
  exact (List.append_inj_left htail hlen.symm).symm

theorem IsGreediestForm.unique (h : IsGreediestForm d text head body)
    (h' : IsGreediestForm d text head' body') : head' = head ∧ body' = body := by
  obtain ⟨rfl, hbody⟩ : head' = head ∧ body'.length ≤ body.length := by
    rcases h.longest _ _ h'.isForm with hlt | hle
    · rcases h'.longest _ _ h.isForm with hlt' | ⟨rfl, -⟩
      · omega
      · exact absurd hlt (Nat.lt_irrefl _)
    · exact hle
  have hbody' : body.length ≤ body'.length :=
    ((h'.longest _ _ h.isForm).resolve_left (Nat.lt_irrefl _)).2
  exact ⟨rfl, h.isForm.body_eq h'.isForm (Nat.le_antisymm hbody hbody')⟩

/-- **Cutting a line at its last delimiters gives the preferred form.** -/
theorem cutForm?_eq_some_iff_isGreediestForm :
    cutForm? d (firstLine text) = some (head, body) ↔ IsGreediestForm d text head body := by
  have hgreediest : ∀ {head body}, cutForm? d (firstLine text) = some (head, body) →
      IsGreediestForm d text head body := fun hcut =>
    ⟨isForm_of_cutForm? hcut, fun _ _ => longest_of_cutForm? hcut⟩
  refine ⟨hgreediest, fun h => ?_⟩
  -- The line has a form, so it is cut, and there is one preferred form only.
  obtain ⟨rest, hline⟩ := isForm_iff_firstLine.1 h.isForm
  obtain ⟨hopen, hclose⟩ := getElem?_form d head body rest
  rw [← hline] at hopen hclose
  obtain ⟨⟨head', body'⟩, hcut⟩ := Option.isSome_iff_exists.1
    (isSome_cutForm?.2 ⟨_, _, by omega, hopen, hclose⟩)
  obtain ⟨rfl, rfl⟩ := h.unique (hgreediest hcut)
  exact hcut

/-- The matches of the pattern of a form are the forms that the text starts with. -/
theorem mem_captures_pattern {groups : List (List Char)} :
    groups ∈ captures d.pattern text ↔
      ∃ head body, groups = [head, body] ∧ IsForm d text head body := by
  unfold Delimiters.pattern
  simp only [mem_captures_run, mem_captures_char]
  constructor
  · rintro ⟨head, _, rfl, hhead, _, ⟨_, rfl, body, _, rfl, hbody, _, ⟨rest, rfl, hend⟩, rfl⟩, rfl⟩
    rw [captures, List.mem_singleton] at hend
    exact ⟨head, body, by rw [hend], ⟨rest, rfl⟩, hhead, hbody⟩
  · rintro ⟨head, body, rfl, ⟨rest, rfl⟩, hhead, hbody⟩
    exact ⟨head, _, rfl, hhead, [body], ⟨_, rfl, body, _, rfl, hbody, [],
      ⟨rest, rfl, List.mem_singleton_self _⟩, rfl⟩, rfl⟩

/-- **The first match of the pattern of a form is the preferred form.** -/
theorem head?_captures_pattern {groups : List (List Char)} :
    (captures d.pattern text).head? = some groups ↔
      ∃ head body, groups = [head, body] ∧ IsGreediestForm d text head body := by
  rw [head?_captures_eq_some, mem_captures_pattern]
  constructor
  · rintro ⟨⟨head, body, rfl, hform⟩, hbest⟩
    refine ⟨head, body, rfl, hform, fun head' body' hform' => ?_⟩
    rcases hbest _ (mem_captures_pattern.2 ⟨head', body', rfl, hform'⟩) with he | hpref
    · obtain ⟨rfl, rfl⟩ : head' = head ∧ body' = body := by simpa using he
      exact Or.inr ⟨rfl, Nat.le_refl _⟩
    · exact (isPreferred_pair.1 hpref).imp_right fun h => ⟨h.1.symm, Nat.le_of_lt h.2⟩
  · rintro ⟨head, body, rfl, h⟩
    refine ⟨⟨head, body, rfl, h.isForm⟩, fun groups hgroups => ?_⟩
    obtain ⟨head', body', rfl, hform'⟩ := mem_captures_pattern.1 hgroups
    rcases h.longest _ _ hform' with hlt | ⟨rfl, hle⟩
    · exact Or.inr (Or.inl hlt)
    · rcases Nat.lt_or_eq_of_le hle with hlt | heq
      · exact Or.inr (isPreferred_pair.2 (Or.inr ⟨rfl, hlt⟩))
      · exact Or.inl (by rw [h.isForm.body_eq hform' heq])

/-! ## Labels -/

theorem TermMapping.parse?_eq (d : Delimiters) (label : String) :
    TermMapping.parse? d label =
      (cutForm? d (firstLine (plain label).toList)).map fun cut => .ofGroups [cut.1, cut.2] :=
  TermMapping.ofPlain?_eq d _

theorem TermMapping.parse?_eq_some_iff {label : String} {m : TermMapping} :
    TermMapping.parse? d label = some m ↔ ∃ head body,
      cutForm? d (firstLine (plain label).toList) = some (head, body) ∧
        m = .ofGroups [head, body] := by
  rw [TermMapping.parse?_eq, Option.map_eq_some_iff]
  simp only [Prod.exists, eq_comm]

/--
**A label is read as its first line says.** It has a form if an opening delimiter of that line
stands before a closing one. Then the body ends at the last closing delimiter and starts at the last
opening delimiter before it; these are the longest head and, with that head, the longest body that
the label matches the pattern of the form with, and so what a search for the pattern finds first.
-/
theorem TermMapping.parse?_is_greedy (d : Delimiters) (label : String) :
    let text := (plain label).toList
    let cs := firstLine text
    ((TermMapping.parse? d label).isSome ↔
      ∃ p q : Nat, p < q ∧ cs[p]? = some d.opening ∧ cs[q]? = some d.closing) ∧
    (∀ m, TermMapping.parse? d label = some m ↔ ∃ q p, IsLast d.closing cs q ∧
      IsLast d.opening (cs.take q) p ∧
        m = .ofGroups [cs.take p, (cs.take q).drop (p + 1)]) ∧
    (∀ m, TermMapping.parse? d label = some m ↔ ∃ head body,
      IsGreediestForm d text head body ∧ m = .ofGroups [head, body]) ∧
    TermMapping.parse? d label = (captures d.pattern text).head?.map .ofGroups := by
  intro text cs
  refine ⟨?_, fun m => ?_, fun m => ?_, Option.ext fun m => ?_⟩
  · rw [TermMapping.parse?_eq, Option.isSome_map, isSome_cutForm?]
  · rw [TermMapping.parse?_eq_some_iff]
    simp only [cutForm?_eq_some]
    constructor
    · rintro ⟨_, _, ⟨q, p, hq, hp, rfl, rfl⟩, hm⟩
      exact ⟨q, p, hq, hp, hm⟩
    · rintro ⟨q, p, hq, hp, hm⟩
      exact ⟨_, _, ⟨q, p, hq, hp, rfl, rfl⟩, hm⟩
  · rw [TermMapping.parse?_eq_some_iff]
    simp only [cutForm?_eq_some_iff_isGreediestForm, text]
  · rw [TermMapping.parse?_eq_some_iff, Option.map_eq_some_iff]
    simp only [cutForm?_eq_some_iff_isGreediestForm, head?_captures_pattern]
    constructor
    · rintro ⟨head, body, hform, rfl⟩
      exact ⟨_, ⟨head, body, rfl, hform⟩, rfl⟩
    · rintro ⟨_, ⟨head, body, rfl, hform⟩, rfl⟩
      exact ⟨head, body, hform, rfl⟩

example : TermMapping.parse? .parens "f(a) b) c(d" = some ⟨"f", ["a) b"]⟩ := by decide

end Ontogram.Label

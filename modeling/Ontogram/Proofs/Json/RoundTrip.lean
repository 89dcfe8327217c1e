import Ontogram.Json.Parser
import Ontogram.Json.Printer

/-!
# What is written is read back

Each part of a text is read up to where it was written, whatever follows: a literal ends with its
quote, an array and an object with their brackets. Only a number needs to know what follows, since
more digits would be read with it; behind a value there is a comma, a line break or nothing.

The fuel is the length of the text: the text of an item is shorter than that of its array, and the
text of the items that follow is shorter by a comma.

* `stringLiteral?_literal` — a string, whatever characters it has.
* `number?_toDigits` — a count.
* `Written.parses` — a value at any depth, before any text that may follow it.
* `parse?_pretty` — reading a text that was written gives the value.
-/

namespace Ontogram.Json

/-! ## Gaps -/

theorem skipGap_cons {c : Char} (h : isGap c = false) (cs : List Char) :
    skipGap (c :: cs) = c :: cs :=
  List.dropWhile_cons_of_neg (by simp [h])

theorem skipGap_lineStart (depth : Nat) (cs : List Char) :
    skipGap (lineStart depth ++ cs) = skipGap cs := by
  refine List.dropWhile_append_of_pos fun c hc => ?_
  unfold lineStart at hc
  rcases List.mem_cons.1 hc with rfl | hc
  · rfl
  · rw [List.eq_of_mem_replicate hc]
    rfl

/-! ## Strings -/

theorem hexDigit?_hexChar : ∀ n < 16, hexDigit? (hexChar n) = some n := by
  decide

/-- The number of a control character is read back. -/
theorem fourDigits?_hexChar {n : Nat} (hn : n < 0x20) (cs : List Char) :
    fourDigits? ('0' :: '0' :: hexChar (n / 16) :: hexChar (n % 16) :: cs) = some (n, cs) := by
  have hzero : hexDigit? '0' = some 0 := by decide
  have hhigh := hexDigit?_hexChar (n / 16) (by omega)
  have hlow := hexDigit?_hexChar (n % 16) (by omega)
  have hsum : ((0 * 16 + 0) * 16 + n / 16) * 16 + n % 16 = n := by omega
  simp only [fourDigits?, hzero, hhigh, hlow, Option.bind_eq_bind, Option.bind_some, hsum]
  rfl

/-- The text goes on with a character. -/
def StringItem.IsChar (item : StringItem) (c : Char) : Prop :=
  ∀ items, textOfItems? (item :: items) = (textOfItems? items).map (c :: ·)

theorem isChar_char (c : Char) : (StringItem.char c).IsChar c :=
  fun _ => rfl

theorem isChar_unit {c : Char} (hc : c.toNat < 0x20) : (StringItem.unit c.toNat).IsChar c := by
  intro items
  have hhigh : ¬ (0xD800 ≤ c.toNat && c.toNat ≤ 0xDBFF) = true := by simp; omega
  have hlow : ¬ (0xDC00 ≤ c.toNat && c.toNat ≤ 0xDFFF) = true := by simp; omega
  rw [textOfItems?.eq_def (_ :: _)]
  dsimp only
  rw [if_neg hhigh, if_neg hlow, Char.ofNat_toNat]

/-- A character is read as one item, however it is escaped. -/
theorem stringItems?_escapedChar (c : Char) (fuel : Nat) (cs : List Char) :
    ∃ item, StringItem.IsChar item c ∧
      stringItems? (fuel + 1) (escapedChar c ++ cs) =
        (stringItems? fuel cs).map fun r => (item :: r.1, r.2) := by
  have read_bind : ∀ {item : StringItem} {r : Option (List StringItem × List Char)},
      (r.bind fun r => pure (item :: r.1, r.2)) = r.map fun r => (item :: r.1, r.2) := by
    intro item r
    cases r <;> rfl
  unfold escapedChar
  -- The quote, the backslash and the five control characters that have a letter.
  iterate 7
    split
    · next h => subst h; exact ⟨.char _, isChar_char _, read_bind⟩
  split
  · next h =>
    refine ⟨.unit c.toNat, isChar_unit h, ?_⟩
    show (fourDigits? ('0' :: '0' :: hexChar _ :: hexChar _ :: cs)).bind _ = _
    rw [fourDigits?_hexChar h]
    exact read_bind
  · next hquote hslash _ _ _ _ _ hplain =>
    refine ⟨.char c, isChar_char c, ?_⟩
    show stringItems? (fuel + 1) (c :: cs) = _
    rw [stringItems?, if_neg (by simp [hslash, hplain])]
    · exact read_bind
    · exact hquote
    · exact fun _ h _ => hslash h
    · exact fun _ _ h _ => hslash h

theorem escapedChar_ne_nil (c : Char) : escapedChar c ≠ [] := by
  unfold escapedChar
  repeat' split
  all_goals exact List.cons_ne_nil _ _

theorem length_le_length_flatMap_escapedChar (text : List Char) :
    text.length ≤ (text.flatMap escapedChar).length := by
  induction text with
  | nil => exact Nat.zero_le _
  | cons c text ih =>
    have hc := List.length_pos_iff.2 (escapedChar_ne_nil c)
    rw [List.flatMap_cons, List.length_append, List.length_cons]
    omega

theorem stringItems?_literal (text rest : List Char) (fuel : Nat) (h : text.length < fuel) :
    ∃ items, textOfItems? items = some text ∧
      stringItems? fuel (text.flatMap escapedChar ++ '"' :: rest) = some (items, rest) := by
  induction text generalizing fuel with
  | nil =>
    obtain ⟨fuel, rfl⟩ := Nat.exists_eq_add_of_lt h
    exact ⟨[], rfl, by simp [stringItems?]⟩
  | cons c text ih =>
    obtain ⟨fuel, rfl⟩ := Nat.exists_eq_succ_of_ne_zero (Nat.ne_zero_of_lt h)
    obtain ⟨items, htext, hitems⟩ := ih fuel (Nat.lt_of_succ_lt_succ h)
    obtain ⟨item, hitem, hread⟩ :=
      stringItems?_escapedChar c fuel (text.flatMap escapedChar ++ '"' :: rest)
    refine ⟨item :: items, ?_, ?_⟩
    · rw [hitem, htext]
      rfl
    · rw [List.flatMap_cons, List.append_assoc, hread, hitems]
      rfl

/-- A string is read up to its closing quote. -/
theorem stringLiteral?_literal (s : String) (rest : List Char) :
    stringLiteral? (s.toList.flatMap escapedChar ++ '"' :: rest) = some (.string s, rest) := by
  have hfuel := length_le_length_flatMap_escapedChar s.toList
  obtain ⟨items, htext, hitems⟩ := stringItems?_literal s.toList rest
    ((s.toList.flatMap escapedChar ++ '"' :: rest).length + 1)
    (by rw [List.length_append]; omega)
  unfold stringLiteral?
  rw [hitems]
  simp only [Option.bind_eq_bind, Option.bind_some, htext, String.ofList_toList]
  rfl

/-! ## Counts -/

/-- What may stand behind a value: a comma, a line break, or nothing. -/
def Ends (rest : List Char) : Prop :=
  ∀ c ∈ rest.head?, c = ',' ∨ c = '\n'

theorem Ends.not_isDigit {rest : List Char} (h : Ends rest) :
    ∀ c ∈ rest.head?, c.isDigit = false := by
  intro c hc
  rcases h c hc with rfl | rfl <;> rfl

theorem Ends.takeWhile_isDigit {rest : List Char} (h : Ends rest) :
    rest.takeWhile Char.isDigit = [] := by
  cases rest with
  | nil => rfl
  | cons c cs => exact List.takeWhile_cons_of_neg (by simp [h.not_isDigit c rfl])

theorem Ends.dropWhile_isDigit {rest : List Char} (h : Ends rest) :
    rest.dropWhile Char.isDigit = rest := by
  cases rest with
  | nil => rfl
  | cons c cs => exact List.dropWhile_cons_of_neg (by simp [h.not_isDigit c rfl])

theorem Ends.fraction? {rest : List Char} (h : Ends rest) :
    Json.fraction? rest = some ([], rest) := by
  unfold Json.fraction?
  split
  · have := h '.' rfl
    simp at this
  · rfl

theorem Ends.exponent? {rest : List Char} (h : Ends rest) :
    Json.exponent? rest = some ([], rest) := by
  unfold Json.exponent?
  split
  · next c cs =>
    rw [if_neg]
    rcases h c rfl with rfl | rfl <;> decide
  · rfl

/-- All digits of a count are read, if there is nothing that makes it longer. -/
theorem digits?_append {ds rest : List Char} (hne : ds ≠ []) (hds : ∀ c ∈ ds, c.isDigit = true)
    (hrest : Ends rest) : digits? (ds ++ rest) = some (ds, rest) := by
  unfold digits?
  rw [List.takeWhile_append_of_pos hds, List.dropWhile_append_of_pos hds,
    hrest.takeWhile_isDigit, hrest.dropWhile_isDigit, List.append_nil]
  cases ds with
  | nil => exact absurd rfl hne
  | cons d ds => rfl

theorem isDigit_of_mem_toDigits {n : Nat} {c : Char} (hc : c ∈ Nat.toDigits 10 n) :
    c.isDigit = true :=
  Nat.isDigit_of_mem_toDigits (by decide) (Nat.le_refl 10) hc

/-- A count starts with a digit, and with a zero only if it is zero. -/
theorem toDigits_eq_cons (n : Nat) :
    ∃ d ds, Nat.toDigits 10 n = d :: ds ∧ d.isDigit = true ∧ (d = '0' → n = 0) := by
  induction n using Nat.strongRecOn with
  | ind n ih =>
    rw [Nat.toDigits_eq_if (by decide)]
    split
    · next hlt =>
      have hdigit : n.digitChar ∈ Nat.toDigits 10 n := by
        rw [Nat.toDigits_of_lt_base hlt]
        exact List.mem_cons_self
      exact ⟨n.digitChar, [], rfl, isDigit_of_mem_toDigits hdigit, Nat.digitChar_eq_zero.1⟩
    · next hge =>
      obtain ⟨d, ds, heq, hdigit, hzero⟩ := ih (n / 10) (by omega)
      refine ⟨d, ds ++ [(n % 10).digitChar], by rw [heq]; rfl, hdigit, fun h => ?_⟩
      have := hzero h
      omega

/-- All digits of a count are its whole part. Zero is read as a zero that stands alone. -/
theorem wholePart?_toDigits (n : Nat) {rest : List Char} (hrest : Ends rest) :
    wholePart? (Nat.toDigits 10 n ++ rest) = some (Nat.toDigits 10 n, rest) := by
  obtain ⟨d, ds, heq, -, hzero⟩ := toDigits_eq_cons n
  unfold wholePart?
  split
  · next rest' hcons =>
    have hhead := hcons
    rw [heq] at hhead
    obtain rfl := hzero (List.cons.inj hhead).1
    obtain rfl : rest = rest' := (List.cons.inj hcons).2
    rw [if_neg]
    · rfl
    · cases rest with
      | nil => decide
      | cons c cs => simp [hrest.not_isDigit c rfl]
  · exact digits?_append Nat.toDigits_ne_nil (fun _ => isDigit_of_mem_toDigits) hrest

/-- A count is read up to its last digit. -/
theorem number?_toDigits (n : Nat) {rest : List Char} (hrest : Ends rest) :
    number? (Nat.toDigits 10 n ++ rest) = some (.count n, rest) := by
  obtain ⟨d, ds, heq, hdigit, -⟩ := toDigits_eq_cons n
  unfold number?
  split
  next sign cs hsign =>
  have hplain : sign = [] ∧ cs = Nat.toDigits 10 n ++ rest := by
    split at hsign
    · next hminus =>
      rw [heq] at hminus
      rw [(List.cons.inj hminus).1] at hdigit
      exact absurd hdigit (by decide)
    · exact ⟨(Prod.mk.inj hsign).1.symm, (Prod.mk.inj hsign).2.symm⟩
  obtain ⟨rfl, rfl⟩ := hplain
  rw [wholePart?_toDigits n hrest]
  show (Json.fraction? rest).bind _ = _
  rw [hrest.fraction?]
  show (Json.exponent? rest).bind _ = _
  rw [hrest.exponent?]
  simp [count, toString, Nat.repr]

/-! ## Values -/

/-- A value whose numbers are counts and whose strings stand for texts. -/
inductive Written : Json → Prop
  | null : Written .null
  | bool (b : Bool) : Written (.bool b)
  | count (n : Nat) : Written (.count n)
  | string (s : String) : Written (.string s)
  | array (items : List Json) (h : ∀ j ∈ items, Written j) : Written (.array items)
  | object (members : List (String × Json)) (h : ∀ m ∈ members, Written m.2) :
      Written (.object members)

/-- A value is read back from its text at any depth, with as much fuel as the text is long. -/
def Parses (j : Json) : Prop :=
  ∀ depth fuel rest, (render depth j).length ≤ fuel → Ends rest →
    value? fuel (render depth j ++ rest) = some (j, rest)

theorem ends_lineStart (depth : Nat) (cs : List Char) : Ends (lineStart depth ++ cs) :=
  fun _ hc => .inr (Option.some.inj hc).symm

theorem ends_renderItems (depth outer : Nat) (items : List Json) (cs : List Char) :
    Ends (renderItems depth items ++ (lineStart outer ++ cs)) := by
  cases items with
  | nil => exact ends_lineStart outer cs
  | cons item items =>
    intro c hc
    rw [renderItems] at hc
    exact .inl (Option.some.inj hc).symm

theorem ends_renderMembers (depth outer : Nat) (members : List (String × Json)) (cs : List Char) :
    Ends (renderMembers depth members ++ (lineStart outer ++ cs)) := by
  cases members with
  | nil => exact ends_lineStart outer cs
  | cons member members =>
    intro c hc
    rw [renderMembers] at hc
    exact .inl (Option.some.inj hc).symm

/-- The text of a value starts with the value, and not with what ends an array. -/
theorem Written.render_eq_cons {j : Json} (h : j.Written) (depth : Nat) :
    ∃ c cs, render depth j = c :: cs ∧ isGap c = false ∧ c ≠ ']' := by
  cases h with
  | null => exact ⟨'n', _, by rw [render]; rfl, rfl, by decide⟩
  | bool b => cases b <;> exact ⟨_, _, by rw [render]; rfl, rfl, by decide⟩
  | count n =>
    obtain ⟨d, ds, heq, hdigit, -⟩ := toDigits_eq_cons n
    refine ⟨d, ds, by rw [render_count, heq], ?_, ?_⟩
    · cases hgap : isGap d with
      | false => rfl
      | true =>
        simp only [isGap, Bool.or_eq_true, decide_eq_true_eq] at hgap
        rcases hgap with ((rfl | rfl) | rfl) | rfl <;> exact absurd hdigit (by decide)
    · rintro rfl
      exact absurd hdigit (by decide)
  | string s => exact ⟨'"', _, by rw [render]; rfl, rfl, by decide⟩
  | array items h =>
    cases items with
    | nil => exact ⟨'[', _, by rw [render], rfl, by decide⟩
    | cons item items => exact ⟨'[', _, by rw [render], rfl, by decide⟩
  | object members h =>
    cases members with
    | nil => exact ⟨'\x7b', _, by rw [render], rfl, by decide⟩
    | cons member members => exact ⟨'\x7b', _, by rw [render], rfl, by decide⟩

theorem Written.skipGap_render {j : Json} (h : j.Written) (depth : Nat) (cs : List Char) :
    skipGap (render depth j ++ cs) = render depth j ++ cs := by
  obtain ⟨c, text, heq, hgap, -⟩ := h.render_eq_cons depth
  rw [heq]
  exact skipGap_cons hgap _

/-- The first item of an array is read up to what stands behind it. -/
theorem items?_first {depth : Nat} {item : Json} (hitem : item.Parses) {fuel : Nat}
    {cs rest : List Char} (hfuel : (render depth item).length ≤ fuel) (hrest : Ends rest)
    (hcs : skipGap cs = render depth item ++ rest) :
    items? (fuel + 1) cs =
      match skipGap rest with
      | ']' :: rest => some ([item], rest)
      | ',' :: rest => (items? fuel rest).bind fun r => some (item :: r.1, r.2)
      | _ => none := by
  rw [items?, hcs, hitem depth fuel rest hfuel hrest]
  rfl

/-- The items of an array are read up to its bracket. -/
theorem items?_render {depth outer : Nat} {item : Json} {items : List Json}
    (hitem : item.Parses) (hitems : ∀ j ∈ items, j.Written ∧ j.Parses) {fuel : Nat}
    {cs rest : List Char} (hfuel : (render depth item ++ renderItems depth items).length < fuel)
    (hcs : skipGap cs =
      render depth item ++ (renderItems depth items ++ (lineStart outer ++ ']' :: rest))) :
    items? fuel cs = some (item :: items, rest) := by
  induction items generalizing item fuel cs with
  | nil =>
    obtain ⟨fuel, rfl⟩ := Nat.exists_eq_succ_of_ne_zero (Nat.ne_zero_of_lt hfuel)
    rw [List.length_append] at hfuel
    rw [items?_first hitem (by omega) (ends_renderItems _ _ _ _) hcs, renderItems, List.nil_append,
      skipGap_lineStart, skipGap_cons rfl]
    rfl
  | cons next items ih =>
    obtain ⟨fuel, rfl⟩ := Nat.exists_eq_succ_of_ne_zero (Nat.ne_zero_of_lt hfuel)
    obtain ⟨⟨hwritten, hnext⟩, hitems⟩ := List.forall_mem_cons.1 hitems
    have hstart : skipGap (lineStart depth ++ (render depth next ++ (renderItems depth items
        ++ (lineStart outer ++ ']' :: rest)))) = _ :=
      (skipGap_lineStart _ _).trans (hwritten.skipGap_render depth _)
    simp only [renderItems, List.length_append, List.length_cons] at hfuel
    rw [items?_first hitem (by omega) (ends_renderItems _ _ _ _) hcs, renderItems,
      List.cons_append, skipGap_cons rfl]
    simp only [List.append_assoc]
    rw [ih hnext hitems (by rw [List.length_append]; omega) hstart]
    rfl

/-- A member with its name as a string literal. -/
def quoted (member : String × Json) : Json × Json :=
  (.string member.1, member.2)

theorem objectOf_quoted (members : List (String × Json)) :
    objectOf (members.map quoted) = .object members := by
  have hnamed : namedMembers? (members.map quoted) = some members := by
    induction members with
    | nil => rfl
    | cons member members ih =>
      show (namedMembers? (members.map quoted)).map _ = _
      rw [ih]
      rfl
  unfold objectOf
  rw [hnamed]

/-- The first member of an object is read up to what stands behind its value. -/
theorem members?_first {depth : Nat} {name : String} {value : Json}
    (hwritten : value.Written) (hvalue : value.Parses) {fuel : Nat} {cs rest : List Char}
    (hfuel : (render depth value).length ≤ fuel) (hrest : Ends rest)
    (hcs : skipGap cs = literal name ++ (':' :: ' ' :: (render depth value ++ rest))) :
    members? (fuel + 1) cs =
      match skipGap rest with
      | '\x7d' :: rest => some ([(.string name, value)], rest)
      | ',' :: rest => (members? fuel rest).bind fun r => some ((.string name, value) :: r.1, r.2)
      | _ => none := by
  have hname := stringLiteral?_literal name (':' :: ' ' :: (render depth value ++ rest))
  have hgap : skipGap (' ' :: (render depth value ++ rest)) = render depth value ++ rest :=
    hwritten.skipGap_render depth rest
  rw [members?, hcs]
  simp only [literal, List.cons_append, List.append_assoc, List.nil_append, hname,
    Option.bind_eq_bind, Option.bind_some]
  rw [skipGap_cons rfl]
  simp only [hgap, hvalue depth fuel rest hfuel hrest, Option.bind_some]
  rfl

/-- The members of an object are read up to its brace. -/
theorem members?_render {depth outer : Nat} {member : String × Json}
    {members : List (String × Json)} (hmember : member.2.Written ∧ member.2.Parses)
    (hmembers : ∀ m ∈ members, m.2.Written ∧ m.2.Parses) {fuel : Nat} {cs rest : List Char}
    (hfuel : (render depth member.2 ++ renderMembers depth members).length < fuel)
    (hcs : skipGap cs = literal member.1 ++ (':' :: ' ' :: (render depth member.2
      ++ (renderMembers depth members ++ (lineStart outer ++ '\x7d' :: rest))))) :
    members? fuel cs = some ((member :: members).map quoted, rest) := by
  induction members generalizing member fuel cs with
  | nil =>
    obtain ⟨fuel, rfl⟩ := Nat.exists_eq_succ_of_ne_zero (Nat.ne_zero_of_lt hfuel)
    rw [List.length_append] at hfuel
    rw [members?_first hmember.1 hmember.2 (by omega) (ends_renderMembers _ _ _ _) hcs,
      renderMembers, List.nil_append, skipGap_lineStart, skipGap_cons rfl]
    rfl
  | cons next members ih =>
    obtain ⟨fuel, rfl⟩ := Nat.exists_eq_succ_of_ne_zero (Nat.ne_zero_of_lt hfuel)
    obtain ⟨hnext, hmembers⟩ := List.forall_mem_cons.1 hmembers
    have hstart : skipGap (lineStart depth ++ (literal next.1 ++ (':' :: ' ' ::
        (render depth next.2 ++ (renderMembers depth members ++ (lineStart outer ++ '\x7d' :: rest))))))
        = _ :=
      (skipGap_lineStart _ _).trans (skipGap_cons rfl _)
    simp only [renderMembers, List.length_append, List.length_cons] at hfuel
    rw [members?_first hmember.1 hmember.2 (by omega) (ends_renderMembers _ _ _ _) hcs,
      renderMembers, List.cons_append, skipGap_cons rfl]
    simp only [List.append_assoc, List.cons_append, List.nil_append]
    rw [ih hnext hmembers (by rw [List.length_append]; omega) hstart]
    rfl

theorem afterWord?_append (word rest : List Char) :
    afterWord? word (word ++ rest) = some rest := by
  induction word with
  | nil => rfl
  | cons c word ih =>
    rw [List.cons_append, afterWord?, if_pos rfl, ih]

theorem value?_digit {c : Char} (hc : c.isDigit = true) (fuel : Nat) (cs : List Char) :
    value? (fuel + 1) (c :: cs) = number? (c :: cs) := by
  have hne : ∀ {d : Char}, d.isDigit = false → c ≠ d := by
    rintro d hd rfl
    rw [hc] at hd
    exact Bool.noConfusion hd
  rw [value?, if_neg (hne rfl), if_neg (hne rfl), if_neg (hne rfl), if_neg (hne rfl),
    if_neg (hne rfl), if_neg (hne rfl)]

theorem value?_bracket {fuel : Nat} {c : Char} {cs text rest : List Char} {items : List Json}
    (hcs : skipGap cs = c :: text) (hc : c ≠ ']')
    (hitems : items? fuel (c :: text) = some (items, rest)) :
    value? (fuel + 1) ('[' :: cs) = some (.array items, rest) := by
  rw [value?, if_neg (by decide), if_pos rfl, hcs]
  split
  · next hend => exact absurd (List.cons.inj hend).1 hc
  · rw [hitems]
    rfl

theorem value?_brace {fuel : Nat} {c : Char} {cs text rest : List Char}
    {members : List (Json × Json)} (hcs : skipGap cs = c :: text) (hc : c ≠ '\x7d')
    (hmembers : members? fuel (c :: text) = some (members, rest)) :
    value? (fuel + 1) ('\x7b' :: cs) = some (objectOf members, rest) := by
  rw [value?, if_neg (by decide), if_neg (by decide), if_pos rfl, hcs]
  split
  · next hend => exact absurd (List.cons.inj hend).1 hc
  · rw [hmembers]
    rfl

/-- No text is empty, so there is always some fuel. -/
theorem Written.parses_of_succ {j : Json} (h : j.Written)
    (hsucc : ∀ depth fuel rest, (render depth j).length ≤ fuel + 1 → Ends rest →
      value? (fuel + 1) (render depth j ++ rest) = some (j, rest)) : j.Parses := by
  intro depth fuel rest hfuel hrest
  cases fuel with
  | zero =>
    obtain ⟨c, text, htext, -, -⟩ := h.render_eq_cons depth
    rw [htext] at hfuel
    exact absurd hfuel (Nat.not_succ_le_zero _)
  | succ fuel => exact hsucc depth fuel rest hfuel hrest

theorem parses_null : Json.null.Parses := by
  refine Written.null.parses_of_succ fun depth fuel rest _ _ => ?_
  rw [render]
  show (afterWord? "ull".toList ("ull".toList ++ rest)).map _ = _
  rw [afterWord?_append]
  rfl

theorem parses_bool (b : Bool) : (Json.bool b).Parses := by
  refine (Written.bool b).parses_of_succ fun depth fuel rest _ _ => ?_
  cases b with
  | true =>
    rw [render]
    show (afterWord? "rue".toList ("rue".toList ++ rest)).map _ = _
    rw [afterWord?_append]
    rfl
  | false =>
    rw [render]
    show (afterWord? "alse".toList ("alse".toList ++ rest)).map _ = _
    rw [afterWord?_append]
    rfl

theorem parses_count (n : Nat) : (Json.count n).Parses := by
  refine (Written.count n).parses_of_succ fun depth fuel rest _ hrest => ?_
  obtain ⟨d, ds, heq, hdigit, -⟩ := toDigits_eq_cons n
  have hread := number?_toDigits n hrest
  rw [heq] at hread
  rw [render_count, heq, List.cons_append, value?_digit hdigit]
  exact hread

theorem parses_string (s : String) : (Json.string s).Parses := by
  refine (Written.string s).parses_of_succ fun depth fuel rest _ _ => ?_
  rw [render, literal, List.cons_append, List.append_assoc]
  exact stringLiteral?_literal s rest

theorem parses_array {items : List Json} (h : ∀ j ∈ items, j.Written ∧ j.Parses) :
    (Json.array items).Parses := by
  refine (Written.array items fun j hj => (h j hj).1).parses_of_succ
    fun depth fuel rest hfuel _ => ?_
  cases items with
  | nil =>
    rw [render]
    rfl
  | cons item items =>
    obtain ⟨⟨hwritten, hitem⟩, hitems⟩ := List.forall_mem_cons.1 h
    obtain ⟨c, text, htext, -, hc⟩ := hwritten.render_eq_cons (depth + 1)
    simp only [render, List.length_cons, List.length_append] at hfuel
    simp only [render, List.cons_append, List.append_assoc, List.nil_append]
    have hskip := hwritten.skipGap_render (depth + 1)
      (renderItems (depth + 1) items ++ (lineStart depth ++ ']' :: rest))
    have hread : items? fuel _ = some (item :: items, rest) :=
      items?_render hitem hitems (by rw [List.length_append]; omega) hskip
    rw [htext] at hskip hread
    exact value?_bracket ((skipGap_lineStart _ _).trans (htext ▸ hskip)) hc hread

theorem parses_object {members : List (String × Json)}
    (h : ∀ m ∈ members, m.2.Written ∧ m.2.Parses) : (Json.object members).Parses := by
  refine (Written.object members fun m hm => (h m hm).1).parses_of_succ
    fun depth fuel rest hfuel _ => ?_
  cases members with
  | nil =>
    rw [render]
    rfl
  | cons member members =>
    obtain ⟨hmember, hmembers⟩ := List.forall_mem_cons.1 h
    simp only [render, List.length_cons, List.length_append] at hfuel
    simp only [render, List.cons_append, List.append_assoc, List.nil_append]
    have hread : members? fuel (literal member.1 ++ (':' :: ' ' :: (render (depth + 1) member.2
        ++ (renderMembers (depth + 1) members ++ (lineStart depth ++ '\x7d' :: rest)))))
          = some ((member :: members).map quoted, rest) :=
      members?_render hmember hmembers (by rw [List.length_append]; omega) (skipGap_cons rfl _)
    rw [← objectOf_quoted]
    exact value?_brace ((skipGap_lineStart _ _).trans (skipGap_cons rfl _)) (by decide) hread

/-- A value is read back from its text at any depth. -/
theorem Written.parses {j : Json} (h : j.Written) : j.Parses := by
  induction h with
  | null => exact parses_null
  | bool b => exact parses_bool b
  | count n => exact parses_count n
  | string s => exact parses_string s
  | array items h ih => exact parses_array fun j hj => ⟨h j hj, ih j hj⟩
  | object members h ih => exact parses_object fun m hm => ⟨h m hm, ih m hm⟩

/-- **Reading a text that was written gives the value.** -/
theorem parse?_pretty {j : Json} (h : j.Written) : parse? j.pretty = some j := by
  have hgap : skipGap (render 0 j) = render 0 j := by
    have := h.skipGap_render 0 []
    rwa [List.append_nil] at this
  have hread := h.parses 0 (2 * (render 0 j).length + 2) [] (by omega) (fun _ hc => nomatch hc)
  rw [List.append_nil] at hread
  unfold parse? pretty
  dsimp only
  rw [String.toList_ofList, hgap, hread]
  rfl

end Ontogram.Json

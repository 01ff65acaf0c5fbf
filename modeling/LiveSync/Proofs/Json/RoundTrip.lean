import LiveSync.Proofs.Json.Leaves
import LiveSync.Proofs.Json.Values

/-!
# Values are read back

The text of a value is read as that value, if no double is in it, its integers fit
64 bits and it does not nest too deeply (`parse?_render`). A double does not take
part in this: it is read in two roundings, and may come out beside itself.

A reader of items **reads** a value if it takes the value's text off any text that
goes on as written texts do. That is so of the reader of values at any bound that
the value's nesting keeps (`Reader.reads_value`), along the shape of the value: an
array is read if its items are, at the bound below.
-/

namespace LiveSync.Json

namespace Reader

variable {v : Json} {item : Scan Json} {d : Nat}

/-! ### Where a value starts -/

/-- **A written value starts** with no blank, and not with the end of an array. -/
def Opens (cs : List Char) : Prop := ∃ c rest, cs = c :: rest ∧ isSpace c = false ∧ c ≠ ']'

theorem Opens.append {cs : List Char} (h : Opens cs) (rest : List Char) : Opens (cs ++ rest) := by
  obtain ⟨c, cs, rfl, hc⟩ := h
  exact ⟨c, cs ++ rest, rfl, hc⟩

theorem blanks_cons {c : Char} (h : isSpace c = false) (cs : List Char) :
    blanks (c :: cs) = c :: cs := by
  rw [blanks, List.dropWhile_cons, h]
  rfl

theorem Opens.blanks_eq {cs : List Char} (h : Opens cs) : blanks cs = cs := by
  obtain ⟨c, cs, rfl, hspace, -⟩ := h
  exact blanks_cons hspace cs

theorem opens_value (h : v.all isNoFloat = true) : Opens (Writer.value v) := by
  cases v with
  | null => exact ⟨_, _, rfl, by decide⟩
  | bool b => cases b <;> exact ⟨_, _, rfl, by decide⟩
  | int n =>
    obtain ⟨c, cs, hcs, hc⟩ := exists_ofInt_eq_cons n
    refine ⟨c, cs, hcs, ?_, ?_⟩
    · cases hspace : isSpace c with
      | false => rfl
      | true =>
        simp only [isSpace, Bool.or_eq_true, beq_iff_eq] at hspace
        rcases hspace with ((rfl | rfl) | rfl) | rfl <;> exact absurd hc (by decide)
    · rintro rfl
      exact absurd hc (by decide)
  | float x => cases h
  | str s => exact ⟨_, _, rfl, by decide⟩
  | arr items => cases items <;> exact ⟨_, _, rfl, by decide⟩
  | obj ms => cases ms <;> exact ⟨_, _, rfl, by decide⟩

theorem blanks_of_closes {rest : List Char} (h : Closes rest) : blanks rest = rest := by
  cases rest with
  | nil => rfl
  | cons c rest =>
    have hspace : isSpace c = false := by
      rcases h c rfl with rfl | rfl | rfl <;> decide
    exact blanks_cons hspace rest

/-! ### Items and members -/

/-- **A reader reads a value** if it takes the value's text off the start of a
text. -/
def Reads (item : Scan Json) (v : Json) : Prop :=
  Opens (Writer.value v) ∧
    ∀ rest, Closes rest → item (Writer.value v ++ rest) = some (v, rest)

theorem closes_moreItems (items : List Json) (rest : List Char) :
    Closes (Writer.moreItems items ++ rest) := by
  cases items with
  | nil => exact closes_bracket rest
  | cons v items => exact closes_comma _

theorem closes_moreMembers (ms : List (String × Json)) (rest : List Char) :
    Closes (Writer.moreMembers ms ++ rest) := by
  cases ms with
  | nil => exact closes_brace rest
  | cons m ms => exact closes_comma _

/-- One item is read. -/
theorem items_step (h : Reads item v) (more : List Json) (rest : List Char) (n : Nat) :
    items item (n + 1) (Writer.value v ++ (Writer.moreItems more ++ rest))
      = match more with
        | [] => some ([v], rest)
        | w :: more => (items item n (Writer.value w ++ (Writer.moreItems more ++ rest))).map
            fun p => (v :: p.1, p.2) := by
  obtain ⟨hopens, hreads⟩ := h
  have hclose := closes_moreItems more rest
  rw [items, (hopens.append _).blanks_eq, hreads _ hclose]
  dsimp only
  rw [blanks_of_closes hclose]
  cases more with
  | nil => rfl
  | cons w more =>
    rw [Writer.moreItems, List.cons_append, List.append_assoc]
    rfl

/-- **Items are read**, if each one is. -/
theorem items_eq {more : List Json} (h : ∀ w ∈ v :: more, Reads item w) (rest : List Char)
    {n : Nat} (hn : more.length < n) :
    items item n (Writer.value v ++ (Writer.moreItems more ++ rest)) = some (v :: more, rest) := by
  induction n generalizing v more with
  | zero => exact absurd hn (Nat.not_lt_zero _)
  | succ n ih =>
    rw [items_step (h v List.mem_cons_self)]
    cases more with
    | nil => rfl
    | cons w more =>
      dsimp only
      rw [ih (fun x hx => h x (List.mem_cons_of_mem v hx)) (Nat.lt_of_succ_lt_succ hn)]
      rfl

/-- The name of a member. -/
theorem name_stringText (key : String) (rest : List Char) :
    name (Writer.stringText key ++ ':' :: rest) = some (key, rest) := by
  have htext : Writer.stringText key ++ ':' :: rest
      = '"' :: (key.toList.flatMap Writer.charText ++ '"' :: ':' :: rest) := by
    simp [Writer.stringText]
  have hquote : isSpace '"' = false := by decide
  have hcolon : isSpace ':' = false := by decide
  simp only [name, htext, blanks_cons hquote, chars_flatMap_charText, blanks_cons hcolon,
    String.ofList_toList]

/-- One member is read. -/
theorem members_step {m : String × Json} (h : Reads item m.2) (more : List (String × Json))
    (rest : List Char) (n : Nat) :
    members (fun _ => item) (n + 1) (Writer.stringText m.1 ++ ':' ::
        (Writer.value m.2 ++ (Writer.moreMembers more ++ rest)))
      = match more with
        | [] => some ([m], rest)
        | m' :: more => (members (fun _ => item) n (Writer.stringText m'.1 ++ ':' ::
            (Writer.value m'.2 ++ (Writer.moreMembers more ++ rest)))).map
              fun p => (m :: p.1, p.2) := by
  obtain ⟨hopens, hreads⟩ := h
  have hclose := closes_moreMembers more rest
  rw [members, name_stringText]
  dsimp only
  rw [(hopens.append _).blanks_eq, hreads _ hclose]
  dsimp only
  rw [blanks_of_closes hclose]
  cases more with
  | nil => rfl
  | cons m' more =>
    rw [Writer.moreMembers, List.cons_append, List.append_assoc, List.cons_append,
      List.append_assoc]
    rfl

/-- **Members are read**, if the value of each one is. -/
theorem members_eq {m : String × Json} {more : List (String × Json)}
    (h : ∀ n ∈ m :: more, Reads item n.2) (rest : List Char) {n : Nat} (hn : more.length < n) :
    members (fun _ => item) n (Writer.stringText m.1 ++ ':' ::
      (Writer.value m.2 ++ (Writer.moreMembers more ++ rest))) = some (m :: more, rest) := by
  induction n generalizing m more with
  | zero => exact absurd hn (Nat.not_lt_zero _)
  | succ n ih =>
    rw [members_step (h m List.mem_cons_self)]
    cases more with
    | nil => rfl
    | cons m' more =>
      dsimp only
      rw [ih (fun x hx => h x (List.mem_cons_of_mem m hx)) (Nat.lt_of_succ_lt_succ hn)]
      rfl

/-! ### Arrays and objects -/

/-- Every item takes room. -/
theorem length_lt_moreItems (items : List Json) :
    items.length < (Writer.moreItems items).length := by
  induction items with
  | nil => exact Nat.zero_lt_one
  | cons v items ih =>
    rw [Writer.moreItems, List.length_cons, List.length_cons, List.length_append]
    omega

theorem length_lt_moreMembers (ms : List (String × Json)) :
    ms.length < (Writer.moreMembers ms).length := by
  induction ms with
  | nil => exact Nat.zero_lt_one
  | cons m ms ih =>
    rw [Writer.moreMembers, List.length_cons, List.length_cons, List.length_append,
      List.length_cons, List.length_append]
    omega

theorem array_of_opens {cs : List Char} (h : Opens cs) :
    array item cs = items item cs.length cs := by
  rw [array, h.blanks_eq]
  obtain ⟨c, cs, rfl, -, hc⟩ := h
  split
  · rename_i heq
    exact absurd (List.cons.inj heq).1 hc
  · rfl

/-- **An array is read** at a bound if its items are at the bound below. -/
theorem reads_arr {items : List Json} (h : ∀ v ∈ items, Reads (value .read d) v) :
    Reads (value .read (d + 1)) (.arr items) := by
  cases items with
  | nil => exact ⟨⟨_, _, rfl, by decide⟩, fun _ _ => rfl⟩
  | cons v more =>
    refine ⟨⟨_, _, rfl, by decide⟩, fun rest _ => ?_⟩
    have hopens := (h v List.mem_cons_self).1.append (Writer.moreItems more ++ rest)
    have hlength : more.length
        < (Writer.value v ++ (Writer.moreItems more ++ rest)).length := by
      have := length_lt_moreItems more
      simp only [List.length_append]
      omega
    rw [Writer.value, List.cons_append, List.append_assoc, value, array_of_opens hopens,
      items_eq h rest hlength]
    rfl

/-- **An object is read** at a bound if the values of its members are at the bound
below. -/
theorem reads_obj {ms : List (String × Json)} (h : ∀ m ∈ ms, Reads (value .read d) m.2) :
    Reads (value .read (d + 1)) (.obj ms) := by
  cases ms with
  | nil => exact ⟨⟨_, _, rfl, by decide⟩, fun _ _ => rfl⟩
  | cons m more =>
    refine ⟨⟨_, _, rfl, by decide⟩, fun rest _ => ?_⟩
    have hlength : more.length < (Writer.stringText m.1 ++ ':' ::
        (Writer.value m.2 ++ (Writer.moreMembers more ++ rest))).length := by
      have := length_lt_moreMembers more
      simp only [List.length_append, List.length_cons]
      omega
    rw [Writer.value, List.cons_append, List.append_assoc, List.cons_append, List.append_assoc,
      value, object]
    show Option.map _ (members (fun _ => value .read d) _ _) = _
    rw [members_eq h rest hlength]
    rfl

/-! ### Values -/

theorem value_eq_scalar (leaves : Leaves) (d : Nat) {c : Char} (cs : List Char) (hbracket : c ≠ '[')
    (hbrace : c ≠ '\x7b') : value leaves d (c :: cs) = scalar leaves (c :: cs) := by
  cases d <;>
  · rw [value.eq_def]
    split <;> simp_all

theorem value_int {n : Int} (hfits : (Json.int n).fits = true) {rest : List Char}
    (hrest : Closes rest) :
    value .read d (Writer.value (.int n) ++ rest) = some (.int n, rest) := by
  obtain ⟨c, cs, hcs, hc⟩ := exists_ofInt_eq_cons n
  obtain ⟨hlow, hhigh⟩ := of_decide_eq_true hfits
  have hbracket : c ≠ '[' := by
    rintro rfl
    exact absurd hc (by decide)
  have hbrace : c ≠ '\x7b' := by
    rintro rfl
    exact absurd hc (by decide)
  calc value .read d (Writer.value (.int n) ++ rest)
      = scalar .read (c :: (cs ++ rest)) := by
        rw [Writer.value, hcs, List.cons_append, value_eq_scalar .read d _ hbracket hbrace]
    _ = (Numeral.scan (Decimal.ofInt n ++ rest)).bind fun p =>
          (Numeral.value? p.1).map fun v => (v, p.2) := by
        rw [scalar_of_isDigit .read _ hc, hcs]
        rfl
    _ = some (.int n, rest) := by
        rw [Numeral.scan_ofInt n hrest, Option.bind_some, Numeral.value?_ofInt hlow hhigh]
        rfl

theorem value_str (s : String) (rest : List Char) :
    value .read d (Writer.value (.str s) ++ rest) = some (.str s, rest) := by
  have htext : Writer.value (.str s) ++ rest
      = '"' :: (s.toList.flatMap Writer.charText ++ '"' :: rest) := by
    simp [Writer.value, Writer.stringText]
  rw [htext, value_eq_scalar .read d _ (by decide) (by decide)]
  show (chars _).map _ = _
  rw [chars_flatMap_charText, Option.map_some, String.ofList_toList]

/-- **Values are read** at a bound that their nesting keeps. -/
theorem reads_value (h : v.Plain d) : Reads (value .read d) v := by
  have hopens := opens_value h.noFloat
  induction v using Json.induction generalizing d with
  | null => exact ⟨hopens, fun rest _ => by cases d <;> rfl⟩
  | bool b => exact ⟨hopens, fun rest _ => by cases b <;> cases d <;> rfl⟩
  | int n => exact ⟨hopens, fun rest hrest => value_int h.fits hrest⟩
  | float x => cases h.noFloat
  | str s => exact ⟨hopens, fun rest _ => value_str s rest⟩
  | arr items ih =>
    cases d with
    | zero => exact absurd h.nesting (Nat.not_succ_le_zero _)
    | succ d =>
      refine reads_arr fun v hv => ?_
      have hplain := plain_arr_iff.mp h v hv
      exact ih v hv hplain (opens_value hplain.noFloat)
  | obj ms ih =>
    cases d with
    | zero => exact absurd h.nesting (Nat.not_succ_le_zero _)
    | succ d =>
      refine reads_obj fun m hm => ?_
      have hplain := plain_obj_iff.mp h m hm
      exact ih m hm hplain (opens_value hplain.noFloat)

end Reader

/-- **A value is read back** from its text. -/
theorem parse?_render {v : Json} (h : v.Plain maxDepth) : parse? v.render = some v := by
  obtain ⟨hopens, hreads⟩ := Reader.reads_value h
  have hvalue := hreads [] Reader.closes_nil
  rw [List.append_nil] at hvalue
  rw [parse?, render, String.toList_ofList, hopens.blanks_eq, hvalue]
  rfl

end LiveSync.Json

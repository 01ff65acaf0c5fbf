import LiveSync.Proofs.Entity.Validator
import Mathlib.Data.List.Basic
import Mathlib.Data.List.Induction
import Mathlib.Data.List.TakeWhile
import Mathlib.Data.Nat.Digits.Defs

/-!
# The grammar of tokens

Which texts are tokens of the server's shape is a matter of grammar and should not
depend on how they are read. The grammar is given here without the reader: blanks,
the mark of a weak token, a quote, the two runs of digits between fixed words, a
quote, blanks (`Validator.Derives`). A quote may be missing on one side only, and a
number may have zeros in front.

The reader takes one part after another and never goes back, so it could miss a
token that could be divided in another way. It does not, since no part can begin
like the one before it goes on: no digit is a dash, and the words that enclose a
token are not blank. What is left to say is that stripping the blanks is what the
grammar means by blanks around a token (`Text.trim_eq_iff`), and that the number of
a run of digits is the usual one (`Decimal.toNat?_eq_some_iff`).
-/

namespace LiveSync

namespace Text

variable {cs before after core : List Char}

/-- A text is what is left of it between the blanks around it. -/
theorem exists_blanks_trim (cs : List Char) :
    ∃ before after, cs = before ++ (trim cs ++ after)
      ∧ (∀ c ∈ before, isBlank c = true) ∧ ∀ c ∈ after, isBlank c = true := by
  have htake {ds : List Char} : ∀ c ∈ ds.takeWhile isBlank, isBlank c = true :=
    fun c hc => List.mem_takeWhile_imp hc
  refine ⟨cs.takeWhile isBlank, ((trimStart cs).reverse.takeWhile isBlank).reverse, ?_, htake,
    fun c hc => htake c (List.mem_reverse.mp hc)⟩
  rw [trim, trimEnd, ← List.reverse_append, List.takeWhile_append_dropWhile, List.reverse_reverse,
    trimStart, List.takeWhile_append_dropWhile]

/-- Blanks around a text are stripped. -/
theorem trim_append (hbefore : ∀ c ∈ before, isBlank c = true)
    (hafter : ∀ c ∈ after, isBlank c = true) (hcore : ∀ c ∈ core.head?, isBlank c = false)
    (hne : core ≠ []) : trim (before ++ (core ++ after)) = trim core := by
  obtain ⟨c, rest, rfl⟩ := List.exists_cons_of_ne_nil hne
  have hc : ¬ isBlank c = true := by simp [hcore c rfl]
  have hstart (tail : List Char) : trimStart (c :: rest ++ tail) = c :: rest ++ tail :=
    List.dropWhile_cons_of_neg hc
  have hend : trimEnd (c :: rest ++ after) = trimEnd (c :: rest) := by
    unfold trimEnd
    rw [List.reverse_append, List.dropWhile_append_of_pos fun c hc =>
      hafter c (List.mem_reverse.mp hc)]
  have hdrop : trimStart (before ++ (c :: rest ++ after)) = trimStart (c :: rest ++ after) :=
    List.dropWhile_append_of_pos hbefore
  rw [trim, hdrop, hstart, hend, trim, show trimStart (c :: rest) = c :: rest from
    List.dropWhile_cons_of_neg hc]

/-- **To be left when the blanks are stripped** is to stand between blanks, for a
text that neither starts nor ends with one. -/
theorem trim_eq_iff (hne : core ≠ []) (hfirst : ∀ c ∈ core.head?, isBlank c = false)
    (hlast : ∀ c ∈ core.getLast?, isBlank c = false) :
    trim cs = core ↔ ∃ before after, cs = before ++ (core ++ after)
      ∧ (∀ c ∈ before, isBlank c = true) ∧ ∀ c ∈ after, isBlank c = true := by
  constructor
  · rintro rfl
    exact exists_blanks_trim cs
  · rintro ⟨before, after, rfl, hbefore, hafter⟩
    rw [trim_append hbefore hafter hfirst hne, trim_eq_self hfirst hlast]

end Text

namespace Decimal

variable {ds : List Char} {n : Nat}

/-- The number a digit stands for. -/
def digitValue (c : Char) : Nat := c.toNat - '0'.toNat

/-- **A number in decimal digits**: there is at least one digit, all are digits of
ASCII, and they stand for the number in base ten, the last one for the ones. -/
structure Denotes (ds : List Char) (n : Nat) : Prop where
  ne_nil : ds ≠ []
  ascii : ∀ c ∈ ds, '0' ≤ c ∧ c ≤ '9'
  value : n = Nat.ofDigits 10 (ds.reverse.map digitValue)

theorem ofDigitChars_eq (ds : List Char) :
    Nat.ofDigitChars 10 ds 0 = Nat.ofDigits 10 (ds.reverse.map digitValue) := by
  induction ds using List.reverseRecOn with
  | nil => rfl
  | append_singleton ds c ih =>
    rw [Nat.ofDigitChars_append, Nat.ofDigitChars_cons, ih, List.reverse_append,
      List.reverse_singleton, List.singleton_append, List.map_cons, Nat.ofDigits_cons, Nat.add_comm]
    rfl

theorem isDigit_iff (c : Char) : c.isDigit = true ↔ '0' ≤ c ∧ c ≤ '9' := by
  rw [Char.isDigit, Bool.and_eq_true, decide_eq_true_eq, decide_eq_true_eq]
  exact Iff.rfl

/-- **What is read of a run of digits** is the number they denote. -/
theorem toNat?_eq_some_iff : toNat? ds = some n ↔ Denotes ds n := by
  have hall : ds.all Char.isDigit = true ↔ ∀ c ∈ ds, '0' ≤ c ∧ c ≤ '9' := by
    rw [List.all_eq_true]
    exact forall₂_congr fun c _ => isDigit_iff c
  rw [toNat?, Option.ite_none_right_eq_some, hall, Option.some.injEq, ofDigitChars_eq]
  constructor
  · rintro ⟨⟨hne, hascii⟩, hvalue⟩
    exact ⟨hne, hascii, hvalue.symm⟩
  · intro h
    exact ⟨⟨h.ne_nil, h.ascii⟩, h.value.symm⟩

end Decimal

namespace Validator

open Decimal (Denotes)

variable {ds : List Char} {id : EntityId} {version : Version} {w : Int64} {n : Nat}

theorem spells_iff : Spells ds w ↔ ∃ n : Nat, Denotes ds n ∧ w.toInt = n :=
  exists_congr fun _ => and_congr_left' Decimal.toNat?_eq_some_iff

/-- The text of a token, from its parts. -/
def spelled (mark opening ids versions closing : List Char) : List Char :=
  mark ++ (opening ++ ("game-".toList ++ (ids ++ ("-v".toList ++ (versions ++ closing)))))

/-- **The grammar of the server's tokens.** Between blanks, a text names an entity and
a version by two numbers that fit a signed 64-bit word. -/
def Derives (text : List Char) (id : EntityId) (version : Version) : Prop :=
  ∃ mark opening ids versions closing, ∃ i v : Nat,
    (mark = [] ∨ mark = "W/".toList) ∧ (opening = [] ∨ opening = ['"'])
      ∧ (closing = [] ∨ closing = ['"'])
      ∧ (Denotes ids i ∧ id.toInt = i) ∧ (Denotes versions v ∧ version.toInt = v)
      ∧ ∃ before after, text = before ++ (spelled mark opening ids versions closing ++ after)
        ∧ (∀ c ∈ before, Text.isBlank c = true) ∧ ∀ c ∈ after, Text.isBlank c = true

theorem isBlank_of_isDigit {c : Char} (h : c.isDigit = true) : Text.isBlank c = false := by
  obtain ⟨hlow, hhigh⟩ := (Decimal.isDigit_iff c).mp h
  have hlow : 48 ≤ c.toNat := hlow
  have hhigh : c.toNat ≤ 57 := hhigh
  simp [Text.isBlank]
  omega

/-- **A token has no blank at either end.** -/
theorem ends_spelled {mark opening versions closing : List Char} (ids : List Char)
    (hmark : mark = [] ∨ mark = "W/".toList) (hopening : opening = [] ∨ opening = ['"'])
    (hclosing : closing = [] ∨ closing = ['"']) (hversions : Denotes versions n) :
    spelled mark opening ids versions closing ≠ []
      ∧ (∀ c ∈ (spelled mark opening ids versions closing).head?, Text.isBlank c = false)
      ∧ ∀ c ∈ (spelled mark opening ids versions closing).getLast?, Text.isBlank c = false := by
  have hhead : ∀ c ∈ (spelled mark opening ids versions closing).head?, Text.isBlank c = false := by
    rcases hmark with rfl | rfl <;> rcases hopening with rfl | rfl <;> rintro c ⟨⟩ <;> rfl
  have hend : ∀ c ∈ (versions ++ closing).getLast?, Text.isBlank c = false := by
    intro c hc
    rcases hclosing with rfl | rfl
    · rw [List.append_nil] at hc
      exact isBlank_of_isDigit ((Decimal.isDigit_iff c).mpr
        (hversions.ascii c (List.mem_of_getLast? hc)))
    · rw [List.getLast?_concat] at hc
      cases hc
      rfl
  have hsplit : spelled mark opening ids versions closing
      = mark ++ (opening ++ ("game-".toList ++ (ids ++ "-v".toList))) ++ (versions ++ closing) := by
    simp only [spelled, List.append_assoc]
  have hne : versions ++ closing ≠ [] := List.append_ne_nil_of_left_ne_nil hversions.ne_nil _
  refine ⟨?_, hhead, ?_⟩
  · rw [hsplit]
    exact List.append_ne_nil_of_right_ne_nil _ hne
  · rw [hsplit, List.getLast?_append_of_ne_nil _ hne]
    exact hend

/-- **What a token names** is what the grammar derives from its text. -/
theorem names_iff_derives {text : String} :
    Names ⟨text⟩ id version ↔ Derives text.toList id version := by
  constructor
  · rintro ⟨mark, opening, ids, versions, closing, hmark, hopening, hclosing, hids, hversions,
      htrim⟩
    obtain ⟨i, hids⟩ := spells_iff.mp hids
    obtain ⟨v, hversions⟩ := spells_iff.mp hversions
    obtain ⟨hne, hfirst, hlast⟩ := ends_spelled ids hmark hopening hclosing hversions.1
    exact ⟨mark, opening, ids, versions, closing, i, v, hmark, hopening, hclosing, hids, hversions,
      (Text.trim_eq_iff hne hfirst hlast).mp htrim⟩
  · rintro ⟨mark, opening, ids, versions, closing, i, v, hmark, hopening, hclosing, hids, hversions,
      htext⟩
    obtain ⟨hne, hfirst, hlast⟩ := ends_spelled ids hmark hopening hclosing hversions.1
    exact ⟨mark, opening, ids, versions, closing, hmark, hopening, hclosing,
      spells_iff.mpr ⟨i, hids⟩, spells_iff.mpr ⟨v, hversions⟩,
      (Text.trim_eq_iff hne hfirst hlast).mpr htext⟩

/-- **The reader reads the grammar.** The server's token for a state is read back as that
state, unless one of its numbers is negative, and then nothing is read. And of any text
whatever the reader makes what the grammar derives from it, and nothing else. -/
theorem tokens_read_by_grammar :
    (∀ id version, parse? (derive id version)
        = if 0 ≤ id.toInt ∧ 0 ≤ version.toInt then some (id, version) else none)
      ∧ ∀ text id version, parse? ⟨text⟩ = some (id, version) ↔ Derives text.toList id version :=
  ⟨parse?_derive, fun _ _ _ => parse?_eq_some_iff.trans names_iff_derives⟩

end Validator

end LiveSync

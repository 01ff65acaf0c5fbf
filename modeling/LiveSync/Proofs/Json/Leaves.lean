import LiveSync.Json.Reader
import LiveSync.Json.Writer

/-!
# Strings and integers are read back

What the writer makes of a string or of an integer, the reader takes off the start
of a text, and it gives back what follows.

A string ends with its quote, so anything may follow it. An integer does not say
where it ends: it is the text after it that does, by going on with something that
is not part of a numeral. In a written text that is the end, a comma, or the
bracket of the array or object that the integer stands in (`Reader.Closes`).
-/

namespace LiveSync.Json

/-! ### Strings -/

namespace Reader

open Writer

theorem hexDigit?_hexDigit : ∀ n < 16, hexDigit? (hexDigit n) = some n := by decide

/-- Two digits of a hexadecimal escape. -/
theorem hex4?_hexDigit {n : Nat} (h : n < 0x20) :
    hex4? '0' '0' (hexDigit (n / 16)) (hexDigit (n % 16)) = some n := by
  have hzero : hexDigit? '0' = some 0 := by decide
  rw [hex4?, hzero, hexDigit?_hexDigit (n / 16) (by omega), hexDigit?_hexDigit (n % 16) (by omega)]
  exact congrArg some (by omega)

theorem isLowHalf_eq_false {n : Nat} (h : n < 0x20) : isLowHalf n = false := by
  simp [isLowHalf]
  omega

theorem isHighHalf_eq_false {n : Nat} (h : n < 0x20) : isHighHalf n = false := by
  simp [isHighHalf]
  omega

/-- A character that stands for itself. -/
theorem chars_cons {c : Char} (rest : List Char) (hquote : c ≠ '"') (hescape : c ≠ '\\')
    (hcontrol : ¬ c.toNat < 0x20) : chars (c :: rest) = consChar c (chars rest) := by
  rw [chars.eq_def]
  split
  · rename_i heq
    cases heq
  · rename_i heq
    exact absurd (List.cons.inj heq).1 hquote
  · rename_i heq
    exact absurd (List.cons.inj heq).1 hescape
  · rename_i heq
    exact absurd (List.cons.inj heq).1 hescape
  · rename_i heq
    obtain ⟨rfl, rfl⟩ := List.cons.inj heq
    exact if_neg hcontrol

/-- **A character is read back.** -/
theorem chars_charText (c : Char) (rest : List Char) :
    chars (charText c ++ rest) = consChar c (chars rest) := by
  unfold charText
  -- one case for each of the characters that are escaped by a letter
  iterate 7
    split
    · subst_vars
      rfl
  split
  · rename_i hcontrol
    show chars ('\\' :: 'u' :: '0' :: '0' :: _ :: _ :: rest) = _
    rw [chars, hex4?_hexDigit hcontrol]
    simp only [isLowHalf_eq_false hcontrol, isHighHalf_eq_false hcontrol, Bool.false_eq_true,
      if_false, Char.ofNat_toNat]
  · exact chars_cons rest ‹_› ‹_› ‹_›

/-- **A string is read back.** -/
theorem chars_flatMap_charText (s rest : List Char) :
    chars (s.flatMap charText ++ '"' :: rest) = some (s, rest) := by
  induction s with
  | nil => rfl
  | cons c s ih =>
    rw [List.flatMap_cons, List.append_assoc, chars_charText, ih]
    rfl

end Reader

/-! ### What follows a value -/

namespace Reader

/-- **What follows a value** in a written text: nothing, a comma or a closing
bracket. -/
def Closes (rest : List Char) : Prop :=
  ∀ c ∈ rest.head?, c = ',' ∨ c = ']' ∨ c = '\x7d'

theorem closes_nil : Closes [] := nofun

theorem closes_comma (rest : List Char) : Closes (',' :: rest) := by
  rintro c ⟨⟩
  exact .inl rfl

theorem closes_bracket (rest : List Char) : Closes (']' :: rest) := by
  rintro c ⟨⟩
  exact .inr (.inl rfl)

theorem closes_brace (rest : List Char) : Closes ('\x7d' :: rest) := by
  rintro c ⟨⟩
  exact .inr (.inr rfl)

end Reader

/-! ### Integers -/

namespace Numeral

open Reader

/-- A run of digits, up to something that is no digit. -/
theorem digits_append {ds rest : List Char} (hds : ∀ c ∈ ds, c.isDigit = true)
    (hrest : Closes rest) : digits (ds ++ rest) = (ds, rest) := by
  have hnone : ∀ c ∈ rest.head?, c.isDigit = false := by
    intro c hc
    rcases hrest c hc with rfl | rfl | rfl <;> decide
  rw [digits, List.takeWhile_append_of_pos hds, List.dropWhile_append_of_pos hds]
  cases rest with
  | nil => simp
  | cons c rest => simp [hnone c rfl]

theorem scanFraction_of_closes {rest : List Char} (h : Closes rest) :
    scanFraction rest = some (none, rest) := by
  rw [scanFraction.eq_def]
  split
  · rcases h _ rfl with h | h | h <;> cases h
  · rfl

theorem scanExponent_of_closes {rest : List Char} (h : Closes rest) :
    scanExponent rest = some (none, rest) := by
  rw [scanExponent.eq_def]
  split
  · rcases h _ rfl with h | h | h <;> cases h
  · rcases h _ rfl with h | h | h <;> cases h
  · rfl

/-- A written number does not start with a superfluous zero. -/
theorem head?_ofNat {n : Nat} (h : 0 < n) : (Decimal.ofNat n).head? ≠ some '0' := by
  induction n using Nat.strongRecOn with
  | ind n ih =>
    rw [Decimal.ofNat]
    by_cases hlt : n < 10
    · rw [Nat.toDigits_of_lt_base hlt, List.head?_cons, Ne, Option.some.injEq,
        Nat.digitChar_eq_zero]
      omega
    · rw [Nat.toDigits_of_base_le (by decide) (by omega), List.head?_append,
        Option.or_of_isSome (List.isSome_head?.mpr Nat.toDigits_ne_nil)]
      exact ih (n / 10) (by omega) (by omega)

theorem scanWhole_ofNat (n : Nat) {rest : List Char} (hrest : Closes rest) :
    scanWhole (Decimal.ofNat n ++ rest) = some (Decimal.ofNat n, rest) := by
  rw [scanWhole, digits_append (fun _ => Decimal.isDigit_of_mem_ofNat) hrest]
  split
  · rename_i h
    exact absurd (Prod.mk.inj h).1 (Decimal.ofNat_ne_nil n)
  · rename_i h
    have hds := (Prod.mk.inj h).1
    rcases Nat.eq_zero_or_pos n with rfl | hpos
    · cases hds
    · exact absurd (by rw [hds]; rfl) (head?_ofNat hpos)
  · rfl

theorem scanMinus_ofInt (n : Int) (rest : List Char) :
    scanMinus (Decimal.ofInt n ++ rest) = (decide (n < 0), Decimal.ofNat n.natAbs ++ rest) := by
  cases n with
  | ofNat n =>
    show scanMinus (Decimal.ofNat n ++ rest) = (false, Decimal.ofNat n ++ rest)
    rw [scanMinus.eq_def]
    split
    · rename_i h
      -- a minus is not a digit
      have hmem : '-' ∈ Decimal.ofNat n := by
        cases hds : Decimal.ofNat n with
        | nil => exact absurd hds (Decimal.ofNat_ne_nil n)
        | cons c ds =>
          rw [hds] at h
          simp_all
      exact absurd (Decimal.isDigit_of_mem_ofNat hmem) (by decide)
    · rfl
  | negSucc n =>
    rw [decide_eq_true (Int.negSucc_lt_zero n)]
    rfl

/-- **An integer is taken off the start of a text.** -/
theorem scan_ofInt (n : Int) {rest : List Char} (hrest : Closes rest) :
    scan (Decimal.ofInt n ++ rest)
      = some (⟨decide (n < 0), Decimal.ofNat n.natAbs, none, none⟩, rest) := by
  simp only [scan, scanMinus_ofInt, scanWhole_ofNat _ hrest, scanFraction_of_closes hrest,
    scanExponent_of_closes hrest, Option.bind_eq_bind, Option.bind_some, Option.pure_def]

/-- Digits that fit are taken in. -/
theorem absorb_eq {ds : List Char} {s : Nat} (h : Nat.ofDigitChars 10 ds s ≤ maxSignificand) :
    absorb s ds = (Nat.ofDigitChars 10 ds s, []) := by
  induction ds generalizing s with
  | nil => rfl
  | cons c ds ih =>
    rw [Nat.ofDigitChars_cons, Nat.mul_comm] at h ⊢
    have hle : s * 10 + (c.toNat - '0'.toNat) ≤ maxSignificand := by
      rw [Nat.ofDigitChars_eq_ofDigitChars_zero] at h
      have hone : 1 ≤ 10 ^ ds.length := Nat.one_le_pow _ _ (by decide)
      have := Nat.mul_le_mul_right (s * 10 + (c.toNat - '0'.toNat)) hone
      omega
    rw [absorb, if_pos hle, ih h]

/-- **An integer is read back.** -/
theorem value?_ofInt {n : Int} (hlow : -0x8000000000000000 ≤ n) (hhigh : n < 0x10000000000000000) :
    value? ⟨decide (n < 0), Decimal.ofNat n.natAbs, none, none⟩ = some (.int n) := by
  have hdigits : Nat.ofDigitChars 10 (Decimal.ofNat n.natAbs) 0 = n.natAbs :=
    Nat.ofDigitChars_toDigits (by decide) (by decide)
  have hmax : n.natAbs ≤ maxSignificand := by
    rw [maxSignificand]
    omega
  have habsorb : absorb 0 (Decimal.ofNat n.natAbs) = (n.natAbs, []) := by
    rw [absorb_eq (by rwa [hdigits]), hdigits]
  simp only [value?, habsorb, integer?, decide_eq_true_eq]
  split
  · rw [if_pos (by omega)]
    rw [show -(n.natAbs : Int) = n by omega]
  · rw [show (n.natAbs : Int) = n by omega]

end Numeral

namespace Reader

/-- An integer starts with a minus sign or a digit. -/
theorem exists_ofInt_eq_cons (n : Int) :
    ∃ c cs, Decimal.ofInt n = c :: cs ∧ (c = '-' ∨ c.isDigit = true) := by
  cases n with
  | ofNat n =>
    obtain ⟨c, cs, hcs⟩ := List.exists_cons_of_ne_nil (Decimal.ofNat_ne_nil n)
    exact ⟨c, cs, hcs, .inr (Decimal.isDigit_of_mem_ofNat (hcs ▸ List.mem_cons_self))⟩
  | negSucc n => exact ⟨'-', _, rfl, .inl rfl⟩

/-- What starts with a minus sign or a digit is read as a numeral. -/
theorem scalar_of_isDigit (leaves : Leaves) {c : Char} (cs : List Char)
    (h : c = '-' ∨ c.isDigit = true) :
    scalar leaves (c :: cs) = (Numeral.scan (c :: cs)).bind fun p =>
      (leaves.number p.1).map fun v => (v, p.2) := by
  rw [scalar.eq_def]
  split
  iterate 4
    rename_i heq
    obtain rfl := (List.cons.inj heq).1
    exact absurd h (by decide)
  cases Numeral.scan (c :: cs) <;> rfl

end Reader

end LiveSync.Json

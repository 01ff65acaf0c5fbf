import LiveSync.Entity.Entry

/-!
# Tokens that name a version

What can be read off a token is what is written in it in the server's shape
(`Validator.Names`).

A token that is made for a state names that state's version, or no version
at all: the minus sign of a negative number is not part of the shape that is
read back (`Validator.parse?_derive`). So it cannot contradict the state it
stands for. A fetched state may come with a token of its own, and that one
is kept only if it does not contradict the state either
(`Validator.guards_fetchedValidator`).
-/

namespace LiveSync

namespace Text

/-- A text that neither starts nor ends with a blank is not trimmed. -/
theorem trim_eq_self {cs : List Char} (hfirst : ∀ c ∈ cs.head?, isBlank c = false)
    (hlast : ∀ c ∈ cs.getLast?, isBlank c = false) : trim cs = cs := by
  have hdrop {ds : List Char} (h : ∀ c ∈ ds.head?, isBlank c = false) :
      ds.dropWhile isBlank = ds := by
    cases ds with
    | nil => rfl
    | cons d ds => rw [List.dropWhile_cons_of_neg (by simp [h d rfl])]
  rw [trim, trimStart, hdrop hfirst, trimEnd, hdrop (by rwa [List.head?_reverse]),
    List.reverse_reverse]

end Text

namespace Validator

theorem after?_append (word rest : List Char) : after? word (word ++ rest) = some rest := by
  rw [after?, if_pos (List.isPrefixOf_iff_prefix.mpr (List.prefix_append ..)), List.drop_left]

/-- **Digits that spell a word.** -/
def Spells (ds : List Char) (w : Int64) : Prop :=
  ∃ n : Nat, Decimal.toNat? ds = some n ∧ w.toInt = n

/-- **A number is read** up to something that is no digit. -/
theorem number?_append {ds rest : List Char} {w : Int64} (h : Spells ds w)
    (hrest : ∀ c ∈ rest.head?, c.isDigit = false) : number? (ds ++ rest) = some (w, rest) := by
  obtain ⟨n, hn, hw⟩ := h
  have hds : ∀ c ∈ ds, c.isDigit = true := ((Decimal.isSome_toNat?_iff ds).mp (by simp [hn])).2
  have hword : Word.int64? n = some w := (Word.int64?_eq_some_iff _ _).mpr hw
  have htake : rest.takeWhile Char.isDigit = [] ∧ rest.dropWhile Char.isDigit = rest := by
    cases rest with
    | nil => exact ⟨rfl, rfl⟩
    | cons c rest => simp [hrest c rfl]
  rw [number?, List.takeWhile_append_of_pos hds, List.dropWhile_append_of_pos hds, htake.1,
    htake.2, List.append_nil, hn, Option.bind_eq_bind, Option.bind_some, hword]
  rfl

/-- What is read as a number was spelled by digits. -/
theorem spells_of_number? {cs rest : List Char} {w : Int64} (h : number? cs = some (w, rest)) :
    ∃ ds, cs = ds ++ rest ∧ Spells ds w := by
  simp only [number?, Option.bind_eq_bind, Option.bind_eq_some_iff] at h
  obtain ⟨n, hn, v, hv, hpair⟩ := h
  obtain ⟨rfl, rfl⟩ := Prod.mk.inj (Option.some.inj hpair)
  exact ⟨_, List.takeWhile_append_dropWhile.symm, n, hn, (Word.int64?_eq_some_iff _ _).mp hv⟩

/-- **A number is read back** if it is not negative, up to something that is
no digit. -/
theorem number?_ofInt (w : Int64) {rest : List Char} (hrest : ∀ c ∈ rest.head?, c.isDigit = false) :
    number? (Decimal.ofInt w.toInt ++ rest) = if 0 ≤ w.toInt then some (w, rest) else none := by
  cases hw : w.toInt with
  | ofNat n =>
    rw [if_pos (show (0 : Int) ≤ Int.ofNat n from Int.natCast_nonneg n)]
    exact number?_append ⟨n, Decimal.toNat?_ofNat n, hw⟩ hrest
  | negSucc n => rfl

/-- **The server's token for a state names the state**, unless one of its
numbers is negative. -/
theorem parse?_derive (id : EntityId) (version : Version) :
    parse? (derive id version)
      = if 0 ≤ id.toInt ∧ 0 ≤ version.toInt then some (id, version) else none := by
  have hlist : (derive id version).text.toList
      = ['"'] ++ (['g', 'a', 'm', 'e', '-'] ++ (Decimal.ofInt id.toInt
          ++ (['-', 'v'] ++ (Decimal.ofInt version.toInt ++ ['"'])))) := by
    simp [derive, Decimal.intText, String.toList_append]
  have htrim : Text.trim (derive id version).text.toList = (derive id version).text.toList := by
    rw [hlist]
    refine Text.trim_eq_self (fun c hc => ?_) (fun c hc => ?_)
    · obtain rfl := Option.some.inj hc
      decide
    · simp only [← List.append_assoc, List.getLast?_concat] at hc
      obtain rfl := Option.some.inj hc
      decide
  have hmaybe (rest : List Char) :
      afterMaybe ['"'] (afterMaybe ['W', '/'] (['"'] ++ rest)) = rest := by
    show (after? ['"'] (['"'] ++ rest)).getD _ = rest
    rw [after?_append]
    rfl
  rw [parse?, htrim, hlist, parseTrimmed?, hmaybe, after?_append]
  simp only [Option.bind_eq_bind, Option.bind_some]
  rw [number?_ofInt id (fun c hc => by obtain rfl := Option.some.inj hc; rfl)]
  by_cases hid : 0 ≤ id.toInt
  · rw [if_pos hid, Option.bind_some, after?_append, Option.bind_some,
      number?_ofInt version (fun c hc => by obtain rfl := Option.some.inj hc; rfl)]
    by_cases hv : 0 ≤ version.toInt
    · rw [if_pos hv, if_pos ⟨hid, hv⟩]
      rfl
    · rw [if_neg hv, if_neg fun h => hv h.2]
      rfl
  · rw [if_neg hid, if_neg fun h => hid h.1]
    rfl

/-! ### The shape of a token -/

theorem append_of_after? {word cs rest : List Char} (h : after? word cs = some rest) :
    cs = word ++ rest := by
  unfold after? at h
  split at h
  · rename_i hprefix
    obtain ⟨rest', rfl⟩ := List.isPrefixOf_iff_prefix.mp hprefix
    rw [List.drop_left] at h
    rw [Option.some.inj h]
  · cases h

theorem append_afterMaybe (word cs : List Char) :
    ∃ mark, (mark = [] ∨ mark = word) ∧ cs = mark ++ afterMaybe word cs := by
  unfold afterMaybe
  cases h : after? word cs with
  | none => exact ⟨[], .inl rfl, rfl⟩
  | some rest => exact ⟨word, .inr rfl, append_of_after? h⟩

/-- **A token has the server's shape**, up to blanks around it, the mark of a
weak token and a missing quote, and names an entity and a version. -/
def Names (token : Validator) (id : EntityId) (version : Version) : Prop :=
  ∃ mark opening ids versions closing,
    (mark = [] ∨ mark = ['W', '/']) ∧ (opening = [] ∨ opening = ['"'])
      ∧ (closing = [] ∨ closing = ['"']) ∧ Spells ids id ∧ Spells versions version
      ∧ Text.trim token.text.toList
        = mark ++ (opening ++ (['g', 'a', 'm', 'e', '-'] ++ (ids ++ (['-', 'v']
          ++ (versions ++ closing)))))

/-- **What is read off a token** is what a token of that shape names. -/
theorem parse?_eq_some_iff {token : Validator} {id : EntityId} {version : Version} :
    parse? token = some (id, version) ↔ token.Names id version := by
  constructor
  · intro h
    simp only [parse?, parseTrimmed?, Option.bind_eq_bind, Option.bind_eq_some_iff] at h
    obtain ⟨afterWord, hword, ⟨id', afterId⟩, hid, afterDash, hdash, ⟨version', closing⟩, hversion,
      hend⟩ := h
    obtain ⟨mark, hmark, htrim⟩ := append_afterMaybe ['W', '/'] (Text.trim token.text.toList)
    obtain ⟨opening, hopening, hquote⟩ := append_afterMaybe ['"']
      (afterMaybe ['W', '/'] (Text.trim token.text.toList))
    obtain ⟨ids, hids, hspelled⟩ := spells_of_number? hid
    obtain ⟨versions, hversions, hspelled'⟩ := spells_of_number? hversion
    obtain ⟨hclosing, hpair⟩ := Option.ite_none_right_eq_some.mp hend
    obtain ⟨rfl, rfl⟩ := Prod.mk.inj (Option.some.inj hpair)
    refine ⟨mark, opening, ids, versions, closing, hmark, hopening, hclosing, hspelled, hspelled',
      ?_⟩
    have hafter : afterId = ['-', 'v'] ++ afterDash := append_of_after? hdash
    rw [htrim, hquote, append_of_after? hword, hids, hafter, hversions]
  · rintro ⟨mark, opening, ids, versions, closing, hmark, hopening, hclosing, hids, hversions,
      htrim⟩
    have hstart : afterMaybe ['"'] (afterMaybe ['W', '/'] (Text.trim token.text.toList))
        = ['g', 'a', 'm', 'e', '-'] ++ (ids ++ (['-', 'v'] ++ (versions ++ closing))) := by
      rw [htrim]
      rcases hmark with rfl | rfl <;> rcases hopening with rfl | rfl <;> rfl
    have hdash : ∀ c ∈ (['-', 'v'] ++ (versions ++ closing)).head?, c.isDigit = false := by
      rintro c ⟨⟩
      rfl
    have hend : ∀ c ∈ closing.head?, c.isDigit = false := by
      rcases hclosing with rfl | rfl
      · nofun
      · rintro c ⟨⟩
        rfl
    rw [parse?, parseTrimmed?, hstart, after?_append]
    simp only [Option.bind_eq_bind, Option.bind_some]
    rw [number?_append hids hdash, Option.bind_some, after?_append, Option.bind_some,
      number?_append hversions hend, Option.bind_some, if_pos hclosing]

example : parse? ⟨" W/\"game-007-v12 "⟩ = some (7, 12) := by decide +kernel

theorem version?_eq_some_iff {token : Validator} {version : Version} :
    token.version? = some version ↔ ∃ id, token.Names id version := by
  simp only [version?, Option.map_eq_some_iff, Prod.exists, parse?_eq_some_iff,
    exists_eq_right]

theorem version?_eq_none_iff {token : Validator} :
    token.version? = none ↔ ∀ id version, ¬ token.Names id version := by
  simp only [Option.eq_none_iff_forall_ne_some, ne_eq, version?_eq_some_iff, not_exists]
  exact forall_comm

/-! ### Guarding a command -/

/-- **A token guards a version** if it names that version, or none. -/
def Guards (token : Validator) (version : Version) : Prop :=
  token.version? = none ∨ token.version? = some version

theorem guards_derive (id : EntityId) (version : Version) : (derive id version).Guards version := by
  rw [Guards, version?, parse?_derive]
  split
  · exact .inr rfl
  · exact .inl rfl

/-- **Whatever token a fetched state comes with**, the one that is kept guards
its version. -/
theorem guards_fetchedValidator (id : EntityId) (version : Version) (token : Option Validator) :
    (Entry.fetchedValidator id version token).Guards version := by
  unfold Entry.fetchedValidator
  split
  · exact guards_derive id version
  · rename_i token
    split
    · rename_i hnone
      exact .inl hnone
    · rename_i v hv
      split
      · rename_i heq
        exact .inr (heq ▸ hv)
      · exact guards_derive id version

end Validator

end LiveSync

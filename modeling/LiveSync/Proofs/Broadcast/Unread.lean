import LiveSync.Broadcast
import Mathlib.Data.List.DropRight

/-!
# What a receiver has not read

What was published since the last read of a receiver is **unread**, whether the
channel still keeps it or not (`Channel.unread`). A read finds nothing exactly
when nothing is unread; it takes the oldest unread item, or reports how many of
the oldest ones are lost, and goes on behind them (`Listens.receive_cases`).
Nothing is passed over in silence.

What is **kept** of it is the newest part, as much as the channel holds
(`Channel.kept`), and that is what a receiver gets to see before it finds nothing
any more (`Listens.waiting_cases`). However far it falls behind, the last item is
among it.
-/

namespace LiveSync.Channel

variable {α : Type} {c : Channel α} {r : Nat}

/-- **What a receiver has not read yet**, what it has lost included. -/
def unread (c : Channel α) (r : Nat) : List α :=
  match c.cursors[r]? with
  | some (some place) => c.log.drop place
  | _ => []

/-- **A receiver is there**, and does not stand beyond the last item. -/
def Listens (c : Channel α) (r : Nat) : Prop :=
  ∃ place, c.cursors[r]? = some (some place) ∧ place ≤ c.log.length

theorem unread_eq {place : Nat} (h : c.cursors[r]? = some (some place)) :
    c.unread r = c.log.drop place := by
  rw [unread, h]

/-- Who has just come in has read everything. -/
theorem listens_subscribe (c : Channel α) :
    c.subscribe.1.Listens c.subscribe.2 ∧ c.subscribe.1.unread c.subscribe.2 = [] := by
  have hcursor : c.subscribe.1.cursors[c.subscribe.2]? = some (some c.log.length) := by
    simp [subscribe]
  refine ⟨⟨_, hcursor, Nat.le_refl _⟩, ?_⟩
  rw [unread_eq hcursor]
  exact List.drop_length

/-! ### Publishing -/

theorem Listens.publish (h : c.Listens r) (x : α) : (c.publish x).Listens r := by
  obtain ⟨place, hcursor, hplace⟩ := h
  refine ⟨place, hcursor, ?_⟩
  rw [Channel.publish, List.length_append]
  exact Nat.le_add_right_of_le hplace

theorem Listens.unread_publish (h : c.Listens r) (x : α) :
    (c.publish x).unread r = c.unread r ++ [x] := by
  obtain ⟨place, hcursor, hplace⟩ := h
  have hcursor' : (c.publish x).cursors[r]? = some (some place) := hcursor
  rw [unread_eq hcursor, unread_eq hcursor']
  exact List.drop_append_of_le_length hplace

/-- **What is published is unread.** -/
theorem Listens.publishAll (h : c.Listens r) (xs : List α) :
    (xs.foldl Channel.publish c).Listens r
      ∧ (xs.foldl Channel.publish c).unread r = c.unread r ++ xs := by
  induction xs generalizing c with
  | nil => exact ⟨h, (List.append_nil _).symm⟩
  | cons x xs ih =>
    obtain ⟨hlistens, hunread⟩ := ih (h.publish x)
    refine ⟨hlistens, ?_⟩
    rw [List.foldl_cons, hunread, h.unread_publish, List.append_assoc]
    rfl

/-! ### Reading -/

theorem cursors_moveTo {place : Nat} (h : c.cursors[r]? = some (some place)) (place' : Nat) :
    (c.moveTo r place').cursors[r]? = some (some place') := by
  have hr : r < c.cursors.length := (List.getElem?_eq_some_iff.mp h).1
  rw [moveTo, List.getElem?_set_self hr]

/-- **One read**: nothing is unread, or the oldest unread item is read, or so many
of the oldest ones are lost. -/
theorem Listens.receive_cases (h : c.Listens r) :
    (c.advance r).Listens r
      ∧ ((c.peek r = .empty ∧ c.unread r = [] ∧ (c.advance r).unread r = [])
        ∨ (∃ x, c.peek r = .item x ∧ c.unread r = x :: (c.advance r).unread r)
        ∨ ∃ lost, c.peek r = .lagged lost ∧ (c.advance r).unread r = (c.unread r).drop lost) := by
  obtain ⟨place, hcursor, hplace⟩ := h
  by_cases hlost : place < c.oldest
  · have hpeek : c.peek r = .lagged (c.oldest - place) := by
      rw [peek, hcursor]
      exact if_pos hlost
    have hadvance : c.advance r = c.moveTo r c.oldest := by
      rw [advance, hcursor]
      exact if_pos hlost
    have hmoved := cursors_moveTo hcursor c.oldest
    rw [hadvance]
    refine ⟨⟨_, hmoved, Nat.sub_le _ _⟩, .inr (.inr ⟨_, hpeek, ?_⟩)⟩
    rw [unread_eq hcursor, unread_eq hmoved, List.drop_drop,
      Nat.add_sub_cancel' (Nat.le_of_lt hlost)]
    rfl
  · rcases Nat.lt_or_eq_of_le hplace with hlt | heq
    · have hpeek : c.peek r = .item c.log[place] := by
        rw [peek, hcursor]
        dsimp only
        rw [if_neg hlost, List.getElem?_eq_getElem hlt]
      have hadvance : c.advance r = c.moveTo r (place + 1) := by
        rw [advance, hcursor]
        dsimp only
        rw [if_neg hlost, if_pos hlt]
      have hmoved := cursors_moveTo hcursor (place + 1)
      rw [hadvance]
      refine ⟨⟨_, hmoved, hlt⟩, .inr (.inl ⟨_, hpeek, ?_⟩)⟩
      rw [unread_eq hcursor, unread_eq hmoved]
      exact List.drop_eq_getElem_cons hlt
    · have hpeek : c.peek r = .empty := by
        rw [peek, hcursor]
        dsimp only
        rw [if_neg hlost, heq, List.getElem?_eq_none (Nat.le_refl _)]
      have hadvance : c.advance r = c := by
        rw [advance, hcursor]
        dsimp only
        rw [if_neg hlost, if_neg (heq ▸ Nat.lt_irrefl _)]
      have hunread : c.unread r = [] := by
        rw [unread_eq hcursor, heq, List.drop_length]
      rw [hadvance]
      exact ⟨⟨place, hcursor, hplace⟩, .inl ⟨hpeek, hunread, hunread⟩⟩

/-! ### What is kept -/

@[simp] theorem capacity_publish (c : Channel α) (x : α) : (c.publish x).capacity = c.capacity :=
  rfl

@[simp] theorem capacity_advance (c : Channel α) (r : Nat) :
    (c.advance r).capacity = c.capacity := by
  unfold advance
  repeat' split
  all_goals rfl

/-- **What is kept of what a receiver has not read**: the newest items, as many as
the channel holds. -/
def kept (c : Channel α) (r : Nat) : List α := (c.unread r).rtake c.capacity

theorem kept_eq_unread (h : (c.unread r).length ≤ c.capacity) : c.kept r = c.unread r := by
  rw [kept, List.rtake, Nat.sub_eq_zero_of_le h, List.drop_zero]

/-- What is lost is what the channel does not hold. -/
theorem Listens.peek_eq_lagged_iff (h : c.Listens r) {lost : Nat} :
    c.peek r = .lagged lost ↔ 0 < lost ∧ (c.unread r).length = lost + c.capacity := by
  obtain ⟨place, hcursor, hplace⟩ := h
  have holdest : c.oldest = c.log.length - c.capacity := rfl
  rw [unread_eq hcursor, List.length_drop, peek, hcursor]
  dsimp only
  by_cases hlost : place < c.oldest
  · rw [if_pos hlost, Reading.lagged.injEq]
    omega
  · rw [if_neg hlost]
    refine iff_of_false (fun hpeek => ?_) (by omega)
    split at hpeek <;> cases hpeek

/-- How many reads find something: one for each item that is kept, and one for the
loss, if there is one. -/
theorem Listens.waiting_eq (h : c.Listens r) :
    c.waiting r = if c.capacity < (c.unread r).length then c.capacity + 1
      else (c.unread r).length := by
  obtain ⟨place, hcursor, hplace⟩ := h
  have holdest : c.oldest = c.log.length - c.capacity := rfl
  rw [unread_eq hcursor, List.length_drop, waiting, hcursor]
  dsimp only
  by_cases hlost : place < c.oldest
  · rw [if_pos hlost, if_pos (by omega)]
    omega
  · rw [if_neg hlost, if_neg (by omega)]

/-- **One of the reads that find something.** It brings the oldest item that is kept,
or tells of a loss, which is not told of again. -/
theorem Listens.waiting_cases (h : c.Listens r) :
    (c.waiting r = 0 ∧ c.peek r = .empty ∧ c.kept r = [])
      ∨ c.waiting r = (c.advance r).waiting r + 1
        ∧ ((∃ x, c.peek r = .item x ∧ c.kept r = x :: (c.advance r).kept r)
          ∨ ∃ lost, c.peek r = .lagged lost ∧ c.kept r = (c.advance r).kept r) := by
  obtain ⟨hlistens, hcases⟩ := h.receive_cases
  have hlost {lost : Nat} : c.peek r = .lagged lost ↔ _ := h.peek_eq_lagged_iff
  rw [h.waiting_eq, hlistens.waiting_eq, capacity_advance]
  rcases hcases with ⟨hpeek, hnil, -⟩ | ⟨x, hpeek, hunread⟩ | ⟨lost, hpeek, hunread⟩
  · refine .inl ⟨?_, hpeek, ?_⟩ <;> simp [kept, hnil, List.rtake]
  · have hfits : (c.unread r).length ≤ c.capacity := by
      by_contra hlong
      have hlagged : c.peek r = .lagged ((c.unread r).length - c.capacity) :=
        hlost.mpr (by omega)
      cases hpeek.symm.trans hlagged
    have hlength : (c.unread r).length = ((c.advance r).unread r).length + 1 := by
      rw [hunread, List.length_cons]
    refine .inr ⟨by split <;> split <;> omega, .inl ⟨x, hpeek, ?_⟩⟩
    rw [kept_eq_unread hfits, hunread, kept_eq_unread (by rw [capacity_advance]; omega)]
  · obtain ⟨hpos, hlength⟩ := hlost.mp hpeek
    have hkeeps : ((c.advance r).unread r).length = c.capacity := by
      rw [hunread, List.length_drop]
      omega
    refine .inr ⟨by split <;> split <;> omega, .inr ⟨lost, hpeek, ?_⟩⟩
    rw [kept_eq_unread (hkeeps.trans (capacity_advance c r).symm).le, hunread, kept, List.rtake,
      hlength, Nat.add_sub_cancel]

/-- **What a receiver has not read is not lost altogether.** -/
theorem Listens.unread_ne_nil_of_lagged (h : c.Listens r) (hcapacity : 0 < c.capacity)
    {lost : Nat} (hpeek : c.peek r = .lagged lost) : (c.advance r).unread r ≠ [] := by
  obtain ⟨hlistens, ⟨hempty, -⟩ | ⟨x, hitem, -⟩ | ⟨lost', hlagged, hunread⟩⟩ := h.receive_cases
  · cases hempty.symm.trans hpeek
  · cases hitem.symm.trans hpeek
  · obtain ⟨-, hlength⟩ := h.peek_eq_lagged_iff.mp hlagged
    rw [hunread, ← List.length_pos_iff, List.length_drop]
    omega

end LiveSync.Channel

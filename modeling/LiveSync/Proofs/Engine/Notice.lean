import LiveSync.Engine.Notice
import LiveSync.Proofs.Broadcast.Changes

/-!
# The error that is shown is the error that was told

There are two places for an error and only one of them is seen. An error that is
written behind another one changes nothing for the user, and one that is cleared
may bring another to light, or the same one once more. So the events cannot follow
the writing of errors; they have to follow what is shown.

What is shown is easy to say of a whole run: the last error of a mutation that was
written, or else the last one of the whole (`Notice.shown_run`). That the events
follow it is then only that each writing tells what it changes
(`Notice.told_call`).
-/

namespace LiveSync

/-- The error that an event tells, if it tells one, or that there is none any more. -/
def Event.syncError? : Event → Option (Option String)
  | .syncErrorChanged error => some error
  | _ => none

/-- **The errors that events tell**, in their order. -/
def toldErrors (events : List Event) : List (Option String) := events.filterMap Event.syncError?

theorem toldErrors_append (events events' : List Event) :
    toldErrors (events ++ events') = toldErrors events ++ toldErrors events' :=
  List.filterMap_append ..

/-- **What an observer shows** that knows of no error to begin with, and replaces
what it shows by every error that it is told. -/
def observedError (events : List Event) : Option String :=
  (toldErrors events).foldl (fun _ error => error) none

namespace Notice

/-- **A writing of an error.** To write none is to clear it. -/
inductive Call where
  | mutation (error : Option String)
  | global (error : Option String)
deriving DecidableEq, Repr

/-- What is written as the error of the last mutation, if that is written. -/
def Call.mutation? : Call → Option (Option String)
  | .mutation error => some error
  | .global _ => .none

/-- What is written as the error of the whole, if that is written. -/
def Call.global? : Call → Option (Option String)
  | .global error => some error
  | .mutation _ => .none

/-- **What a writing leads to.** -/
def call (n : Notice) : Call → Update Notice Unit
  | .mutation error => n.setMutation error
  | .global error => n.setGlobal error

/-- **A run** writes errors one after another. -/
def run (calls : List Call) : Update Notice Unit :=
  calls.foldl (fun u c => u.andThen fun n _ => n.call c) (.silent none ())

/-- **What was written last** by the writings of one kind. -/
def last (written? : Call → Option (Option String)) (calls : List Call) : Option String :=
  (calls.filterMap written?).getLast?.join

theorem run_concat (calls : List Call) (c : Call) :
    run (calls ++ [c]) = (run calls).andThen fun n _ => n.call c :=
  List.foldl_concat ..

theorem last_concat (written? : Call → Option (Option String)) (calls : List Call) (c : Call) :
    last written? (calls ++ [c]) = (written? c).getD (last written? calls) := by
  unfold last
  rw [List.filterMap_append, List.filterMap_cons]
  cases written? c with
  | none => rw [List.filterMap_nil, List.append_nil]; rfl
  | some error => rw [List.filterMap_nil, List.getLast?_concat]; rfl

/-- **Each place holds what was written there last.** -/
theorem state_run (calls : List Call) :
    (run calls).state = ⟨last Call.mutation? calls, last Call.global? calls⟩ := by
  induction calls using List.reverseRecOn with
  | nil => rfl
  | append_singleton calls c ih =>
    rw [run_concat, last_concat, last_concat]
    show ((run calls).state.call c).state = _
    rw [ih]
    cases c <;> rfl

/-- The error of a mutation hides that of the whole. -/
theorem shown_run (calls : List Call) :
    (run calls).state.shown = (last Call.mutation? calls).or (last Call.global? calls) := by
  rw [state_run]
  exact Option.orElse_eq_or

/-- **A writing tells what is shown** if that has changed, and only then. -/
theorem told_call (n : Notice) (c : Call) :
    toldErrors (n.call c).events
      = if (n.call c).state.shown = n.shown then [] else [(n.call c).state.shown] := by
  have hreplace (m : Notice) : toldErrors (n.replace m).events
      = if m.shown = n.shown then [] else [m.shown] := by
    unfold replace
    by_cases h : n.shown = m.shown
    · rw [if_pos h, if_pos h.symm]
      rfl
    · rw [if_neg h, if_neg (Ne.symm h)]
      rfl
  cases c <;> exact hreplace _

theorem abreast_run (calls : List Call) :
    Abreast .none (run calls).state.shown (toldErrors (run calls).events) := by
  induction calls using List.reverseRecOn with
  | nil => exact abreast_nil _
  | append_singleton calls c ih =>
    have htell := ih.tell ((run calls).state.call c).state.shown
    rw [← told_call, ← toldErrors_append] at htell
    rw [run_concat]
    exact htell

/-- **The error that is shown and the errors that are told agree**, after every run
of writings. What is shown is the last error of a mutation, or else the last one
of the whole. An observer that only follows the events shows the same. It is never
told the same twice in a row, and not first of all that there is no error. -/
theorem shown_error_is_told (calls : List Call) :
    (run calls).state.shown = (last Call.mutation? calls).or (last Call.global? calls)
      ∧ observedError (run calls).events = (run calls).state.shown
      ∧ (toldErrors (run calls).events).IsChain (· ≠ ·)
      ∧ (toldErrors (run calls).events).head? ≠ some .none := by
  have h := abreast_run calls
  refine ⟨shown_run calls, h.believed, h.chain.tail, fun hnone => ?_⟩
  obtain ⟨later, hlater⟩ := List.head?_eq_some_iff.mp hnone
  have hchain := h.chain
  rw [hlater] at hchain
  exact (List.isChain_cons_cons.mp hchain).1 rfl

/-- An error behind another one is told when it comes to light. -/
example : toldErrors (run [.mutation (some "a"), .global (some "b"), .mutation .none]).events
    = [some "a", some "b"] := by decide

end Notice

end LiveSync

import LiveSync.Update

/-!
# The error that is shown

The user is shown one error at most. There are two places for one: the
last mutation that failed, and what is wrong as a whole. The first hides
the second. An event tells whenever what is shown changes, and only then.
-/

namespace LiveSync

/-- **The errors to be shown.** -/
structure Notice where
  mutation : Option String
  global : Option String
deriving DecidableEq, Repr

namespace Notice

/-- There is no error. -/
def none : Notice := ⟨.none, .none⟩

instance : Inhabited Notice := ⟨none⟩

/-- **The error that is shown.** -/
def shown (n : Notice) : Option String := n.mutation <|> n.global

/-- Replaces the errors. -/
def replace (before after : Notice) : Update Notice Unit :=
  ⟨after, (), if before.shown = after.shown then [] else [.syncErrorChanged after.shown]⟩

/-- Writes the error of the last mutation. -/
def setMutation (n : Notice) (error : Option String) : Update Notice Unit :=
  n.replace { n with mutation := error }

/-- Writes what is wrong as a whole. -/
def setGlobal (n : Notice) (error : Option String) : Update Notice Unit :=
  n.replace { n with global := error }

end Notice

end LiveSync

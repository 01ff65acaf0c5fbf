import Mathlib.Data.List.Chain
import Mathlib.Data.List.Induction

/-!
# What is told when it changes

Some things are not asked for but told: whenever such a thing changes, its new
value is published, and whoever is interested believes what was published last.
That is as good as asking, provided that every change is told and nothing else is
(`Abreast.tell`). Nothing more is needed of the thing itself, so this is said
here once, for whatever is told in this way.
-/

namespace LiveSync

variable {α : Type} {first now : α} {told : List α}

/-- **What was told of a thing is up to date**: whoever believed `first` to begin
with, and was told the values `told` since, believes `now`, and nothing was told
that was believed already. -/
structure Abreast (first now : α) (told : List α) : Prop where
  believed : told.foldl (fun _ value => value) first = now
  chain : (first :: told).IsChain (· ≠ ·)

theorem abreast_nil (first : α) : Abreast first first [] := ⟨rfl, List.isChain_singleton _⟩

/-- What is believed is what was told last. -/
theorem getLast?_told (first : α) (told : List α) :
    (first :: told).getLast? = some (told.foldl (fun _ value => value) first) := by
  rw [List.getLast?_cons]
  induction told using List.reverseRecOn with
  | nil => rfl
  | append_singleton told value ih => rw [List.getLast?_concat, List.foldl_concat]; rfl

/-- **To tell what has changed is enough**, and to tell nothing if nothing has. -/
theorem Abreast.tell [DecidableEq α] (h : Abreast first now told) (next : α) :
    Abreast first next (told ++ if next = now then [] else [next]) := by
  split
  · rename_i hsame
    rw [List.append_nil, hsame]
    exact h
  · rename_i hnew
    refine ⟨List.foldl_concat .., List.isChain_append.mpr ⟨h.chain, List.isChain_singleton _, ?_⟩⟩
    rw [getLast?_told, h.believed]
    rintro _ ⟨⟩ _ ⟨⟩
    exact Ne.symm hnew

end LiveSync

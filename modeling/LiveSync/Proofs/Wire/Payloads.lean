import LiveSync.Proofs.Json.Stored
import LiveSync.Proofs.Wire.Reading

/-!
# Payloads

A client keeps the payloads that it is sent, and compares and sends them later on. All
of them are of one kind: settled, and with no integer beyond 64 bits
(`stored_of_decode?`). A payload is either a member of a frame that has been settled as
a whole, or is put together from two of them.
-/

namespace LiveSync.Wire

open Json Json.Fields

variable {ms : List (String × Json)} {v : Json}

/-- The payload of a frame. -/
def ServerFrame.payload? : ServerFrame → Option Json
  | .stateUpdate _ _ payload => some payload
  | _ => none

theorem stored_of_demand (hms : ∀ m ∈ ms, m.2.Stored) {names : List String}
    (h : demand any? (under names ms) = some v) : v.Stored := by
  obtain ⟨w, hw, hread⟩ := mem_of_demand h
  obtain ⟨m, hm, rfl⟩ := List.mem_map.mp hw
  have hstored := hms m (List.mem_filter.mp hm).1
  cases hread
  exact hstored.settled.symm ▸ hstored

theorem stored_of_allow (hms : ∀ m ∈ ms, m.2.Stored) {names : List String}
    (h : allow .null any? (under names ms) = some v) : v.Stored := by
  rcases demand_of_allow h with rfl | h
  · exact ⟨rfl, rfl⟩
  · exact stored_of_demand hms h

theorem ServerFrame.stored_of_ofHalves? (hms : ∀ m ∈ ms, m.2.Stored) {f : ServerFrame}
    (h : ofHalves? (.named ms) = some f) : ∀ v ∈ f.payload?, v.Stored := by
  simp only [ofHalves?, bind_required, bind_defaulted, finish?, Option.bind_eq_bind,
    Option.bind_eq_some_iff] at h
  obtain ⟨topic, -, version, -, game, hgame, viewer, hviewer, hf⟩ := h
  cases hf
  rintro v ⟨⟩
  exact stored_object (by simp [stored_of_demand hms hgame, stored_of_allow hms hviewer])

/-- The fields of a tagged object are all its members. -/
theorem fields_of_tagged? {k : String} {fields : Fields}
    (h : tagged? .outermost "type" [] (.obj ms) = some (k, fields)) : fields = .named ms := by
  rw [tagged?] at h
  split at h
  · obtain ⟨s, -, hs⟩ := Option.map_eq_some_iff.mp h
    cases hs
    rfl
  · cases h

theorem ServerFrame.stored_of_ofJson? (hms : ∀ m ∈ ms, m.2.Stored) {f : ServerFrame}
    (h : ofJson? (.obj ms) = some f) : ∀ v ∈ f.payload?, v.Stored := by
  cases f with
  | stateUpdate topic version payload =>
    rintro v ⟨⟩
    rw [ofJson?] at h
    split at h
    iterate 8
      -- only from the fields of a state a state is read
      · rename_i heq
        obtain rfl := fields_of_tagged? heq
        simp [invalidated?, bind_required, bind_defaulted, finish?, Option.bind_eq_some_iff] at h
          <;> exact stored_of_demand hms h.2.2
    · cases h
  | helloAck | ack | yourTurn | invalidated | commandAck | error =>
    rintro v ⟨⟩

/-- **A payload that was read is stored.** -/
theorem stored_of_decode? {text : String} {f : ServerFrame} (h : decode? text = some f) :
    ∀ v ∈ f.payload?, v.Stored := by
  obtain ⟨w, hw, hf⟩ := Option.bind_eq_some_iff.mp h
  have hstored := stored_settle_of_parse? hw
  generalize w.settle = w at hf hstored
  cases w with
  | obj ms =>
    have hms : ∀ m ∈ ms, m.2.Stored := fun m => hstored.of_mem
    rw [decodeValue?.eq_def] at hf
    dsimp only at hf
    split at hf
    · cases hf
    · exact ServerFrame.stored_of_ofHalves? hms hf
    · exact ServerFrame.stored_of_ofJson? hms hf
  | null | bool | int | float | str | arr => cases hf

end LiveSync.Wire

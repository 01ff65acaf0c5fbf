import LiveSync.Proofs.Json.Members
import LiveSync.Wire.Codec

/-!
# What a frame is read from

The client settles what it has read before it looks for a frame in it. What it then
finds is determined by the last member called `type` and by what stands under the
names of the fields that a frame of that type has (`decodeValue?_congr`).
-/

namespace LiveSync.Wire

open Json Json.Fields

variable {ms ns : List (String × Json)} {kind : String}

/-- The members of an object, settled. -/
abbrev settled (ms : List (String × Json)) : List (String × Json) :=
  orderMembers (settleMembers ms)

/-- A frame whose type is known. -/
theorem decodeValue?_settle (h : last? "type" ms = some (.str kind)) :
    decodeValue? (obj ms).settle
      = if kind = "game_state" then ServerFrame.ofHalves? (.named (settled ms))
        else ServerFrame.ofJson? (.obj (settled ms)) := by
  have htype : (member? "type" (settled ms)).bind str? = some kind := by
    rw [member?_orderMembers, last?_settleMembers, h]
    rfl
  rw [settle, decodeValue?, htype]
  by_cases hkind : kind = "game_state"
  · rw [if_pos hkind, hkind]
    rfl
  · rw [if_neg hkind]
    split
    · rename_i heq
      cases heq
    · rename_i heq
      exact absurd (Option.some.inj heq) hkind
    · rfl

namespace ServerFrame

/-- **The names of the fields** of a kind of frame, older names included. -/
def fieldNames : String → List (List String)
  | "hello_ack" => [["protocol"], ["user_id"]]
  | "ack" => [["message"]]
  | "state_update" => [["topic"], ["version"], ["payload"]]
  | "game_state" => [["topic"], ["version"], ["game"], ["viewer"]]
  | "your_turn" => [entityNames, ["version"]]
  | "invalidated" | "long_wait_invalidated" => [entityNames]
  | "command_ack" => [["request_id"], ["version"]]
  | "error" => [["code"], ["message"], ["request_id"]]
  | _ => []

/-- A state in halves is read from what stands under the names of its fields. -/
theorem ofHalves?_congr (h : ∀ names ∈ fieldNames "game_state", under names ms = under names ns) :
    ofHalves? (.named ms) = ofHalves? (.named ns) := by
  simp only [fieldNames, List.forall_mem_cons, List.not_mem_nil] at h
  simp [ofHalves?, bind_required, bind_defaulted, h, finish?]

/-- **A frame is read from what stands under the names of its fields.** -/
theorem ofJson?_congr (hms : tagged? .outermost "type" [] (.obj ms) = some (kind, .named ms))
    (hns : tagged? .outermost "type" [] (.obj ns) = some (kind, .named ns))
    (h : ∀ names ∈ fieldNames kind, under names ms = under names ns) :
    ofJson? (.obj ms) = ofJson? (.obj ns) := by
  rw [ofJson?, ofJson?, hms, hns]
  split
  -- one case for each type that is known
  iterate 8
    · rename_i heq
      cases heq
      simp only [fieldNames, List.forall_mem_cons, List.not_mem_nil] at h
      simp [bind_required, bind_defaulted, invalidated?, h, finish?]
  · split <;> simp_all

end ServerFrame

/-- **Frames of one kind** that agree on their fields are read alike. -/
theorem decodeValue?_congr (hms : last? "type" ms = some (.str kind))
    (hns : last? "type" ns = some (.str kind))
    (h : ∀ names ∈ ServerFrame.fieldNames kind,
      under names (settled ms) = under names (settled ns)) :
    decodeValue? (obj ms).settle = decodeValue? (obj ns).settle := by
  rw [decodeValue?_settle hms, decodeValue?_settle hns]
  split
  · rename_i hkind
    exact ServerFrame.ofHalves?_congr (hkind ▸ h)
  · exact ServerFrame.ofJson?_congr (tagged?_settled hms _ _) (tagged?_settled hns _ _) h

/-- What stands under some names depends on the last members of these names. -/
theorem under_settled_congr {names : List String} (h : ∀ key ∈ names, last? key ms = last? key ns) :
    under names (settled ms) = under names (settled ns) := by
  refine congrArg (List.map Prod.snd) (called_orderMembers_congr fun key hkey => ?_)
  rw [last?_settleMembers, last?_settleMembers, h key hkey]

/-- The entity of a frame that has it under the present name only. -/
theorem under_entityNames (h : last? "game_id" ms = none) :
    under ServerFrame.entityNames (settled ms) = ((last? "entity_id" ms).map settle).toList :=
  under_settled_sole (by decide) (by simp [ServerFrame.entityNames, h])

/-- The entity of a frame that has it under the former name only. -/
theorem under_entityNames_former (h : last? "entity_id" ms = none) :
    under ServerFrame.entityNames (settled ms) = ((last? "game_id" ms).map settle).toList :=
  under_settled_sole (by decide) (by simp [ServerFrame.entityNames, h])

end LiveSync.Wire

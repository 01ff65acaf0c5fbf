import LiveSync.Proofs.Wire.Reading
import LiveSync.Proofs.Json.Values

/-!
# Other forms of a frame

Servers of several ages talk to one client. A newer one adds members to a frame that
an older client does not know, an older one names the entity `game_id`, calls an
invalidation `long_wait_invalidated`, and sends a state in two halves, the game and
its viewer. All of these are to be the same frame (`forms_decode_alike`).

Members that are not known make no difference, since a frame is read by the names of
its fields. Nor do the former names, as long as a frame does not have the entity
under both: then it is refused.

A state in halves is read in another way than one in one piece, and the two do not
agree on every topic. Inside a frame of a type that is read by its tag, the kind of a
topic may also be given by its number. A state in halves is no such frame, and with
such a topic it is dropped (`numbered_topic_decodes_in_one_form`). With every other
topic, and with whatever stands for the version, both come to the same, also where
they come to nothing.
-/

namespace LiveSync.Wire

open Json Json.Fields

variable {ms ns : List (String × Json)} {kind : String}

/-! ### Other members -/

/-- **Members that a frame does not know** have no part in it. -/
theorem decodeValue?_of_called (hms : last? "type" ms = some (.str kind))
    (h : called ("type" :: (ServerFrame.fieldNames kind).flatten) ms
      = called ("type" :: (ServerFrame.fieldNames kind).flatten) ns) :
    decodeValue? (obj ms).settle = decodeValue? (obj ns).settle := by
  have hlast {key : String} (hkey : key ∈ "type" :: (ServerFrame.fieldNames kind).flatten) :
      last? key ms = last? key ns := by
    rw [← last?_called hkey, h, last?_called hkey]
  refine decodeValue?_congr hms ((hlast List.mem_cons_self).symm.trans hms) fun names hnames => ?_
  exact under_settled_congr fun key hkey =>
    hlast (List.mem_cons_of_mem _ (List.mem_flatten.mpr ⟨names, hnames, hkey⟩))

/-! ### Older names -/

/-- The field of an entity under its present name. -/
def renameEntity (ms : List (String × Json)) : List (String × Json) :=
  ms.map fun m => if m.1 = "game_id" then ("entity_id", m.2) else m

/-- The type of an invalidation under its present name. -/
def renameInvalidation (ms : List (String × Json)) : List (String × Json) :=
  ms.map fun m =>
    if m = ("type", .str "long_wait_invalidated") then ("type", .str "invalidated") else m

theorem last?_renameEntity (h : last? "entity_id" ms = none) (key : String) :
    last? key (renameEntity ms) = if key = "entity_id" then last? "game_id" ms
      else if key = "game_id" then none else last? key ms := by
  induction ms using List.reverseRecOn with
  | nil => simp [renameEntity, last?, member?]
  | append_singleton ms m ih =>
    rw [last?_concat] at h
    rw [renameEntity, List.map_append, List.map_singleton, last?_concat, ← renameEntity,
      last?_concat, last?_concat]
    grind

theorem last?_renameInvalidation (ms : List (String × Json)) (key : String) :
    last? key (renameInvalidation ms)
      = if key = "type" ∧ last? "type" ms = some (.str "long_wait_invalidated")
        then some (.str "invalidated") else last? key ms := by
  induction ms using List.reverseRecOn with
  | nil => simp [renameInvalidation, last?, member?]
  | append_singleton ms m ih =>
    rw [renameInvalidation, List.map_append, List.map_singleton, last?_concat,
      ← renameInvalidation, last?_concat, last?_concat]
    grind

/-- Every field but the entity has one name. -/
theorem fieldNames_cases {names : List String} (h : names ∈ ServerFrame.fieldNames kind) :
    names = ServerFrame.entityNames
      ∨ ∀ key ∈ names, key ≠ "entity_id" ∧ key ≠ "game_id" ∧ key ≠ "type" := by
  unfold ServerFrame.fieldNames at h
  split at h <;> simp at h <;> grind

/-- **The former name of the entity** is read like the present one. -/
theorem decodeValue?_renameEntity (hkind : last? "type" ms = some (.str kind))
    (h : last? "entity_id" ms = none) :
    decodeValue? (obj (renameEntity ms)).settle = decodeValue? (obj ms).settle := by
  have hlast (key : String) := last?_renameEntity h key
  have htype : last? "type" (renameEntity ms) = some (.str kind) := by
    rw [hlast, if_neg (by decide), if_neg (by decide), hkind]
  refine decodeValue?_congr htype hkind fun names hnames => ?_
  rcases fieldNames_cases hnames with rfl | hother
  · have hgame : last? "game_id" (renameEntity ms) = none := by
      rw [hlast, if_neg (by decide), if_pos rfl]
    rw [under_entityNames hgame, under_entityNames_former h, hlast, if_pos rfl]
  · refine under_settled_congr fun key hkey => ?_
    obtain ⟨hentity, hgame, -⟩ := hother key hkey
    rw [hlast, if_neg hentity, if_neg hgame]

/-- **The former type of an invalidation** is read like the present one. -/
theorem decodeValue?_renameInvalidation (hkind : last? "type" ms = some (.str kind)) :
    decodeValue? (obj (renameInvalidation ms)).settle = decodeValue? (obj ms).settle := by
  have hlast {key : String} (hkey : key ≠ "type") :
      last? key (renameInvalidation ms) = last? key ms := by
    rw [last?_renameInvalidation, if_neg fun h => hkey h.1]
  by_cases hlong : kind = "long_wait_invalidated"
  · subst hlong
    have htype : last? "type" (renameInvalidation ms) = some (.str "invalidated") := by
      rw [last?_renameInvalidation, if_pos ⟨rfl, hkind⟩]
    have hentity : under ServerFrame.entityNames (settled (renameInvalidation ms))
        = under ServerFrame.entityNames (settled ms) :=
      under_settled_congr (by simp [ServerFrame.entityNames, hlast])
    rw [decodeValue?_settle htype, decodeValue?_settle hkind, if_neg (by decide),
      if_neg (by decide), ServerFrame.ofJson?, ServerFrame.ofJson?, tagged?_settled htype,
      tagged?_settled hkind]
    simp [ServerFrame.invalidated?, bind_defaulted, hentity, finish?]
  · have htype : last? "type" (renameInvalidation ms) = some (.str kind) := by
      rw [last?_renameInvalidation, if_neg (by simp [hkind, hlong]), hkind]
    refine decodeValue?_congr htype hkind fun names hnames => under_settled_congr fun key hkey => ?_
    refine hlast ?_
    rcases fieldNames_cases hnames with rfl | hother
    · rintro rfl
      exact absurd hkey (by decide)
    · exact (hother key hkey).2.2

/-! ### States in two halves -/

/-- Whether the kind of a topic is given by a number. -/
def isNumbered : Json → Bool
  | .obj ms =>
    match called ["kind"] ms with
    | [(_, .int _)] => true
    | _ => false
  | .arr (.int _ :: _) => true
  | _ => false

/-- A topic that does not stand inside a tagged value is read like one that does,
unless it is numbered. -/
theorem ofJson?_outermost (v : Json) :
    Topic.ofJson? .outermost v = if isNumbered v then none else Topic.ofJson? .inner v := by
  have htagged : tagged? .outermost "kind" Topic.kinds v
      = if isNumbered v then none else tagged? .inner "kind" Topic.kinds v := by
    cases v with
    | obj ms =>
      rw [tagged?, tagged?, isNumbered]
      rcases called ["kind"] ms with _ | ⟨⟨k, v⟩, _ | ⟨n, rest⟩⟩
      · rfl
      · cases v <;> rfl
      · cases v <;> rfl
    | arr items =>
      cases items with
      | nil => rfl
      | cons v rest => cases v <;> rfl
    | null | bool | int | float | str => rfl
  rw [Topic.ofJson?, htagged]
  cases isNumbered v <;> rfl

/-- **A state in two halves** beside the same state in one piece. -/
structure Halves (ms ns : List (String × Json)) (state : Json) : Prop where
  halved : last? "type" ms = some (.str "game_state")
  whole : last? "type" ns = some (.str "state_update")
  topic : last? "topic" ns = last? "topic" ms
  version : last? "version" ns = last? "version" ms
  game : last? "game" ms = some state
  payload : last? "payload" ns
    = some (.obj [("game", state), ("viewer", (last? "viewer" ms).getD .null)])

/-- **A state in halves** is read like the same state in one piece, unless its topic is
numbered. -/
theorem decodeValue?_halves {state : Json} (h : Halves ms ns state) :
    decodeValue? (obj ms).settle
      = if ((last? "topic" ms).map settle).any isNumbered then none
        else decodeValue? (obj ns).settle := by
  have hms : decodeValue? (obj ms).settle = ServerFrame.ofHalves? (.named (settled ms)) := by
    rw [decodeValue?_settle h.halved, if_pos rfl]
  have hns : decodeValue? (obj ns).settle = ServerFrame.ofJson? (.obj (settled ns)) := by
    rw [decodeValue?_settle h.whole, if_neg (by decide)]
  have hviewer : ((last? "viewer" ms).map settle).elim (some .null) any?
      = some ((last? "viewer" ms).getD .null).settle := by
    cases last? "viewer" ms with
    | none => rfl
    | some v => exact congrArg some (settle_settle v)
  have hpayload : (obj [("game", state), ("viewer", (last? "viewer" ms).getD .null)]).settle.settle
      = object [("game", state.settle.settle),
        ("viewer", ((last? "viewer" ms).getD .null).settle)] := by
    rw [settle_settle, settle_settle]
    rfl
  rw [hms, hns, ServerFrame.ofHalves?, ServerFrame.ofJson?, tagged?_settled h.whole]
  simp only [bind_required, bind_defaulted, under_settled, demand_toList, allow_toList, h.topic,
    h.version, h.game, h.payload, Option.map_some, Option.bind_some, Option.bind_eq_bind, any?,
    finish?]
  rw [hviewer, hpayload]
  cases last? "topic" ms with
  | none => rfl
  | some topic =>
    rw [Option.map_some, Option.bind_some, Option.bind_some, ofJson?_outermost, Option.any_some]
    cases isNumbered topic.settle <;> rfl

/-! ### Texts -/

/-- A text holds an object with the given members. -/
def Holds (text : String) (ms : List (String × Json)) : Prop := parse? text = some (.obj ms)

instance (text : String) (ms : List (String × Json)) : Decidable (Holds text ms) :=
  inferInstanceAs (Decidable (parse? text = some (.obj ms)))

theorem Holds.decode?_eq {text : String} (h : Holds text ms) :
    decode? text = decodeValue? (obj ms).settle := by
  rw [decode?, h, Option.bind_some]

/-- **Other forms of a frame are the same frame**: a form with other members that the
frame does not know, the form with the present name of the entity, the form with the
present type of an invalidation, and a state in one piece for one in halves, if its
topic is not numbered. -/
theorem forms_decode_alike {text text' : String} (h : Holds text ms) (h' : Holds text' ns)
    (hkind : last? "type" ms = some (.str kind)) :
    (called ("type" :: (ServerFrame.fieldNames kind).flatten) ms
        = called ("type" :: (ServerFrame.fieldNames kind).flatten) ns →
          decode? text' = decode? text)
      ∧ (last? "entity_id" ms = none → ns = renameEntity ms → decode? text' = decode? text)
      ∧ (ns = renameInvalidation ms → decode? text' = decode? text)
      ∧ ∀ state, Halves ms ns state →
          decode? text = if ((last? "topic" ms).map settle).any isNumbered then none
            else decode? text' := by
  rw [h.decode?_eq, h'.decode?_eq]
  refine ⟨fun hcalled => (decodeValue?_of_called hkind hcalled).symm, ?_, ?_,
    fun state => decodeValue?_halves⟩
  · rintro hentity rfl
    exact decodeValue?_renameEntity hkind hentity
  · rintro rfl
    exact decodeValue?_renameInvalidation hkind

/-- A hint with a member that nobody knows, under its present and its former name,
an invalidation under either type, and a state in halves and in one piece. -/
theorem forms_decode_alike_hint :
    let hint := "\x7b\"type\":\"your_turn\",\"game_id\":42,\"version\":8\x7d"
    let wait := "\x7b\"type\":\"long_wait_invalidated\",\"game_id\":42\x7d"
    let halves := "\x7b\"type\":\"game_state\",\"topic\":[\"game\",5],\"version\":8,\"game\":1\x7d"
    decode? "\x7b\"sent\":[true],\"type\":\"your_turn\",\"game_id\":42,\"version\":8\x7d"
        = decode? hint
      ∧ decode? "\x7b\"type\":\"your_turn\",\"entity_id\":42,\"version\":8\x7d" = decode? hint
      ∧ decode? hint = some (.yourTurn 42 (some 8))
      ∧ decode? "\x7b\"type\":\"invalidated\",\"game_id\":42\x7d" = decode? wait
      ∧ decode? wait = some (.invalidated (some 42))
      ∧ decode? halves
        = decode? ("\x7b\"type\":\"state_update\",\"topic\":[\"game\",5],\"version\":8,"
          ++ "\"payload\":\x7b\"game\":1,\"viewer\":null\x7d\x7d")
      ∧ decode? halves
          = some (.stateUpdate (.game 5) 8 (.obj [("game", .int 1), ("viewer", .null)])) := by
  intro hint wait halves
  have hhint : Holds hint
      [("type", .str "your_turn"), ("game_id", .int 42), ("version", .int 8)] := by
    decide +kernel
  have hwait : Holds wait [("type", .str "long_wait_invalidated"), ("game_id", .int 42)] := by
    decide +kernel
  have hhalves : Holds halves [("type", .str "game_state"),
      ("topic", .arr [.str "game", .int 5]), ("version", .int 8), ("game", .int 1)] := by
    decide +kernel
  refine ⟨?_, ?_, by decide +kernel, ?_, by decide +kernel, ?_, by decide +kernel⟩
  · have hmore : Holds "\x7b\"sent\":[true],\"type\":\"your_turn\",\"game_id\":42,\"version\":8\x7d"
        [("sent", .arr [.bool true]), ("type", .str "your_turn"), ("game_id", .int 42),
          ("version", .int 8)] := by
      decide +kernel
    exact (forms_decode_alike hhint hmore rfl).1 (by decide +kernel)
  · have hpresent : Holds "\x7b\"type\":\"your_turn\",\"entity_id\":42,\"version\":8\x7d"
        [("type", .str "your_turn"), ("entity_id", .int 42), ("version", .int 8)] := by
      decide +kernel
    exact (forms_decode_alike hhint hpresent rfl).2.1 rfl (by decide +kernel)
  · have hpresent : Holds "\x7b\"type\":\"invalidated\",\"game_id\":42\x7d"
        [("type", .str "invalidated"), ("game_id", .int 42)] := by
      decide +kernel
    exact (forms_decode_alike hwait hpresent rfl).2.2.1 (by decide +kernel)
  · have hwhole : Holds ("\x7b\"type\":\"state_update\",\"topic\":[\"game\",5],\"version\":8,"
          ++ "\"payload\":\x7b\"game\":1,\"viewer\":null\x7d\x7d")
        [("type", .str "state_update"), ("topic", .arr [.str "game", .int 5]),
          ("version", .int 8), ("payload", .obj [("game", .int 1), ("viewer", .null)])] := by
      decide +kernel
    exact (forms_decode_alike hhalves hwhole rfl).2.2.2 (.int 1) ⟨rfl, rfl, rfl, rfl, rfl, rfl⟩

/-- **A topic whose kind is given by its number** is taken from a state in one piece and
not from a state in halves. -/
theorem numbered_topic_decodes_in_one_form :
    let halves := "\x7b\"type\":\"game_state\",\"topic\":\x7b\"kind\":0,\"id\":5\x7d,"
      ++ "\"version\":8,\"game\":\x7b\"a\":1\x7d\x7d"
    let whole := "\x7b\"type\":\"state_update\",\"topic\":\x7b\"kind\":0,\"id\":5\x7d,"
      ++ "\"version\":8,\"payload\":\x7b\"game\":\x7b\"a\":1\x7d,\"viewer\":null\x7d\x7d"
    let topic : Json := .obj [("kind", .int 0), ("id", .int 5)]
    let state : Json := .obj [("a", .int 1)]
    let ms : List (String × Json) :=
      [("type", .str "game_state"), ("topic", topic), ("version", .int 8), ("game", state)]
    let ns : List (String × Json) := [("type", .str "state_update"), ("topic", topic),
      ("version", .int 8), ("payload", .obj [("game", state), ("viewer", .null)])]
    Holds halves ms ∧ Holds whole ns ∧ Halves ms ns state ∧ decode? halves = none
      ∧ decode? whole
          = some (.stateUpdate (.game 5) 8 (.obj [("game", state), ("viewer", .null)])) := by
  intro halves whole topic state ms ns
  exact ⟨by decide +kernel, by decide +kernel, ⟨rfl, rfl, rfl, rfl, rfl, rfl⟩, by decide +kernel,
    by decide +kernel⟩

end LiveSync.Wire

import LiveSync.Proofs.Json.RoundTrip
import LiveSync.Proofs.Wire.Payloads
import Mathlib.Algebra.Group.Nat.Defs

/-!
# Frames are read back

A frame that is written as text and read again is the same frame. That is so of
everything a client sends, and of what a server sends if the payload in it is one
that a text can hold: no double is in it, and with the frame around it no more
arrays and objects are nested than the reader allows (`frames_read_back`). That the
payload is stored is asked for as well, but every payload that a client gets to see
is (`stored_of_decode?`).

Three things have to agree. The text holds the JSON form of the frame, and is read
as that (`Json.parse?_render`). Then the client settles what it has read, so that
the members of a frame, and those of its topic, are not where they were written.
And the reader of frames finds its fields by their names, absent ones being `null`
(`ServerFrame.decodeValue?_settle_toJson`).
-/

namespace LiveSync

/-! ### Request identifiers -/

namespace RequestId

/-! An identifier is written in five groups of hexadecimal digits. -/

theorem hexDigit?_digitChar : ∀ n < 16, Json.Reader.hexDigit? (Nat.digitChar n) = some n := by
  decide

theorem length_hexText (count n : Nat) : (hexText count n).length = count := by
  induction count generalizing n with
  | zero => rfl
  | succ count ih => rw [hexText, List.length_append, ih, List.length_singleton]

theorem hexNumber?_concat (cs : List Char) (c : Char) :
    hexNumber? (cs ++ [c])
      = (hexNumber? cs).bind fun n => (Json.Reader.hexDigit? c).map (n * 16 + ·) := by
  unfold hexNumber?
  rw [List.foldlM_append]
  refine congrArg _ (funext fun n => ?_)
  rw [List.foldlM_cons]
  cases Json.Reader.hexDigit? c <;> rfl

/-- Groups of four bits are read back. -/
theorem hexNumber?_hexText (count n : Nat) :
    hexNumber? (hexText count n) = some (n % 16 ^ count) := by
  induction count generalizing n with
  | zero => exact congrArg some (Nat.mod_one n).symm
  | succ count ih =>
    rw [hexText, hexNumber?_concat, ih, hexDigit?_digitChar _ (Nat.mod_lt n (by decide))]
    show some (n / 16 % 16 ^ count * 16 + n % 16) = _
    rw [Nat.pow_succ', Nat.mod_mul, Nat.add_comm, Nat.mul_comm]

/-- A text of five groups has no prefix: where a prefix has its last character there
is a dash. -/
theorem take_groups_ne {a : List Char} (ha : a.length = 8) (cs : List Char) :
    (a ++ '-' :: cs).take 9 ≠ ['u', 'r', 'n', ':', 'u', 'u', 'i', 'd', ':'] := by
  intro h
  have hlast := congrArg (·[8]?) h
  simp [ha] at hlast

/-- The digits of five groups with dashes between them. -/
theorem digits?_groups {a b c d e : List Char} (ha : a.length = 8) (hb : b.length = 4)
    (hc : c.length = 4) (hd : d.length = 4) (he : e.length = 12) :
    digits? (a ++ '-' :: b ++ '-' :: c ++ '-' :: d ++ '-' :: e) = some (a ++ b ++ c ++ d ++ e) := by
  have hassoc : a ++ '-' :: b ++ '-' :: c ++ '-' :: d ++ '-' :: e
      = a ++ '-' :: (b ++ '-' :: (c ++ '-' :: (d ++ '-' :: e))) := by simp
  have hlength : (a ++ '-' :: (b ++ '-' :: (c ++ '-' :: (d ++ '-' :: e)))).length = 36 := by
    simp [ha, hb, hc, hd, he]
  have hdashes : ([8, 13, 18, 23].all fun i =>
      (a ++ '-' :: (b ++ '-' :: (c ++ '-' :: (d ++ '-' :: e))))[i]? = some '-') = true := by
    simp [ha, hb, hc, hd, List.getElem?_append]
  rw [hassoc, digits?, if_neg (by omega), if_neg (by omega), if_neg (take_groups_ne ha _), ungroup?,
    if_pos ⟨hlength, hdashes⟩]
  simp [ha, hb, hc, hd, List.drop_append, List.drop_eq_nil_of_le]

/-- The five groups of a list of digits. -/
theorem groups_eq (ds : List Char) :
    ds.take 8 ++ (ds.drop 8).take 4 ++ (ds.drop 12).take 4 ++ (ds.drop 16).take 4 ++ ds.drop 20
      = ds := by
  have hstep (n : Nat) : (ds.drop n).take 4 ++ ds.drop (n + 4) = ds.drop n := by
    rw [← List.drop_drop, List.take_append_drop]
  rw [List.append_assoc, List.append_assoc, List.append_assoc, hstep 16, hstep 12, hstep 8,
    List.take_append_drop]

/-- **An identifier is read back.** -/
theorem parse?_text (id : RequestId) : parse? id.text = some id := by
  have hlength := length_hexText 32 id.bits.toNat
  have hdigits : digits? id.text.toList = some (hexText 32 id.bits.toNat) := by
    rw [text, String.toList_ofList, digits?_groups (by simp [hlength]) (by simp [hlength])
      (by simp [hlength]) (by simp [hlength]) (by simp [hlength]), groups_eq]
  have hbits : id.bits.toNat % 16 ^ 32 = id.bits.toNat := Nat.mod_eq_of_lt id.bits.isLt
  simp only [parse?, hdigits, Option.bind_eq_bind, Option.bind_some, hexNumber?_hexText, hbits,
    Option.pure_def, BitVec.ofNat_toNat, BitVec.setWidth_eq]

end RequestId

/-! ### Topics and actions -/

namespace Topic

open Json Json.Fields in
/-- A topic is read back from its settled form. -/
theorem ofJson?_settle_toJson (depth : Json.Depth) (t : Topic) :
    ofJson? depth t.toJson.settle = some t := by
  cases t with
  | game id =>
    have hkind :
        last? "kind" [("kind", .str "game"), ("id", ofInt64 id)] = some (.str "game") := rfl
    rw [toJson, settle, ofJson?, tagged?_settled hkind]
    simp [bind_required, under_settled, demand, last?, member?, finish?]

theorem plain_toJson (d : Nat) (t : Topic) : t.toJson.Plain (d + 1) := by
  refine Json.plain_obj_iff.mpr ?_
  cases t
  simp

end Topic

theorem Action.plain_toJson (d : Nat) (a : Action) : a.toJson.Plain (d + 1) := by
  refine Json.plain_obj_iff.mpr ?_
  cases a <;> simp [field]

/-! ### Frames -/

namespace Wire

@[simp] theorem request?_requestJson (r : RequestId) : request? (requestJson r) = some r := by
  rw [request?, requestJson, Json.str?, Option.bind_some, RequestId.parse?_text]

@[simp] theorem plain_requestJson (d : Nat) (r : RequestId) : (requestJson r).Plain d :=
  Json.plain_str d r.text

@[simp] theorem settle_requestJson (r : RequestId) : (requestJson r).settle = requestJson r := rfl

open Json in
/-- **A client's frame is read back** from its JSON form. -/
theorem ClientFrame.ofJson?_toJson (f : ClientFrame) : ofJson? f.toJson = some f := by
  cases f <;>
    simp [ofJson?, toJson, kind, fields, tagged?, Fields.called, variant?, Fields.required,
      Fields.take?, Fields.finish?, Topic.ofJson?_toJson, Action.ofJson?_toJson]

namespace ServerFrame

section

open Json Json.Fields

/-- A value or `null` is read back, if the value is. -/
theorem orNull_settle_ofOption {α : Type} (read : Json → Option α) (write : α → Json)
    (hsettle : ∀ x, (write x).settle = write x) (hnull : ∀ x, write x ≠ .null)
    (hread : ∀ x, read (write x) = some x) (o : Option α) :
    orNull read (ofOption write o).settle = some o := by
  cases o with
  | none => rfl
  | some x =>
    have horNull : orNull read (write x) = (read (write x)).map some := by
      rw [orNull.eq_def]
      split
      · exact absurd ‹_› (hnull x)
      · rfl
    rw [ofOption, hsettle, horNull, hread]
    rfl

@[simp] theorem orNull_settle_ofInt64 (n : Option Int64) :
    orNull int64? (ofOption ofInt64 n).settle = some n :=
  orNull_settle_ofOption int64? ofInt64 settle_ofInt64 (by simp [ofInt64]) int64?_ofInt64 n

@[simp] theorem orNull_settle_ofUInt32 (n : Option UInt32) :
    orNull uint32? (ofOption ofUInt32 n).settle = some n :=
  orNull_settle_ofOption uint32? ofUInt32 settle_ofUInt32 (by simp [ofUInt32]) uint32?_ofUInt32 n

@[simp] theorem orNull_settle_requestJson (r : Option RequestId) :
    orNull request? (ofOption requestJson r).settle = some r :=
  orNull_settle_ofOption request? requestJson settle_requestJson (by simp [requestJson])
    request?_requestJson r

/-- **A settled frame is read back.** -/
theorem decodeValue?_settle_toJson {f : ServerFrame} (h : ∀ v ∈ f.payload?, v.settle = v) :
    decodeValue? f.toJson.settle = some f := by
  have hlast : last? "type" (("type", .str f.kind) :: f.fields) = some (.str f.kind) := by
    cases f <;> rfl
  have hkind : f.kind ≠ "game_state" := by cases f <;> simp [kind]
  rw [toJson, decodeValue?_settle hlast, if_neg hkind, ofJson?, tagged?_settled hlast]
  cases f with
  | stateUpdate topic version payload =>
    simp [kind, fields, bind_required, under_settled, demand, finish?, last?, member?, any?,
      h payload rfl, Topic.ofJson?_settle_toJson]
  | helloAck | ack | yourTurn | invalidated | commandAck | error =>
    simp [kind, fields, bind_required, bind_defaulted, under_settled, under_entityNames, demand,
      allow, finish?, last?, member?, invalidated?, str?]

end

theorem plain_toJson {f : ServerFrame} (h : ∀ v ∈ f.payload?, v.Plain 126) :
    f.toJson.Plain 127 := by
  refine Json.plain_obj_iff.mpr ?_
  cases f with
  | stateUpdate topic version payload =>
    simp [fields, h payload rfl, Topic.plain_toJson]
  | helloAck | ack | yourTurn | invalidated | commandAck | error => simp [fields]

end ServerFrame

theorem ClientFrame.plain_toJson (f : ClientFrame) : f.toJson.Plain 127 := by
  refine Json.plain_obj_iff.mpr ?_
  cases f <;> simp [fields, Topic.plain_toJson, Action.plain_toJson]

/-- **Frames are read back**: all that a client sends, and what a server sends with a
payload that a text can hold. -/
theorem frames_read_back :
    (∀ f : ClientFrame, (Json.parse? (encode f)).bind ClientFrame.ofJson? = some f)
      ∧ ∀ f : ServerFrame,
          (∀ v ∈ f.payload?, v.Stored ∧ v.all Json.isNoFloat = true ∧ v.nesting ≤ 126) →
            decode? f.encode = some f := by
  refine ⟨fun f => ?_, fun f h => ?_⟩
  · rw [encode, Json.parse?_render f.plain_toJson, Option.bind_some, f.ofJson?_toJson]
  · have hplain : f.toJson.Plain 127 := ServerFrame.plain_toJson fun v hv =>
      ⟨(h v hv).2.1, (h v hv).1.fits, (h v hv).2.2⟩
    rw [decode?, ServerFrame.encode, Json.parse?_render hplain, Option.bind_some,
      ServerFrame.decodeValue?_settle_toJson fun v hv => (h v hv).1.settled]

/-- A payload with the least and the greatest number, a control character and a
character beyond sixteen bits. -/
theorem frames_read_back_escaped :
    let payload : Json := .obj [("a", .arr [.int (-0x8000000000000000), .int 0xFFFFFFFFFFFFFFFF]),
      ("b", .obj [("\"", .str "\u0001\n😀"), ("c", .null)])]
    let f : ServerFrame := .stateUpdate (.game (-5)) 8 payload
    payload.Stored ∧ payload.all Json.isNoFloat = true ∧ payload.nesting ≤ 126
      ∧ f.encode = "\x7b\"type\":\"state_update\",\"topic\":\x7b\"kind\":\"game\",\"id\":-5\x7d,"
        ++ "\"version\":8,"
        ++ "\"payload\":\x7b\"a\":[-9223372036854775808,18446744073709551615],"
        ++ "\"b\":\x7b\"\\\"\":\"\\u0001\\n😀\",\"c\":null\x7d\x7d\x7d"
      ∧ decode? f.encode = some f := by
  intro payload f
  have hstored : payload.Stored := ⟨by decide +kernel, by decide +kernel⟩
  have hfloat : payload.all Json.isNoFloat = true := by decide +kernel
  have hnesting : payload.nesting ≤ 126 := by decide +kernel
  refine ⟨hstored, hfloat, hnesting, by decide +kernel, frames_read_back.2 f ?_⟩
  rintro v ⟨⟩
  exact ⟨hstored, hfloat, hnesting⟩

end Wire

end LiveSync

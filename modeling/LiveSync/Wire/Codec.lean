import LiveSync.Json.Writer
import LiveSync.Wire.Frame

/-!
# The text of a frame

Every frame is sent as one text. `Wire.decode?` reads what a server sent:
it gives a frame or nothing, and nothing is not an error, so that a server
may send more than a client knows. Of members with one name the last
counts, and the frame has to be an object whose `type` is a string.

`Wire.encode` writes what a client sends.
-/

namespace LiveSync.Wire

/-- Reads the settled value of a text as a frame. -/
def decodeValue? (v : Json) : Option ServerFrame :=
  match v with
  | .obj members =>
    match (Json.member? "type" members).bind Json.str? with
    | none => none
    | some "game_state" => ServerFrame.ofHalves? (.named members)
    | some _ => ServerFrame.ofJson? v
  | _ => none

/-- **The frame a text holds**, if it holds one. -/
def decode? (text : String) : Option ServerFrame :=
  (Json.parse? text).bind fun v => decodeValue? v.settle

/-- **The text of a client's frame.** -/
def encode (f : ClientFrame) : String := f.toJson.render

/-- The text of a server's frame. -/
def ServerFrame.encode (f : ServerFrame) : String := f.toJson.render

end LiveSync.Wire

import LiveSync.Json.Reader
import LiveSync.Json.Shape

/-!
# Problem documents

The body of a refusal is a **problem document**. All of its fields may be
missing; fields it does not have a name for are passed over.
-/

namespace LiveSync.Http

/-- **What the server says about a refusal.** -/
structure Problem where
  kind : Option String
  title : Option String
  status : Option UInt16
  detail : Option String
  code : Option String
  traceId : Option String
deriving DecidableEq, Repr

namespace Problem

/-- A document that says nothing. -/
def empty : Problem := ⟨none, none, none, none, none, none⟩

instance : Inhabited Problem := ⟨empty⟩

/-- The names of the fields. -/
def fieldNames : List String := ["type", "title", "status", "detail", "code", "trace_id"]

/-- Reads a document off its fields. -/
def ofJson? (v : Json) : Option Problem := do
  let text := Json.Fields.orNull Json.str?
  let fields ← v.record?
  let (kind, fields) ← fields.defaulted none ["type"] text
  let (title, fields) ← fields.defaulted none ["title"] text
  let (status, fields) ← fields.defaulted none ["status"] (Json.Fields.orNull Json.uint16?)
  let (detail, fields) ← fields.defaulted none ["detail"] text
  let (code, fields) ← fields.defaulted none ["code"] text
  let (traceId, fields) ← fields.defaulted none ["trace_id"] text
  fields.finish? ⟨kind, title, status, detail, code, traceId⟩

/-- **Reads a document's text.** -/
def parse? (text : String) : Option Problem :=
  (Json.parseRecord? fieldNames text).bind ofJson?

/-- What to tell the user: the detail or else the title, and if there is
neither, what the status of the response is called. -/
def messageOr (p : Problem) (statusText : String) : String :=
  (p.detail <|> p.title).getD statusText

end Problem

end LiveSync.Http

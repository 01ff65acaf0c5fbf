import LiveSync.Http.Status
import LiveSync.Json.Basic
import LiveSync.Url.Basic

/-!
# Requests and responses

A **request** has a method, a target, a few headers and perhaps a body. A
header can hold any text without control characters, and an address has to
be one; otherwise no request is made.

What comes of a request is a **response**, or the connection fails, or
nothing comes in time.
-/

namespace LiveSync.Http

/-- **The method of a request.** -/
inductive Method where
  | get
  | post
deriving DecidableEq, Repr

/-- The name of a method. -/
def Method.name : Method → String
  | get => "GET"
  | post => "POST"

/-- The headers that a request of this client may have. -/
inductive Header where
  | authorization
  | ifNoneMatch
  | ifMatch
deriving DecidableEq, Repr

/-- **A request.** -/
structure Request where
  method : Method
  target : String
  headers : List (Header × String)
  body : Option Json
deriving Repr

namespace Request

/-- Whether a header can hold a text. -/
def isHeaderText (text : String) : Bool :=
  text.toList.all fun c => c = '\t' || !Percent.isControl c

/-- The text of a header. -/
def header? (r : Request) (h : Header) : Option String := r.headers.lookup h

/-- **A request for an address**, if it can be made. -/
def make? (method : Method) (url : String) (headers : List (Header × String))
    (body : Option Json) : Option Request :=
  match Url.parse url with
  | .error _ => none
  | .ok u =>
    if headers.all fun h => isHeaderText h.2 then some ⟨method, u.target, headers, body⟩
    else none

end Request

/-- **A response.** -/
structure Response where
  status : Status
  /-- The headers in their order. -/
  headers : List (String × String)
  /-- What the response carries. -/
  content : String
deriving DecidableEq, Repr

namespace Response

/-- The content that counts. -/
def body (r : Response) : String := if r.status.hasNoContent then "" else r.content

/-- A header's text without the blanks around it. -/
def trimHeader (text : List Char) : List Char :=
  let isBlank (c : Char) : Bool := c = ' ' || c = '\t'
  ((text.dropWhile isBlank).reverse.dropWhile isBlank).reverse

/-- The first header of a name, which is in small letters. -/
def header? (r : Response) (name : String) : Option String :=
  (r.headers.find? fun h => h.1.map Char.toLower = name).map fun h =>
    String.ofList (trimHeader h.2.toList)

/-- A character that is visible in ASCII, or a blank. -/
def isVisible (c : Char) : Bool := c = '\t' || (0x20 ≤ c.toNat && c.toNat < 0x7F)

end Response

/-- **What comes of a request.** -/
inductive Exchange where
  | answered (r : Response)
  /-- The connection failed. -/
  | failed (reason : String)
  /-- Nothing came in time. -/
  | timedOut
deriving DecidableEq, Repr

end LiveSync.Http

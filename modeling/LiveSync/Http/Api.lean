import LiveSync.Config.Basic
import LiveSync.Game.Action
import LiveSync.Http.Message
import LiveSync.Http.Problem
import LiveSync.Receipt
import LiveSync.Sync.Refresh

/-!
# The API

The API of the server hands out states, takes commands, and issues tokens
for the live connection. Each of the three is a request and a reading of
what comes of it.

A state is asked for with the validator of the one that is known, and comes
with a validator of its own, the entity tag. Its version is the one that the
tag names or else the one in the body; without either it is not a state.
What is kept of it has the shape that is pushed over the live connection: a
body that does not say who is looking is wrapped (`Api.wrapped`).
-/

namespace LiveSync.Http

/-- **Access to the API**: the settings, and the credential of the user. -/
structure Api where
  config : Config
  bearer : Option String
deriving DecidableEq, Repr

namespace Api

/-- What is said of a body that is not what it should be. -/
def malformedBody : String := "error decoding response body"

/-- What is said of a state without a version. -/
def versionMissing : String := "snapshot carries no version"

/-- The headers of every request. -/
def headers (api : Api) (header : Header) (validator : Option Validator) :
    List (Header × String) :=
  (api.bearer.map fun token => (.authorization, "Bearer " ++ token)).toList
    ++ (validator.map fun t => (header, t.text)).toList

/-! ### States -/

/-- **The request for a state**, unless it is the one a validator stands for. -/
def fetchRequest? (api : Api) (id : EntityId) (validator : Option Validator) : Option Request :=
  Request.make? .get (api.config.snapshotUrl id) (api.headers .ifNoneMatch validator) none

/-- The entity tag of a response. One that is not all visible counts as
absent. -/
def entityTag? (r : Response) : Option Validator :=
  (r.header? "etag").bind fun text =>
    if text.toList.all Response.isVisible then some ⟨text⟩ else none

/-- The version that a body names. -/
def bodyVersion? (body : Json) : Option Version := (body.get? "version").bind Json.int64?

/-- A body in the shape that is pushed over the live connection. -/
def wrapped (body : Json) : Json :=
  if (body.get? "viewer").isSome then body else .obj [("game", body), ("viewer", .null)]

/-- The version of a state: the one that its tag names, or else the one in
its body. -/
def stateVersion? (tag : Option Validator) (body : Json) : Option Version :=
  (tag.bind Validator.version?) <|> bodyVersion? body

/-- The value of a response's body. -/
def bodyOf? (r : Response) : Option Json := (Json.parse? r.body).map Json.settle

/-- **The state that a response carries.** -/
def stateOf (id : EntityId) (now : Instant) (r : Response) : Except Failure.Fetch Entry :=
  match bodyOf? r with
  | none => .error (.decode malformedBody)
  | some body =>
    let tag := entityTag? r
    match stateVersion? tag body with
    | none => .error (.decode versionMissing)
    | some version => .ok (.http id version (wrapped body) tag now)

/-- **What a fetch comes to.** -/
def fetched (api : Api) (id : EntityId) (now : Instant) :
    Exchange → Except Failure.Fetch FetchOutcome
  | .timedOut => .error (.timeout api.config.fetchTimeoutMs)
  | .failed reason => .error (.network reason)
  | .answered r =>
    if r.status = 304 then .ok .notModified
    else if r.status = 404 then .error (.notFound id)
    else if r.status = 401 then .error (.session .expired)
    else if !r.status.isSuccess then .error (.status r.status)
    else (stateOf id now r).map .modified

/-! ### Commands -/

/-- **The request that carries an action**, to be applied to the state that a
validator stands for. -/
def submitRequest? (api : Api) (id : EntityId) (action : Action)
    (validator : Option Validator) : Option Request :=
  Request.make? .post (api.config.commandUrl id action.command) (api.headers .ifMatch validator)
    (some action.body)

/-- The problem that a response tells of; one that cannot be read says
nothing. -/
def problemOf (r : Response) : Problem := (Problem.parse? r.body).getD .empty

/-- **Why a command was refused**, from the response. -/
def refusal (r : Response) : Failure.Command :=
  let problem := problemOf r
  let message := problem.messageOr r.status.text
  if r.status = 409 then .conflict message
  else if r.status = 401 then .session .expired
  else if r.status = 403 then .forbidden message
  else if r.status = 428 then
    .rejected (problem.code.getD "PRECONDITION_REQUIRED") message
  else if r.status.isClientError then .rejected (problem.code.getD "BAD_REQUEST") message
  else .server r.status message

/-- **What a submission comes to.** A receipt names the version of the tag, or
else the one in the body, or none. -/
def submitted (api : Api) : Exchange → Except Failure.Command Receipt
  | .timedOut => .error (.timeout api.config.commandTimeoutMs)
  | .failed reason => .error (.delivery reason)
  | .answered r =>
    if r.status.isSuccess then
      .ok ⟨((entityTag? r).bind Validator.version?) <|> (bodyOf? r).bind bodyVersion?⟩
    else .error (refusal r)

/-! ### Tokens -/

/-- **The request for a token.** -/
def tokenRequest? (api : Api) : Option Request :=
  Request.make? .get api.config.tokenUrl (api.headers .ifNoneMatch none) none

/-- The fields of a response that issues a token. -/
def tokenFields : List String := ["token", "expires_in"]

/-- The token that a body issues. -/
def tokenOf? (body : String) : Option String := do
  let fields ← (← Json.parseRecord? tokenFields body).record?
  let (token, fields) ← fields.required ["token"] Json.str?
  let (_, fields) ← fields.defaulted none ["expires_in"] (Json.Fields.orNull Json.uint64?)
  fields.finish? token

/-- A request for a token that failed. -/
def tokenRequestFailed (reason : String) : Failure :=
  .transport (.connect ("token request failed: " ++ reason))

/-- **What the request for a token comes to.** -/
def tokenIssued : Exchange → Except Failure String
  | .timedOut => .error (tokenRequestFailed "operation timed out")
  | .failed reason => .error (tokenRequestFailed reason)
  | .answered r =>
    if r.status = 401 || r.status = 403 then .error (.session .expired)
    else if !r.status.isSuccess then
      .error (.transport (.connect ("token endpoint answered " ++ r.status.text)))
    else
      match tokenOf? r.body with
      | some token => .ok token
      | none => .error (.session (.tokenUnavailable malformedBody))

end Api

end LiveSync.Http

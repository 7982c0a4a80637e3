import FrameMerge.Combiner
import FrameMerge.Control.Request
import FrameMerge.Control.Response

/-!
# The control interface

A combiner can be looked at and reset from outside. Each connection brings one request and takes one response. A
request is first understood as a *demand* or refused, and only a demand to reset changes the combiner.
-/

namespace FrameMerge.Control

/-- What a request asks for. -/
inductive Demand
  | health
  | stats
  /-- The statistics of all sources. -/
  | sources
  /-- The statistics of the source of a name. -/
  | source (name : String)
  | reset
  deriving DecidableEq

/-- Why a request is refused. -/
inductive Refusal
  | unreadable (cause : RequestError)
  | methodNotAllowed
  | notFound
  /-- There is nothing to change at a path. -/
  | unknownPath (path : String)
  /-- A body names nothing that can be changed. -/
  | unknownFields (names : List String)
  | bodyNotObject
  | bodyNotJson (fault : Json.Error)
  deriving DecidableEq

namespace Refusal

def status : Refusal → Status
  | methodNotAllowed => .methodNotAllowed
  | notFound => .notFound
  | unreadable _ | unknownPath _ | unknownFields _ | bodyNotObject | bodyNotJson _ => .badRequest

def message : Refusal → String
  | unreadable cause => cause.message
  | methodNotAllowed => "method_not_allowed"
  | notFound => "not_found"
  | unknownPath path => "Invalid path: " ++ path
  | unknownFields names => "Invalid path: " ++ String.intercalate ", " names
  | bodyNotObject => "request body must be a JSON object"
  | bodyNotJson fault => "invalid JSON body: " ++ fault.message

/-- A refusal as a response: an object with the wording in it. -/
def response (r : Refusal) : Response := ⟨r.status, .object [("error", .string r.message)]⟩

end Refusal

/-! ## Understanding requests -/

/-- A path without the slashes at its end. -/
def trimSlashes (path : List Char) : List Char := (path.reverse.dropWhile (· = '/')).reverse

/-- Where it is asked whether the relay is there at all. -/
def healthPath : List Char := "/health".toList

/-- Where the statistics of the combiner are. -/
def statusPath : List Char := "/status".toList

/-- Where those of the sources are, and below it those of each. -/
def sourcesPath : List Char := "/nodes".toList

/-- Where a reset is demanded. -/
def resetPath : List Char := "/reset".toList

/-- The name of the field that demands a reset. -/
def resetField : String := "reset"

/-- The combiner as a whole is at the root and at the status path. -/
def isRoot (path : List Char) : Bool := path.isEmpty || path = statusPath

/-- What a request to look at a path demands. -/
def lookAt (path : List Char) : Except Refusal Demand :=
  if path = healthPath then .ok .health
  else if isRoot path then .ok .stats
  else if path = sourcesPath then .ok .sources
  else if (sourcesPath ++ ['/']).isPrefixOf path then
    .ok (.source (String.ofList (path.drop (sourcesPath.length + 1))))
  else .error .notFound

/-- What a body sent to the root demands. -/
def readBody (body : Bytes) : Except Refusal Demand :=
  match Json.parse body with
  | .error fault => .error (.bodyNotJson fault)
  | .ok (.object fields) =>
    if (Json.find? resetField fields).isSome then .ok .reset else .error (.unknownFields (fields.map (·.1)))
  | .ok _ => .error .bodyNotObject

/-- What a request to change a path demands. -/
def change (path : List Char) (body : Bytes) : Except Refusal Demand :=
  if path = resetPath then .ok .reset
  else if isRoot path then readBody body
  else .error (.unknownPath (String.ofList path))

/-- What a request demands. -/
def Demand.ofRequest (request : Request) : Except Refusal Demand :=
  let path := trimSlashes request.path.toList
  if request.method = "GET" then lookAt path
  else if request.method = "PUT" then change path request.body
  else .error .methodNotAllowed

/-! ## Answering -/

/-- Meets a demand. -/
def Demand.meet (c : Combiner) : Demand → Outcome Combiner Response
  | .health => ⟨⟨.ok, .object [("status", .string "ok")]⟩, c, []⟩
  | .stats => ⟨⟨.ok, c.stats.toJson⟩, c, []⟩
  | .sources => ⟨⟨.ok, c.stats.sourcesJson⟩, c, []⟩
  | .source name =>
    match c.stats.source? name with
    | none => ⟨Refusal.notFound.response, c, []⟩
    | some shown => ⟨⟨.ok, shown.toJson⟩, c, []⟩
  | .reset =>
    let done := c.reset
    ⟨⟨.ok, done.state.stats.toJson⟩, done.state, done.events⟩

/-- What a connection that brings these reads demands. -/
def understand (reads : List Bytes) : Except Refusal Demand :=
  match Request.read reads with
  | .error cause => .error (.unreadable cause)
  | .ok request => Demand.ofRequest request

/-- Serves one connection: whatever it brings, one response. -/
def serve (c : Combiner) (reads : List Bytes) : Outcome Combiner Response :=
  match understand reads with
  | .error refusal => ⟨refusal.response, c, []⟩
  | .ok demand => demand.meet c

end FrameMerge.Control

import Multidomain.Json.Writer
import Multidomain.Orchestration.Session
import Multidomain.Rest.Route

/-!
# Answering requests

How a session answers its parent and its operator. A request with the method `HEAD` always succeeds,
one with `DELETE` finds nothing, and other methods than these and those of the routes are not
allowed; a path that takes another method is not found. A body that cannot be read is a bad request
and changes nothing.
-/

namespace Multidomain

structure RestRequest where
  method : Method
  /-- What is asked for: a path with a query, or a full address. -/
  target : String
  body : List UInt8 := []
  deriving DecidableEq, Repr, Inhabited

inductive Status where
  | ok | badRequest | forbidden | notFound | methodNotAllowed
  deriving DecidableEq, Repr, Inhabited

def Status.code : Status → Nat
  | ok => 200
  | badRequest => 400
  | forbidden => 403
  | notFound => 404
  | methodNotAllowed => 405

structure RestAnswer where
  status : Status
  body : Option Json := none
  deriving BEq, Repr, Inhabited

/-- The content type of an answer with a body. -/
def RestAnswer.contentType? (a : RestAnswer) : Option String :=
  a.body.map fun _ => "application/json"

/-- What a request leaves behind: the session, the answer, and what goes out to children. -/
structure Served where
  session : Session
  answer : RestAnswer
  inquiries : List Inquiry := []
  subRequests : List SubRequest := []

namespace Session

/-- An answer that is nothing but an outcome. -/
def reply (s : Session) (status : Status) : Served := { session := s, answer := { status } }

def present (s : Session) (document : Json) : Served :=
  { session := s, answer := { status := .ok, body := some document } }

/-- The document of a single list. -/
def listing (name : String) (entries : List Json) : Json := .object [(name, .array entries)]

/-- Answer a request to change the abstraction. An unknown word is a bad request even after the
start of the session. -/
def changeAbstraction (s : Session) (body : Json) : Served :=
  match (readAbstraction? body).bind Abstraction.ofName? with
  | none => s.reply .badRequest
  | some abstraction =>
    match s.setAbstraction abstraction with
    | .ok s => s.reply .ok
    | .error .started => s.reply .forbidden

/-- Answer a request to a route, made with its method, given the value of the body where it is well
formed. -/
def respond (s : Session) (route : Route) (body? : Option Json) : Served :=
  match route with
  | .devices view =>
    s.present (listing "devices" ((s.overview.deviceEntries view).map DeviceEntry.toJson))
  | .links view =>
    let (entries, overview) := s.overview.readLinks view
    present { s with overview } (listing "links" (entries.map LinkEntry.toJson))
  | .hosts => s.present (listing "hosts" (s.overview.hostEntries.map HostEntry.toJson))
  | .edgeUpdates view =>
    let (updates, overview) := s.overview.takeEdgeUpdates view
    present { s with overview } updates.toDocument
  | .provisioning =>
    match body?.bind ProvisioningRequest.read? with
    | none => s.reply .badRequest
    | some request =>
      let (s, _, subRequests) := s.provision request
      { s.reply .ok with subRequests }
  | .flows =>
    match body?.bind readFlows? with
    | none => s.reply .badRequest
    | some flows => (s.applyFlows flows).1.reply .ok
  | .children =>
    match body?.bind readChildren? with
    | none => s.reply .badRequest
    | some addresses =>
      let (s, inquiries) := s.addChildren addresses
      { s.reply .ok with inquiries }
  | .abstraction =>
    match body? with
    | none => s.reply .badRequest
    | some body => s.changeAbstraction body

def serve (s : Session) (q : RestRequest) : Served :=
  match q.method with
  | .head => s.reply .ok
  | .delete => s.reply .notFound
  | .other => s.reply .methodNotAllowed
  | method =>
    match (Route.ofTarget? q.target).filter fun route => route.method = method with
    | none => s.reply .notFound
    | some route => s.respond route (Json.parse? q.body)

end Session

end Multidomain

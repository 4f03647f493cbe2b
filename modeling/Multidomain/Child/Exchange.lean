import Multidomain.Child.Address
import Multidomain.Wire.Command

/-!
# Exchanges with children

A node talks to a child by single requests: it asks for a document, or sends one. What comes of a
request is a reply, and a reply other than an answer in full is a fault. Whether an answer is a
success is read off its status.
-/

namespace Multidomain

structure ChildRequest where
  child : String
  path : String
  /-- What is sent; a request that sends nothing asks for a document. -/
  body : Option Json := none
  deriving BEq, Repr, Inhabited

namespace ChildRequest

/-- The name under which a node asks and sends. -/
def agent : String := "strata/0.1"

def method (q : ChildRequest) : String := if q.body.isSome then "POST" else "GET"

/-- The headers of the request, the port standing in where the child's address carries none. -/
def headers (defaultPort : Nat) (q : ChildRequest) : List (String × String) :=
  [("host", ChildAddress.authority defaultPort q.child), ("user-agent", agent)]
    ++ if q.body.isSome then [("content-type", "application/json")] else []

private def isPathChar (c : Char) : Bool :=
  0x21 ≤ c.toNat && c ≠ '<' && c ≠ '>' && c ≠ '\x60'

private def isQueryChar (c : Char) : Bool := 0x21 ≤ c.toNat && c ≠ '"' && c ≠ '<' && c ≠ '>'

/-- What is asked for: the path and the query without a fragment. Blanks, control characters and a
few others have to be escaped in it. -/
def target? (q : ChildRequest) : Option String :=
  let cs := q.path.toList.takeWhile (· ≠ '#')
  let path := cs.takeWhile (· ≠ '?')
  let query := cs.dropWhile (· ≠ '?')
  if path.isEmpty ∨ !path.all isPathChar ∨ !query.all isQueryChar then none
  else some (String.ofList cs)

end ChildRequest

inductive ChildReply where
  /-- Nobody listens at the address. -/
  | refused
  /-- No answer comes in time. -/
  | silent
  /-- The connection is closed without an answer. -/
  | closed
  /-- The answer breaks off. -/
  | cut
  | answered (status : Nat) (body : List UInt8)
  deriving DecidableEq, Repr, Inhabited

inductive ExchangeFault where
  | connect | request | timeout | send | body
  deriving DecidableEq, Repr

structure ChildAnswer where
  status : Nat
  body : List UInt8
  deriving DecidableEq, Repr, Inhabited

/-- Whether the child did as it was asked. -/
def ChildAnswer.isSuccess (a : ChildAnswer) : Bool := 200 ≤ a.status && a.status < 300

def ChildReply.answer : ChildReply → Except ExchangeFault ChildAnswer
  | refused => .error .connect
  | silent => .error .timeout
  | closed => .error .send
  | cut => .error .body
  | answered status body => .ok ⟨status, body⟩

/-- The document in a reply: the body of a successful answer, if there is one. -/
def ChildReply.document? (r : ChildReply) : Option (List UInt8) :=
  match r.answer with
  | .ok a => if a.isSuccess ∧ a.body ≠ [] then some a.body else none
  | .error _ => none

/-- How the children of a node answer: what comes of each request. -/
abbrev Network := ChildRequest → ChildReply

/-- Send a request over a network. That nobody listens is found out before it is looked at. -/
def Network.exchange (network : Network) (q : ChildRequest) : Except ExchangeFault ChildAnswer :=
  match network q, q.target? with
  | .refused, _ => .error .connect
  | _, none => .error .request
  | reply, some _ => reply.answer

end Multidomain

import Multidomain.Rest.Service

/-!
# A node in lines of text

A node that is not attached to a network takes its input and gives its output in lines: requests and
what came of its inquiries go in, answers and requests to children come out. An input line is a
method, a target and perhaps a body; or `elapsed` and a number of milliseconds; or `tick`, which is the
turn of the poller, or `wake` and the number of the discovery whose turn it is; or `reply`, the ticket of
an inquiry, and either nothing or the status and perhaps the body of the child's answer.
-/

namespace Multidomain

inductive NodeInput where
  | request (request : RestRequest)
  | elapsed (millis : Nat)
  | tick
  | wake (discovery : Nat)
  | reply (ticket : Nat) (reply : ChildReply)
  deriving DecidableEq, Repr

/-- The first word of a line, and what follows the blank after it. -/
def cutWord (cs : List Char) : List Char × List Char :=
  (cs.takeWhile (· ≠ ' '), (cs.dropWhile (· ≠ ' ')).drop 1)

/-- The child's answer that the end of a line tells. -/
def ChildReply.ofChars? (cs : List Char) : Option ChildReply :=
  match cutWord cs with
  | ([], _) => some .refused
  | (status, body) =>
    (Text.readNumber 10 999 status).map fun n => .answered n (Json.bytesOf (String.ofList body))

def NodeInput.ofLine? (line : String) : Option NodeInput :=
  let (word, rest) := cutWord (Text.trimChars line.toList)
  match String.ofList word with
  | "" => none
  | "elapsed" => (Text.readNumber 10 (Text.greatest 64) rest).map elapsed
  | "tick" => some tick
  | "wake" => (Text.readNumber 10 (Text.greatest 64) rest).map wake
  | "reply" =>
    let (ticket, answer) := cutWord rest
    match Text.readNumber 10 (Text.greatest 64) ticket, ChildReply.ofChars? answer with
    | some n, some r => some (.reply n r)
    | _, _ => none
  | method =>
    let (target, body) := cutWord rest
    some (.request {
      method := .ofName method
      target := String.ofList target
      body := Json.bytesOf (String.ofList body) })

def RestAnswer.line (a : RestAnswer) : String :=
  "answer " ++ Text.decimal a.status.code ++ match a.body with
    | some body => " " ++ body.render
    | none => ""

/-- The line of a request to a child, after the word that says what it is. -/
def ChildRequest.line (defaultPort : Nat) (q : ChildRequest) : String :=
  q.method ++ " http://" ++ ChildAddress.authority defaultPort q.child ++ q.path ++
    match q.body with
    | some body => " " ++ body.render
    | none => ""

namespace Session

def inquiryLine (s : Session) (q : Inquiry) : String :=
  "ask " ++ Text.decimal q.ticket ++ " " ++ q.request.line s.config.childPort

def subRequestLine (s : Session) (r : SubRequest) : String :=
  "send " ++ r.toRequest.line s.config.childPort

/-- Act on an input, and give the lines to put out. -/
def act (s : Session) : NodeInput → Session × List String
  | .request q =>
    let served := s.serve q
    (served.session,
      served.answer.line ::
        (served.inquiries.map s.inquiryLine ++ served.subRequests.map s.subRequestLine))
  | .elapsed millis => (s.elapse millis, [])
  | .tick =>
    let (next, inquiries) := s.tick
    (next, inquiries.map s.inquiryLine)
  | .wake discovery =>
    let (next, inquiries) := s.wake discovery
    (next, inquiries.map s.inquiryLine)
  | .reply ticket reply => ((s.answer ticket reply).1, [])

end Session

end Multidomain

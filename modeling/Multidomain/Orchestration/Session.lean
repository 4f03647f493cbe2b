import Multidomain.Child.Exchange
import Multidomain.Config.Basic
import Multidomain.Orchestration.Provision
import Multidomain.Topology.Overview

/-!
# The session of a node

A session begins when children are first added; from then on its abstraction is fixed. Children that
are added together are discovered together: each of them is asked for its devices, then for their links,
and then for their hosts. Once all inquiries of a stage have been answered the discovery rests for the
settle delay, and only then does the next stage begin or, after the last one, do the children join those
that are polled for edge updates, whatever the answers were. Polls come at a fixed interval after the
start of the session.

A session does nothing by itself. Each function gives the inquiries that it hands out, and these are
open until `answer` is told what came of them, in whatever order that happens. A `TaskPool` makes them: to
the session, what waits there for a permit is no more than an answer that comes late. Time passes by
`elapse` alone; what has become due by then is done when its turn comes, a poll by `tick` and the end of
a rest by `wake`, so that the turns too may come in any order and late. The overview follows the events
of the topology until the session is shut down.
-/

namespace Multidomain

/-- A question to a child, as part of a discovery or of a poll. -/
structure Inquiry where
  ticket : Nat
  child : String
  stage : Stage
  mode : Abstraction
  discovery : Option Nat
  deriving DecidableEq, Repr, Inhabited

def Inquiry.request (q : Inquiry) : ChildRequest :=
  { child := q.child, path := q.stage.path q.mode }

structure Discovery where
  number : Nat
  children : List String
  /-- The stages that have not begun. -/
  ahead : List Stage := Stage.discovery
  /-- When the last answer of the stage came; none while answers are still to come. -/
  answered : Option Nat := none
  deriving DecidableEq, Repr, Inhabited

/-- The answers that a discovery has to wait for beside those to open inquiries, and its rests. -/
def Discovery.turns (d : Discovery) : Nat := d.ahead.length * (d.children.length + 1) + 1

def Discovery.turnsOf : List Discovery → Nat
  | [] => 0
  | d :: others => d.turns + turnsOf others

/-- The session of a node. It counts inquiries by `tickets`, discoveries by `begun`, and time in
milliseconds. -/
structure Session where
  config : Config := {}
  abstraction : Abstraction := config.abstraction
  started : Bool := false
  domain : Domain := {}
  overview : Overview := {}
  /-- Whether the overview follows the topology. -/
  watching : Bool := true
  /-- The children whose discovery has ended, in order. -/
  children : List String := []
  discoveries : Roster Discovery.number := .empty
  pending : Roster Inquiry.ticket := .empty
  tickets : Nat := 0
  begun : Nat := 0
  now : Nat := 0
  /-- When the last poll was, or else the start; none where the children are not polled. -/
  polled : Option Nat := none
  deriving DecidableEq, Repr, Inhabited

/-- Why a session refuses a request: its abstraction is fixed once children have been added. -/
inductive SessionFault where
  | started
  deriving DecidableEq, Repr

def SessionFault.message : SessionFault → String
  | started => "orchestration already started"

namespace Session

def ofConfig (config : Config) : Session := { config }

def observe (s : Session) (events : List Event) : Session :=
  if s.watching then { s with overview := s.overview.observeAll events } else s

/-- Replace registry and topology by what came of them, and let the overview take the events in. -/
def advanceTo (s : Session) (domain : Domain) (events : List Event) : Session :=
  observe { s with domain } events

def onTopology (s : Session) (change : Topology → Topology × List Event) : Session × List Event :=
  let (topology, events) := change s.domain.topology
  (s.advanceTo { s.domain with topology } events, events)

def onRegistry (s : Session) (change : Registry → Registry) : Session :=
  { s with domain := { s.domain with registry := change s.domain.registry } }

def setAbstraction (s : Session) (abstraction : Abstraction) : Except SessionFault Session :=
  if s.started then .error .started else .ok { s with abstraction }

def hear (s : Session) (child : String) (bytes : List UInt8) :
    Except DocumentFault (Session × List Event × ApplyStats) := do
  let (domain, events, stats) ← s.domain.applyBytes s.abstraction child bytes
  return (s.advanceTo domain events, events, stats)

def ask (s : Session) (stage : Stage) (discovery : Option Nat) (children : List String) :
    Session × List Inquiry :=
  let inquiries := (children.zipIdx s.tickets).map fun (child, ticket) =>
    { ticket, child, stage, mode := s.abstraction, discovery }
  ({ s with
     pending := s.pending.putAll inquiries
     tickets := s.tickets + children.length }, inquiries)

/-- Texts in order, each once. -/
def inOrder (texts : List String) : List String := (texts.mergeSort fun a b => a ≤ b).eraseDups

theorem mem_inOrder {text : String} {texts : List String} :
    text ∈ inOrder texts ↔ text ∈ texts := by
  simp [inOrder]

/-- Begin the next stage of a discovery, or end it: its children are polled from then on. -/
def proceed (s : Session) (d : Discovery) : Session × List Inquiry :=
  match d.ahead with
  | stage :: ahead =>
    ask { s with discoveries := s.discoveries.put { d with ahead, answered := none } } stage
      (some d.number) d.children
  | [] =>
    ({ s with
       discoveries := s.discoveries.erase d.number
       children := inOrder (s.children ++ d.children) }, [])

def start (s : Session) : Session :=
  if s.started then s
  else
    { s with
      started := true
      polled := if s.config.pollIntervalSeconds = 0 then none else some s.now }

/-- The children that a list of addresses names: without blanks around them, in order, each once. -/
def tidy (addresses : List String) : List String :=
  inOrder ((addresses.map Text.trim).filter (!·.isEmpty))

theorem mem_tidy {child : String} {addresses : List String} :
    child ∈ tidy addresses ↔ child ≠ "" ∧ ∃ address ∈ addresses, Text.trim address = child := by
  simp only [tidy, mem_inOrder, List.mem_filter, List.mem_map]
  constructor
  · rintro ⟨⟨a, ha, rfl⟩, hc⟩
    exact ⟨by simpa using hc, a, ha, rfl⟩
  · rintro ⟨hc, a, ha, rfl⟩
    exact ⟨⟨a, ha, rfl⟩, by simpa using hc⟩

/-- Add children, which starts the session, and begin their discovery. -/
def addChildren (s : Session) (addresses : List String) : Session × List Inquiry :=
  let s := s.start
  let children := tidy addresses
  if children.isEmpty then (s, [])
  else proceed { s with begun := s.begun + 1 } { number := s.begun, children }

/-- Take up the document in a reply. A reply without a document, and a document that cannot be read,
are passed over. -/
def takeUp (s : Session) (child : String) (reply : ChildReply) : Session × List Event :=
  match reply.document? with
  | none => (s, [])
  | some bytes =>
    match s.hear child bytes with
    | .ok (s, events, _) => (s, events)
    | .error _ => (s, [])

/-- Let a discovery rest once none of its inquiries is open. -/
def rest (s : Session) (discovery : Option Nat) : Session :=
  match discovery.bind s.discoveries.find? with
  | none => s
  | some d =>
    if s.pending.items.any fun q => q.discovery = some d.number then s
    else { s with discoveries := s.discoveries.put { d with answered := some s.now } }

def answer (s : Session) (ticket : Nat) (reply : ChildReply) : Session × List Event :=
  match s.pending.find? ticket with
  | none => (s, [])
  | some q =>
    let (s, events) := takeUp { s with pending := s.pending.erase ticket } q.child reply
    (s.rest q.discovery, events)

def elapse (s : Session) (millis : Nat) : Session := { s with now := s.now + millis }

/-- Go on with a discovery, if it has rested for the settle delay. -/
def wake (s : Session) (number : Nat) : Session × List Inquiry :=
  match s.discoveries.find? number with
  | none => (s, [])
  | some d =>
    if d.answered.any (· + s.config.settleDelayMillis ≤ s.now) then s.proceed d else (s, [])

/-- Ask every child whose discovery has ended for its edge updates, if the poll interval is over. The
next one begins at this moment, however late it is. -/
def tick (s : Session) : Session × List Inquiry :=
  if s.polled.any (· + 1000 * s.config.pollIntervalSeconds ≤ s.now) then
    ask { s with polled := some s.now } .edgeUpdates none s.children
  else (s, [])

def provision (s : Session) (p : ProvisioningRequest) :
    Session × ProvisionOutcome × List SubRequest :=
  let done := s.domain.provision s.abstraction s.config.appName p
  ({ s with domain := { s.domain with topology := done.topology } }, done.outcome, done.subRequests)

def applyFlows (s : Session) (flows : List Json) : Session × Nat :=
  let rules := FlowRule.ofJsonList flows
  ((s.onTopology fun t => (t.applyFlowRules rules, [])).1, rules.length)

/-- End all work: open inquiries and discoveries are dropped, nothing is polled or followed any
more, and the registry is cleared. -/
def shutdown (s : Session) : Session :=
  { s with
    domain := { s.domain with registry := .empty }
    watching := false
    discoveries := .empty
    pending := .empty
    polled := none }

/-- How many inquiries may still be answered, and how many rests be ended, before all discoveries are
over. -/
def workload (s : Session) : Nat :=
  s.pending.size + Discovery.turnsOf s.discoveries.items

/-- Answer open inquiries over a network, the oldest first, and when there are none let the settle delay
pass and go on with the oldest discovery, in at most `rounds` turns. Gives the events and the requests. -/
def settleIn (network : Network) : Nat → Session → Session × List Event × List ChildRequest
  | 0, s => (s, [], [])
  | rounds + 1, s =>
    match s.pending.items, s.discoveries.items with
    | q :: _, _ =>
      let (s, now) := s.answer q.ticket (network q.request)
      let (s, later, requests) := settleIn network rounds s
      (s, now ++ later, q.request :: requests)
    | [], d :: _ => settleIn network rounds ((s.elapse s.config.settleDelayMillis).wake d.number).1
    | [], [] => (s, [], [])

/-- Answer open inquiries over a network until there are none and all discoveries are over. -/
def settle (s : Session) (network : Network) : Session × List Event × List ChildRequest :=
  settleIn network s.workload s

end Session

def SubRequest.toRequest (r : SubRequest) : ChildRequest :=
  { child := r.child, path := "/provisioning", body := some r.request.toJson }

end Multidomain

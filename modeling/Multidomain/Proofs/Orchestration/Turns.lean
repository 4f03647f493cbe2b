import Multidomain.Proofs.Json.Plain
import Multidomain.Proofs.Json.RoundTrip
import Multidomain.Proofs.Orchestration.OneAbstraction

/-!
# What an input makes a session ask

Of all that a session holds, whom it asks for what depends on its desk alone: the children that it
polls, the discoveries under way, and the inquiries that are open. An input can do seven things to a
desk, and `turn` says of every input which of them it does: nothing, begin a discovery, poll, take an
answer to an inquiry for which others are still to be waited, let the discovery rest after the last answer
of a stage, and after the rest begin the next stage or end the discovery.
-/

namespace Multidomain

/-- The addresses that an input adds, if it adds children. -/
def NodeInput.adds? : NodeInput → Option (List String)
  | .request q =>
    if q.method = .post ∧ Route.ofTarget? q.target = some .children then
      (Json.parse? q.body).bind readChildren?
    else none
  | .elapsed _ | .tick | .wake _ | .reply _ _ => none

/-- The children that an input brings into discovery, if there are any. -/
def NodeInput.call? (input : NodeInput) : Option (List String) :=
  (input.adds?.map Session.tidy).filter (!·.isEmpty)

theorem NodeInput.ne_nil_of_call? {input : NodeInput} {children : List String}
    (h : input.call? = some children) : children ≠ [] := by
  have hsome := (Option.filter_eq_some_iff.1 h).2
  rintro rfl
  cases hsome

/-- Whom a session asks for what, and whom it polls. -/
structure Desk where
  children : List String
  discoveries : Roster Discovery.number
  pending : Roster Inquiry.ticket
  tickets : Nat
  begun : Nat

namespace Session

def desk (s : Session) : Desk := ⟨s.children, s.discoveries, s.pending, s.tickets, s.begun⟩

/-- The request that adds these addresses. -/
def posting (addresses : List String) : NodeInput :=
  asking .post "/children" (.object [("children", .array (addresses.map .string))])

/-- Any addresses can be added. -/
theorem adds?_posting (addresses : List String) :
    (posting addresses).adds? = some addresses := by
  have hplain : (Json.object [("children", .array (addresses.map .string))]).plain Json.deepest =
      true := by
    refine Json.plain_object fun f hf => ?_
    rw [List.mem_singleton.1 hf]
    exact Json.plain_array fun item hitem => by
      obtain ⟨address, -, rfl⟩ := List.mem_map.1 hitem
      exact Json.plain_string address
  have hroute : Route.ofTarget? "/children" = some .children := by decide
  have htexts : (addresses.map Json.string).mapM Json.text? = some addresses := by
    rw [List.mapM_map]
    exact List.mapM_pure.trans (congrArg some (List.map_id _))
  rw [posting, asking, NodeInput.adds?, if_pos ⟨rfl, hroute⟩, Json.parse?_render hplain]
  exact htexts

variable (s : Session)

theorem serve_children {target : String} (h : Route.ofTarget? target = some .children)
    (body : List UInt8) :
    s.serve ⟨.post, target, body⟩ = s.respond .children (Json.parse? body) := by
  rw [serve]
  simp only [h]
  rfl

theorem serve_of_adds {q : RestRequest} {addresses : List String}
    (h : (NodeInput.request q).adds? = some addresses) :
    (s.serve q).session = (s.addChildren addresses).1 ∧
      (s.serve q).inquiries = (s.addChildren addresses).2 := by
  obtain ⟨m, target, body⟩ := q
  rw [NodeInput.adds?] at h
  split at h
  · next hroute =>
    obtain ⟨rfl, htarget⟩ : m = .post ∧ Route.ofTarget? target = some .children := hroute
    rw [s.serve_children htarget, respond, h]
    exact ⟨rfl, rfl⟩
  · cases h

theorem serve_of_adds?_eq_none {q : RestRequest} (h : (NodeInput.request q).adds? = none) :
    s.Touched (s.serve q).session ∧ (s.serve q).inquiries = [] := by
  obtain ⟨⟨hpost, hroute, hok⟩, -⟩ | ⟨-, htouched⟩ := s.serve_cases q
  · -- The route is the right one, so that it is the body that cannot be read.
    obtain ⟨m, target, body⟩ := q
    obtain rfl : m = .post := hpost
    have hbody : (Json.parse? body).bind readChildren? = none := by
      rwa [NodeInput.adds?, if_pos ⟨rfl, hroute⟩] at h
    rw [s.serve_children hroute, respond, hbody] at hok
    cases hok
  · exact htouched

/-- All that an answer does beside taking the inquiry off and letting its discovery rest is to change
domain and overview. -/
theorem answer_eq {ticket : Nat} {q : Inquiry} (hq : s.pending.find? ticket = some q)
    (reply : ChildReply) : ∃ domain overview, (s.answer ticket reply).1 =
      rest { s with pending := s.pending.erase ticket, domain, overview } q.discovery := by
  have htaken : ∃ domain overview,
      (takeUp { s with pending := s.pending.erase ticket } q.child reply).1 =
        { s with pending := s.pending.erase ticket, domain, overview } := by
    rw [takeUp_eq]
    split
    · exact ⟨_, _, rfl⟩
    · unfold advanceTo observe
      split <;> exact ⟨_, _, rfl⟩
  obtain ⟨domain, overview, htaken⟩ := htaken
  refine ⟨domain, overview, ?_⟩
  rw [answer, hq, ← htaken]

/-- The discovery has rested for the settle delay. -/
def Rested (d : Discovery) : Prop :=
  ∃ moment, d.answered = some moment ∧ moment + s.config.settleDelayMillis ≤ s.now

/-- What an input can do to the desk of a session, and the inquiries that are sent thereby. -/
inductive Turn : NodeInput → Desk → List Inquiry → Prop
  | idle {input : NodeInput} (hcall : input.call? = none)
      (hreply : ∀ q ∈ s.pending.items, ∀ reply, input ≠ .reply q.ticket reply)
      (hwake : ∀ n, ∀ d ∈ s.discoveries.find? n, input = .wake n → ¬s.Rested d) :
      Turn input s.desk []
  | begun {input : NodeInput} {children : List String} (hcall : input.call? = some children) :
      Turn input
        { s.desk with
          discoveries := s.discoveries.put ⟨s.begun, children, [.links, .hosts], none⟩
          pending := s.pending.putAll (s.ask .devices (some s.begun) children).2
          tickets := s.tickets + children.length
          begun := s.begun + 1 }
        (s.ask .devices (some s.begun) children).2
  | polled :
      Turn .tick
        { s.desk with
          pending := s.pending.putAll (s.ask .edgeUpdates none s.children).2
          tickets := s.tickets + s.children.length }
        (s.ask .edgeUpdates none s.children).2
  /-- The discovery is over, or other inquiries of it are open. -/
  | answered {q : Inquiry} (hq : q ∈ s.pending.items) (reply : ChildReply)
      (hmore : ∀ d ∈ q.discovery.bind s.discoveries.find?,
        ∃ other ∈ (s.pending.erase q.ticket).items, other.discovery = some d.number) :
      Turn (.reply q.ticket reply) { s.desk with pending := s.pending.erase q.ticket } []
  | resting {q : Inquiry} (hq : q ∈ s.pending.items) (reply : ChildReply) {d : Discovery}
      (hd : q.discovery.bind s.discoveries.find? = some d)
      (hlast : ∀ other ∈ (s.pending.erase q.ticket).items, other.discovery ≠ some d.number) :
      Turn (.reply q.ticket reply)
        { s.desk with
          discoveries := s.discoveries.put { d with answered := some s.now }
          pending := s.pending.erase q.ticket }
        []
  | advanced {d : Discovery} (hd : s.discoveries.find? d.number = some d) (hrested : s.Rested d)
      {stage : Stage} {ahead : List Stage} (hahead : d.ahead = stage :: ahead) :
      Turn (.wake d.number)
        { s.desk with
          discoveries := s.discoveries.put { d with ahead, answered := none }
          pending := s.pending.putAll (s.ask stage (some d.number) d.children).2
          tickets := s.tickets + d.children.length }
        (s.ask stage (some d.number) d.children).2
  | ended {d : Discovery} (hd : s.discoveries.find? d.number = some d) (hrested : s.Rested d)
      (hahead : d.ahead = []) :
      Turn (.wake d.number)
        { s.desk with
          children := inOrder (s.children ++ d.children)
          discoveries := s.discoveries.erase d.number }
        []

theorem desk_start : s.start.desk = s.desk := by
  unfold start
  split <;> rfl

theorem turn_addChildren {input : NodeInput} {addresses : List String}
    (h : input.adds? = some addresses) :
    s.Turn input (s.addChildren addresses).1.desk (s.addChildren addresses).2 := by
  have hreply : ∀ q ∈ s.pending.items, ∀ reply, input ≠ .reply q.ticket reply := by
    rintro q - reply rfl
    cases h
  have hwake : ∀ n, ∀ d ∈ s.discoveries.find? n, input = .wake n → ¬s.Rested d := by
    rintro n d - rfl
    cases h
  have hcall : input.call? = (some (tidy addresses)).filter (!·.isEmpty) := by
    rw [NodeInput.call?, h, Option.map_some]
  unfold addChildren
  simp only
  split
  · next hnobody =>
    rw [desk_start]
    exact .idle (hcall.trans (Option.filter_some_neg (by simpa using hnobody))) hreply hwake
  · next hsome =>
    have hbegun : s.Turn input _ _ :=
      .begun (hcall.trans (Option.filter_some_pos (by simpa using hsome)))
    unfold start
    split <;> exact hbegun

theorem turn_request (q : RestRequest) :
    s.Turn (.request q) (s.serve q).session.desk (s.serve q).inquiries := by
  cases hadds : (NodeInput.request q).adds? with
  | none =>
    obtain ⟨htouched, hnothing⟩ := s.serve_of_adds?_eq_none hadds
    obtain ⟨_, _, _, heq⟩ := htouched.eq
    rw [heq, hnothing]
    exact .idle (by rw [NodeInput.call?, hadds]; rfl) (fun _ _ _ => nofun) fun _ _ _ => nofun
  | some addresses =>
    obtain ⟨hsession, hinquiries⟩ := s.serve_of_adds hadds
    rw [hsession, hinquiries]
    exact s.turn_addChildren hadds

theorem turn_tick : s.Turn .tick s.tick.1.desk s.tick.2 := by
  unfold tick
  split
  · exact .polled
  · exact .idle rfl (fun _ _ _ => nofun) fun _ _ _ => nofun

theorem rested_iff (d : Discovery) :
    d.answered.any (· + s.config.settleDelayMillis ≤ s.now) = true ↔ s.Rested d := by
  rw [Option.any_eq_true, Rested]
  exact exists_congr fun moment => and_congr_right fun _ => decide_eq_true_iff

theorem turn_wake (n : Nat) : s.Turn (.wake n) (s.wake n).1.desk (s.wake n).2 := by
  have hidle : (∀ d ∈ s.discoveries.find? n, ¬s.Rested d) → s.Turn (.wake n) s.desk [] :=
    fun hnone => .idle rfl (fun _ _ _ => nofun) fun _ d hd heq => by
      cases heq
      exact hnone d hd
  unfold wake
  split
  · next hover => exact hidle fun d hd => nomatch hover.symm.trans hd
  · next d hd =>
    obtain rfl : d.number = n := Roster.key_of_find? hd
    split
    · next hrested =>
      have hrested := (s.rested_iff d).1 hrested
      unfold proceed
      split
      · next stage ahead hahead => exact .advanced hd hrested hahead
      · next hahead => exact .ended hd hrested hahead
    · next hearly =>
      refine hidle fun other hother => ?_
      obtain rfl := Option.some.inj (hd.symm.trans hother)
      exact fun hrested => hearly ((s.rested_iff d).2 hrested)

theorem turn_answer (ticket : Nat) (reply : ChildReply) :
    s.Turn (.reply ticket reply) (s.answer ticket reply).1.desk [] := by
  cases hfind : s.pending.find? ticket with
  | none =>
    rw [answer, hfind]
    refine .idle rfl (fun q hq other heq => ?_) fun _ d _ heq => by cases heq
    cases heq
    cases hfind.symm.trans (Roster.mem_items_iff.1 hq)
  | some q =>
    have hq := Roster.mem_of_find? hfind
    obtain rfl : q.ticket = ticket := Roster.key_of_find? hfind
    obtain ⟨domain, overview, hsession⟩ := s.answer_eq hfind reply
    rw [hsession]
    unfold rest
    simp only
    split
    · next hover =>
      refine .answered hq reply fun d hd => ?_
      cases hover.symm.trans hd
    · next d hd =>
      split
      · next hopen =>
        refine .answered hq reply fun other hother => ?_
        obtain rfl : d = other := Option.some.inj (hd.symm.trans hother)
        obtain ⟨open', hmem, hof⟩ := List.any_eq_true.1 hopen
        exact ⟨open', hmem, by simpa using hof⟩
      · next hnone =>
        refine .resting hq reply hd fun other hother hof => ?_
        exact hnone (List.any_eq_true.2 ⟨other, hother, by simpa using hof⟩)

/-- Each input does one of these things. -/
theorem turn (input : NodeInput) : s.Turn input (s.next input).desk (s.asks input) := by
  cases input with
  | request q => exact s.turn_request q
  | elapsed millis => exact .idle rfl (fun _ _ _ => nofun) fun _ _ _ => nofun
  | tick => exact s.turn_tick
  | wake n => exact s.turn_wake n
  | reply ticket reply => exact s.turn_answer ticket reply

end Session

end Multidomain

import Multidomain.Proofs.Orchestration.OwnIds
import Multidomain.Proofs.Rest.Effect
import Multidomain.Rest.Dialogue

/-!
# One session, one abstraction

The abstraction can be chosen until children are first added, and before that nobody is asked for
anything. So all inquiries of a session go out under the abstraction that was in force at that moment,
all documents are taken up under it, and every id that the node gives to a device of its children
carries its scheme.
-/

namespace Multidomain

/-! ### Documents and flow rules -/

namespace Topology

variable {t : Topology}

theorem unruled_heed (notice : Notice) :
    (t.heed notice).1.unruled = (t.unruled.heed notice).1 := by
  cases notice with
  | device d =>
    simp only [heed, connectDevice, show t.unruled.knows d.id = t.knows d.id from rfl]
    split <;> rfl
  | link e =>
    simp only [heed, detectLink, show ∀ device, t.unruled.knows device = t.knows device from
      fun _ => rfl, show t.unruled.links = t.links from rfl]
    split
    · rfl
    · split <;> rfl
  | unlink e =>
    simp only [heed, loseLink, show t.unruled.links = t.links from rfl]
    split <;> rfl
  | host host =>
    simp only [heed, detectHost, show t.unruled.knows host.location.device =
      t.knows host.location.device from rfl]
    split <;> rfl

theorem unruled_heedAll (notices : List Notice) :
    (t.heedAll notices).1.unruled = (t.unruled.heedAll notices).1 := by
  induction notices generalizing t with
  | nil => rfl
  | cons notice rest ih =>
    rw [heedAll, heedAll]
    cases notice.refusal? with
    | some refusal => rfl
    | none =>
      have hrest := ih (t := (t.heed notice).1)
      rw [unruled_heed] at hrest
      exact hrest

end Topology

namespace Domain

variable {mode : Abstraction}

theorem unruled_hear (d : Domain) (r : Report) :
    (d.hear mode r).unruled = d.unruled.hear mode r := by
  unfold hear takeUpJson
  cases Element.read? r.kind r.change r.value with
  | none => rfl
  | some e =>
    cases hmeaning : mode.meaning r.child d.registry e with
    | error fault =>
      simp only [takeUp_of_error hmeaning, takeUp_of_error (d := d.unruled) hmeaning]
      rfl
    | ok m =>
      simp only [takeUp_of_ok hmeaning, takeUp_of_ok (d := d.unruled) hmeaning]
      exact congrArg (Domain.mk m.registry) (Topology.unruled_heedAll m.notices)

/-- What children report neither depends on flow rules nor changes them. -/
theorem unruled_apply (d : Domain) (child : String) (document : TopologyDocument) :
    (d.apply mode child document).1.unruled = (d.unruled.apply mode child document).1 := by
  have hall : ∀ (reports : List Report) (d : Domain),
      (d.hearAll mode reports).unruled = d.unruled.hearAll mode reports := by
    intro reports
    induction reports with
    | nil => exact fun _ => rfl
    | cons r rest ih =>
      intro d
      have hrest := ih (d.hear mode r)
      rw [unruled_hear] at hrest
      exact hrest
  rw [apply_fst d ⟨child, document⟩, apply_fst d.unruled ⟨child, document⟩]
  exact hall _ d

end Domain

theorem Domain.Under.of_unruled {mode : Abstraction} {d : Domain} (h : d.unruled.Under mode) :
    d.Under mode where
  registry := h.registry
  topology := ⟨h.topology.device, h.topology.attached.link, h.topology.attached.host⟩

/-! ### What a session does on an input -/

/-- The topology document in a reply. -/
def ChildReply.topology? (r : ChildReply) : Option TopologyDocument :=
  r.document?.bind fun bytes => (TopologyDocument.parse bytes).toOption

namespace Session

/-- The session after an input. -/
def next (s : Session) (input : NodeInput) : Session := (s.act input).1

/-- The inquiries that the session sends on an input. -/
def asks (s : Session) : NodeInput → List Inquiry
  | .request q => (s.serve q).inquiries
  | .tick => s.tick.2
  | .wake discovery => (s.wake discovery).2
  | .elapsed _ | .reply _ _ => []

/-- The document that an input hands over in reply to an open inquiry. -/
def letter? (s : Session) : NodeInput → Option Letter
  | .reply ticket reply => do
    let q ← s.pending.find? ticket
    let document ← reply.topology?
    return { child := q.child, document }
  | _ => none

/-- The input adds children to the session. -/
def Adds (s : Session) : NodeInput → Prop
  | .request q => s.AddsChildren q
  | _ => False

instance (s : Session) (input : NodeInput) : Decidable (s.Adds input) :=
  match input with
  | .request q => inferInstanceAs (Decidable (s.AddsChildren q))
  | .elapsed _ | .tick | .wake _ | .reply _ _ => inferInstanceAs (Decidable False)

def run (s : Session) (inputs : List NodeInput) : Session := inputs.foldl next s

/-- All inquiries that are sent in the course of the inputs. -/
def asked (s : Session) : List NodeInput → List Inquiry
  | [] => []
  | input :: rest => s.asks input ++ (s.next input).asked rest

/-- All documents that are handed over in the course of the inputs. -/
def letters (s : Session) : List NodeInput → List Letter
  | [] => []
  | input :: rest => (s.letter? input).toList ++ (s.next input).letters rest

/-- The abstraction in force as the first of the inputs adds children, if one does. -/
def fixed? (s : Session) : List NodeInput → Option Abstraction
  | [] => none
  | input :: rest => if s.Adds input then some s.abstraction else (s.next input).fixed? rest

/-- Inquiries are sent under the abstraction of the session, and nothing else happens that matters to
what it is told. -/
structure Sends (s : Session) (result : Session × List Inquiry) : Prop where
  started : result.1.started = s.started
  abstraction : result.1.abstraction = s.abstraction
  domain : result.1.domain = s.domain
  mode : ∀ q ∈ result.2, q.mode = s.abstraction

theorem sends_nothing (s : Session) : s.Sends (s, []) := ⟨rfl, rfl, rfl, by simp⟩

theorem sends_ask (s : Session) (stage : Stage) (discovery : Option Nat) (children : List String) :
    s.Sends (s.ask stage discovery children) := by
  refine ⟨rfl, rfl, rfl, fun q hq => ?_⟩
  obtain ⟨_, _, rfl⟩ := List.mem_map.1 hq
  rfl

theorem sends_proceed (s : Session) (d : Discovery) : s.Sends (s.proceed d) := by
  unfold proceed
  split
  · next stage ahead _ =>
    have hask := sends_ask
      { s with discoveries := s.discoveries.put { d with ahead, answered := none } } stage
      (some d.number) d.children
    exact ⟨hask.started, hask.abstraction, hask.domain, hask.mode⟩
  · exact ⟨rfl, rfl, rfl, by simp⟩

theorem sends_wake (s : Session) (number : Nat) : s.Sends (s.wake number) := by
  unfold wake
  split
  · exact s.sends_nothing
  · next d _ =>
    split
    · exact s.sends_proceed d
    · exact s.sends_nothing

theorem sends_tick (s : Session) : s.Sends s.tick := by
  unfold tick
  split
  · have hask := sends_ask { s with polled := some s.now } .edgeUpdates none s.children
    exact ⟨hask.started, hask.abstraction, hask.domain, hask.mode⟩
  · exact s.sends_nothing

theorem started_start (s : Session) : s.start.started = true := by
  unfold start
  split
  · assumption
  · rfl

/-- Adding children starts the session and sends inquiries under the abstraction then in force. -/
theorem addChildren_sends (s : Session) (addresses : List String) :
    (s.addChildren addresses).1.started = true ∧
      (s.addChildren addresses).1.abstraction = s.abstraction ∧
      (s.addChildren addresses).1.domain = s.domain ∧
      ∀ q ∈ (s.addChildren addresses).2, q.mode = s.abstraction := by
  have hstart : s.start.abstraction = s.abstraction := by
    unfold start
    split <;> rfl
  have hsends : s.start.Sends (s.addChildren addresses) := by
    unfold addChildren
    simp only
    split
    · exact s.start.sends_nothing
    · have hproceed := sends_proceed { s.start with begun := s.start.begun + 1 }
        { number := s.start.begun, children := tidy addresses }
      exact ⟨hproceed.started, hproceed.abstraction, hproceed.domain, hproceed.mode⟩
  exact ⟨hsends.started.trans s.started_start, hsends.abstraction.trans hstart,
    (s.addChildren_frame addresses).1, hstart ▸ hsends.mode⟩

theorem takeUp_eq (s : Session) (child : String) (reply : ChildReply) :
    (s.takeUp child reply).1 = match reply.topology? with
      | none => s
      | some document =>
        s.advanceTo (s.domain.apply s.abstraction child document).1
          (s.domain.apply s.abstraction child document).2.1 := by
  unfold takeUp ChildReply.topology?
  cases reply.document? with
  | none => rfl
  | some bytes =>
    simp only [hear, Domain.applyBytes_eq, Option.bind_some]
    cases TopologyDocument.parse bytes <;> rfl

/-- The domain after a document that may be missing. -/
def taken (s : Session) (letter? : Option Letter) (d : Domain) : Domain :=
  match letter? with
  | none => d
  | some l => (d.apply s.abstraction l.child l.document).1

theorem rest_eq (s : Session) (discovery : Option Nat) :
    ∃ discoveries, s.rest discovery = { s with discoveries } := by
  unfold rest
  split
  · exact ⟨_, rfl⟩
  · split <;> exact ⟨_, rfl⟩

/-- An answer does to the domain what the document in it does, and leaves the abstraction alone. -/
theorem answer_frame (s : Session) (ticket : Nat) (reply : ChildReply) :
    (s.answer ticket reply).1.started = s.started ∧
      (s.answer ticket reply).1.abstraction = s.abstraction ∧
      (s.answer ticket reply).1.domain = s.taken (s.letter? (.reply ticket reply)) s.domain := by
  unfold answer
  cases hfind : s.pending.find? ticket with
  | none => simp [letter?, hfind, taken]
  | some q =>
    have htaken := takeUp_eq { s with pending := s.pending.erase ticket } q.child reply
    generalize htake : takeUp { s with pending := s.pending.erase ticket } q.child reply = took
    rw [htake] at htaken
    obtain ⟨s', events⟩ := took
    obtain ⟨discoveries, hrest⟩ := s'.rest_eq q.discovery
    simp only [htake, hrest]
    subst htaken
    cases hdocument : reply.topology? with
    | none => simp [letter?, hfind, hdocument, taken]
    | some document =>
      simp only [letter?, hfind, hdocument, advanceTo, observe]
      split <;> exact ⟨rfl, rfl, rfl⟩

theorem unruled_taken (s : Session) (letter? : Option Letter) (d : Domain) :
    (s.taken letter? d).unruled = s.taken letter? d.unruled := by
  cases letter? with
  | none => rfl
  | some l => exact d.unruled_apply l.child l.document

variable {s : Session}

/-- Once it has begun, a session keeps its abstraction, asks under it, and takes up under it what it is
told. -/
theorem next_of_started (h : s.started = true) (input : NodeInput) :
    (s.next input).started = true ∧ (s.next input).abstraction = s.abstraction ∧
      (s.next input).domain.unruled = s.taken (s.letter? input) s.domain.unruled ∧
      ∀ q ∈ s.asks input, q.mode = s.abstraction := by
  cases input with
  | request q =>
    obtain ⟨-, addresses, hsession, hinquiries⟩ | ⟨-, htouched, hinquiries⟩ := s.serve_cases q
    · obtain ⟨hstarted, habstraction, hdomain, hmode⟩ := s.addChildren_sends addresses
      simp only [next, act, asks, hsession, hinquiries, hdomain]
      exact ⟨hstarted, habstraction, rfl, hmode⟩
    · have hstarted : (s.serve q).session.started = s.started := by
        obtain ⟨_, _, _, heq⟩ := htouched.eq
        rw [heq]
      simp only [next, act, asks, hinquiries]
      exact ⟨hstarted.trans h, htouched.abstraction h, htouched.unruled, by simp⟩
  | elapsed millis => exact ⟨h, rfl, rfl, by simp [asks]⟩
  | tick =>
    have hsends := s.sends_tick
    exact ⟨hsends.started.trans h, hsends.abstraction, congrArg Domain.unruled hsends.domain,
      hsends.mode⟩
  | wake discovery =>
    have hsends := s.sends_wake discovery
    exact ⟨hsends.started.trans h, hsends.abstraction, congrArg Domain.unruled hsends.domain,
      hsends.mode⟩
  | reply ticket reply =>
    obtain ⟨hstarted, habstraction, hdomain⟩ := s.answer_frame ticket reply
    refine ⟨hstarted.trans h, habstraction, ?_, by simp [asks]⟩
    rw [← unruled_taken]
    exact congrArg Domain.unruled hdomain

/-- The session has not begun: nobody has been asked for anything, and nothing has been told. -/
structure Unbegun (s : Session) : Prop where
  started : s.started = false
  discoveries : s.discoveries = .empty
  pending : s.pending = .empty
  polled : s.polled = none
  domain : s.domain.unruled = .empty

theorem unbegun_ofConfig (config : Config) : Unbegun (ofConfig config) :=
  ⟨rfl, rfl, rfl, rfl, rfl⟩

/-- The first input that matters to a session adds children. -/
theorem Unbegun.next (h : s.Unbegun) (input : NodeInput) :
    s.letter? input = none ∧
      ((s.Adds input ∧ (s.next input).started = true ∧ (s.next input).abstraction = s.abstraction ∧
          (s.next input).domain.unruled = .empty ∧ ∀ q ∈ s.asks input, q.mode = s.abstraction) ∨
        (¬s.Adds input ∧ (s.next input).Unbegun ∧ s.asks input = [])) := by
  cases input with
  | request q =>
    refine ⟨rfl, ?_⟩
    obtain ⟨hadds, addresses, hsession, hinquiries⟩ | ⟨hadds, htouched, hinquiries⟩ := s.serve_cases q
    · obtain ⟨hstarted, habstraction, hdomain, hmode⟩ := s.addChildren_sends addresses
      refine .inl ⟨hadds, ?_⟩
      simp only [Session.next, act, asks, hsession, hinquiries, hdomain]
      exact ⟨hstarted, habstraction, h.domain, hmode⟩
    · refine .inr ⟨hadds, ?_, hinquiries⟩
      have hdomain := htouched.unruled.trans h.domain
      obtain ⟨_, _, _, heq⟩ := htouched.eq
      simp only [Session.next, act]
      rw [heq] at hdomain ⊢
      exact ⟨h.started, h.discoveries, h.pending, h.polled, hdomain⟩
  | elapsed millis =>
    exact ⟨rfl, .inr ⟨id, ⟨h.started, h.discoveries, h.pending, h.polled, h.domain⟩, rfl⟩⟩
  | tick =>
    -- The polls count from the first children on.
    have hsame : s.tick = (s, []) := by
      rw [tick, h.polled]
      rfl
    refine ⟨rfl, .inr ⟨id, ?_, ?_⟩⟩
    · simp only [Session.next, act, hsame]
      exact h
    · simp only [asks, hsame]
  | wake discovery =>
    have hsame : s.wake discovery = (s, []) := by
      rw [wake, h.discoveries]
      rfl
    refine ⟨rfl, .inr ⟨id, ?_, ?_⟩⟩
    · simp only [Session.next, act, hsame]
      exact h
    · simp only [asks, hsame]
  | reply ticket reply =>
    -- A reply counts for the inquiry that it answers, and there is none.
    have hnone : s.pending.find? ticket = none := by
      rw [h.pending]
      rfl
    have hsame : s.answer ticket reply = (s, []) := by
      rw [answer, hnone]
    refine ⟨by rw [letter?, hnone]; rfl, .inr ⟨id, ?_, rfl⟩⟩
    simp only [Session.next, act, hsame]
    exact h

/-- What a whole run leaves of a session that has begun. -/
theorem run_of_started (h : s.started = true) (inputs : List NodeInput) :
    (s.run inputs).abstraction = s.abstraction ∧
      (s.run inputs).domain.unruled = (s.letters inputs).foldl
        (fun d l => (d.apply s.abstraction l.child l.document).1) s.domain.unruled ∧
      ∀ q ∈ s.asked inputs, q.mode = s.abstraction := by
  induction inputs generalizing s with
  | nil => exact ⟨rfl, rfl, by simp [asked]⟩
  | cons input rest ih =>
    obtain ⟨hstarted, habstraction, hdomain, hmode⟩ := next_of_started h input
    obtain ⟨hrun, hunruled, hasked⟩ := ih hstarted
    rw [habstraction] at hrun hunruled hasked
    refine ⟨hrun, ?_, fun q hq => ?_⟩
    · refine hunruled.trans ?_
      rw [hdomain, letters, List.foldl_append]
      cases s.letter? input <;> rfl
    · obtain hnow | hlater := List.mem_append.1 hq
      · exact hmode q hnow
      · exact hasked q hlater

/-- Before children are added nothing is asked and nothing is told; from then on the abstraction is the
one in force at that moment. -/
theorem Unbegun.run (h : s.Unbegun) (inputs : List NodeInput) :
    match s.fixed? inputs with
    | none => s.asked inputs = [] ∧ s.letters inputs = [] ∧ (s.run inputs).domain.unruled = .empty
    | some mode => (s.run inputs).abstraction = mode ∧
        (s.run inputs).domain.unruled = Domain.afterLetters mode (s.letters inputs) ∧
        ∀ q ∈ s.asked inputs, q.mode = mode := by
  -- As long as no children are added the session stays as it began, and the rest is a run of its own.
  induction inputs generalizing s with
  | nil => exact ⟨rfl, rfl, h.domain⟩
  | cons input rest ih =>
    obtain ⟨hletter, ⟨hadds, hstarted, habstraction, hdomain, hmode⟩ | ⟨hadds, hunbegun, hasks⟩⟩ :=
      h.next input
    · obtain ⟨hrun, hunruled, hasked⟩ := run_of_started hstarted rest
      rw [habstraction] at hrun hunruled hasked
      rw [fixed?, if_pos hadds]
      refine ⟨hrun, ?_, fun q hq => ?_⟩
      · rw [letters, hletter, Domain.afterLetters, ← hdomain]
        exact hunruled
      · obtain hnow | hlater := List.mem_append.1 hq
        · exact hmode q hnow
        · exact hasked q hlater
    · have hrest := ih hunbegun
      rw [fixed?, if_neg hadds, asked, letters, hasks, hletter]
      exact hrest

/-- Whatever requests, replies and waits make up the life of a session, and whatever they try to make
of its abstraction: children are asked on the paths of one abstraction, the one in force as the first
of them were added, all they send is taken up under it, and no device of the node and no id that the
registry has for one carries another scheme than its own. -/
theorem one_abstraction_throughout (config : Config) (inputs : List NodeInput) :
    let start := ofConfig config
    let s := start.run inputs
    match start.fixed? inputs with
    | none => start.asked inputs = [] ∧ start.letters inputs = [] ∧ s.domain.unruled = .empty
    | some mode => s.abstraction = mode ∧
        (∀ q ∈ start.asked inputs, q.request.path = q.stage.path mode) ∧
        s.domain.unruled = Domain.afterLetters mode (start.letters inputs) ∧
        s.domain.Under mode := by
  intro start s
  have hrun := (unbegun_ofConfig config).run inputs
  revert hrun
  cases start.fixed? inputs with
  | none => exact id
  | some mode =>
    rintro ⟨habstraction, hunruled, hmode⟩
    refine ⟨habstraction, fun q hq => ?_, hunruled, ?_⟩
    · rw [Inquiry.request, hmode q hq]
    · have hunder := Domain.under_afterLetters mode (start.letters inputs)
      rw [← hunruled] at hunder
      exact hunder.of_unruled

/-- A request with a body. -/
def asking (method : Method) (target : String) (body : Json) : NodeInput :=
  .request { method, target, body := Json.bytesOf body.render }

/-- The abstraction is changed before a first child is added, and is to be changed back before a second
one is. -/
def changingItsMind : List NodeInput :=
  [asking .put "/abstraction" (.object [("abstraction", .string "implicit")]),
    asking .post "/children/" (.object [("children", .array [.string "10.0.0.2"])]),
    asking .put "/abstraction" (.object [("abstraction", .string "explicit")]),
    asking .post "/children" (.object [("children", .array [.string " 10.0.0.3"])]),
    .reply 1 (.answered 200 (Json.bytesOf (TopologyDocument.devices
      [DeviceEntry.toJson { id := ⟨"of:1"⟩ }]).toJson.render)),
    .elapsed 500, .wake 1]

theorem one_abstraction_throughout_changingItsMind :
    let start := ofConfig {}
    let s := start.run changingItsMind
    s.abstraction = .implicit ∧
      (∃ q ∈ start.asked changingItsMind, q.child = "10.0.0.3" ∧ q.stage = .links ∧
        q.request.path = "/links/implicit") ∧
      (start.letters changingItsMind).length = 1 ∧ s.domain.Under .implicit := by
  intro start s
  have hfixed : start.fixed? changingItsMind = some .implicit := by decide +kernel
  have h := one_abstraction_throughout {} changingItsMind
  simp only [show (ofConfig {}).fixed? changingItsMind = some .implicit from hfixed] at h
  obtain ⟨habstraction, hpath, -, hunder⟩ := h
  have hasked : (⟨2, "10.0.0.3", .links, .implicit, some 1⟩ : Inquiry) ∈
      start.asked changingItsMind := by
    decide +kernel
  exact ⟨habstraction, ⟨_, hasked, rfl, rfl, hpath _ hasked⟩, by decide +kernel, hunder⟩

end Session

end Multidomain

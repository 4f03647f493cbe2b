import Multidomain.Proofs.Orchestration.Planning
import Multidomain.Proofs.Rest.Refusal

/-!
# What a request does to a session

A request that succeeds on the route for children adds children. Any other request leaves alone who is
asked for what, and of the topology it changes nothing but flow rules: at most it chooses the
abstraction of a session that has not begun, installs rules, or begins a new period of changes.
-/

namespace Multidomain

/-- The topology without its flow rules. -/
def Topology.unruled (t : Topology) : Topology := { t with flows := .empty }

/-- The domain without its flow rules. -/
def Domain.unruled (d : Domain) : Domain := { d with topology := d.topology.unruled }

namespace Session

/-- The request adds children to the session. -/
def AddsChildren (s : Session) (q : RestRequest) : Prop :=
  q.method = .post ∧ Route.ofTarget? q.target = some .children ∧ (s.serve q).answer.status = .ok

instance (s : Session) (q : RestRequest) : Decidable (s.AddsChildren q) :=
  inferInstanceAs (Decidable (_ ∧ _ ∧ _))

/-- What is left of a session by a request that adds no children. -/
structure Touched (s s' : Session) : Prop where
  eq : ∃ abstraction flows overview, s' =
    { s with
      abstraction, overview
      domain := { s.domain with topology := { s.domain.topology with flows } } }
  abstraction : s.started = true → s'.abstraction = s.abstraction
  overview : s'.overview = s.overview ∨ s'.overview = s.overview.clearChanges

variable {s s' : Session}

theorem Touched.refl (s : Session) : s.Touched s := ⟨⟨_, _, _, rfl⟩, fun _ => rfl, .inl rfl⟩

theorem Touched.unruled (h : s.Touched s') : s'.domain.unruled = s.domain.unruled := by
  obtain ⟨_, _, _, rfl⟩ := h.eq
  rfl

theorem touched_clearChanges (s : Session) :
    s.Touched { s with overview := s.overview.clearChanges } :=
  ⟨⟨_, _, _, rfl⟩, fun _ => rfl, .inr rfl⟩

theorem touched_provision (s : Session) (p : ProvisioningRequest) :
    s.Touched (s.provision p).1 := by
  have hrules := s.domain.topology_provision_eq s.abstraction s.config.appName p
  refine ⟨⟨s.abstraction, (s.domain.topology.applyFlowRules
    (s.domain.rulesFor s.config.appName p)).flows, s.overview, ?_⟩, fun _ => rfl, .inl rfl⟩
  rw [provision, hrules]
  rfl

theorem touched_applyFlows (s : Session) (flows : List Json) : s.Touched (s.applyFlows flows).1 := by
  -- Rules that are installed tell of no event, so that no observer learns of them.
  have hquiet : (s.applyFlows flows).1 =
      { s with
        domain := { s.domain with
          topology := s.domain.topology.applyFlowRules (FlowRule.ofJsonList flows) } } := by
    simp only [applyFlows, onTopology, advanceTo, observe, Overview.observeAll, List.foldl_nil,
      ite_self]
  rw [hquiet]
  exact ⟨⟨_, _, _, rfl⟩, fun _ => rfl, .inl rfl⟩

theorem respond_cases (s : Session) (route : Route) (body? : Option Json) :
    (∃ addresses, route = .children ∧ (s.respond route body?).answer.status = .ok ∧
        (s.respond route body?).session = (s.addChildren addresses).1 ∧
        (s.respond route body?).inquiries = (s.addChildren addresses).2) ∨
      (¬(route = .children ∧ (s.respond route body?).answer.status = .ok) ∧
        s.Touched (s.respond route body?).session ∧ (s.respond route body?).inquiries = []) := by
  have hresponse := s.response_respond route body?
  generalize s.respond route body? = served at hresponse ⊢
  cases hresponse with
  | added addresses => exact .inl ⟨addresses, rfl, rfl, rfl, rfl⟩
  | refused status hstatus =>
    refine .inr ⟨?_, .refl s, rfl⟩
    rcases hstatus with rfl | rfl <;> simp [reply]
  | shown hget =>
    refine .inr ⟨?_, .refl s, rfl⟩
    rintro ⟨rfl, -⟩
    cases hget
  | looked hget =>
    refine .inr ⟨?_, touched_clearChanges s, rfl⟩
    rintro ⟨rfl, -⟩
    cases hget
  | provisioned p => exact .inr ⟨by simp, touched_provision s p, rfl⟩
  | installed flows => exact .inr ⟨by simp, touched_applyFlows s flows, rfl⟩
  | chosen abstraction hstarted =>
    exact .inr ⟨by simp, ⟨⟨_, _, _, rfl⟩, fun h => absurd h hstarted, .inl rfl⟩, rfl⟩

/-- A request adds children, or it sends nothing to children and touches the session lightly. -/
theorem serve_cases (s : Session) (q : RestRequest) :
    (s.AddsChildren q ∧ ∃ addresses, (s.serve q).session = (s.addChildren addresses).1 ∧
        (s.serve q).inquiries = (s.addChildren addresses).2) ∨
      (¬s.AddsChildren q ∧ s.Touched (s.serve q).session ∧ (s.serve q).inquiries = []) := by
  obtain ⟨m, target, body⟩ := q
  have hother : m ≠ .post → ¬s.AddsChildren ⟨m, target, body⟩ := fun hm h => hm h.1
  -- Only these three methods get as far as a route.
  by_cases hm : m = .get ∨ m = .post ∨ m = .put
  · rcases s.serve_of_route hm target body with ⟨_, hserve⟩ | ⟨route, htarget, hmethod, hserve⟩
    · rw [AddsChildren, hserve]
      exact .inr ⟨by simp [reply], .refl s, rfl⟩
    · have hadds : s.AddsChildren ⟨m, target, body⟩ ↔
          route = .children ∧ (s.respond route (Json.parse? body)).answer.status = .ok := by
        rw [AddsChildren, hserve]
        constructor
        · rintro ⟨-, hroute, hok⟩
          exact ⟨Option.some.inj (htarget.symm.trans hroute), hok⟩
        · rintro ⟨rfl, hok⟩
          exact ⟨hmethod.symm, htarget, hok⟩
      rw [hadds, hserve]
      rcases s.respond_cases route (Json.parse? body) with ⟨addresses, hroute, hok, hrest⟩ | hrest
      · exact .inl ⟨⟨hroute, hok⟩, addresses, hrest⟩
      · exact .inr hrest
  · refine .inr ⟨hother fun h => hm (.inr (.inl h)), ?_⟩
    cases m with
    | get | post | put => simp at hm
    | head | delete | other => exact ⟨.refl s, rfl⟩

/-- Adding children changes nothing but whom the session asks for what. -/
theorem addChildren_frame (s : Session) (addresses : List String) :
    (s.addChildren addresses).1.domain = s.domain ∧
      (s.addChildren addresses).1.overview = s.overview := by
  have hstart : s.start.domain = s.domain ∧ s.start.overview = s.overview := by
    unfold start
    split <;> exact ⟨rfl, rfl⟩
  unfold addChildren
  simp only
  split
  · exact hstart
  · exact hstart

end Session

end Multidomain

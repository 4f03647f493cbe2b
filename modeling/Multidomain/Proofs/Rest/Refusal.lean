import Multidomain.Rest.Service

/-!
# Requests that change nothing

Which requests are refused is read off their method and their path alone: every method has a list of
paths on which it is taken, and one slash more at the end of a path makes no difference. What is
refused, there or later because of its body or of the state of the session, and what only probes
with `HEAD`, leaves the session as it was and sends nothing out.
-/

namespace Multidomain

namespace Method

/-- The paths on which a method is taken. -/
def paths : Method → List String
  | get =>
    ["/devices", "/devices/explicit", "/devices/summary", "/links", "/links/explicit",
      "/links/summary", "/links/implicit", "/hosts", "/edgeUpdates", "/edgeUpdates/explicit",
      "/edgeUpdates/summary", "/edgeUpdates/implicit"]
  | post => ["/provisioning", "/flows", "/children"]
  | put => ["/abstraction"]
  | head | delete | other => []

/-- Whether the path of a target, with one slash more or without it, is one on which the method is
taken. -/
def Takes (m : Method) (target : String) : Prop :=
  ∃ path ∈ m.paths, Route.pathOf target.toList = path.toList ∨
    Route.pathOf target.toList = path.toList ++ ['/']

instance (m : Method) (target : String) : Decidable (m.Takes target) :=
  inferInstanceAs (Decidable (∃ path ∈ m.paths, _ ∨ _))

theorem ofName_eq_get_or_post_or_put {name : String} (h : name ∈ ["GET", "POST", "PUT"]) :
    ofName name = get ∨ ofName name = post ∨ ofName name = put := by
  simp only [List.mem_cons, List.not_mem_nil, or_false] at h
  rcases h with rfl | rfl | rfl
  · exact Or.inl rfl
  · exact Or.inr (Or.inl rfl)
  · exact Or.inr (Or.inr rfl)

theorem ofName_eq_other {name : String} (h : name ∉ ["HEAD", "DELETE", "GET", "POST", "PUT"]) :
    ofName name = other := by
  simp only [List.mem_cons, List.not_mem_nil, or_false, not_or] at h
  unfold ofName
  split <;> simp_all

end Method

namespace Route

theorem exists_ofPlainPath?_iff {path : String} {m : Method} :
    (∃ route, ofPlainPath? path = some route ∧ route.method = m) ↔ path ∈ m.paths := by
  constructor
  · rintro ⟨route, hroute, rfl⟩
    unfold ofPlainPath? at hroute
    split at hroute <;> cases hroute <;> simp [method, Method.paths]
  · intro h
    cases m <;> simp only [Method.paths, List.mem_cons, List.not_mem_nil, or_false] at h
    case get => rcases h with rfl | rfl | rfl | rfl | rfl | rfl | rfl | rfl | rfl | rfl | rfl | rfl <;>
        exact ⟨_, rfl, rfl⟩
    case post => rcases h with rfl | rfl | rfl <;> exact ⟨_, rfl, rfl⟩
    case put => subst h; exact ⟨_, rfl, rfl⟩

theorem getLast?_ne_slash_of_mem_paths {path : String} {m : Method} (h : path ∈ m.paths) :
    path.toList.getLast? ≠ some '/' := by
  have hall : ∀ path ∈ m.paths, path.toList.getLast? ≠ some '/' := by cases m <;> decide
  exact hall path h

/-- A method is taken on a target exactly when the target has a route that takes it. -/
theorem exists_ofTarget?_iff {target : String} {m : Method} :
    (∃ route, ofTarget? target = some route ∧ route.method = m) ↔ m.Takes target := by
  unfold ofTarget? Method.Takes
  simp only
  split
  next rest hrest =>
    have hpath : pathOf target.toList = rest.reverse ++ ['/'] := by
      simpa using congrArg List.reverse hrest
    rw [exists_ofPlainPath?_iff, hpath]
    constructor
    · intro h
      exact ⟨_, h, Or.inr (by simp)⟩
    · rintro ⟨path, hmem, h | h⟩
      · exact absurd (by simp [← h]) (getLast?_ne_slash_of_mem_paths hmem)
      · rw [List.append_cancel_right h]
        simpa using hmem
  next hne =>
    rw [exists_ofPlainPath?_iff]
    constructor
    · intro h
      exact ⟨_, h, Or.inl (by simp)⟩
    · rintro ⟨path, hmem, h | h⟩
      · rw [h]
        simpa using hmem
      · exact absurd (by rw [h]; simp) (hne path.toList.reverse)

end Route

namespace Session

variable (s : Session)

/-- What can come of a request that has a route. -/
inductive Response : Route → Served → Prop
  | refused {route : Route} (status : Status) (h : status = .badRequest ∨ status = .forbidden) :
      Response route (s.reply status)
  | shown {route : Route} (h : route.method = .get) (document : Json) :
      Response route (s.present document)
  | looked {route : Route} (h : route.method = .get) (document : Json) :
      Response route (present { s with overview := s.overview.clearChanges } document)
  | provisioned (p : ProvisioningRequest) :
      Response .provisioning { (s.provision p).1.reply .ok with subRequests := (s.provision p).2.2 }
  | installed (flows : List Json) : Response .flows ((s.applyFlows flows).1.reply .ok)
  | added (addresses : List String) :
      Response .children
        { (s.addChildren addresses).1.reply .ok with inquiries := (s.addChildren addresses).2 }
  | chosen (abstraction : Abstraction) (h : ¬s.started = true) :
      Response .abstraction (reply { s with abstraction } .ok)

theorem response_changeAbstraction (body : Json) :
    s.Response .abstraction (s.changeAbstraction body) := by
  unfold changeAbstraction
  cases (readAbstraction? body).bind Abstraction.ofName? with
  | none => exact .refused .badRequest (.inl rfl)
  | some abstraction =>
    by_cases hstarted : s.started = true
    · simp only [setAbstraction, if_pos hstarted]
      exact .refused .forbidden (.inr rfl)
    · simp only [setAbstraction, if_neg hstarted]
      exact .chosen abstraction hstarted

theorem response_respond (route : Route) (body? : Option Json) :
    s.Response route (s.respond route body?) := by
  cases route with
  | devices view => exact .shown rfl _
  | hosts => exact .shown rfl _
  | links view => exact .looked rfl _
  | edgeUpdates view => exact .looked rfl _
  | provisioning =>
    unfold respond
    cases body?.bind ProvisioningRequest.read? with
    | none => exact .refused .badRequest (.inl rfl)
    | some p => exact .provisioned p
  | flows =>
    unfold respond
    cases body?.bind readFlows? with
    | none => exact .refused .badRequest (.inl rfl)
    | some flows => exact .installed flows
  | children =>
    unfold respond
    cases body?.bind readChildren? with
    | none => exact .refused .badRequest (.inl rfl)
    | some addresses => exact .added addresses
  | abstraction =>
    cases body? with
    | none => exact .refused .badRequest (.inl rfl)
    | some body => exact s.response_changeAbstraction body

/-- A request that is taken and does not succeed leaves nothing behind but its outcome. -/
theorem respond_of_not_ok {route : Route} {body? : Option Json}
    (h : (s.respond route body?).answer.status ≠ .ok) :
    ∃ status, status ≠ .notFound ∧ s.respond route body? = s.reply status := by
  have hresponse := s.response_respond route body?
  generalize s.respond route body? = served at h hresponse ⊢
  cases hresponse with
  | refused status hstatus =>
    refine ⟨status, ?_, rfl⟩
    rcases hstatus with rfl | rfl <;> decide
  | shown | looked | provisioned | installed | added | chosen => exact absurd rfl h

/-- With one of the methods of the routes, a request is answered by its route, if it has one. -/
theorem serve_of_route {m : Method} (hm : m = .get ∨ m = .post ∨ m = .put) (target : String)
    (body : List UInt8) :
    (¬m.Takes target ∧ s.serve ⟨m, target, body⟩ = s.reply .notFound) ∨
      ∃ route, Route.ofTarget? target = some route ∧ route.method = m ∧
        s.serve ⟨m, target, body⟩ = s.respond route (Json.parse? body) := by
  -- No method takes the route of another: such a target has no route for it.
  have hserve : s.serve ⟨m, target, body⟩ =
      ((Route.ofTarget? target).filter fun route => route.method = m).elim (s.reply .notFound)
        fun route => s.respond route (Json.parse? body) := by
    rcases hm with rfl | rfl | rfl <;>
      · simp only [serve]
        split <;> next heq => rw [heq, Option.elim]
  rw [hserve]
  cases hroute : (Route.ofTarget? target).filter fun route => route.method = m with
  | none =>
    refine Or.inl ⟨fun htakes => ?_, rfl⟩
    obtain ⟨route, htarget, hmethod⟩ := Route.exists_ofTarget?_iff.2 htakes
    simp [htarget, hmethod] at hroute
  | some route =>
    obtain ⟨htarget, hmethod⟩ := Option.filter_eq_some_iff.1 hroute
    exact Or.inr ⟨route, htarget, by simpa using hmethod, rfl⟩

/-- What a request gets by its method and its path, whatever the session, and that it changes
nothing where it only probes or does not succeed. -/
theorem probes_and_refusals_change_nothing (s : Session) (name target : String)
    (body : List UInt8) :
    let served := s.serve { method := .ofName name, target, body }
    (name = "HEAD" → served.answer.status.code = 200) ∧
      (name = "DELETE" → served.answer.status.code = 404) ∧
      (name ∉ ["HEAD", "DELETE", "GET", "POST", "PUT"] → served.answer.status.code = 405) ∧
      (name ∈ ["GET", "POST", "PUT"] →
        (served.answer.status.code = 404 ↔ ¬(Method.ofName name).Takes target)) ∧
      (name = "HEAD" ∨ served.answer.status.code ≠ 200 →
        served.session = s ∧ served.inquiries = [] ∧ served.subRequests = []) := by
  by_cases hhead : name = "HEAD"
  · subst hhead
    exact ⟨fun _ => rfl, by simp, by simp, by simp, fun _ => ⟨rfl, rfl, rfl⟩⟩
  by_cases hdelete : name = "DELETE"
  · subst hdelete
    exact ⟨by simp, fun _ => rfl, by simp, by simp, fun _ => ⟨rfl, rfl, rfl⟩⟩
  by_cases hname : name ∈ ["GET", "POST", "PUT"]
  · have htaken : ¬name ∉ ["HEAD", "DELETE", "GET", "POST", "PUT"] :=
      not_not_intro (List.mem_cons_of_mem _ (List.mem_cons_of_mem _ hname))
    refine ⟨fun h => absurd h hhead, fun h => absurd h hdelete, fun h => absurd h htaken, ?_⟩
    rcases s.serve_of_route (Method.ofName_eq_get_or_post_or_put hname) target body with
      ⟨hnot, hserve⟩ | ⟨route, htarget, hmethod, hserve⟩
    · rw [hserve]
      exact ⟨fun _ => ⟨fun _ => hnot, fun _ => rfl⟩, fun _ => ⟨rfl, rfl, rfl⟩⟩
    · have htakes := Route.exists_ofTarget?_iff.1 ⟨route, htarget, hmethod⟩
      rw [hserve]
      by_cases hok : (s.respond route (Json.parse? body)).answer.status = .ok
      · rw [hok]
        exact ⟨fun _ => by simp [Status.code, htakes], by simp [Status.code, hhead]⟩
      · obtain ⟨status, hstatus, hreply⟩ := s.respond_of_not_ok hok
        have hcode : status.code ≠ 404 := by
          cases status <;> simp_all [Status.code]
        rw [hreply]
        exact ⟨fun _ => by simp [reply, hcode, htakes], fun _ => ⟨rfl, rfl, rfl⟩⟩
  · have hserve : s.serve { method := .ofName name, target, body } = s.reply .methodNotAllowed := by
      rw [Method.ofName_eq_other (by simp_all)]
      rfl
    simp only [hserve]
    exact ⟨fun h => absurd h hhead, fun h => absurd h hdelete, fun _ => rfl,
      fun h => absurd h hname, fun _ => ⟨rfl, rfl, rfl⟩⟩

/-- After its start a session forbids a change of its abstraction, on a path with one slash more, and
does not find that path with two. -/
theorem probes_and_refusals_change_nothing_after_start :
    let s := (Session.ofConfig {}).start
    let body := Json.bytesOf (Json.object [("abstraction", .string "implicit")]).render
    (s.serve ⟨.ofName "PUT", "/abstraction/", body⟩).answer.status.code = 403 ∧
      (s.serve ⟨.ofName "PUT", "/abstraction/", body⟩).session = s ∧
      (s.serve ⟨.ofName "PUT", "/abstraction//?x", body⟩).answer.status.code = 404 := by
  intro s body
  have hcode : (s.serve ⟨.ofName "PUT", "/abstraction/", body⟩).answer.status.code = 403 := by
    decide +kernel
  have hone := probes_and_refusals_change_nothing s "PUT" "/abstraction/" body
  have htwo := probes_and_refusals_change_nothing s "PUT" "/abstraction//?x" body
  exact ⟨hcode, (hone.2.2.2.2 (Or.inr (by rw [hcode]; decide))).1,
    (htwo.2.2.2.1 (by decide)).2 (by decide)⟩

end Session

end Multidomain

import Multidomain.Proofs.Mapping.Registry

/-!
# Operations that are done in place

The tables of a session are changed where they stand, and what has been written before a fault stays
written: the operations that can fail are computations on a state that a fault does not restore. Where one
of them succeeds it leaves and answers what the function of its name says, and where it fails it fails with
the same fault. What a failing one leaves behind is a question that the function cannot answer. Most leave
the state alone; a fold may have given a port to its source before it finds that the virtual device of its
target has none to give, unless the registry is `Housed`.
-/

namespace Multidomain

/-- What a computation leaves behind, whether it succeeds or not. -/
def stateAfter {ε σ α : Type} (x : EStateM ε σ α) (s : σ) : σ :=
  match x.run s with
  | .ok _ s' => s'
  | .error _ s' => s'

/-- The result, done in place, of a pure operation that leaves the state alone where it fails. -/
def inPlace {ε σ α : Type} (s : σ) : Except ε (σ × α) → EStateM.Result ε σ α
  | .ok (s', a) => .ok a s'
  | .error fault => .error fault s

theorem run_bind {ε σ α β : Type} (x : EStateM ε σ α) (f : α → EStateM ε σ β) (s : σ) :
    (x >>= f).run s =
      match x.run s with
      | .ok a s' => (f a).run s'
      | .error fault s' => .error fault s' := rfl

theorem run_get_bind {ε σ β : Type} (f : σ → EStateM ε σ β) (s : σ) :
    (get >>= f).run s = (f s).run s := rfl

/-- A result in place is that of a pure operation, but for what a failing one leaves behind. -/
def Agrees {ε σ α : Type} (result : EStateM.Result ε σ α) : Except ε (σ × α) → Prop
  | .ok (s', a) => result = .ok a s'
  | .error fault => ∃ s', result = .error fault s'

theorem agrees_inPlace {ε σ α : Type} (s : σ) (pure : Except ε (σ × α)) :
    Agrees (inPlace s pure) pure := by
  cases pure with
  | ok answer => rfl
  | error fault => exact ⟨s, rfl⟩

section Agreement

variable {ε σ α β : Type} {x : EStateM ε σ α} {f : α → EStateM ε σ β} {s : σ}

theorem Agrees.answer {y : Except ε (σ × α)} (h : Agrees (x.run s) y) :
    x.run' s = y.toOption.map Prod.snd := by
  delta EStateM.run'
  cases y with
  | ok answer =>
    rw [show x.run s = .ok answer.2 answer.1 from h]
    rfl
  | error fault =>
    obtain ⟨s', hs'⟩ := h
    rw [hs']
    rfl

theorem Agrees.bind {y : Except ε (σ × α)} {g : σ × α → Except ε (σ × β)} (h : Agrees (x.run s) y)
    (hf : ∀ s' a, y = .ok (s', a) → Agrees ((f a).run s') (g (s', a))) :
    Agrees ((x >>= f).run s) (y >>= g) := by
  rw [run_bind]
  cases y with
  | ok answer =>
    rw [show x.run s = .ok answer.2 answer.1 from h]
    exact hf answer.1 answer.2 rfl
  | error fault =>
    obtain ⟨s', hs'⟩ := h
    rw [hs']
    exact ⟨s', rfl⟩

/-- A computation that reads the state leaves it as it is. -/
theorem Agrees.bind_read {y : Except ε α} {g : α → Except ε (σ × β)}
    (h : x.run s = inPlace s (y.map (s, ·))) (hf : ∀ a, y = .ok a → Agrees ((f a).run s) (g a)) :
    Agrees ((x >>= f).run s) (y >>= g) := by
  rw [run_bind, h]
  cases y with
  | ok a => exact hf a rfl
  | error fault => exact ⟨s, rfl⟩

end Agreement

namespace PortBook

theorem run_allocateInPlace (b : PortBook) (device : DeviceId) (point : ConnectPoint) :
    (allocateInPlace device point).run b = inPlace b (b.allocate device point) := by
  rw [allocateInPlace, run_get_bind, allocate]
  cases Table.get? b device with
  | none => rfl
  | some space => rfl

theorem answer_allocateInPlace (b : PortBook) (device : DeviceId) (point : ConnectPoint) :
    (allocateInPlace device point).run' b = (b.allocate device point).toOption.map Prod.snd := by
  refine Agrees.answer ?_
  rw [run_allocateInPlace]
  exact agrees_inPlace ..

end PortBook

namespace Registry

variable {r r' : Registry} {real link : Ends} {src dst : DeviceId}

theorem run_virtualInPlace (r : Registry) (device : DeviceId) :
    (virtualInPlace device).run r = inPlace r ((r.virtual device).map (r, ·)) := by
  rw [virtualInPlace, run_get_bind, virtual]
  cases r.virtual? device with
  | none => rfl
  | some virtual => rfl

theorem run_allocatePortInPlace (r : Registry) (virtual : DeviceId) (point : ConnectPoint) :
    (allocatePortInPlace virtual point).run r = inPlace r (r.allocatePort virtual point) := by
  rw [EStateM.run, allocatePortInPlace, PortBook.run_allocateInPlace, allocatePort]
  cases r.ports.allocate virtual point with
  | ok answer => rfl
  | error fault => rfl

theorem run_exposePointInPlace (r : Registry) (point : ConnectPoint) :
    (exposePointInPlace point).run r = inPlace r (r.exposePoint point) := by
  rw [exposePointInPlace, exposePoint, run_bind, run_virtualInPlace]
  cases r.virtual point.device with
  | error fault => rfl
  | ok device =>
    change (allocatePortInPlace device point >>= _).run r
      = inPlace r (r.allocatePort device point >>= _)
    rw [run_bind, run_allocatePortInPlace]
    cases r.allocatePort device point with
    | error fault => rfl
    | ok answer => rfl

theorem links_of_allocatePort {virtual : DeviceId} {point : ConnectPoint}
    {port : PortNumber} (h : r.allocatePort virtual point = .ok (r', port)) : r'.links = r.links := by
  obtain ⟨_, _, _, rfl⟩ := allocatePort_of_ok h
  rfl

theorem agrees_allocatePort (r : Registry) (virtual : DeviceId) (point : ConnectPoint) :
    Agrees ((allocatePortInPlace virtual point).run r) (r.allocatePort virtual point) := by
  rw [run_allocatePortInPlace]
  exact agrees_inPlace ..

theorem agrees_linkBetween (r : Registry) (src dst : DeviceId) (real : Ends) :
    Agrees ((linkBetweenInPlace src dst real).run r) (r.linkBetween src dst real) := by
  rw [linkBetweenInPlace, linkBetween, run_get_bind]
  cases hspan : Table.get? r.links.spans (.of src dst) with
  | some span => rfl
  | none =>
    refine (agrees_allocatePort ..).bind fun r₁ srcPort hsrc => ?_
    refine (agrees_allocatePort ..).bind fun r₂ dstPort hdst => ?_
    have hlinks : r₂.links = r.links :=
      (links_of_allocatePort hdst).trans (links_of_allocatePort hsrc)
    simp only [LinkBook.ensure, hlinks, hspan]
    change _ = EStateM.Result.ok _ _
    rw [← hlinks]
    rfl

theorem agrees_foldLink (r : Registry) (real : Ends) :
    Agrees ((foldLinkInPlace real).run r) (r.foldLink real) := by
  refine Agrees.bind_read (run_virtualInPlace ..) fun src _ => ?_
  refine Agrees.bind_read (run_virtualInPlace ..) fun dst _ => ?_
  refine (agrees_linkBetween ..).bind fun r' link _ => ?_
  rfl

theorem run_foldLinkInPlace_of_ok (h : r.foldLink real = .ok (r', link)) :
    (foldLinkInPlace real).run r = .ok link r' := by
  have hagrees := agrees_foldLink r real
  rw [h] at hagrees
  exact hagrees

/-- A fold that finds an end unmapped has not changed anything yet. -/
theorem run_foldLinkInPlace_of_unmapped (r : Registry) (real : Ends)
    (h : r.virtual? real.src.device = none ∨ r.virtual? real.dst.device = none) :
    ∃ fault, (foldLinkInPlace real).run r = .error fault r := by
  rw [foldLinkInPlace, run_bind, run_virtualInPlace, virtual]
  cases hsrc : r.virtual? real.src.device with
  | none => exact ⟨_, rfl⟩
  | some src =>
    change ∃ fault, (virtualInPlace real.dst.device >>= _).run r = .error fault r
    rw [run_bind, run_virtualInPlace, virtual, h.resolve_left (by simp [hsrc])]
    exact ⟨_, rfl⟩

theorem stateAfter_foldLinkInPlace_of_unmapped (r : Registry) (real : Ends)
    (h : r.virtual? real.src.device = none ∨ r.virtual? real.dst.device = none) :
    stateAfter (foldLinkInPlace real) r = r := by
  obtain ⟨_, hrun⟩ := run_foldLinkInPlace_of_unmapped r real h
  rw [stateAfter, hrun]

theorem run_linkBetweenInPlace_of_error {fault : TableFault}
    (h : (linkBetweenInPlace src dst real).run r = .error fault r') :
    r' = r ∨ ∃ space, Table.get? r.ports src = some space ∧
      r' = { r with ports := Table.set r.ports src (space.allocate real.src) } := by
  rw [linkBetweenInPlace, run_get_bind] at h
  cases hspan : Table.get? r.links.spans (.of src dst) with
  | some span =>
    rw [hspan] at h
    cases h
  | none =>
    simp only [hspan, run_bind, run_allocatePortInPlace] at h
    cases hsrc : r.allocatePort src real.src with
    | error fault =>
      rw [hsrc] at h
      cases h
      exact .inl rfl
    | ok answer =>
      obtain ⟨space, hspace, -, hgiven⟩ := allocatePort_of_ok hsrc
      simp only [hsrc, inPlace, hgiven] at h
      refine .inr ⟨space, hspace, ?_⟩
      split at h
      · cases h
      · next hdst =>
        cases h
        cases hsecond : Registry.allocatePort _ dst real.dst with
        | error fault' =>
          rw [hsecond] at hdst
          cases hdst
          rfl
        | ok second =>
          rw [hsecond] at hdst
          cases hdst

/-- A fold that fails leaves nothing behind but a port for its source. -/
theorem run_foldLinkInPlace_of_error {fault : TableFault}
    (h : (foldLinkInPlace real).run r = .error fault r') :
    r' = r ∨ ∃ src space, r.virtual? real.src.device = some src ∧
      Table.get? r.ports src = some space ∧
      r' = { r with ports := Table.set r.ports src (space.allocate real.src) } := by
  simp only [foldLinkInPlace, run_bind, run_virtualInPlace, virtual] at h
  cases hsrc : r.virtual? real.src.device with
  | none =>
    rw [hsrc] at h
    cases h
    exact .inl rfl
  | some src =>
    cases hdst : r.virtual? real.dst.device with
    | none =>
      simp only [hsrc, hdst, Except.map, inPlace] at h
      cases h
      exact .inl rfl
    | some dst =>
      simp only [hsrc, hdst, Except.map, inPlace] at h
      split at h
      · cases h
      · next hbetween =>
        cases h
        obtain hsame | ⟨space, hspace, hgiven⟩ := run_linkBetweenInPlace_of_error hbetween
        · exact .inl hsame
        · exact .inr ⟨src, space, rfl, hspace, hgiven⟩

theorem stateAfter_foldLinkInPlace_of_error {fault : TableFault} (h : r.foldLink real = .error fault) :
    stateAfter (foldLinkInPlace real) r = r ∨ ∃ src space, r.virtual? real.src.device = some src ∧
      Table.get? r.ports src = some space ∧
      stateAfter (foldLinkInPlace real) r
        = { r with ports := Table.set r.ports src (space.allocate real.src) } := by
  have hagrees := agrees_foldLink r real
  rw [h] at hagrees
  obtain ⟨r', hrun⟩ := hagrees
  rw [stateAfter, hrun]
  exact run_foldLinkInPlace_of_error hrun

theorem exists_ports_of_foldLink_error {fault : TableFault} (h : r.foldLink real = .error fault) :
    ∃ ports, stateAfter (foldLinkInPlace real) r = { r with ports } := by
  obtain hsame | ⟨src, space, -, -, hgiven⟩ := stateAfter_foldLinkInPlace_of_error h
  · exact ⟨r.ports, hsame⟩
  · exact ⟨_, hgiven⟩

/-- Every virtual device that a device belongs to has a port space. -/
structure Housed (r : Registry) : Prop where
  isOpen : ∀ {device virtual}, r.virtual? device = some virtual → r.ports.isOpen virtual = true

theorem exists_space_of_isOpen {b : PortBook} {device : DeviceId} (h : b.isOpen device = true) :
    ∃ space, Table.get? b device = some space := by
  rw [PortBook.isOpen, Table.contains_eq_isSome_get?] at h
  exact Option.isSome_iff_exists.1 h

theorem Housed.exists_foldLink (h : r.Housed) (hsrc : r.virtual? real.src.device = some src)
    (hdst : r.virtual? real.dst.device = some dst) :
    ∃ r' link, r.foldLink real = .ok (r', link) := by
  cases hspan : Table.get? r.links.spans (.of src dst) with
  | some span => exact ⟨_, _, foldLink_of_span hsrc hdst hspan⟩
  | none =>
    obtain ⟨srcSpace, hsrcSpace⟩ := exists_space_of_isOpen (h.isOpen hsrc)
    have hdstOpen := h.isOpen hdst
    rw [← isOpen_set_of_some hsrcSpace (srcSpace.allocate real.src)] at hdstOpen
    obtain ⟨dstSpace, hdstSpace⟩ := exists_space_of_isOpen hdstOpen
    exact ⟨_, _, foldLink_of_no_span hsrc hdst hspan hsrcSpace hdstSpace⟩

end Registry

end Multidomain

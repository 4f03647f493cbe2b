import Multidomain.Mapping.Registry
import Multidomain.Proofs.Mapping.LinkBook

/-!
# What folding and naming do to a registry

The operations of a registry that can fail are given here as functions: each answers the registry that
it leaves behind where it succeeds. They are what `InPlace` relates the operations on the tables to, and
what most of the theory speaks of.

Folding a real link has two outcomes. Where the two virtual devices are already linked, the real
link is recorded for that virtual link and nothing else changes; where they are not, its two ends
are given ports and the virtual link between these ports is entered. The two equations below say so
in full, and `foldLink_of_ok` that a fold which succeeds is one of the two. The rest of the theory
uses them in the place of the definition. An explicit id that is given another native id takes the way
back from the old one with it.
-/

namespace Multidomain

/-- A computation that succeeds does so step by step. -/
theorem exists_of_bind_eq_ok {ε α β : Type} {x : Except ε α} {f : α → Except ε β} {b : β}
    (h : x >>= f = .ok b) : ∃ a, x = .ok a ∧ f a = .ok b := by
  cases x with
  | error fault => cases h
  | ok a => exact ⟨a, rfl, h⟩

def PortBook.allocate (b : PortBook) (device : DeviceId) (point : ConnectPoint) :
    Except TableFault (PortBook × PortNumber) :=
  match Table.get? b device with
  | none => .error (.notInitialized device)
  | some space => .ok (Table.set b device (space.allocate point), space.portAfter point)

namespace Registry

def virtual (r : Registry) (device : DeviceId) : Except TableFault DeviceId :=
  match r.virtual? device with
  | some v => .ok v
  | none => .error (.unmapped device)

def allocatePort (r : Registry) (virtual : DeviceId) (point : ConnectPoint) :
    Except TableFault (Registry × PortNumber) := do
  let (ports, port) ← r.ports.allocate virtual point
  return ({ r with ports }, port)

def exposePoint (r : Registry) (point : ConnectPoint) :
    Except TableFault (Registry × ConnectPoint) := do
  let device ← r.virtual point.device
  let (r, port) ← r.allocatePort device point
  return (r, { device, port })

def linkBetween (r : Registry) (src dst : DeviceId) (real : Ends) :
    Except TableFault (Registry × Ends) :=
  match Table.get? r.links.spans (.of src dst) with
  | some link => .ok (r, LinkBook.seenFrom link src)
  | none => do
    let (r, srcPort) ← r.allocatePort src real.src
    let (r, dstPort) ← r.allocatePort dst real.dst
    let (links, link) := r.links.ensure src dst ⟨⟨src, srcPort⟩, ⟨dst, dstPort⟩⟩
    return ({ r with links }, link)

def foldLink (r : Registry) (real : Ends) : Except TableFault (Registry × Ends) := do
  let src ← r.virtual real.src.device
  let dst ← r.virtual real.dst.device
  let (r, link) ← r.linkBetween src dst real
  return ({ r with links := r.links.record real link }, link)

variable {r : Registry} {real : Ends} {src dst : DeviceId}

theorem virtual_of_ok {device virtual : DeviceId} (h : r.virtual device = .ok virtual) :
    r.virtual? device = some virtual := by
  unfold Registry.virtual at h
  cases hvirtual : r.virtual? device with
  | none => simp [hvirtual] at h
  | some v =>
    simp only [hvirtual, Except.ok.injEq] at h
    rw [h]

/-- The way back from a native id, after an explicit id is given one. -/
theorem explicit?_setAlias (r : Registry) (explicit native other : DeviceId) :
    (r.setAlias explicit native).explicit? other =
      if native = other then some explicit
      else if r.native? explicit = some other then none else r.explicit? other := by
  simp only [explicit?, setAlias, Table.get?_set, native?]
  by_cases hother : native = other
  · rw [if_pos hother, if_pos hother]
  · rw [if_neg hother, if_neg hother]
    split
    · next previous hprevious =>
      by_cases hsame : previous = native
      · subst hsame
        simp [hprevious, hother]
      · simp [hprevious, hsame, Table.get?_erase, eq_comm]
    · next hnone => simp [hnone]

theorem allocatePort_of_ok {r' : Registry} {device : DeviceId} {point : ConnectPoint}
    {port : PortNumber} (h : r.allocatePort device point = .ok (r', port)) :
    ∃ space, Table.get? r.ports device = some space ∧ port = space.portAfter point ∧
      r' = { r with ports := Table.set r.ports device (space.allocate point) } := by
  obtain ⟨⟨ports, port'⟩, hallocate, hresult⟩ := exists_of_bind_eq_ok h
  cases hresult
  unfold PortBook.allocate at hallocate
  cases hspace : Table.get? r.ports device with
  | none => simp [hspace] at hallocate
  | some space =>
    simp only [hspace, Except.ok.injEq, Prod.mk.injEq] at hallocate
    obtain ⟨rfl, rfl⟩ := hallocate
    exact ⟨space, rfl, rfl, rfl⟩

theorem foldLink_of_span {span : Ends} (hsrc : r.virtual? real.src.device = some src)
    (hdst : r.virtual? real.dst.device = some dst)
    (hspan : Table.get? r.links.spans (.of src dst) = some span) :
    r.foldLink real = .ok
      ({ r with links := r.links.record real (LinkBook.seenFrom span src) },
        LinkBook.seenFrom span src) := by
  have hbetween : r.linkBetween src dst real = .ok (r, LinkBook.seenFrom span src) := by
    rw [linkBetween, hspan]
  simp only [foldLink, virtual, hsrc, hdst]
  change (r.linkBetween src dst real >>= _) = _
  rw [hbetween]
  rfl

/-- The virtual link that the first real link between two virtual devices gives rise to: its ends
are the ports that the ends of the real link hold from then on. -/
def firstLink (src dst : DeviceId) (real : Ends) (srcSpace dstSpace : PortSpace) : Ends :=
  ⟨⟨src, srcSpace.portAfter real.src⟩, ⟨dst, dstSpace.portAfter real.dst⟩⟩

theorem foldLink_of_no_span {srcSpace dstSpace : PortSpace}
    (hsrc : r.virtual? real.src.device = some src) (hdst : r.virtual? real.dst.device = some dst)
    (hnone : Table.get? r.links.spans (.of src dst) = none)
    (hsrcSpace : Table.get? r.ports src = some srcSpace)
    (hdstSpace : Table.get? (Table.set r.ports src (srcSpace.allocate real.src)) dst =
      some dstSpace) :
    let link := firstLink src dst real srcSpace dstSpace
    r.foldLink real = .ok
      ({ r with
         ports := Table.set (Table.set r.ports src (srcSpace.allocate real.src)) dst
           (dstSpace.allocate real.dst)
         links := LinkBook.record
           { r.links with spans := Table.set r.links.spans (.of src dst) link } real link },
        link) := by
  intro link
  have hseen : LinkBook.seenFrom link src = link := by
    simp [link, firstLink, LinkBook.seenFrom, Ends.orientedFrom?]
  have hbetween : r.linkBetween src dst real = .ok
      ({ r with
         ports := Table.set (Table.set r.ports src (srcSpace.allocate real.src)) dst
           (dstSpace.allocate real.dst)
         links := { r.links with spans := Table.set r.links.spans (.of src dst) link } },
        link) := by
    simp only [linkBetween, hnone, allocatePort, PortBook.allocate, hsrcSpace, bind, Except.bind,
      pure, Except.pure, hdstSpace, LinkBook.ensure]
    rw [show (⟨⟨src, srcSpace.portAfter real.src⟩, ⟨dst, dstSpace.portAfter real.dst⟩⟩ : Ends) =
      link from rfl, hseen]
  simp only [foldLink, virtual, hsrc, hdst]
  change (r.linkBetween src dst real >>= _) = _
  rw [hbetween]
  rfl

theorem foldLink_of_ok {r' : Registry} {link : Ends} (hsrc : r.virtual? real.src.device = some src)
    (hdst : r.virtual? real.dst.device = some dst) (h : r.foldLink real = .ok (r', link)) :
    (∃ span, Table.get? r.links.spans (.of src dst) = some span ∧
      LinkBook.seenFrom span src = link ∧ { r with links := r.links.record real link } = r') ∨
    ∃ srcSpace dstSpace, Table.get? r.links.spans (.of src dst) = none ∧
      Table.get? r.ports src = some srcSpace ∧
      Table.get? (Table.set r.ports src (srcSpace.allocate real.src)) dst = some dstSpace ∧
      firstLink src dst real srcSpace dstSpace = link ∧
      { r with
        ports := Table.set (Table.set r.ports src (srcSpace.allocate real.src)) dst
          (dstSpace.allocate real.dst)
        links := LinkBook.record
          { r.links with spans := Table.set r.links.spans (.of src dst) link } real link } = r' := by
  cases hspan : Table.get? r.links.spans (.of src dst) with
  | some span =>
    rw [foldLink_of_span hsrc hdst hspan] at h
    obtain ⟨rfl, rfl⟩ := Prod.mk.inj (Except.ok.inj h)
    exact .inl ⟨span, rfl, rfl, rfl⟩
  | none =>
    -- the fold has succeeded, so both allocations have found a port space
    obtain ⟨src', hsrc', hrest⟩ := exists_of_bind_eq_ok h
    obtain ⟨dst', hdst', hrest⟩ := exists_of_bind_eq_ok hrest
    obtain ⟨_, hbetween, -⟩ := exists_of_bind_eq_ok hrest
    obtain rfl : src = src' := Option.some.inj (hsrc.symm.trans (virtual_of_ok hsrc'))
    obtain rfl : dst = dst' := Option.some.inj (hdst.symm.trans (virtual_of_ok hdst'))
    rw [linkBetween, hspan] at hbetween
    obtain ⟨_, hfirst, hbetween⟩ := exists_of_bind_eq_ok hbetween
    obtain ⟨_, hsecond, -⟩ := exists_of_bind_eq_ok hbetween
    obtain ⟨srcSpace, hsrcSpace, -, hregistry⟩ := allocatePort_of_ok hfirst
    obtain ⟨dstSpace, hdstSpace, -, -⟩ := allocatePort_of_ok hsecond
    rw [hregistry] at hdstSpace
    rw [foldLink_of_no_span hsrc hdst hspan hsrcSpace hdstSpace] at h
    obtain ⟨rfl, rfl⟩ := Prod.mk.inj (Except.ok.inj h)
    exact .inr ⟨srcSpace, dstSpace, rfl, hsrcSpace, hdstSpace, rfl, rfl⟩

theorem exposePoint_of_ok {point location : ConnectPoint} {r' : Registry}
    (h : r.exposePoint point = .ok (r', location)) :
    ∃ space, r.virtual? point.device = some location.device ∧
      Table.get? r.ports location.device = some space ∧ location.port = space.portAfter point ∧
      r' = { r with ports := Table.set r.ports location.device (space.allocate point) } := by
  obtain ⟨device, hdevice, h⟩ := exists_of_bind_eq_ok h
  obtain ⟨⟨r'', port⟩, hport, hresult⟩ := exists_of_bind_eq_ok h
  cases hresult
  obtain ⟨space, hspace, hport, hregistry⟩ := allocatePort_of_ok hport
  exact ⟨space, virtual_of_ok hdevice, hspace, hport, hregistry⟩

theorem isOpen_openSpace (b : PortBook) (device other : DeviceId) :
    (b.openSpace device).isOpen other = (device == other || b.isOpen other) := by
  unfold PortBook.openSpace PortBook.isOpen
  by_cases hopen : b.contains device = true
  · rw [if_pos hopen]
    by_cases hsame : device = other
    · subst hsame
      simp [hopen]
    · simp [hsame]
  · rw [if_neg hopen]
    by_cases hsame : device = other <;> simp [Table.contains_eq_isSome_get?, Table.get?_set, hsame]

theorem isOpen_set_of_some {b : PortBook} {device : DeviceId} {space : PortSpace}
    (h : Table.get? b device = some space) (next : PortSpace) (other : DeviceId) :
    PortBook.isOpen (Table.set b device next) other = b.isOpen other := by
  unfold PortBook.isOpen
  rw [Table.contains_eq_isSome_get?, Table.contains_eq_isSome_get?, Table.get?_set]
  by_cases hsame : device = other
  · subst hsame
    simp [h]
  · simp [hsame]

end Registry

end Multidomain

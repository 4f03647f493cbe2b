import Multidomain.Proofs.Mapping.PortBook
import Multidomain.Proofs.Orchestration.Contents
import Multidomain.Proofs.Orchestration.MixedHistory

/-!
# Runs of implicit devices and hosts

Under the implicit abstraction every device of a child writes the same owner, port space and virtual
device, and the mapping of its own id. A host is given a place at a virtual port. The port depends on
what was placed before it, but once given it stays, so a run of hosts comes to a single list of writes
as well: those of the places that the hosts have at the end of the run.
-/

namespace Multidomain

namespace PortBook

/-- Give a connect point a port on a device, if the device has a port space. -/
def give (b : PortBook) (device : DeviceId) (point : ConnectPoint) : PortBook :=
  match Table.get? b device with
  | some space => Table.set b device (space.allocate point)
  | none => b

variable {b : PortBook} {virtual real : ConnectPoint}

theorem Holds.give (h : Holds b virtual real) (device : DeviceId) (point : ConnectPoint) :
    Holds (b.give device point) virtual real := by
  unfold PortBook.give
  split
  · next space hspace => exact h.allocate hspace point
  · exact h

/-- A connect point that has a port is given no other. -/
theorem Holds.give_eq_self (h : Holds b virtual real) : b.give virtual.device real = b := by
  obtain ⟨space, hspace, hmem, -⟩ := h
  unfold PortBook.give
  rw [hspace]
  simp only [PortSpace.allocate_of_mem hmem]
  refine Roster.put_eq_self (a := (virtual.device, space)) ?_
  exact Roster.mem_items_iff.1 (Table.get?_eq_some_iff.1 hspace)

end PortBook

/-- Where a connect point would appear now. -/
def Registry.seat? (r : Registry) (point : ConnectPoint) : Option ConnectPoint := do
  let device ← r.virtual? point.device
  let space ← Table.get? r.ports device
  return ⟨device, space.portAfter point⟩

theorem Registry.seat?_of_holds {r : Registry} {virtual real : ConnectPoint}
    (hvirtual : r.virtual? real.device = some virtual.device) (h : r.ports.Holds virtual real) :
    r.seat? real = some virtual := by
  obtain ⟨space, hspace, -, hport⟩ := h
  simp [seat?, hvirtual, hspace, ← hport]

theorem Registry.toOption_exposePoint (r : Registry) (point : ConnectPoint) :
    (r.exposePoint point).toOption = (r.seat? point).map fun virtual =>
      ({ r with ports := r.ports.give virtual.device point }, virtual) := by
  unfold exposePoint Registry.virtual allocatePort PortBook.allocate seat? PortBook.give
  cases r.virtual? point.device with
  | none => rfl
  | some device =>
    cases hspace : Table.get? r.ports device with
    | none => simp [bind, Except.bind, hspace, Except.toOption]
    | some space => simp [bind, Except.bind, pure, Except.pure, hspace, Except.toOption]

theorem Registry.seat?_eq_some {r : Registry} {virtual real : ConnectPoint}
    (h : r.seat? real = some virtual) :
    r.virtual? real.device = some virtual.device ∧
      ∃ space, Table.get? r.ports virtual.device = some space
        ∧ virtual.port = space.portAfter real := by
  obtain ⟨device, hdevice, h⟩ := Option.bind_eq_some_iff.1 h
  obtain ⟨space, hspace, h⟩ := Option.bind_eq_some_iff.1 h
  cases h
  exact ⟨hdevice, space, hspace, rfl⟩

/-- Registries that differ in what devices write only. -/
theorem Registry.same_of_devices (r : Registry) {owners owners' : Table DeviceId String}
    {virtuals virtuals' : Table DeviceId DeviceId} {ports ports' : PortBook}
    (howners : owners.Same owners') (hvirtuals : virtuals.Same virtuals') (hports : ports.Same ports') :
    Registry.Same { r with owners, virtuals, ports }
      { r with owners := owners', virtuals := virtuals', ports := ports' } :=
  ⟨howners, .refl _, .refl _, hvirtuals, hports, .refl _, .refl _, .refl _⟩

namespace Implicit

open ChildAddress (virtualDevice)

/-- A host and the virtual port at which it appears. -/
structure Placement where
  id : HostId
  addresses : List Ip
  real : ConnectPoint
  virtual : ConnectPoint

namespace Placement

def host (p : Placement) : Host := { id := p.id, addresses := p.addresses, location := p.virtual }

/-- The virtual device at which the host appears. -/
def home (p : Placement) : HostId × DeviceId := (p.id, p.virtual.device)

/-- The real place and the virtual one. -/
def pinned (p : Placement) : PinnedHost × PinnedHost := (⟨p.id, p.real⟩, ⟨p.id, p.virtual⟩)

end Placement

/-- The child and the device of a report that brings a device. -/
def member? (r : Report) : Option (String × DeviceId) :=
  (DeviceEntry.read? r.value).map fun entry => (r.child, entry.id)

/-- The host that a report brings, where it would appear now. -/
def placed? (registry : Registry) (r : Report) : Option Placement := do
  let entry ← HostEntry.read? r.value
  let id ← entry.hostId.toOption
  let virtual ← registry.seat? entry.location
  return { id, addresses := entry.ips, real := entry.location, virtual }

/-- The host that a report brings, and the virtual device that its device belongs to. -/
def home? (registry : Registry) (r : Report) : Option (HostId × DeviceId) := do
  let entry ← HostEntry.read? r.value
  let id ← entry.hostId.toOption
  let virtual ← registry.virtual? entry.location.device
  return (id, virtual)

/-- The domain with a device of a child in it. -/
def absorb (d : Domain) (m : String × DeviceId) : Domain where
  registry := (d.registry.mapDevice m.2 (virtualDevice m.1)).setOwner (virtualDevice m.1) m.1
  topology := (d.topology.connectDevice (.switch (virtualDevice m.1))).1

/-- The domain with a host at its place. -/
def settleHost (d : Domain) (p : Placement) : Domain where
  registry := { d.registry with
    ports := d.registry.ports.give p.virtual.device p.real
    hosts := d.registry.hosts.put p.pinned
    virtualHosts := d.registry.virtualHosts.put p.pinned.swap }
  topology := { d.topology with hosts := d.topology.hosts.put p.host }

variable {d : Domain} {registry : Registry} {r : Report} {reports : List Report}

theorem meaning?_device (registry : Registry) (hkind : r.kind = .device) :
    registry.meaning? .implicit r = (member? r).map fun m =>
      ⟨(registry.mapDevice m.2 (virtualDevice m.1)).setOwner (virtualDevice m.1) m.1,
        [.device (.switch (virtualDevice m.1))]⟩ := by
  unfold Registry.meaning? Report.element? Element.read? member?
  rw [hkind]
  cases DeviceEntry.read? r.value <;> rfl

theorem meaning?_host (registry : Registry) (hkind : r.kind = .host) :
    registry.meaning? .implicit r = (placed? registry r).map fun p =>
      ⟨{ registry with
          ports := registry.ports.give p.virtual.device p.real
          hosts := registry.hosts.put p.pinned
          virtualHosts := registry.virtualHosts.put p.pinned.swap }, [.host p.host]⟩ := by
  unfold Registry.meaning? Report.element? Element.read? placed?
  rw [hkind]
  cases HostEntry.read? r.value with
  | none => rfl
  | some entry =>
    simp only [Option.map_some, Option.bind_some, Option.bind_eq_bind, Abstraction.meaning, meaning]
    cases entry.hostId with
    | error fault => rfl
    | ok id =>
      have hexpose := registry.toOption_exposePoint entry.location
      cases hresult : registry.exposePoint entry.location with
      | error fault =>
        rw [hresult] at hexpose
        rw [Option.map_eq_none_iff.1 hexpose.symm]
        rfl
      | ok exposed =>
        rw [hresult] at hexpose
        obtain ⟨virtual, hseat, rfl⟩ := Option.map_eq_some_iff.1 hexpose.symm
        rw [hseat]
        rfl

theorem hearAll_devices_eq (d : Domain) (hkind : ∀ r ∈ reports, r.kind = .device) :
    let members := reports.filterMap member?
    d.hearAll .implicit reports =
      { registry := { d.registry with
          owners := d.registry.owners.putAll (members.map fun m => (virtualDevice m.1, m.1))
          virtuals := d.registry.virtuals.putAll (members.map fun m => (m.2, virtualDevice m.1))
          ports := d.registry.ports.putNewAll (members.map fun m => (virtualDevice m.1, .empty)) }
        topology := { d.topology with
          devices := d.topology.devices.putNewAll
            (members.map fun m => .switch (virtualDevice m.1)) } } := by
  intro members
  rw [Domain.hearAll_eq_foldl member? absorb]
  · change members.foldl absorb d = _
    generalize members = members
    induction members generalizing d with
    | nil => rfl
    | cons m rest ih =>
      rw [List.foldl_cons, ih, absorb, Topology.connectDevice_eq]
      rfl
  · intro r hr d
    have hmeaning := meaning?_device d.registry (hkind r hr)
    cases hmember : member? r with
    | none =>
      have hunread : r.element? = none := by
        rw [Report.element?, hkind r hr, Element.read?, Option.map_eq_none_iff]
        exact Option.map_eq_none_iff.1 hmember
      rw [Domain.hear, Domain.takeUpJson_of_no_element hunread]
    | some m =>
      rw [hmember] at hmeaning
      refine (Domain.takeUpJson_of_accepted hmeaning ?_).1
      simp [Notice.refusal?, Device.switch, ChildAddress.orchestratedScheme?_virtualDevice]

theorem seat?_of_placed? {p : Placement} (h : placed? registry r = some p) :
    registry.seat? p.real = some p.virtual := by
  obtain ⟨entry, -, h⟩ := Option.bind_eq_some_iff.1 h
  obtain ⟨id, -, h⟩ := Option.bind_eq_some_iff.1 h
  obtain ⟨virtual, hseat, h⟩ := Option.bind_eq_some_iff.1 h
  cases h
  exact hseat

theorem hear_host (h : d.Consistent) (hkind : r.kind = .host) :
    d.hear .implicit r = match placed? d.registry r with
      | none => d
      | some p => settleHost d p := by
  have hmeaning := meaning?_host d.registry hkind
  cases hplaced : placed? d.registry r with
  | none =>
    exact Domain.hear_of_meaningless (by rw [hmeaning, hplaced]; rfl) fun _ => h.housed
  | some p =>
    rw [hplaced] at hmeaning
    have hvirtual := (Registry.seat?_eq_some (seat?_of_placed? hplaced)).1
    have hknown : d.topology.knows p.virtual.device = true :=
      (h.coherent.ready_of_virtual hvirtual).known
    have hheard : d.topology.heedEach [.host p.host]
        = { d.topology with hosts := d.topology.hosts.put p.host } := by
      have hkept : [p.host].filter (fun h => d.topology.knows h.location.device) = [p.host] :=
        List.filter_cons_of_pos hknown
      refine (Topology.detectHost_eq d.topology p.host).trans ?_
      rw [hkept]
      rfl
    rw [(h.takeUpJson hmeaning).1]
    exact congrArg (Domain.mk _) hheard

/-- A host that can be placed has the port from then on. -/
theorem holds_settleHost {p : Placement} (h : placed? d.registry r = some p) :
    (settleHost d p).registry.ports.Holds p.virtual p.real := by
  obtain ⟨-, space, hspace, hport⟩ := Registry.seat?_eq_some (seat?_of_placed? h)
  have hheld := PortBook.holds_allocate_self d.registry.ports p.virtual.device space p.real
  rw [← hport] at hheld
  change PortBook.Holds (d.registry.ports.give p.virtual.device p.real) p.virtual p.real
  rw [PortBook.give, hspace]
  exact hheld

/-- The same devices belong to the same virtual devices, and what has a port keeps it. -/
structure Later (before now : Registry) : Prop where
  virtuals : now.virtuals = before.virtuals
  holds : ∀ {virtual real}, before.ports.Holds virtual real → now.ports.Holds virtual real

theorem later_settleHost (d : Domain) (p : Placement) : Later d.registry (settleHost d p).registry :=
  ⟨rfl, fun h => h.give p.virtual.device p.real⟩

variable {before now later : Registry}

theorem Later.refl (registry : Registry) : Later registry registry := ⟨rfl, id⟩

theorem Later.trans (h : Later before now) (h' : Later now later) : Later before later :=
  ⟨h'.virtuals.trans h.virtuals, fun hheld => h'.holds (h.holds hheld)⟩

/-- What has a port is placed there ever after. -/
theorem Later.placed?_eq {p : Placement} (h : Later before now)
    (hplaced : placed? before r = some p) (hheld : now.ports.Holds p.virtual p.real) :
    placed? now r = some p := by
  obtain ⟨entry, hentry, hrest⟩ := Option.bind_eq_some_iff.1 hplaced
  obtain ⟨id, hid, hrest⟩ := Option.bind_eq_some_iff.1 hrest
  obtain ⟨virtual, hseat, hrest⟩ := Option.bind_eq_some_iff.1 hrest
  cases hrest
  have hvirtual : now.virtual? entry.location.device = some virtual.device := by
    rw [Registry.virtual?, h.virtuals]
    exact (Registry.seat?_eq_some hseat).1
  have hseat' := Registry.seat?_of_holds hvirtual hheld
  simp [placed?, hentry, hid, hseat']

theorem home?_congr (h : ∀ device, now.virtual? device = before.virtual? device) :
    home? now = home? before := by
  funext r
  simp only [home?, h]

/-- A host can be placed wherever its device belongs to a virtual one. -/
theorem map_home_placed? (h : d.Consistent) (r : Report) :
    (placed? d.registry r).map Placement.home = home? d.registry r := by
  unfold placed? home?
  cases HostEntry.read? r.value with
  | none => rfl
  | some entry =>
    simp only [Option.bind_some, Option.bind_eq_bind]
    cases entry.hostId.toOption with
    | none => rfl
    | some id =>
      cases hvirtual : d.registry.virtual? entry.location.device with
      | none => simp [Registry.seat?, hvirtual]
      | some virtual =>
        have hready : Ready d.virtualSide virtual := h.coherent.ready_of_virtual hvirtual
        obtain ⟨space, hspace⟩ : ∃ space, Table.get? d.registry.ports virtual = some space :=
          hready.exists_space
        simp [Registry.seat?, hvirtual, hspace, Placement.home]

/-- A run of hosts writes the places that the hosts have at its end. -/
theorem hearAll_hosts_eq (h : d.Consistent) (hkind : ∀ r ∈ reports, r.kind = .host) {d' : Domain}
    (hrun : d.hearAll .implicit reports = d') :
    let placements := reports.filterMap (placed? d'.registry)
    d' = { registry := { d.registry with
             ports := d'.registry.ports
             hosts := d.registry.hosts.putAll (placements.map Placement.pinned)
             virtualHosts := d.registry.virtualHosts.putAll
               (placements.map fun p => p.pinned.swap) }
           topology := { d.topology with
             hosts := d.topology.hosts.putAll (placements.map Placement.host) } }
      ∧ Later d.registry d'.registry
      ∧ ∀ p ∈ placements, d'.registry.ports.Holds p.virtual p.real := by
  have hconsistent := h.hearAll .implicit reports
  rw [hrun] at hconsistent
  induction reports generalizing d with
  | nil =>
    subst hrun
    exact ⟨rfl, .refl _, by simp⟩
  | cons r rest ih =>
    rw [List.forall_mem_cons] at hkind
    obtain ⟨hwrites, hlater, hheld⟩ := ih (h.hear .implicit r) hkind.2 hrun
    intro placements
    rw [hear_host h hkind.1] at hwrites hlater
    cases hplaced : placed? d.registry r with
    | none =>
      rw [hplaced] at hwrites hlater
      -- a host whose device belongs nowhere is not placed later either
      have hunplaced : placed? d'.registry r = none := by
        have hsame : home? d'.registry = home? d.registry :=
          home?_congr fun device => by rw [Registry.virtual?, hlater.virtuals]; rfl
        rw [← Option.map_eq_none_iff (f := Placement.home), map_home_placed? hconsistent, hsame,
          ← map_home_placed? h, hplaced]
        rfl
      simp only [placements, List.filterMap_cons_none hunplaced]
      exact ⟨hwrites, hlater, hheld⟩
    | some p =>
      rw [hplaced] at hwrites hlater
      have hfirst := hlater.holds (holds_settleHost hplaced)
      have hlater' := (later_settleHost d p).trans hlater
      have hkept := hlater'.placed?_eq hplaced hfirst
      simp only [placements, List.filterMap_cons_some hkept]
      refine ⟨hwrites, hlater', ?_⟩
      rw [List.forall_mem_cons]
      exact ⟨hfirst, hheld⟩

theorem placed?_congr (hvirtuals : now.virtuals = before.virtuals)
    (hports : now.ports = before.ports) : placed? now = placed? before := by
  funext r
  simp only [placed?, Registry.seat?, Registry.virtual?, hvirtuals, hports]

/-- Hosts that have their ports are given no others. -/
theorem ports_hearAll_hosts (h : d.Consistent) (hkind : ∀ r ∈ reports, r.kind = .host)
    (hheld : ∀ p ∈ reports.filterMap (placed? d.registry), d.registry.ports.Holds p.virtual p.real) :
    (d.hearAll .implicit reports).registry.ports = d.registry.ports := by
  induction reports generalizing d with
  | nil => rfl
  | cons r rest ih =>
    rw [List.forall_mem_cons] at hkind
    have hnext := h.hear .implicit r
    have hfirst := hear_host h hkind.1
    cases hplaced : placed? d.registry r with
    | none =>
      rw [hplaced] at hfirst
      rw [List.filterMap_cons_none hplaced] at hheld
      rw [Domain.hearAll, List.foldl_cons, hfirst]
      exact ih h hkind.2 hheld
    | some p =>
      rw [hplaced] at hfirst
      rw [List.filterMap_cons_some hplaced, List.forall_mem_cons] at hheld
      obtain ⟨hp, hrest⟩ := hheld
      have hports : (settleHost d p).registry.ports = d.registry.ports := hp.give_eq_self
      have hplaces : placed? (settleHost d p).registry = placed? d.registry :=
        placed?_congr rfl hports
      rw [hfirst] at hnext
      rw [Domain.hearAll, List.foldl_cons, hfirst]
      refine (ih hnext hkind.2 ?_).trans hports
      rw [hplaces, hports]
      exact hrest

end Implicit

end Multidomain

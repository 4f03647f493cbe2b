import Mathlib.Data.List.Perm.Basic
import Multidomain.Proofs.Orchestration.ExplicitRuns
import Multidomain.Proofs.Orchestration.Footing
import Multidomain.Proofs.Orchestration.ImplicitRuns
import Multidomain.Proofs.Orchestration.LinkRuns

/-!
# Discovery in any order

A node asks its children for their devices, then for their links, then for their hosts, and takes the
answers to each question up as they come in. Within a stage the order is up to the children. When no two
of them speak of the same device or of the same host, the order makes no difference: each child writes
its own share of the tables, links come to a set whatever the order, and which links and hosts count is
decided by what the stage before has left. Under the implicit abstraction this holds of everything but
the ports, which are given out first come, first served.
-/

namespace Multidomain

/-- What a child answers when it is asked for one sort of elements. -/
structure Answer where
  child : String
  values : List Json

namespace Answer

def devices (a : Answer) : Letter := ⟨a.child, .devices a.values⟩

def links (a : Answer) : Letter := ⟨a.child, .links a.values⟩

def hosts (a : Answer) : Letter := ⟨a.child, .hosts a.values⟩

/-- The devices of which an answer speaks. -/
def deviceIds (a : Answer) : List DeviceId :=
  (a.values.filterMap DeviceEntry.read?).map DeviceEntry.id

/-- The explicit ids of the devices of which an answer speaks. -/
def explicitIds (a : Answer) : List DeviceId :=
  a.deviceIds.filterMap fun id => id.toExplicit.toOption

/-- The hosts of which an answer speaks. -/
def hostIds (a : Answer) : List HostId :=
  (a.values.filterMap HostEntry.read?).filterMap fun entry => entry.hostId.toOption

/-- The answers speak of different devices, and will be told apart under the abstraction. -/
def DevicesApart : Abstraction → Answer → Answer → Prop
  | .explicit, a, b => ∀ id ∈ a.explicitIds, id ∉ b.explicitIds
  | .implicit, a, b => (∀ id ∈ a.deviceIds, id ∉ b.deviceIds)
      ∧ ChildAddress.virtualDevice a.child ≠ ChildAddress.virtualDevice b.child

def HostsApart (a b : Answer) : Prop := ∀ id ∈ a.hostIds, id ∉ b.hostIds

end Answer

/-- The documents of a discovery, stage by stage. -/
def discovery (devices links hosts : List Answer) : List Letter :=
  devices.map Answer.devices ++ links.map Answer.links ++ hosts.map Answer.hosts

/-- The elements of answers about one sort. -/
def Answer.reports (kind : ElementKind) (a : Answer) : List Report :=
  a.values.map fun value => ⟨a.child, kind, .added, value⟩

theorem Domain.afterLetters_discovery (mode : Abstraction) (devices links hosts : List Answer) :
    afterLetters mode (discovery devices links hosts) =
      ((Domain.empty.hearAll mode (devices.flatMap (Answer.reports .device))).hearAll mode
        (links.flatMap (Answer.reports .link))).hearAll mode
        (hosts.flatMap (Answer.reports .host)) := by
  rw [afterLetters_eq_hearAll, ← hearAll_append, ← hearAll_append]
  simp only [discovery, reportsOf, List.flatMap_append, List.flatMap_map, List.append_assoc]
  rfl

variable {answers answers' : List Answer} {kind : ElementKind}

theorem Answer.kind_of_mem {r : Report} (h : r ∈ answers.flatMap (Answer.reports kind)) :
    r.kind = kind := by
  obtain ⟨a, -, hr⟩ := List.mem_flatMap.1 h
  obtain ⟨value, -, rfl⟩ := List.mem_map.1 hr
  rfl

theorem Answer.change_of_mem {r : Report} (h : r ∈ answers.flatMap (Answer.reports kind)) :
    r.change = .added := by
  obtain ⟨a, -, hr⟩ := List.mem_flatMap.1 h
  obtain ⟨value, -, rfl⟩ := List.mem_map.1 hr
  rfl

theorem Answer.mem_deviceIds {a : Answer} {r : Report} {entry : DeviceEntry}
    (hr : r ∈ a.reports kind) (hentry : DeviceEntry.read? r.value = some entry) :
    entry.id ∈ a.deviceIds := by
  obtain ⟨value, hvalue, rfl⟩ := List.mem_map.1 hr
  exact List.mem_map_of_mem (List.mem_filterMap.2 ⟨value, hvalue, hentry⟩)

theorem Answer.mem_hostIds {a : Answer} {r : Report} {entry : HostEntry} {id : HostId}
    (hr : r ∈ a.reports kind) (hentry : HostEntry.read? r.value = some entry)
    (hid : entry.hostId.toOption = some id) : id ∈ a.hostIds := by
  obtain ⟨value, hvalue, rfl⟩ := List.mem_map.1 hr
  exact List.mem_filterMap.2 ⟨entry, List.mem_filterMap.2 ⟨value, hvalue, hentry⟩, hid⟩

namespace Explicit

theorem id_mem_explicitIds {a : Answer} {n : Named}
    (h : n ∈ (a.reports .device).filterMap named?) : n.device.id ∈ a.explicitIds := by
  obtain ⟨r, hr, hn⟩ := List.mem_filterMap.1 h
  obtain ⟨entry, hentry, hn⟩ := Option.bind_eq_some_iff.1 hn
  obtain ⟨id, hid, hn⟩ := Option.bind_eq_some_iff.1 hn
  cases hn
  exact List.mem_filterMap.2 ⟨entry.id, Answer.mem_deviceIds hr hentry, hid⟩

theorem id_mem_hostIds {a : Answer} {host : Host}
    (h : host ∈ (a.reports .host).filterMap host?) : host.id ∈ a.hostIds := by
  obtain ⟨r, hr, hhost⟩ := List.mem_filterMap.1 h
  obtain ⟨entry, hentry, hhost⟩ := Option.bind_eq_some_iff.1 hhost
  obtain ⟨id, hid, hhost⟩ := Option.bind_eq_some_iff.1 hhost
  obtain ⟨location, -, hhost⟩ := Option.bind_eq_some_iff.1 hhost
  cases hhost
  exact Answer.mem_hostIds hr hentry hid

variable {d d' : Domain}

/-- What answers about different devices write under explicit ids does not collide. -/
theorem agree_of_apart {α : Type} {key : α → DeviceId} {write : Named → α}
    (hkey : ∀ n, key (write n) = n.device.id)
    (hapart : answers.Pairwise (Answer.DevicesApart .explicit)) :
    answers.Pairwise fun x y => ∀ a ∈ ((x.reports .device).filterMap named?).map write,
      ∀ b ∈ ((y.reports .device).filterMap named?).map write, key a = key b → a = b := by
  refine Roster.agree_of_disjoint (fun x a ha => ?_) hapart
  obtain ⟨n, hn, rfl⟩ := List.mem_map.1 ha
  exact hkey n ▸ id_mem_explicitIds hn

theorem same_devices (h : d.Consistent) (hperm : answers.Perm answers')
    (hapart : answers.Pairwise (Answer.DevicesApart .explicit)) :
    (d.hearAll .explicit (answers.flatMap (Answer.reports .device))).Same
      (d.hearAll .explicit (answers'.flatMap (Answer.reports .device))) := by
  have hregistry : ∀ answers : List Answer,
      (d.hearAll .explicit (answers.flatMap (Answer.reports .device))).registry
        = nameAll d.registry ((answers.flatMap (Answer.reports .device)).filterMap named?) :=
    fun answers => by rw [hearAll_devices_eq d fun r => Answer.kind_of_mem]
  constructor
  case registry =>
    refine Registry.same_of_unnamed (h.hearAll _ _).aliased (h.hearAll _ _).aliased ?_ ?_ ?_
    · simp only [hregistry, owners_nameAll, List.filterMap_flatMap, List.map_flatMap]
      exact Roster.same_putAll_of_perm (.refl _) hperm (agree_of_apart (fun _ => rfl) hapart)
    · simp only [hregistry, natives_nameAll, List.filterMap_flatMap, List.map_flatMap]
      exact Roster.same_putAll_of_perm (.refl _) hperm (agree_of_apart (fun _ => rfl) hapart)
    · simp only [hregistry, unnamed_nameAll]
  case topology =>
    rw [hearAll_devices_eq d fun r => Answer.kind_of_mem,
      hearAll_devices_eq d fun r => Answer.kind_of_mem]
    refine ⟨?_, .refl _, .refl _, .refl _⟩
    simp only [List.filterMap_flatMap, List.map_flatMap]
    exact Roster.same_putNewAll_of_perm (.refl _) hperm (agree_of_apart (fun _ => rfl) hapart)

theorem same_links (h : d.Same d') (hperm : answers.Perm answers') :
    (d.hearAll .explicit (answers.flatMap (Answer.reports .link))).Same
      (d'.hearAll .explicit (answers'.flatMap (Answer.reports .link))) := by
  have hreaches : d'.topology.reaches = d.topology.reaches := by
    funext e
    rw [Topology.reaches, Topology.reaches, Topology.knows, Topology.knows, Topology.knows,
      Topology.knows, h.topology.devices.contains, h.topology.devices.contains]
  rw [hearAll_links_eq d (fun r => Answer.kind_of_mem) fun r => Answer.change_of_mem,
    hearAll_links_eq d' (fun r => Answer.kind_of_mem) fun r => Answer.change_of_mem, hreaches]
  refine ⟨h.registry, h.topology.devices, ?_, h.topology.hosts, h.topology.flows⟩
  simp only [List.filterMap_flatMap, List.filter_flatMap, List.map_flatMap]
  -- two links with the same ends are the same link
  refine Roster.same_putNewAll_of_perm h.topology.links hperm (List.pairwise_of_forall fun a b => ?_)
  simp only [List.mem_map]
  rintro _ ⟨e, -, rfl⟩ _ ⟨e', -, rfl⟩ hends
  exact congrArg Link.direct hends

theorem same_hosts (h : d.Same d') (hperm : answers.Perm answers')
    (hapart : answers.Pairwise Answer.HostsApart) :
    (d.hearAll .explicit (answers.flatMap (Answer.reports .host))).Same
      (d'.hearAll .explicit (answers'.flatMap (Answer.reports .host))) := by
  have hknows : d'.topology.knows = d.topology.knows :=
    funext fun device => (h.topology.devices.contains device).symm
  rw [hearAll_hosts_eq d fun r => Answer.kind_of_mem, hearAll_hosts_eq d' fun r => Answer.kind_of_mem,
    hknows]
  refine ⟨h.registry, h.topology.devices, h.topology.links, ?_, h.topology.flows⟩
  simp only [List.filterMap_flatMap, List.filter_flatMap]
  refine Roster.same_putAll_of_perm h.topology.hosts hperm (Roster.agree_of_disjoint ?_ hapart)
  intro a host hhost
  exact id_mem_hostIds (List.mem_filter.1 hhost).1

end Explicit

namespace Implicit

open ChildAddress (virtualDevice)

variable {d d' : Domain}

theorem member_of_mem {a : Answer} {m : String × DeviceId}
    (h : m ∈ (a.reports .device).filterMap member?) : m.1 = a.child ∧ m.2 ∈ a.deviceIds := by
  obtain ⟨r, hr, hm⟩ := List.mem_filterMap.1 h
  obtain ⟨entry, hentry, rfl⟩ := Option.map_eq_some_iff.1 hm
  obtain ⟨value, -, hvalue⟩ := List.mem_map.1 hr
  exact ⟨(congrArg Report.child hvalue).symm, Answer.mem_deviceIds hr hentry⟩

/-- What answers about different devices write does not collide, be it under their devices or under
their virtual device. -/
theorem agree_of_apart {α : Type} {key : α → DeviceId} {write : String × DeviceId → α}
    (hkey : (∀ m, key (write m) = m.2) ∨ ∀ m, key (write m) = virtualDevice m.1)
    (hapart : answers.Pairwise (Answer.DevicesApart .implicit)) :
    answers.Pairwise fun x y => ∀ a ∈ ((x.reports .device).filterMap member?).map write,
      ∀ b ∈ ((y.reports .device).filterMap member?).map write, key a = key b → a = b := by
  refine hapart.imp fun {x y} hapart a ha b hb hsame => ?_
  obtain ⟨m, hm, rfl⟩ := List.mem_map.1 ha
  obtain ⟨n, hn, rfl⟩ := List.mem_map.1 hb
  obtain ⟨hx, hmx⟩ := member_of_mem hm
  obtain ⟨hy, hny⟩ := member_of_mem hn
  obtain hkey | hkey := hkey
  · rw [hkey, hkey] at hsame
    exact absurd (hsame ▸ hny) (hapart.1 _ hmx)
  · rw [hkey, hkey, hx, hy] at hsame
    exact absurd hsame hapart.2

theorem same_devices (d : Domain) (hperm : answers.Perm answers')
    (hapart : answers.Pairwise (Answer.DevicesApart .implicit)) :
    (d.hearAll .implicit (answers.flatMap (Answer.reports .device))).Same
      (d.hearAll .implicit (answers'.flatMap (Answer.reports .device))) := by
  rw [hearAll_devices_eq d fun r => Answer.kind_of_mem,
    hearAll_devices_eq d fun r => Answer.kind_of_mem]
  simp only [List.filterMap_flatMap, List.map_flatMap]
  constructor
  case registry =>
    refine d.registry.same_of_devices (Roster.same_putAll_of_perm (.refl _) hperm ?_)
      (Roster.same_putAll_of_perm (.refl _) hperm ?_)
      (Roster.same_putNewAll_of_perm (.refl _) hperm ?_)
    · exact agree_of_apart (.inr fun _ => rfl) hapart
    · exact agree_of_apart (.inl fun _ => rfl) hapart
    · exact agree_of_apart (.inr fun _ => rfl) hapart
  case topology =>
    refine ⟨?_, .refl _, .refl _, .refl _⟩
    exact Roster.same_putNewAll_of_perm (.refl _) hperm (agree_of_apart (.inr fun _ => rfl) hapart)

/-- A settled heading carries the virtual link of the pair that it joins. -/
theorem Coherent.serves_of_settled {heading : Heading} {pair : DevicePair} (h : Coherent d)
    (hsettled : Settled d heading) (hjoins : Joins d heading pair) : Serves d heading pair := by
  obtain ⟨⟨a, b⟩, hbridge, rfl⟩ := Option.map_eq_some_iff.1 hjoins
  obtain ⟨span, hspan, hcarried⟩ := hsettled a b hbridge
  rw [Serves, hcarried, Option.map_some, h.pair_seenFrom hspan]

/-- Where no link has been reported before, two virtual devices are linked by whatever is reported
between their devices. -/
theorem Coherent.linked_iff_told {reports : List Report} (h : Coherent d)
    (hflags : ∀ pair heading, d.registry.links.flag? pair heading = none)
    (hkind : ∀ r ∈ reports, r.kind = .link) (hadded : ∀ r ∈ reports, r.change = .added)
    (a b : DeviceId) :
    (∃ l ∈ (d.hearAll .implicit reports).topology.links.items, l.heading = ⟨a, b⟩)
      ↔ ∃ heading, Tells reports heading .added ∧ Joins d heading (.of a b) := by
  have hflag : ∀ pair heading,
      (d.hearAll .implicit reports).registry.links.flag? pair heading = some true
        ↔ Tells reports heading .added ∧ Joins d heading pair := by
    intro pair heading
    rw [h.flag?_hearAll_added hkind (not_tells_of_change (by decide) hadded), hflags]
    split <;> simp_all
  rw [(h.hearAll reports).exists_heading_iff]
  · simp only [hflag]
  · intro heading hset
    obtain ⟨htold, hjoins⟩ := (hflag _ _).1 hset
    refine (h.hearAll reports).serves_of_settled (h.settled_hearAll hkind (.inl htold)) ?_
    exact (joins_of_unlinked (unlinked_hearAll hkind) ..).2 hjoins

/-- The first hosts of a node are attached where they were placed last. -/
theorem map_device_hearAll_hosts {reports : List Report} (h : d.Consistent)
    (hnone : d.topology.hosts = .empty) (hkind : ∀ r ∈ reports, r.kind = .host) (id : HostId) :
    ((d.hearAll .implicit reports).topology.hosts.find? id).map (fun host => host.location.device)
      = Table.get? (Table.ofList (reports.filterMap (home? d.registry))) id := by
  obtain ⟨hwrites, hlater, -⟩ := hearAll_hosts_eq h hkind rfl
  have hplaced := map_home_placed? (h.hearAll .implicit reports)
  generalize d.hearAll .implicit reports = d' at hwrites hlater hplaced ⊢
  have hsame : home? d'.registry = home? d.registry :=
    home?_congr fun device => by rw [Registry.virtual?, hlater.virtuals]; rfl
  have hhomes : reports.filterMap (home? d.registry)
      = (reports.filterMap (placed? d'.registry)).map Placement.home := by
    rw [List.map_filterMap]
    exact List.filterMap_congr fun r _ => ((hplaced r).trans (congrFun hsame r)).symm
  have hhosts : d'.topology.hosts
      = Roster.empty.putAll ((reports.filterMap (placed? d'.registry)).map Placement.host) := by
    rw [← hnone]
    exact congrArg (fun d => d.topology.hosts) hwrites
  rw [hhomes, hhosts, Table.get?, Table.ofList, Roster.find?_putAll_map, Roster.find?_putAll_map,
    Option.map_map, Option.map_map]
  rfl

theorem id_mem_hostIds {registry : Registry} {a : Answer} {home : HostId × DeviceId}
    (h : home ∈ (a.reports .host).filterMap (home? registry)) : home.1 ∈ a.hostIds := by
  obtain ⟨r, hr, hhome⟩ := List.mem_filterMap.1 h
  obtain ⟨entry, hentry, hhome⟩ := Option.bind_eq_some_iff.1 hhome
  obtain ⟨id, hid, hhome⟩ := Option.bind_eq_some_iff.1 hhome
  obtain ⟨virtual, -, hhome⟩ := Option.bind_eq_some_iff.1 hhome
  cases hhome
  exact Answer.mem_hostIds hr hentry hid

/-- Of its children a node has heard devices only. -/
structure Fresh (d : Domain) : Prop where
  consistent : d.Consistent
  coherent : Coherent d
  flags : ∀ pair heading, d.registry.links.flag? pair heading = none
  hosts : d.topology.hosts = .empty

theorem fresh_devices (answers : List Answer) :
    Fresh (Domain.empty.hearAll .implicit (answers.flatMap (Answer.reports .device))) where
  consistent := Domain.consistent_empty.hearAll .implicit _
  coherent := coherent_hearAll _
  flags pair heading := by
    rw [hearAll_devices_eq _ fun r => Answer.kind_of_mem]
    rfl
  hosts := by rw [hearAll_devices_eq _ fun r => Answer.kind_of_mem]; rfl

/-- What answers about links and hosts add to what a node knows of devices. -/
theorem outline_hearAll (h : Fresh d) (links hosts : List Answer) :
    let told := links.flatMap (Answer.reports .link)
    let brought := hosts.flatMap (Answer.reports .host)
    let found := (d.hearAll .implicit told).hearAll .implicit brought
    found.registry.virtuals = d.registry.virtuals ∧ found.registry.owners = d.registry.owners
      ∧ found.topology.devices = d.topology.devices
      ∧ (∀ a b, (∃ l ∈ found.topology.links.items, l.heading = ⟨a, b⟩)
        ↔ ∃ heading, Tells told heading .added ∧ Joins d heading (.of a b))
      ∧ ∀ id, (found.topology.hosts.find? id).map (fun host => host.location.device)
        = Table.get? (Table.ofList (brought.filterMap (home? d.registry))) id := by
  intro told brought found
  have hlinks : ∀ r ∈ told, r.kind = .link := fun r => Answer.kind_of_mem
  have hhosts : ∀ r ∈ brought, r.kind = .host := fun r => Answer.kind_of_mem
  have hconsistent := h.consistent.hearAll .implicit told
  have hkept := unlinked_hearAll (d := d) hlinks
  have hvirtuals := congrArg (fun d => d.registry.virtuals) hkept
  have hlinked := h.coherent.linked_iff_told h.flags hlinks fun r => Answer.change_of_mem
  have hattached := map_device_hearAll_hosts hconsistent
    ((congrArg (fun d => d.topology.hosts) hkept).trans h.hosts) hhosts
  have hhome : home? (d.hearAll .implicit told).registry = home? d.registry :=
    home?_congr fun device => congrArg (Table.get? · device) hvirtuals
  rw [hhome] at hattached
  obtain ⟨hwrites, -, -⟩ := hearAll_hosts_eq hconsistent hhosts rfl
  refine ⟨?_, ?_, ?_, ?_, hattached⟩
  · exact (congrArg (fun d => d.registry.virtuals) hwrites).trans hvirtuals
  · exact (congrArg (fun d => d.registry.owners) hwrites).trans
      (congrArg (fun d => d.registry.owners) hkept)
  · exact (congrArg (fun d => d.topology.devices) hwrites).trans
      (congrArg (fun d => d.topology.devices) hkept)
  · have hshown : found.topology.links = (d.hearAll .implicit told).topology.links :=
      congrArg (fun d => d.topology.links) hwrites
    rw [hshown]
    exact hlinked

/-- The same virtual devices with the same owners and members, linked in the same way, with the same
hosts at them. -/
structure SameOutline (d d' : Domain) : Prop where
  virtuals : d.registry.virtuals.Same d'.registry.virtuals
  owners : d.registry.owners.Same d'.registry.owners
  devices : d.topology.devices.Same d'.topology.devices
  linked : ∀ a b, (∃ l ∈ d.topology.links.items, l.heading = ⟨a, b⟩)
    ↔ ∃ l ∈ d'.topology.links.items, l.heading = ⟨a, b⟩
  attached : ∀ id, (d.topology.hosts.find? id).map (fun host => host.location.device)
    = (d'.topology.hosts.find? id).map fun host => host.location.device

theorem sameOutline_hearAll {links links' hosts hosts' : List Answer} (h : Fresh d) (h' : Fresh d')
    (hsame : d.Same d') (hlinks : links.Perm links') (hhosts : hosts.Perm hosts')
    (hapart : hosts.Pairwise Answer.HostsApart) :
    SameOutline
      ((d.hearAll .implicit (links.flatMap (Answer.reports .link))).hearAll .implicit
        (hosts.flatMap (Answer.reports .host)))
      ((d'.hearAll .implicit (links'.flatMap (Answer.reports .link))).hearAll .implicit
        (hosts'.flatMap (Answer.reports .host))) := by
  obtain ⟨hvirtuals, howners, hdevices, hlinked, hattached⟩ := outline_hearAll h links hosts
  obtain ⟨hvirtuals', howners', hdevices', hlinked', hattached'⟩ := outline_hearAll h' links' hosts'
  have hvirtual : ∀ device, d.registry.virtual? device = d'.registry.virtual? device :=
    Table.same_iff.1 hsame.registry.virtuals
  constructor
  case virtuals =>
    rw [hvirtuals, hvirtuals']
    exact hsame.registry.virtuals
  case owners =>
    rw [howners, howners']
    exact hsame.registry.owners
  case devices =>
    rw [hdevices, hdevices']
    exact hsame.topology.devices
  case linked =>
    intro a b
    rw [hlinked, hlinked']
    refine exists_congr fun heading => and_congr ?_ (joins_congr hvirtual heading _)
    exact exists_congr fun r => and_congr_left' (hlinks.flatMap_right _).mem_iff
  case attached =>
    intro id
    rw [hattached, hattached', home?_congr hvirtual]
    refine Table.same_iff.1 ?_ id
    simp only [Table.ofList, List.filterMap_flatMap]
    refine Roster.same_putAll_of_perm (.refl _) hhosts (Roster.agree_of_disjoint ?_ hapart)
    intro a home hhome
    exact id_mem_hostIds hhome

end Implicit

/-- What two runs of a discovery that differ in order have in common. -/
def Abstraction.Agree : Abstraction → Domain → Domain → Prop
  | explicit => Domain.Same
  | implicit => Implicit.SameOutline

/-- **Discovery does not depend on which child answers first.** Where no two answers speak of the same
device or of the same host, the order in which they come in at each stage makes no difference: under the
explicit abstraction the tables and the topology are the same, and under the implicit one the mapping of
devices, the virtual devices and their owners, which of them are linked, and the virtual device of each
host. -/
theorem agree_discovery_of_perm (mode : Abstraction)
    {devices devices' links links' hosts hosts' : List Answer} (hdevices : devices.Perm devices')
    (hlinks : links.Perm links') (hhosts : hosts.Perm hosts')
    (hdevicesApart : devices.Pairwise (Answer.DevicesApart mode))
    (hhostsApart : hosts.Pairwise Answer.HostsApart) :
    mode.Agree (Domain.afterLetters mode (discovery devices links hosts))
      (Domain.afterLetters mode (discovery devices' links' hosts')) := by
  rw [Domain.afterLetters_discovery, Domain.afterLetters_discovery]
  cases mode with
  | explicit =>
    have hsame := Explicit.same_devices Domain.consistent_empty hdevices hdevicesApart
    exact Explicit.same_hosts (Explicit.same_links hsame hlinks) hhosts hhostsApart
  | implicit =>
    have hsame := Implicit.same_devices .empty hdevices hdevicesApart
    exact Implicit.sameOutline_hearAll (Implicit.fresh_devices devices)
      (Implicit.fresh_devices devices') hsame hlinks hhosts hhostsApart

instance (mode : Abstraction) (a b : Answer) : Decidable (Answer.DevicesApart mode a b) :=
  match mode with
  | .explicit => inferInstanceAs (Decidable (∀ id ∈ a.explicitIds, id ∉ b.explicitIds))
  | .implicit => inferInstanceAs (Decidable ((∀ id ∈ a.deviceIds, id ∉ b.deviceIds) ∧ _ ≠ _))

instance (a b : Answer) : Decidable (Answer.HostsApart a b) :=
  inferInstanceAs (Decidable (∀ id ∈ a.hostIds, id ∉ b.hostIds))

namespace Answer

open Implicit (sentDevice sentLink)

/-- A host as a child sends it. -/
def sentHost (mac device : String) (port : PortNumber) : Json :=
  HostEntry.toJson { mac, vlan := "None", location := ⟨⟨device⟩, port⟩, addresses := [] }

/-- Two children with a device each and what they say of these: the devices, two links between them, and
a host at each. -/
def pairDevices : List Answer := [⟨"a", [sentDevice "of:1"]⟩, ⟨"b", [sentDevice "of:2"]⟩]

def pairLinks : List Answer :=
  [⟨"a", [sentLink "of:1" 1 "of:2" 1]⟩, ⟨"b", [sentLink "of:2" 2 "of:1" 2]⟩]

def pairHosts : List Answer :=
  [⟨"a", [sentHost "00:00:00:00:00:01" "of:1" 3]⟩, ⟨"b", [sentHost "00:00:00:00:00:02" "of:2" 3]⟩]

/-- Either of the two may answer first, at each stage. The ports that they are given do depend on it. -/
theorem agree_discovery_of_perm_pair :
    pairDevices.Pairwise (DevicesApart .explicit) ∧ pairDevices.Pairwise (DevicesApart .implicit)
      ∧ pairHosts.Pairwise HostsApart ∧
    (let found := fun mode => Domain.afterLetters mode (discovery pairDevices pairLinks pairHosts)
     let found' := fun mode => Domain.afterLetters mode
       (discovery pairDevices.reverse pairLinks.reverse pairHosts.reverse)
     Abstraction.Agree .explicit (found .explicit) (found' .explicit)
      ∧ Abstraction.Agree .implicit (found .implicit) (found' .implicit)
      ∧ (found .explicit).topology.hosts.size = 2 ∧ (found .explicit).topology.links.size = 2
      ∧ (found .implicit).topology.hosts.size = 2 ∧ (found .implicit).topology.links.size = 2
      ∧ (found .implicit).registry.ports ≠ (found' .implicit).registry.ports) := by
  have hexplicit : pairDevices.Pairwise (DevicesApart .explicit) := by decide +kernel
  have himplicit : pairDevices.Pairwise (DevicesApart .implicit) := by decide +kernel
  have hhosts : pairHosts.Pairwise HostsApart := by decide +kernel
  have hreverse : ∀ answers : List Answer, answers.Perm answers.reverse :=
    fun answers => answers.reverse_perm.symm
  refine ⟨hexplicit, himplicit, hhosts, ?_, ?_, ?_⟩
  · exact agree_discovery_of_perm .explicit (hreverse _) (hreverse _) (hreverse _) hexplicit hhosts
  · exact agree_discovery_of_perm .implicit (hreverse _) (hreverse _) (hreverse _) himplicit hhosts
  · decide +kernel

end Answer

end Multidomain

import Multidomain.Proofs.Topology.Parallels
import Multidomain.Proofs.Topology.Retelling

/-!
# The hosts of a topology and of its overview

Whenever a host is detected the topology takes over its addresses, but it tells of the host only where
the host is new or has moved. So an overview shows the hosts of its topology, each where it is, with the
addresses that it had when it was last told of (`hostEntries_current_iff`). That hosts and places agree
is inherited from the tale, which an overview follows as far as places go.
-/

namespace Multidomain

/-- The host that an event tells of. -/
def Event.host? : Event → Option Host
  | .hostAdded h | .hostMoved h _ => some h
  | _ => none

/-- The host as events told of it last. -/
def lastToldHost? (id : HostId) (events : List Event) : Option Host :=
  events.reverse.findSome? fun e => e.host?.filter fun h => h.id = id

/-- A host as events told of it last, or as it is where they did not tell of it. -/
def Host.asTold (events : List Event) (h : Host) : Host := (lastToldHost? h.id events).getD h

theorem lastToldHost?_append (id : HostId) (first second : List Event) :
    lastToldHost? id (first ++ second)
      = (lastToldHost? id second).or (lastToldHost? id first) := by
  simp [lastToldHost?, List.findSome?_append]

namespace Overview

/-- Hosts as they are shown, in order of their written ids. -/
def renderHosts (hosts : List Host) : List HostEntry :=
  (hosts.mergeSort fun a b => (compare (toString a.id) (toString b.id)).isLE).map .ofHost

theorem hostEntries_eq (o : Overview) : o.hostEntries = renderHosts o.hosts.items := rfl

theorem ofHost_eq_iff {h k : Host} (hid : h.id = k.id) (hlocation : h.location = k.location) :
    HostEntry.ofHost h = HostEntry.ofHost k
      ↔ h.addresses.map toString = k.addresses.map toString := by
  simp [HostEntry.ofHost, hid, hlocation]

/-- Hosts are shown in the same order whatever becomes of them, as long as they keep their ids. -/
theorem renderHosts_map {hosts : List Host} {f : Host → Host}
    (hid : ∀ h ∈ hosts, (f h).id = h.id) :
    renderHosts (hosts.map f)
      = (hosts.mergeSort fun a b => (compare (toString a.id) (toString b.id)).isLE).map
        fun h => .ofHost (f h) := by
  rw [renderHosts, ← List.map_mergeSort fun a ha b hb => by rw [hid a ha, hid b hb], List.map_map]
  rfl

theorem hosts_observe (o : Overview) (e : Event) :
    (o.observe e).hosts = match e.host? with
      | some h => o.hosts.put h
      | none => o.hosts := by
  cases e with
  | deviceAdded d => rfl
  | linkAdded l =>
    change (o.putLink l).hosts = o.hosts
    unfold putLink
    split <;> rfl
  | linkRemoved l =>
    change (o.removeLink l).hosts = o.hosts
    unfold removeLink
    split <;> rfl
  | hostAdded h | hostMoved h previous => rfl

theorem find?_hosts_observe (o : Overview) (e : Event) (id : HostId) :
    (o.observe e).hosts.find? id = (e.host?.filter fun h => h.id = id).or (o.hosts.find? id) := by
  rw [hosts_observe]
  cases e.host? with
  | none => rfl
  | some h =>
    simp only [Roster.find?_put, Option.filter]
    by_cases hid : h.id = id <;> simp [hid]

theorem find?_hosts_observeAll (o : Overview) (events : List Event) (id : HostId) :
    (o.observeAll events).hosts.find? id = (lastToldHost? id events).or (o.hosts.find? id) := by
  induction events using List.reverseRecOn with
  | nil => rfl
  | append_singleton events e ih =>
    have hlast : lastToldHost? id [e] = e.host?.filter fun h => h.id = id := by
      simp [lastToldHost?]
    rw [observeAll, List.foldl_append, lastToldHost?_append, hlast, Option.or_assoc, ← ih]
    exact find?_hosts_observe ..

/-- An overview follows a tale in where the hosts are. -/
theorem placesOf_observe {o : Overview} {s s' : Tale} {e : Event}
    (hplaces : Topology.placesOf o.hosts = s.places) (hs : s.hear? e = some s') :
    Topology.placesOf (o.observe e).hosts = s'.places := by
  rw [hosts_observe]
  cases e with
  | deviceAdded | linkAdded | linkRemoved =>
    obtain ⟨-, ⟨⟩⟩ := Option.ite_none_right_eq_some.1 hs
    exact hplaces
  | hostAdded h | hostMoved h previous =>
    obtain ⟨-, ⟨⟩⟩ := Option.ite_none_right_eq_some.1 hs
    simp only [Event.host?, Topology.placesOf_put, hplaces]

theorem placesOf_observeAll {o : Overview} {s s' : Tale} {events : List Event}
    (hplaces : Topology.placesOf o.hosts = s.places) (hs : s.hearAll? events = some s') :
    Topology.placesOf (o.observeAll events).hosts = s'.places := by
  induction events generalizing o s with
  | nil =>
    obtain rfl : s = s' := Option.some.inj hs
    exact hplaces
  | cons e rest ih =>
    obtain ⟨next, hnext, hrest⟩ := Option.bind_eq_some_iff.1 (List.foldlM_cons.symm.trans hs)
    exact ih (placesOf_observe hplaces hnext) hrest

end Overview

namespace Watch

theorem find?_hosts_run (steps : List WatchStep) (id : HostId) :
    (run {} steps).overview.hosts.find? id = lastToldHost? id (told {} steps) := by
  induction steps using List.reverseRecOn with
  | nil => rfl
  | append_singleton steps s ih =>
    rw [run_concat, told_concat, lastToldHost?_append, ← ih]
    cases s with
    | act op => exact Overview.find?_hosts_observeAll ..
    | look l =>
      change ((run {} steps).overview.look l).hosts.find? id = _
      rw [Overview.look_eq]
      rfl

/-- The overview has the hosts of the topology, at the same places and in the same order. -/
theorem placesOf_run (steps : List WatchStep) :
    Topology.placesOf (run {} steps).overview.hosts
      = Topology.placesOf (run {} steps).topology.hosts := by
  induction steps using List.reverseRecOn with
  | nil => rfl
  | append_singleton steps s ih =>
    rw [run_concat]
    cases s with
    | act op => exact Overview.placesOf_observeAll ih (Topology.hearAll?_act _ op)
    | look l =>
      change Topology.placesOf ((run {} steps).overview.look l).hosts = _
      rw [Overview.look_eq]
      exact ih

/-- Every host of the topology has been told of, and where it is now. -/
theorem exists_lastToldHost? {steps : List WatchStep} {h : Host}
    (hheld : h ∈ (run {} steps).topology.hosts.items) :
    ∃ last, lastToldHost? h.id (told {} steps) = some last ∧ last.id = h.id
      ∧ last.location = h.location := by
  have hplace := congrArg (Table.get? · h.id) (placesOf_run steps)
  simp only [Topology.get?_placesOf, Roster.mem_items_iff.1 hheld, Option.map_some,
    Option.map_eq_some_iff] at hplace
  obtain ⟨last, hlast, hlocation⟩ := hplace
  exact ⟨last, (find?_hosts_run steps h.id).symm.trans hlast, Roster.key_of_find? hlast, hlocation⟩

/-- The hosts of the overview are those of the topology as they were last told of. -/
theorem hosts_run (steps : List WatchStep) :
    (run {} steps).overview.hosts.items
      = (run {} steps).topology.hosts.items.map (Host.asTold (told {} steps)) := by
  have hids : (run {} steps).overview.hosts.items.map Host.id
      = (run {} steps).topology.hosts.items.map Host.id := by
    have hplaces := congrArg (fun places : Table HostId ConnectPoint => places.items.map Prod.fst)
      (placesOf_run steps)
    simpa [Topology.placesOf, Function.comp_def] using hplaces
  rw [Roster.items_eq_map hids]
  refine List.map_congr_left fun h _ => ?_
  rw [find?_hosts_run, Host.asTold]

theorem asTold_of_held {steps : List WatchStep} {h : Host}
    (hheld : h ∈ (run {} steps).topology.hosts.items) :
    (h.asTold (told {} steps)).id = h.id ∧ (h.asTold (told {} steps)).location = h.location := by
  obtain ⟨last, hlast, hid, hlocation⟩ := exists_lastToldHost? hheld
  rw [Host.asTold, hlast, Option.getD_some]
  exact ⟨hid, hlocation⟩

/-- **Which hosts are shown, and how.** Whatever is done and whoever looks, the overview shows the hosts
of the topology where they are, each as it was last told of. So it shows them as they are exactly when
each has, in writing, the addresses with which it was last told of. -/
theorem hostEntries_current_iff (steps : List WatchStep) :
    let w := run {} steps
    let told := told {} steps
    (∀ h ∈ w.topology.hosts.items, ∃ last, lastToldHost? h.id told = some last ∧ last.id = h.id
        ∧ last.location = h.location)
      ∧ w.overview.hostEntries
        = Overview.renderHosts (w.topology.hosts.items.map (Host.asTold told))
      ∧ (w.overview.hostEntries = Overview.renderHosts w.topology.hosts.items
        ↔ ∀ h ∈ w.topology.hosts.items,
            (h.asTold told).addresses.map toString = h.addresses.map toString) := by
  intro w told
  have hshown : w.overview.hostEntries
      = Overview.renderHosts (w.topology.hosts.items.map (Host.asTold told)) := by
    rw [Overview.hostEntries_eq, hosts_run]
  refine ⟨fun h hheld => exists_lastToldHost? hheld, hshown, ?_⟩
  rw [hshown, Overview.renderHosts_map fun h hheld => (asTold_of_held hheld).1,
    Overview.renderHosts, List.map_inj_left]
  simp only [List.mem_mergeSort]
  refine forall₂_congr fun h hheld => ?_
  obtain ⟨hid, hlocation⟩ := asTold_of_held hheld
  exact Overview.ofHost_eq_iff hid hlocation

/-- A host gets another address where it is. -/
def readdressed : List WatchStep :=
  let host (last : UInt8) : Host :=
    { id := ⟨⟨[0, 0, 0, 0, 0, 7], rfl⟩, .untagged⟩
      addresses := [.v4 ⟨[10, 0, 0, last], rfl⟩]
      location := ⟨⟨"of:1"⟩, 5⟩ }
  [.act (.connect (.switch ⟨"of:1"⟩)), .act (.attach (host 1)), .act (.attach (host 2))]

/-- A host need not be shown with the addresses that it has. -/
theorem host_shown_with_lost_address :
    ¬ ∀ (steps : List WatchStep) (entry : HostEntry),
      entry ∈ (run {} steps).overview.hostEntries
        ↔ ∃ h ∈ (run {} steps).topology.hosts.items, entry = .ofHost h := by
  intro h
  have hshown : ∀ entry ∈ (run {} readdressed).overview.hostEntries,
      ∃ host ∈ (run {} readdressed).topology.hosts.items, entry = .ofHost host :=
    fun entry hentry => (h readdressed entry).1 hentry
  revert hshown
  decide +kernel

end Watch

end Multidomain

import Multidomain.Proofs.Topology.Watch

/-!
# The events retell the topology

Whoever has listened to a topology from the start knows it by its events alone. A `Tale` is what a
listener has put together, and it takes an event in only where the event can follow what was heard
before: nothing is added that is there, nothing is removed that is not there as it was told, and links
and hosts are at devices that were told of. A topology tells nothing else, and after every operation the
tale has the devices, the links and the places of the hosts that the topology has. Flow rules are not
told of, and neither are the addresses of a host that stays where it is.

That links and hosts of a topology are at known devices is a property of tales, in which devices only
ever become more.
-/

namespace Multidomain

structure Tale where
  devices : Roster Device.id := .empty
  links : Roster Link.ends := .empty
  /-- Where the hosts are. -/
  places : Table HostId ConnectPoint := .empty
  deriving DecidableEq, Repr

namespace Tale

/-- The tale before anything is heard. -/
def empty : Tale := {}

def knows (s : Tale) (device : DeviceId) : Bool := s.devices.contains device

/-- The tale with one more event, if the event can follow. -/
def hear? (s : Tale) : Event → Option Tale
  | .deviceAdded d =>
    if s.knows d.id = false then some { s with devices := s.devices.put d } else none
  | .linkAdded l =>
    if s.links.find? l.ends = none ∧ (s.knows l.src.device = true ∨ s.knows l.dst.device = true) then
      some { s with links := s.links.put l }
    else none
  | .linkRemoved l =>
    if s.links.find? l.ends = some l then some { s with links := s.links.erase l.ends } else none
  | .hostAdded h =>
    if Table.get? s.places h.id = none ∧ s.knows h.location.device = true then
      some { s with places := Table.set s.places h.id h.location }
    else none
  | .hostMoved h previous =>
    if Table.get? s.places h.id = some previous ∧ previous ≠ h.location
        ∧ s.knows h.location.device = true then
      some { s with places := Table.set s.places h.id h.location }
    else none

/-- The tale with more events, if each can follow those before it. -/
def hearAll? (s : Tale) (events : List Event) : Option Tale := events.foldlM hear? s

theorem hearAll?_singleton (s : Tale) (e : Event) : s.hearAll? [e] = s.hear? e := by
  simp [hearAll?]

theorem hearAll?_append (s : Tale) (first second : List Event) :
    s.hearAll? (first ++ second) = (s.hearAll? first).bind (·.hearAll? second) := by
  simp [hearAll?, List.foldlM_append]

/-- Every link has an end at a known device, and every host is at one. -/
structure Attached (s : Tale) : Prop where
  link : ∀ l ∈ s.links.items, s.knows l.src.device = true ∨ s.knows l.dst.device = true
  host : ∀ h ∈ s.places.items, s.knows h.2.device = true

theorem attached_empty : empty.Attached where
  link l hl := by cases hl
  host h hh := by cases hh

variable {s s' : Tale} {e : Event}

theorem Attached.moved (h : s.Attached) {id : HostId} {place : ConnectPoint}
    (hknown : s.knows place.device = true) :
    Attached { s with places := Table.set s.places id place } where
  link := h.link
  host := by
    intro host hhost
    obtain rfl | ⟨hold, -⟩ := Roster.mem_put.1 hhost
    · exact hknown
    · exact h.host host hold

theorem Attached.hear (h : s.Attached) (hs : s.hear? e = some s') : s'.Attached := by
  cases e with
  | deviceAdded d =>
    obtain ⟨-, ⟨⟩⟩ := Option.ite_none_right_eq_some.1 hs
    have hgrows : ∀ device, s.knows device = true → (s.devices.put d).contains device = true := by
      intro device hdevice
      rw [Roster.contains, Roster.find?_put]
      split
      · rfl
      · exact hdevice
    exact ⟨fun l hl => (h.link l hl).imp (hgrows _) (hgrows _),
      fun host hhost => hgrows _ (h.host host hhost)⟩
  | linkAdded l =>
    obtain ⟨⟨-, hends⟩, ⟨⟩⟩ := Option.ite_none_right_eq_some.1 hs
    refine ⟨fun k hk => ?_, h.host⟩
    obtain rfl | ⟨hold, -⟩ := Roster.mem_put.1 hk
    · exact hends
    · exact h.link k hold
  | linkRemoved l =>
    obtain ⟨-, ⟨⟩⟩ := Option.ite_none_right_eq_some.1 hs
    exact ⟨fun k hk => h.link k (Roster.mem_erase.1 hk).1, h.host⟩
  | hostAdded host =>
    obtain ⟨⟨-, hknown⟩, ⟨⟩⟩ := Option.ite_none_right_eq_some.1 hs
    exact h.moved hknown
  | hostMoved host previous =>
    obtain ⟨⟨-, -, hknown⟩, ⟨⟩⟩ := Option.ite_none_right_eq_some.1 hs
    exact h.moved hknown

theorem Attached.hearAll (h : s.Attached) {events : List Event}
    (hs : s.hearAll? events = some s') : s'.Attached := by
  induction events generalizing s with
  | nil =>
    obtain rfl : s = s' := Option.some.inj hs
    exact h
  | cons e rest ih =>
    obtain ⟨next, hnext, hrest⟩ := Option.bind_eq_some_iff.1 (List.foldlM_cons.symm.trans hs)
    exact ih (h.hear hnext) hrest

end Tale

namespace Topology

/-- Where the hosts of a roster are. -/
def placesOf (hosts : Roster Host.id) : Table HostId ConnectPoint where
  items := hosts.items.map fun h => (h.id, h.location)
  nodup_keys := by
    rw [List.map_map]
    exact hosts.nodup_keys

/-- What a listener can know of the topology. -/
def tale (t : Topology) : Tale where
  devices := t.devices
  links := t.links
  places := placesOf t.hosts

/-- Operations one after the other, and the events that they make the topology tell. -/
def actAll (t : Topology) : List StoreOp → Topology × List Event
  | [] => (t, [])
  | op :: rest =>
    let (t, now) := t.act op
    let (t, later) := t.actAll rest
    (t, now ++ later)

theorem find?_placesOf (hosts : Roster Host.id) (id : HostId) :
    (placesOf hosts).find? id = (hosts.find? id).map fun h => (h.id, h.location) := by
  simp only [Roster.find?, placesOf, List.find?_map]
  rfl

theorem get?_placesOf (hosts : Roster Host.id) (id : HostId) :
    Table.get? (placesOf hosts) id = (hosts.find? id).map Host.location := by
  rw [Table.get?, find?_placesOf, Option.map_map]
  rfl

theorem placesOf_put (hosts : Roster Host.id) (h : Host) :
    placesOf (hosts.put h) = Table.set (placesOf hosts) h.id h.location := by
  have hkeys : (placesOf hosts).items.map Prod.fst = hosts.items.map Host.id := by
    simp [placesOf]
  refine Roster.eq_of_items_eq ?_
  rw [Table.set, Roster.items_put, hkeys]
  change (hosts.put h).items.map (fun h => (h.id, h.location)) = _
  rw [Roster.items_put]
  split
  · simp only [placesOf, List.map_map]
    refine List.map_congr_left fun k _ => ?_
    by_cases hid : k.id = h.id <;> simp [hid]
  · simp [placesOf]

/-- A host that is detected where it was before is where it was. -/
theorem placesOf_put_of_location {hosts : Roster Host.id} {h previous : Host}
    (hheld : hosts.find? h.id = some previous) (hsame : previous.location = h.location) :
    placesOf (hosts.put h) = placesOf hosts := by
  rw [placesOf_put]
  refine Roster.put_eq_self ?_
  rw [find?_placesOf, hheld, Option.map_some, hsame, Roster.key_of_find? hheld]

/-- What an operation makes the topology tell can follow, and it brings the tale up to date. -/
theorem hearAll?_act (t : Topology) (op : StoreOp) :
    t.tale.hearAll? (t.act op).2 = some (t.act op).1.tale := by
  cases op with
  | connect device =>
    simp only [act, connectDevice]
    split
    · rfl
    · next hnew =>
      rw [Tale.hearAll?_singleton]
      exact if_pos (Bool.not_eq_true _ ▸ hnew)
  | detect link =>
    simp only [act, detectLink]
    split
    · rfl
    · next hends =>
      split
      · rfl
      · next hnew =>
        have hfind : t.links.find? link.ends = none := by simpa [Roster.contains] using hnew
        have hknown : t.knows link.src.device = true ∨ t.knows link.dst.device = true := by
          by_contra hnone
          exact hends (by simpa using hnone)
        rw [Tale.hearAll?_singleton]
        exact if_pos ⟨hfind, hknown⟩
  | lose ends =>
    simp only [act, loseLink]
    cases hheld : t.links.find? ends with
    | none => rfl
    | some l =>
      obtain rfl : l.ends = ends := Roster.key_of_find? hheld
      rw [Tale.hearAll?_singleton]
      exact if_pos hheld
  | attach host =>
    simp only [act, detectHost]
    split
    · next hknown =>
      have hplace := get?_placesOf t.hosts host.id
      cases hheld : t.hosts.find? host.id with
      | none =>
        rw [hheld] at hplace
        rw [Tale.hearAll?_singleton]
        refine (if_pos ⟨hplace, hknown⟩).trans (congrArg some ?_)
        simp only [tale, placesOf_put]
      | some previous =>
        rw [hheld] at hplace
        simp only []
        split
        · next hsame =>
          refine congrArg some ?_
          simp only [tale, placesOf_put_of_location hheld hsame]
        · next hmoved =>
          rw [Tale.hearAll?_singleton]
          refine (if_pos ⟨hplace, hmoved, hknown⟩).trans (congrArg some ?_)
          simp only [tale, placesOf_put]
    · rfl
  | install rules => rfl

theorem hearAll?_actAll (t : Topology) (ops : List StoreOp) :
    t.tale.hearAll? (t.actAll ops).2 = some (t.actAll ops).1.tale := by
  induction ops generalizing t with
  | nil => rfl
  | cons op rest ih =>
    change t.tale.hearAll? ((t.act op).2 ++ ((t.act op).1.actAll rest).2) = _
    rw [Tale.hearAll?_append, hearAll?_act, Option.bind_some, ih]
    rfl

/-- **The events retell the topology.** Whatever is done to a topology in which nothing was known, each
event can follow those before it, and they leave a listener with the devices, the links and the places of
hosts that the topology has. So every link has an end at a known device, and every host is at one. -/
theorem retell_actAll (ops : List StoreOp) :
    let t := (empty.actAll ops).1
    Tale.empty.hearAll? (empty.actAll ops).2 = some t.tale
      ∧ (∀ l ∈ t.links.items, t.knows l.src.device = true ∨ t.knows l.dst.device = true)
      ∧ ∀ h ∈ t.hosts.items, t.knows h.location.device = true := by
  intro t
  have htold : Tale.empty.hearAll? (empty.actAll ops).2 = some t.tale := hearAll?_actAll empty ops
  have hattached := Tale.attached_empty.hearAll htold
  exact ⟨htold, hattached.link, fun h hh => hattached.host (h.id, h.location) (List.mem_map_of_mem hh)⟩

end Topology

end Multidomain

import Multidomain.Proofs.Flow.Hop

/-!
# Frames on their way

A device handles a frame by a matching rule of the highest priority among the rules installed on it.
The frame goes out by the rule's output; where a link of the topology starts there it may cross the
link, and is then handled by the device at its end. A journey is a list of links crossed like that
and the connect point by which the frame leaves the device that it has reached.

`delivers_of_sends` says that frames are delivered along links on whose devices the rules that go by
their address send them on, provided that all rules have the generated form: none is then more
urgent than the rule that goes by the address, and no other is as urgent and matches.
-/

namespace Multidomain

/-- What rules look at in a frame on a device. -/
structure Frame where
  inPort : PortNumber
  src : Mac
  dst : Mac
  deriving DecidableEq, Repr

/-- Whether a frame has what the field asks for. -/
def MatchField.accepts (f : Frame) : MatchField → Bool
  | .inPort port => f.inPort = port
  | .ethSrc mac => f.src = mac
  | .ethDst mac => f.dst = mac

/-- Whether a frame has what all of the rule's fields ask for. -/
def FlowRule.accepts (r : FlowRule) (f : Frame) : Bool := r.fields.all (MatchField.accepts f)

/-- No rule of the generated form is more urgent than one that goes by the destination. -/
theorem FlowRule.Generated.priority_le {r : FlowRule} (h : r.Generated) :
    r.priority ≤ destinationPriority := by
  cases h with
  | source port address hpriority hfields =>
    rw [hpriority]
    decide
  | destination address hpriority hfields =>
    rw [hpriority]
    decide

/-- A rule of the generated form that is as urgent as one that goes by the destination goes by the
destination, and only frames for its address match it. -/
theorem FlowRule.Generated.slot_eq {r : FlowRule} {f : Frame} (h : r.Generated)
    (hurgent : destinationPriority ≤ r.priority) (haccepts : r.accepts f = true) :
    r.slot = destinationSlot r.device f.dst := by
  cases h with
  | source port address hpriority hfields =>
    rw [hpriority] at hurgent
    exact absurd hurgent (by decide)
  | destination address hpriority hfields =>
    have hdst : f.dst = address := by
      simpa [FlowRule.accepts, hfields, MatchField.accepts] using haccepts
    simp only [FlowRule.slot, destinationSlot, hpriority, hfields, hdst]

namespace Topology

/-- The rule handles the frame on the device: it matches, and no matching rule is more urgent. -/
structure Handles (t : Topology) (device : DeviceId) (f : Frame) (r : FlowRule) : Prop where
  installed : r ∈ t.flowRules device
  accepts : r.accepts f = true
  urgent : ∀ r' ∈ t.flowRules device, r'.accepts f = true → r'.priority ≤ r.priority

/-- A frame from `src` to `dst` that came in by a port of a device can cross the links one after the
other and then leave by the connect point. -/
inductive Journey (t : Topology) (src dst : Mac) :
    DeviceId → PortNumber → List Link → ConnectPoint → Prop where
  | leaves {device : DeviceId} {inPort : PortNumber} {r : FlowRule}
      (hhandles : t.Handles device ⟨inPort, src, dst⟩ r) :
      Journey t src dst device inPort [] ⟨device, r.output⟩
  | crosses {device : DeviceId} {inPort : PortNumber} {r : FlowRule} {l : Link}
      {rest : List Link} {exit : ConnectPoint} (hhandles : t.Handles device ⟨inPort, src, dst⟩ r)
      (hstored : l ∈ t.links.items) (hsrc : l.src = ⟨device, r.output⟩)
      (hrest : Journey t src dst l.dst.device l.dst.port rest exit) :
      Journey t src dst device inPort (l :: rest) exit

/-- Frames for an address that are on a device, wherever they come from, are carried along the links,
over each of their devices once, and out by a connect point: they can make this journey, and as
long as they are on it there is no other way out for them than where the next link starts. -/
structure Delivers (t : Topology) (address : Mac) (source : DeviceId) (links : List Link)
    (exit : ConnectPoint) : Prop where
  leads : Leads exit.device source links
  stored : ∀ l ∈ links, l ∈ t.links.items
  nodup : (devicesAlong source links).Nodup
  arrives : ∀ (src : Mac) (inPort : PortNumber), t.Journey src address source inPort links exit
  only : ∀ (src : Mac) (inPort : PortNumber) (done rest : List Link) (out : ConnectPoint),
    links = done ++ rest → t.Journey src address source inPort done out →
      out = (rest.head?.map Link.src).getD exit

/-- Frames for an address leave the device by this connect point, as far as the rules go that go by
the address. -/
def Sends (t : Topology) (address : Mac) (point : ConnectPoint) : Prop :=
  ∃ r, t.flows.find? (destinationSlot point.device address) = some r ∧ r.output = point.port

/-- Every installed rule has the form of the rules that are made along ways. -/
def AllGenerated (t : Topology) : Prop := ∀ r ∈ t.flows.items, r.Generated

variable {t : Topology} {address : Mac}

theorem mem_flowRules {device : DeviceId} {r : FlowRule} :
    r ∈ t.flowRules device ↔ r ∈ t.flows.items ∧ r.device = device := by
  simp [flowRules, FlowTables.on]

/-- The rule that goes by the address of a frame handles it, and no other does. -/
theorem handles_iff {device : DeviceId} {f : Frame} {r r' : FlowRule} (hgenerated : t.AllGenerated)
    (hfind : t.flows.find? (destinationSlot device f.dst) = some r) :
    t.Handles device f r' ↔ r' = r := by
  have hslot : r.slot = destinationSlot device f.dst := Roster.key_of_find? hfind
  have hdevice : r.device = device := congrArg FlowSlot.device hslot
  have hpriority : r.priority = destinationPriority := congrArg FlowSlot.priority hslot
  have hfields : r.fields = [.ethDst f.dst] := congrArg FlowSlot.fields hslot
  have hinstalled : r ∈ t.flowRules device :=
    mem_flowRules.2 ⟨Roster.mem_of_find? hfind, hdevice⟩
  have haccepts : r.accepts f = true := by simp [FlowRule.accepts, hfields, MatchField.accepts]
  constructor
  · intro h
    obtain ⟨hheld, hdevice'⟩ := mem_flowRules.1 h.installed
    have hurgent : destinationPriority ≤ r'.priority := hpriority ▸ h.urgent r hinstalled haccepts
    have hslot' := (hgenerated r' hheld).slot_eq hurgent h.accepts
    rw [Roster.mem_items_iff, hslot', hdevice', hfind] at hheld
    exact (Option.some.inj hheld).symm
  · intro hsame
    subst hsame
    refine ⟨hinstalled, haccepts, fun k hk _ => ?_⟩
    rw [hpriority]
    exact (hgenerated k (mem_flowRules.1 hk).1).priority_le

/-- Where the rules send frames for an address, some rule handles them and no rule that does sends
them elsewhere. -/
theorem Sends.handles {point : ConnectPoint} (hgenerated : t.AllGenerated)
    (hsends : t.Sends address point) (inPort : PortNumber) (src : Mac) :
    (∃ r, t.Handles point.device ⟨inPort, src, address⟩ r)
      ∧ ∀ r, t.Handles point.device ⟨inPort, src, address⟩ r →
          (⟨point.device, r.output⟩ : ConnectPoint) = point := by
  obtain ⟨r, hfind, hport⟩ := hsends
  constructor
  · exact ⟨r, (handles_iff hgenerated hfind).2 rfl⟩
  · intro r' hhandles
    obtain rfl := (handles_iff hgenerated hfind).1 hhandles
    rw [hport]

theorem journey_of_sends {source : DeviceId} {links : List Link} {exit : ConnectPoint}
    {entry : PortNumber} (hgenerated : t.AllGenerated) (hleads : Leads exit.device source links)
    (hstored : ∀ l ∈ links, l ∈ t.links.items)
    (hsends : ∀ hop ∈ hops exit entry links, t.Sends address hop.2) (src : Mac)
    (inPort : PortNumber) : t.Journey src address source inPort links exit := by
  induction links generalizing source entry inPort with
  | nil =>
    obtain rfl : source = exit.device := hleads
    have hsent : t.Sends address exit := hsends (entry, exit) List.mem_cons_self
    obtain ⟨⟨r, hhandles⟩, hexit⟩ := hsent.handles hgenerated inPort src
    have hjourney := Journey.leaves hhandles
    rw [hexit r hhandles] at hjourney
    exact hjourney
  | cons l rest ih =>
    obtain ⟨hsrc, hrest⟩ := hleads
    subst hsrc
    have hsent : t.Sends address l.src := hsends (entry, l.src) List.mem_cons_self
    obtain ⟨⟨r, hhandles⟩, hexit⟩ := hsent.handles hgenerated inPort src
    have hafter := ih hrest (fun k hk => hstored k (List.mem_cons_of_mem l hk))
      (fun hop hhop => hsends hop (List.mem_cons_of_mem _ hhop)) l.dst.port
    exact .crosses hhandles (hstored l List.mem_cons_self) (hexit r hhandles).symm hafter

theorem exit_of_journey {source : DeviceId} {done rest : List Link} {exit out : ConnectPoint}
    {entry : PortNumber} {src : Mac} {inPort : PortNumber} (hgenerated : t.AllGenerated)
    (hleads : Leads exit.device source (done ++ rest))
    (hsends : ∀ hop ∈ hops exit entry (done ++ rest), t.Sends address hop.2)
    (hjourney : t.Journey src address source inPort done out) :
    out = (rest.head?.map Link.src).getD exit := by
  induction done generalizing source entry inPort with
  | nil =>
    cases hjourney with
    | leaves hhandles =>
      cases rest with
      | nil =>
        obtain rfl : source = exit.device := hleads
        have hsent : t.Sends address exit := hsends (entry, exit) List.mem_cons_self
        exact (hsent.handles hgenerated inPort src).2 _ hhandles
      | cons l rest =>
        obtain ⟨hsrc, -⟩ := hleads
        subst hsrc
        have hsent : t.Sends address l.src := hsends (entry, l.src) List.mem_cons_self
        exact (hsent.handles hgenerated inPort src).2 _ hhandles
  | cons l done ih =>
    cases hjourney with
    | crosses hhandles hstored hsrc hjourney =>
      exact ih hleads.2 (fun hop hhop => hsends hop (List.mem_cons_of_mem _ hhop)) hjourney

theorem delivers_of_sends {source : DeviceId} {links : List Link} {exit : ConnectPoint}
    {entry : PortNumber} (hgenerated : t.AllGenerated) (hleads : Leads exit.device source links)
    (hstored : ∀ l ∈ links, l ∈ t.links.items) (hnodup : (devicesAlong source links).Nodup)
    (hsends : ∀ hop ∈ hops exit entry links, t.Sends address hop.2) :
    t.Delivers address source links exit where
  leads := hleads
  stored := hstored
  nodup := hnodup
  arrives := journey_of_sends hgenerated hleads hstored hsends
  only _ _ _ _ _ hsplit hjourney := by
    subst hsplit
    exact exit_of_journey hgenerated hleads hsends hjourney

end Topology

end Multidomain

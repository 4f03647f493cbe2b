import Multidomain.Proofs.Mapping.InPlace
import Multidomain.Proofs.Orchestration.History

/-!
# What elements mean

A handler works on the tables and the topology step by step. What it comes to is said here in one go: the
meaning of an element is the registry that it leads to and the notices that it gives rise to. `run_handle`
says that a handler writes the one and announces the others in order, up to the first that is refused, and
that where an element has no meaning the handler fails with the same fault and tells nothing. What it has
written by then is `leftBehind`. That is nothing, except where a fold is broken off; and in a `Housed`
registry no fold is.
-/

namespace Multidomain

/-- What an element means: the registry after it, and what to announce. -/
structure Meaning where
  registry : Registry
  notices : List Notice

/-- The meaning of an element under the explicit abstraction. -/
def Explicit.meaning (child : String) (r : Registry) : Element → Except ElementFault Meaning
  | .device entry => do
    let id ← entry.id.toExplicit.mapError .parse
    return {
      registry := (r.setAlias id entry.id).setOwner id child
      notices := [.device { entry.toDevice with id }] }
  | .link entry .added => do return ⟨r, [.link (← (ends entry.ends).mapError .parse)]⟩
  | .link entry .removed => do return ⟨r, [.unlink (← (ends entry.ends).mapError .parse)]⟩
  | .host entry => do
    let id ← entry.hostId.mapError .parse
    let location ← (point entry.location).mapError .parse
    return ⟨r, [.host { id, addresses := entry.ips, location }]⟩

/-- The meaning of an element under the implicit abstraction. -/
def Implicit.meaning (child : String) (r : Registry) : Element → Except ElementFault Meaning
  | .device entry =>
    let virtual := ChildAddress.virtualDevice child
    .ok ⟨(r.mapDevice entry.id virtual).setOwner virtual child, [.device (.switch virtual)]⟩
  | .link entry .added => do
    let src ← (r.virtual entry.ends.src.device).mapError .table
    let dst ← (r.virtual entry.ends.dst.device).mapError .table
    if src = dst then return ⟨r, []⟩
    let (r, link) ← (r.foldLink entry.ends).mapError .table
    return ⟨r, [.link link, .link link.inverted]⟩
  | .link entry .removed =>
    match r.disconnectLink entry.ends with
    | (r, none) => .ok ⟨r, []⟩
    | (r, some link) =>
      if r.links.isUp link then .ok ⟨r, []⟩
      else .ok ⟨r, [.unlink link, .unlink link.inverted]⟩
  | .host entry => do
    let id ← entry.hostId.mapError .parse
    let (r, location) ← (r.exposePoint entry.location).mapError .table
    return {
      registry := (r.recordHost ⟨id, entry.location⟩ ⟨id, location⟩).1
      notices := [.host { id, addresses := entry.ips, location }] }

namespace Abstraction

/-- The meaning of an element under an abstraction. -/
def meaning : Abstraction → String → Registry → Element → Except ElementFault Meaning
  | explicit => Explicit.meaning
  | implicit => Implicit.meaning

/-- The registry that an element without a meaning leaves behind. -/
def leftBehind : Abstraction → Registry → Element → Registry
  | implicit, r, .link entry .added => stateAfter (Registry.foldLinkInPlace entry.ends) r
  | _, r, _ => r

end Abstraction

namespace Uptake

/-- What comes of an element with this meaning, if it has any. -/
def concluded (u : Uptake) (left : Registry) :
    Except ElementFault Meaning → EStateM.Result ElementFault Uptake Unit
  | .ok m => (announce m.notices).run { u with registry := m.registry }
  | .error fault => .error fault { u with registry := left }

variable {u : Uptake}

theorem run_onTables {α : Type} (x : EStateM TableFault Registry α) :
    (onTables x).run u = match x.run u.registry with
      | .ok a registry => .ok a { u with registry }
      | .error fault registry => .error (.table fault) { u with registry } := rfl

theorem run_announce_nil : (announce []).run u = .ok () u := by
  simp [announce, EStateM.run, Topology.heedAll]

end Uptake

open Uptake

theorem Explicit.run_handle (child : String) (e : Element) (u : Uptake) :
    (handle child e).run u = u.concluded u.registry (meaning child u.registry e) := by
  match e with
  | .device entry =>
    rw [handle, meaning]
    cases entry.id.toExplicit with
    | error fault => rfl
    | ok id => rfl
  | .link entry .added =>
    rw [handle, meaning]
    cases ends entry.ends with
    | error fault => rfl
    | ok e => rfl
  | .link entry .removed =>
    rw [handle, meaning]
    cases ends entry.ends with
    | error fault => rfl
    | ok e => rfl
  | .host entry =>
    rw [handle, meaning]
    cases entry.hostId with
    | error fault => rfl
    | ok id =>
      cases point entry.location with
      | error fault => rfl
      | ok location => rfl

namespace Implicit

theorem run_virtual_bind (u : Uptake) (device : DeviceId) (next : DeviceId → Handler Unit) :
    (onTables (Registry.virtualInPlace device) >>= next).run u =
      match u.registry.virtual? device with
      | some virtual => (next virtual).run u
      | none => .error (.table (.unmapped device)) u := by
  rw [run_bind, run_onTables, Registry.run_virtualInPlace, Registry.virtual]
  cases u.registry.virtual? device with
  | none => rfl
  | some virtual => rfl

/-- The meaning of a new link between devices that belong to virtual ones. -/
theorem meaning_added (child : String) {r : Registry} {entry : LinkEntry} {src dst : DeviceId}
    (hsrc : r.virtual? entry.ends.src.device = some src)
    (hdst : r.virtual? entry.ends.dst.device = some dst) :
    meaning child r (.link entry .added) =
      if src = dst then .ok ⟨r, []⟩
      else match r.foldLink entry.ends with
        | .error fault => .error (.table fault)
        | .ok (registry, link) => .ok ⟨registry, [.link link, .link link.inverted]⟩ := by
  simp only [meaning, Registry.virtual, hsrc, hdst]
  cases r.foldLink entry.ends <;> rfl

variable (child : String) (u : Uptake)

theorem run_handle_device (entry : DeviceEntry) :
    (handle child (.device entry)).run u
      = u.concluded u.registry (meaning child u.registry (.device entry)) := by
  simp only [handle, meaning]
  generalize ChildAddress.virtualDevice child = virtual
  rfl

theorem run_handle_linkAdded (entry : LinkEntry) :
    (handle child (.link entry .added)).run u
      = u.concluded (stateAfter (Registry.foldLinkInPlace entry.ends) u.registry)
        (meaning child u.registry (.link entry .added)) := by
  have hunmapped : ∀ fault, u.registry.virtual? entry.ends.src.device = none
      ∨ u.registry.virtual? entry.ends.dst.device = none →
      EStateM.Result.error (α := Unit) fault u
        = u.concluded (stateAfter (Registry.foldLinkInPlace entry.ends) u.registry) (.error fault) := by
    intro fault hnone
    rw [Registry.stateAfter_foldLinkInPlace_of_unmapped u.registry entry.ends hnone]
    rfl
  rw [handle, run_virtual_bind]
  cases hsrc : u.registry.virtual? entry.ends.src.device with
  | none =>
    simp only [meaning, Registry.virtual, hsrc]
    exact hunmapped _ (.inl hsrc)
  | some src =>
    simp only [run_virtual_bind]
    cases hdst : u.registry.virtual? entry.ends.dst.device with
    | none =>
      simp only [meaning, Registry.virtual, hsrc, hdst]
      exact hunmapped _ (.inr hdst)
    | some dst =>
      simp only [meaning_added child hsrc hdst]
      by_cases hsame : src = dst
      · rw [if_pos hsame, if_pos hsame]
        exact run_announce_nil.symm
      · rw [if_neg hsame, if_neg hsame, run_bind, run_onTables]
        have hagrees := Registry.agrees_foldLink u.registry entry.ends
        cases hfold : u.registry.foldLink entry.ends with
        | error fault =>
          rw [hfold] at hagrees
          obtain ⟨left, hrun⟩ := hagrees
          simp only [stateAfter, hrun, concluded]
        | ok folded =>
          rw [hfold] at hagrees
          rw [show (Registry.foldLinkInPlace entry.ends).run u.registry = .ok folded.2 folded.1
            from hagrees]
          rfl

theorem run_handle_linkRemoved (entry : LinkEntry) :
    (handle child (.link entry .removed)).run u
      = u.concluded u.registry (meaning child u.registry (.link entry .removed)) := by
  rw [handle, meaning, run_get_bind]
  simp only [Registry.disconnectLink]
  cases u.registry.links.carriedBy? entry.ends with
  | none => exact run_announce_nil.symm
  | some link =>
    by_cases hup : (u.registry.links.disconnect entry.ends).isUp link = true
    · simp only [hup, if_true]
      exact run_announce_nil.symm
    · simp only [hup]
      rfl

theorem run_handle_host (entry : HostEntry) :
    (handle child (.host entry)).run u
      = u.concluded u.registry (meaning child u.registry (.host entry)) := by
  rw [handle, meaning]
  cases entry.hostId with
  | error fault => rfl
  | ok id =>
    change (onTables (Registry.exposePointInPlace entry.location) >>= _).run u = _
    rw [run_bind, run_onTables, Registry.run_exposePointInPlace]
    cases u.registry.exposePoint entry.location with
    | error fault => rfl
    | ok exposed => rfl

end Implicit

theorem Abstraction.run_handle (mode : Abstraction) (child : String) (e : Element) (u : Uptake) :
    (mode.handle child e).run u
      = u.concluded (mode.leftBehind u.registry e) (mode.meaning child u.registry e) := by
  cases mode with
  | explicit => exact Explicit.run_handle child e u
  | implicit =>
    match e with
    | .device entry => exact Implicit.run_handle_device child u entry
    | .link entry .added => exact Implicit.run_handle_linkAdded child u entry
    | .link entry .removed => exact Implicit.run_handle_linkRemoved child u entry
    | .host entry => exact Implicit.run_handle_host child u entry

namespace Domain

variable {mode : Abstraction} {child : String} {d : Domain} {e : Element} {fault : ElementFault}

theorem takeUp_of_ok {m : Meaning} (h : mode.meaning child d.registry e = .ok m) :
    d.takeUp mode child e = (⟨m.registry, (d.topology.heedAll m.notices).1⟩,
      (d.topology.heedAll m.notices).2.1, (d.topology.heedAll m.notices).2.2.map .rejected) := by
  rw [takeUp, mode.run_handle, h]
  rcases hheeded : d.topology.heedAll m.notices with ⟨topology, events, refusal⟩
  cases refusal with
  | none => simp [concluded, announce, EStateM.run, hheeded]
  | some refusal => simp [concluded, announce, EStateM.run, hheeded]

theorem takeUp_of_error (h : mode.meaning child d.registry e = .error fault) :
    d.takeUp mode child e = ({ d with registry := mode.leftBehind d.registry e }, [], some fault) := by
  rw [takeUp, mode.run_handle, h]
  rfl

end Domain

theorem Implicit.exists_meaning_added {r : Registry} {entry : LinkEntry} {src dst : DeviceId}
    (h : r.Housed) (child : String) (hsrc : r.virtual? entry.ends.src.device = some src)
    (hdst : r.virtual? entry.ends.dst.device = some dst) :
    ∃ m, meaning child r (.link entry .added) = .ok m := by
  obtain ⟨registry, link, hfold⟩ := h.exists_foldLink hsrc hdst
  rw [meaning_added child hsrc hdst, hfold]
  split
  · exact ⟨_, rfl⟩
  · exact ⟨_, rfl⟩

/-- Where every virtual device that a device belongs to has its port space, an element without a meaning
leaves nothing behind: a new link that a fold is begun for has one. -/
theorem Registry.Housed.leftBehind_eq {r : Registry} (h : r.Housed) {mode : Abstraction}
    {child : String} {e : Element} {fault : ElementFault}
    (hmeaning : mode.meaning child r e = .error fault) : mode.leftBehind r e = r := by
  match mode, e with
  | .explicit, _ => rfl
  | .implicit, .device entry => rfl
  | .implicit, .link entry .removed => rfl
  | .implicit, .host entry => rfl
  | .implicit, .link entry .added =>
    have hunmapped : r.virtual? entry.ends.src.device = none
        ∨ r.virtual? entry.ends.dst.device = none := by
      cases hsrc : r.virtual? entry.ends.src.device with
      | none => exact .inl rfl
      | some src =>
        cases hdst : r.virtual? entry.ends.dst.device with
        | none => exact .inr rfl
        | some dst =>
          obtain ⟨m, hm⟩ := Implicit.exists_meaning_added h child hsrc hdst
          exact nomatch hm.symm.trans hmeaning
    exact stateAfter_foldLinkInPlace_of_unmapped r entry.ends hunmapped

end Multidomain

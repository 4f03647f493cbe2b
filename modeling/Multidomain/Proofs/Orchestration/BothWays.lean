import Multidomain.Proofs.Flow.Hop
import Multidomain.Proofs.Orchestration.Footing
import Multidomain.Proofs.Orchestration.SeededHistory
import Multidomain.Proofs.Topology.Symmetry

/-!
# Traffic both ways

A node that takes its links from seed documents and from children under the implicit abstraction is
told of each of them in both directions, and loses them in both. Its topology is symmetric after any
history (`symmetric_after`), and that is all that rules for both directions need: where a chain leads
from one connect point to another, a chain as long leads back, and the rules of a segment have every
hop of the one and of the other.
-/

namespace Multidomain

theorem Ends.sameScheme_inverted (e : Ends) : e.inverted.sameScheme = e.sameScheme := by
  unfold sameScheme inverted
  cases e.src.device.orchestratedScheme? with
  | none => cases e.dst.device.orchestratedScheme? <;> rfl
  | some a =>
    cases e.dst.device.orchestratedScheme? with
    | none => rfl
    | some b => exact Bool.beq_comm

namespace Implicit

variable {t : Topology} {link : Ends}

/-- Both directions of a link are accepted, or neither is. -/
theorem symmetric_shown (h : t.Symmetric) (link : Ends) : (shown t link).Symmetric := by
  unfold shown
  cases hscheme : link.sameScheme with
  | false => simpa [Topology.heedAll, Notice.refusal?, hscheme] using h
  | true =>
    have hback : link.inverted.sameScheme = true := link.sameScheme_inverted.trans hscheme
    simpa [Topology.heedAll, Notice.refusal?, hscheme, hback, Topology.heed] using h.detectBoth link

theorem symmetric_hidden (h : t.Symmetric) (link : Ends) : (hidden t link).Symmetric := by
  unfold hidden
  cases hscheme : link.sameScheme with
  | false => simpa [Topology.heedAll, Notice.refusal?, hscheme] using h
  | true =>
    have hback : link.inverted.sameScheme = true := link.sameScheme_inverted.trans hscheme
    simpa [Topology.heedAll, Notice.refusal?, hscheme, hback, Topology.heed] using h.loseBoth link

theorem symmetric_hear {d : Domain} (h : d.topology.Symmetric) (r : Report) :
    (d.hear .implicit r).topology.Symmetric := by
  have heffect := effect_hear d r
  generalize r.element? = element at heffect
  generalize d.hear .implicit r = d' at heffect ⊢
  cases heffect with
  | unread => exact h
  | absorbed entry => exact h.of_links_eq (Topology.links_connectDevice _ _)
  | ignored => exact h
  | failed => exact h
  | folded entry => exact symmetric_shown h _
  | unknown => exact h
  | thinned entry => exact h
  | withdrawn entry => exact symmetric_hidden h _
  | unattached => exact h
  | attached entry => exact h.of_links_eq (Topology.links_heedAll_host _ _).1

theorem symmetric_plant (h : t.Symmetric) (s : Seed) : (s.plant t).1.Symmetric := by
  have hdevices : (Seed.plantAll DeviceEntry.read? Seed.plantDevice s.devices t).1.Symmetric :=
    Seed.plantAll_keeps h fun _ _ d _ t ht => ht.of_links_eq (Topology.links_connectDevice t d.toDevice)
  have hlinks : (Seed.plantAll LinkEntry.read? Seed.plantLink s.links
      (Seed.plantAll DeviceEntry.read? Seed.plantDevice s.devices t).1).1.Symmetric :=
    Seed.plantAll_keeps hdevices fun _ _ l _ t ht => ht.detectBoth l.ends.inverted
  apply Seed.plantAll_keeps hlinks
  intro _ _ host _ t ht
  apply ht.of_links_eq
  show (t.detectHost host).1.links = t.links
  rw [Topology.detectHost_eq]

theorem symmetric_after (history : List (Intake Report)) :
    (Domain.after .implicit history).topology.Symmetric := by
  apply Domain.after_induction (motive := fun _ d => d.topology.Symmetric)
  case hnil => exact Topology.symmetric_empty
  case hstep =>
    intro history intake ih
    cases intake with
    | sent r => exact symmetric_hear ih r
    | seed s => exact symmetric_plant ih s

end Implicit

/-! ### The rules of a segment, hop by hop -/

namespace Topology

/-- The links are a chain from one connect point to another, and the rules have both rules of each of
its hops. -/
structure Carries (t : Topology) (app : String) (src dst : ConnectPoint) (terminal : Terminal)
    (links : List Link) (rules : List FlowDescriptor) : Prop where
  chain : t.Chain src.device dst.device links
  hops : ∀ hop ∈ hops dst src.port links, ∀ rule ∈ hopRules app hop.1 hop.2 terminal, rule ∈ rules

variable {t : Topology} {app : String} {src dst : ConnectPoint} {terminal : Terminal}

theorem carries_of_way? {links : List Link} {rules : List FlowDescriptor}
    (h : t.way? src.device dst.device = some links)
    (hrules : ∀ rule ∈ t.oneWay app src dst terminal, rule ∈ rules) :
    t.Carries app src dst terminal links rules where
  chain := ⟨(way?_spec h).1, (way?_spec h).2.1⟩
  hops hop hhop rule hrule := by
    apply hrules
    rw [oneWay_of_way? h, rulesAlong_eq_flatMap]
    exact List.mem_flatMap.2 ⟨hop, hhop, hrule⟩

/-- A way back is as long as the way there. -/
theorem Symmetric.exists_ways (h : t.Symmetric) {a b : DeviceId} {chain : List Link}
    (hchain : t.Chain a b chain) :
    ∃ there back, t.way? a b = some there ∧ t.way? b a = some back
      ∧ there.length = back.length := by
  by_cases hsame : a = b
  · subst hsame
    exact ⟨[], [], t.way?_self a, t.way?_self a, rfl⟩
  · obtain ⟨there, hthere⟩ := exists_route?_of_leads hsame hchain.1 hchain.2
    have hlength := h.length_route?_comm a b
    rw [hthere, Option.map_some, eq_comm, Option.map_eq_some_iff] at hlength
    obtain ⟨back, hback, hlength⟩ := hlength
    exact ⟨there, back, way?_of_route? hthere, way?_of_route? hback, hlength.symm⟩

theorem Symmetric.exists_carries (h : t.Symmetric) {chain : List Link}
    (hchain : t.Chain src.device dst.device chain) (app : String) (terminal : Terminal) :
    ∃ there back, there.length = back.length
      ∧ t.Carries app src dst terminal there (t.bothWays app src dst terminal)
      ∧ t.Carries app dst src terminal.swapped back (t.bothWays app src dst terminal) := by
  obtain ⟨there, back, hthere, hback, hlength⟩ := h.exists_ways hchain
  refine ⟨there, back, hlength, carries_of_way? hthere ?_, carries_of_way? hback ?_⟩
  · intro rule hrule
    exact List.mem_eraseDups.2 (List.mem_append_left _ hrule)
  · intro rule hrule
    exact List.mem_eraseDups.2 (List.mem_append_right _ hrule)

end Topology

namespace Implicit

/-- **Symmetric stores carry traffic both ways.** After any seed documents and any documents of
children under the implicit abstraction, each link is there in both directions; chains of one length
lead both ways between any two devices, and so do the routes that are found; and between connect points
on devices that a chain joins the rules have every hop of a chain there and of a chain back. -/
theorem both_ways_afterIntakes (intakes : List (Intake Letter)) :
    let t := (Domain.afterIntakes .implicit intakes).topology
    (∀ l ∈ t.links.items, l.reversed ∈ t.links.items)
      ∧ (∀ a b n, (∃ chain, t.Chain a b chain ∧ chain.length = n)
          ↔ ∃ chain, t.Chain b a chain ∧ chain.length = n)
      ∧ (∀ a b, (t.route? a b).map List.length = (t.route? b a).map List.length)
      ∧ ∀ (app : String) (src dst : ConnectPoint) (terminal : Terminal) (chain : List Link),
          t.Chain src.device dst.device chain →
          ∃ there back, there.length = back.length
            ∧ t.Carries app src dst terminal there (t.bothWays app src dst terminal)
            ∧ t.Carries app dst src terminal.swapped back (t.bothWays app src dst terminal) := by
  intro t
  have h : t.Symmetric := by
    rw [show t = _ from congrArg Domain.topology (Domain.afterIntakes_eq intakes)]
    exact symmetric_after _
  refine ⟨h, h.exists_chain_comm, h.length_route?_comm, ?_⟩
  intro app src dst terminal chain hchain
  exact h.exists_carries hchain app terminal

/-- Two children with a link between them, and a device of the node's own that a seed document attaches
to the virtual device of the first. -/
def ownDeviceBefore : List (Intake Letter) :=
  [.sent ⟨"a", .devices [sentDevice "of:1"]⟩,
   .seed { devices := [sentDevice "of:9"], links := [sentLink "of:9" 1 "imvs:a" 9] },
   .sent ⟨"b", .devices [sentDevice "of:3"]⟩,
   .sent ⟨"a", .links [sentLink "of:1" 3 "of:3" 3]⟩]

theorem carries_ownDeviceBefore :
    let t := (Domain.afterIntakes .implicit ownDeviceBefore).topology
    let src : ConnectPoint := ⟨⟨"imvs:b"⟩, 5⟩
    let dst : ConnectPoint := ⟨⟨"of:9"⟩, 2⟩
    let terminal : Terminal := ⟨⟨[0, 0, 0, 0, 0, 1], rfl⟩, ⟨[0, 0, 0, 0, 0, 2], rfl⟩⟩
    let chain : List Link := [.direct ⟨⟨⟨"imvs:b"⟩, 1⟩, ⟨⟨"imvs:a"⟩, 1⟩⟩,
      .direct ⟨⟨⟨"imvs:a"⟩, 9⟩, ⟨⟨"of:9"⟩, 1⟩⟩]
    t.Chain src.device dst.device chain
      ∧ ∃ there back, there.length = back.length
        ∧ t.Carries "strata.orch" src dst terminal there (t.bothWays "strata.orch" src dst terminal)
        ∧ t.Carries "strata.orch" dst src terminal.swapped back
          (t.bothWays "strata.orch" src dst terminal) := by
  intro t src dst terminal chain
  have hchain : t.Chain src.device dst.device chain := ⟨by decide +kernel, by decide +kernel⟩
  exact ⟨hchain, (both_ways_afterIntakes ownDeviceBefore).2.2.2 _ src dst terminal chain hchain⟩

end Implicit

end Multidomain

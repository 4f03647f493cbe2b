import Multidomain.Proofs.Mapping.Registry
import Multidomain.Proofs.Orchestration.Effect

/-!
# The virtual links that a node shows

Under the implicit abstraction a node shows a link between two virtual devices exactly while the
book has a connected real link for them, and then it shows that one link, in both directions and at
its two ports. The book and the topology are kept by different operations and told apart by
different identities, so the agreement is an invariant of its own: `Coherent` says what the registry
and the topology owe each other, and `coherent_hear` that every report keeps it. What the topology
shows between two virtual devices after any run of documents is then read off the invariant.
-/

namespace Multidomain

namespace LinkBook

/-- The link is the virtual link of its two devices, in one of its directions, and is up. -/
def Shows (b : LinkBook) (e : Ends) : Prop :=
  (∃ span, Table.get? b.spans e.pair = some span ∧ (e = span ∨ e = span.inverted)) ∧ b.isUp e = true

theorem isUp_congr {b : LinkBook} {e f : Ends} (h : e.pair = f.pair) : b.isUp e = b.isUp f := by
  unfold isUp
  rw [h]

theorem isUp_record {b : LinkBook} {real link e : Ends} :
    (b.record real link).isUp e = true ↔ link.pair = e.pair ∨ b.isUp e = true := by
  simp only [isUp_iff_flag?, flag?_record]
  constructor
  · rintro ⟨heading, hflag⟩
    split at hflag
    · next h => exact Or.inl h.1
    · exact Or.inr ⟨heading, hflag⟩
  · rintro (hpair | ⟨heading, hflag⟩)
    · exact ⟨real.heading, if_pos ⟨hpair, rfl⟩⟩
    · refine ⟨heading, ?_⟩
      split
      · rfl
      · exact hflag

/-- Disconnecting connects nothing. -/
theorem isUp_of_isUp_disconnect {b : LinkBook} {real e : Ends}
    (h : (b.disconnect real).isUp e = true) : b.isUp e = true := by
  obtain ⟨heading, hflag⟩ := isUp_iff_flag?.1 h
  rw [flag?_disconnect] at hflag
  split at hflag
  · simp at hflag
  · exact isUp_iff_flag?.2 ⟨heading, hflag⟩

/-- Disconnecting concerns only the pair of the virtual link that is carried. -/
theorem isUp_disconnect_of_ne {b : LinkBook} {real link e : Ends}
    (hcarried : b.carriedBy? real = some link) (hne : link.pair ≠ e.pair) :
    (b.disconnect real).isUp e = b.isUp e := by
  rw [Bool.eq_iff_iff, isUp_iff_flag?, isUp_iff_flag?]
  simp [flag?_disconnect, hcarried, hne]

/-- While the carried link stays up, disconnecting changes nothing of what is shown. -/
theorem shows_disconnect_of_isUp {b : LinkBook} {real link e : Ends}
    (hcarried : b.carriedBy? real = some link) (hup : (b.disconnect real).isUp link = true) :
    (b.disconnect real).Shows e ↔ b.Shows e := by
  have hsame : (b.disconnect real).isUp e = b.isUp e := by
    by_cases hpair : link.pair = e.pair
    · have hafter := hup
      rw [isUp_congr hpair] at hafter
      rw [hafter, isUp_of_isUp_disconnect hafter]
    · exact isUp_disconnect_of_ne hcarried hpair
  simp only [Shows, spans_disconnect, hsame]

/-- Once nothing carries it any more, the carried link is no longer shown, and no other link is
affected. -/
theorem shows_disconnect_of_not_isUp {b : LinkBook} {real link span e : Ends}
    (hcarried : b.carriedBy? real = some link) (hdown : (b.disconnect real).isUp link = false)
    (hspan : Table.get? b.spans link.pair = some span) (hlink : link = span ∨ link = span.inverted) :
    (b.disconnect real).Shows e ↔ b.Shows e ∧ ¬ (e = link ∨ e = link.inverted) := by
  by_cases hpair : link.pair = e.pair
  · have hafter : (b.disconnect real).isUp e = false := by rw [← isUp_congr hpair, hdown]
    constructor
    · intro ⟨_, hup⟩
      simp [hafter] at hup
    · intro ⟨⟨⟨span', hspan', he⟩, _⟩, hother⟩
      rw [← hpair, hspan] at hspan'
      obtain rfl := Option.some.inj hspan'
      exact absurd (Ends.orientation_trans he (Ends.orientation_symm hlink)) hother
  · have hother : ¬ (e = link ∨ e = link.inverted) :=
      fun he => hpair (Ends.pair_of_orientation he).symm
    simp [Shows, isUp_disconnect_of_ne hcarried hpair, hother]

/-- Recording a real link for the virtual link of its pair makes that link shown, and no other. -/
theorem shows_record {b : LinkBook} {real link span e : Ends}
    (hspan : Table.get? b.spans link.pair = some span) (hlink : link = span ∨ link = span.inverted) :
    (b.record real link).Shows e ↔ (e = link ∨ e = link.inverted) ∨ b.Shows e := by
  have hspans : (b.record real link).spans = b.spans := spans_record_of_some hspan
  simp only [Shows, hspans, isUp_record]
  constructor
  · rintro ⟨⟨span', hspan', he⟩, hup⟩
    obtain hpair | hup := hup
    · rw [← hpair, hspan] at hspan'
      obtain rfl := Option.some.inj hspan'
      exact Or.inl (Ends.orientation_trans he (Ends.orientation_symm hlink))
    · exact Or.inr ⟨⟨span', hspan', he⟩, hup⟩
  · intro h
    obtain he | ⟨hspan', hup⟩ := h
    · have hpair : link.pair = e.pair := (Ends.pair_of_orientation he).symm
      exact ⟨⟨span, hpair ▸ hspan, Ends.orientation_trans he hlink⟩, Or.inl hpair⟩
    · exact ⟨hspan', Or.inr hup⟩

end LinkBook

namespace Topology

variable {t : Topology} {link : Ends}

theorem knows_of_devices {t' : Topology} (h : t'.devices = t.devices) (device : DeviceId) :
    t'.knows device = t.knows device := by
  rw [knows, knows, h]

theorem find?_detectLink_direct (hknown : t.knows link.src.device = true)
    (hdirect : ∀ l, t.links.find? link = some l → l = .direct link) (e : Ends) :
    (t.detectLink (.direct link)).1.links.find? e =
      if e = link then some (.direct link) else t.links.find? e := by
  have hsrc : t.knows (Link.direct link).src.device = true := hknown
  have hends : (Link.direct link).ends = link := rfl
  unfold detectLink
  rw [hsrc, hends]
  by_cases hthere : t.links.contains link = true
  · obtain ⟨l, hl⟩ := Option.isSome_iff_exists.1 hthere
    by_cases he : e = link
    · subst he
      simp [hthere, hl, hdirect l hl]
    · simp [hthere, he]
  · have hfind := Roster.find?_put t.links (.direct link) e
    rw [hends] at hfind
    by_cases he : e = link
    · subst he
      simp [hthere, hfind]
    · have hne : ¬ link = e := fun h => he h.symm
      simp [hthere, he, hne, hfind]

theorem devices_detectLink (t : Topology) (l : Link) :
    (t.detectLink l).1.devices = t.devices := by
  unfold detectLink
  repeat' split
  all_goals rfl

theorem find?_loseLink (t : Topology) (link e : Ends) :
    (t.loseLink link).1.links.find? e = if e = link then none else t.links.find? e := by
  unfold loseLink
  cases hfind : t.links.find? link with
  | none =>
    by_cases he : e = link
    · simp [he, hfind]
    · simp [he]
  | some l => exact Roster.find?_erase t.links link e

theorem devices_loseLink (t : Topology) (link : Ends) : (t.loseLink link).1.devices = t.devices := by
  unfold loseLink
  split <;> rfl

theorem links_connectDevice (t : Topology) (d : Device) : (t.connectDevice d).1.links = t.links := by
  unfold connectDevice
  split <;> rfl

theorem links_heedAll_host (t : Topology) (host : Host) :
    (t.heedAll [.host host]).1.links = t.links ∧ (t.heedAll [.host host]).1.devices = t.devices := by
  unfold heedAll
  split
  · exact ⟨rfl, rfl⟩
  · simp only [heed, detectHost, heedAll]
    split <;> exact ⟨rfl, rfl⟩

end Topology

namespace Implicit

open ChildAddress (virtualDevice)

theorem sameScheme_of_implicit {link : Ends}
    (hsrc : link.src.device.orchestratedScheme? = some DeviceId.implicitScheme)
    (hdst : link.dst.device.orchestratedScheme? = some DeviceId.implicitScheme) :
    link.sameScheme = true := by
  simp [Ends.sameScheme, hsrc, hdst]

/-- The ends of the link are virtual devices that the topology knows. -/
structure Known (t : Topology) (link : Ends) : Prop where
  src_scheme : link.src.device.orchestratedScheme? = some DeviceId.implicitScheme
  dst_scheme : link.dst.device.orchestratedScheme? = some DeviceId.implicitScheme
  src_known : t.knows link.src.device = true
  dst_known : t.knows link.dst.device = true

theorem Known.inverted {t : Topology} {link : Ends} (h : Known t link) : Known t link.inverted :=
  ⟨h.dst_scheme, h.src_scheme, h.dst_known, h.src_known⟩

theorem shown_eq {t : Topology} {link : Ends} (h : Known t link) :
    shown t link =
      ((t.detectLink (.direct link)).1.detectLink (.direct link.inverted)).1 := by
  have hthere : (Notice.link link).refusal? = none := by
    simp [Notice.refusal?, sameScheme_of_implicit h.src_scheme h.dst_scheme]
  have hback : (Notice.link link.inverted).refusal? = none := by
    simp [Notice.refusal?, sameScheme_of_implicit h.inverted.src_scheme h.inverted.dst_scheme]
  simp [shown, Topology.heedAll, hthere, hback, Topology.heed]

theorem hidden_eq {t : Topology} {link : Ends} (h : Known t link) :
    hidden t link = ((t.loseLink link).1.loseLink link.inverted).1 := by
  have hthere : (Notice.unlink link).refusal? = none := by
    simp [Notice.refusal?, sameScheme_of_implicit h.src_scheme h.dst_scheme]
  have hback : (Notice.unlink link.inverted).refusal? = none := by
    simp [Notice.refusal?, sameScheme_of_implicit h.inverted.src_scheme h.inverted.dst_scheme]
  simp [hidden, Topology.heedAll, hthere, hback, Topology.heed]

/-- Showing a link leaves it and its inverse in the topology, and every other link as it was. -/
theorem find?_shown {t : Topology} {link : Ends} (h : Known t link)
    (hdirect : ∀ e l, t.links.find? e = some l → l = .direct e) (e : Ends) :
    (shown t link).links.find? e =
      if e = link ∨ e = link.inverted then some (.direct e) else t.links.find? e := by
  have hknown : (t.detectLink (.direct link)).1.knows link.inverted.src.device = true :=
    (Topology.knows_of_devices (Topology.devices_detectLink t _) _).trans h.dst_known
  have hfirst := Topology.find?_detectLink_direct h.src_known (hdirect link)
  have hdirect' : ∀ l, (t.detectLink (.direct link)).1.links.find? link.inverted = some l →
      l = .direct link.inverted := by
    intro l hl
    rw [hfirst] at hl
    split at hl
    · next heq => rw [heq, Option.some.inj hl]
    · exact hdirect _ _ hl
  rw [shown_eq h, Topology.find?_detectLink_direct hknown hdirect', hfirst]
  by_cases hback : e = link.inverted
  · simp [hback]
  · by_cases hthere : e = link
    · subst hthere
      simp [hback]
    · simp [hback, hthere]

theorem find?_hidden {t : Topology} {link : Ends} (h : Known t link) (e : Ends) :
    (hidden t link).links.find? e =
      if e = link ∨ e = link.inverted then none else t.links.find? e := by
  rw [hidden_eq h, Topology.find?_loseLink, Topology.find?_loseLink]
  by_cases hback : e = link.inverted
  · simp [hback]
  · by_cases hthere : e = link <;> simp [hback, hthere]

theorem devices_shown {t : Topology} {link : Ends} (h : Known t link) :
    (shown t link).devices = t.devices := by
  rw [shown_eq h, Topology.devices_detectLink, Topology.devices_detectLink]

theorem devices_hidden {t : Topology} {link : Ends} (h : Known t link) :
    (hidden t link).devices = t.devices := by
  rw [hidden_eq h, Topology.devices_loseLink, Topology.devices_loseLink]

/-! ### What the registry and the topology owe each other -/

/-- A virtual device has a port space, is known to the topology and carries the virtual scheme. -/
structure Ready (d : Domain) (device : DeviceId) : Prop where
  isOpen : d.registry.ports.isOpen device = true
  known : d.topology.knows device = true
  scheme : device.orchestratedScheme? = some DeviceId.implicitScheme

/-- The invariant of a domain that has heard reports under the implicit abstraction. -/
structure Coherent (d : Domain) : Prop where
  /-- Devices belong to virtual devices that are ready. -/
  ready_of_virtual : ∀ {device virtual}, d.registry.virtual? device = some virtual → Ready d virtual
  /-- The virtual link of a pair joins the two devices of that pair. -/
  pair_of_span : ∀ {pair span}, Table.get? d.registry.links.spans pair = some span →
    span.pair = pair ∧ span.src.device ≠ span.dst.device ∧
      Ready d span.src.device ∧ Ready d span.dst.device
  /-- What a real link carries is the virtual link of a pair, and has a flag for the real link. -/
  span_of_carried : ∀ {heading link}, Table.get? d.registry.links.carried heading = some link →
    (d.registry.links.flag? link.pair heading).isSome ∧
      ∃ span, Table.get? d.registry.links.spans link.pair = some span ∧
        (link = span ∨ link = span.inverted)
  /-- The topology shows the links that are up, as the book has them. -/
  find?_iff : ∀ {e l}, d.topology.links.find? e = some l ↔
    l = .direct e ∧ d.registry.links.Shows e

theorem coherent_empty : Coherent .empty where
  ready_of_virtual h := nomatch (h : none = some _)
  pair_of_span h := nomatch (h : none = some _)
  span_of_carried h := nomatch (h : none = some _)
  find?_iff := by
    intro e l
    constructor
    · intro h
      exact nomatch (h : none = some l)
    · rintro ⟨_, ⟨span, hspan, _⟩, _⟩
      exact nomatch (hspan : none = some span)

variable {d : Domain}

/-- A ready device stays ready while port spaces and known devices only become more. -/
theorem Ready.mono {d' : Domain} {device : DeviceId} (h : Ready d device)
    (hports : d.registry.ports.isOpen device = true → d'.registry.ports.isOpen device = true)
    (hknows : d.topology.knows device = true → d'.topology.knows device = true) :
    Ready d' device :=
  ⟨hports h.isOpen, hknows h.known, h.scheme⟩

theorem Coherent.known_of_span {pair : DevicePair} {span link : Ends} (h : Coherent d)
    (hspan : Table.get? d.registry.links.spans pair = some span)
    (hlink : link = span ∨ link = span.inverted) : Known d.topology link := by
  obtain ⟨_, _, hsrc, hdst⟩ := h.pair_of_span hspan
  have hknown : Known d.topology span := ⟨hsrc.scheme, hdst.scheme, hsrc.known, hdst.known⟩
  rcases hlink with rfl | rfl
  · exact hknown
  · exact hknown.inverted

/-- Whatever leaves the book and the links alone and takes nothing away keeps the invariant. -/
theorem Coherent.of_same_links {d' : Domain} (h : Coherent d)
    (hbook : d'.registry.links = d.registry.links)
    (hlinks : d'.topology.links = d.topology.links)
    (hports : ∀ device, d.registry.ports.isOpen device = true → d'.registry.ports.isOpen device = true)
    (hknows : ∀ device, d.topology.knows device = true → d'.topology.knows device = true)
    (hready : ∀ {device virtual}, d'.registry.virtual? device = some virtual → Ready d' virtual) :
    Coherent d' where
  ready_of_virtual := hready
  pair_of_span hspan := by
    rw [hbook] at hspan
    obtain ⟨hpair, hne, hsrc, hdst⟩ := h.pair_of_span hspan
    exact ⟨hpair, hne, hsrc.mono (hports _) (hknows _), hdst.mono (hports _) (hknows _)⟩
  span_of_carried hcarried := by
    rw [hbook] at hcarried ⊢
    exact h.span_of_carried hcarried
  find?_iff := by
    intro e l
    rw [hbook, hlinks]
    exact h.find?_iff

theorem coherent_absorbed (h : Coherent d) (child : String) (device : DeviceId) :
    Coherent
      { registry := (d.registry.mapDevice device (virtualDevice child)).setOwner
          (virtualDevice child) child
        topology := (d.topology.connectDevice (.switch (virtualDevice child))).1 } := by
  have hports : ∀ other, d.registry.ports.isOpen other = true →
      (d.registry.ports.openSpace (virtualDevice child)).isOpen other = true := by
    intro other hopen
    rw [Registry.isOpen_openSpace, hopen, Bool.or_true]
  have hknows : ∀ other, d.topology.knows other = true →
      (d.topology.connectDevice (.switch (virtualDevice child))).1.knows other = true := by
    intro other hknown
    rw [Topology.knows_connectDevice, hknown, Bool.or_true]
  refine h.of_same_links rfl (Topology.links_connectDevice _ _) hports hknows ?_
  intro other virtual hvirtual
  have hmapped := Registry.virtual?_mapDevice d.registry device (virtualDevice child) other
  rw [show (d.registry.mapDevice device (virtualDevice child)).virtual? other = some virtual from
    hvirtual] at hmapped
  split at hmapped
  · obtain rfl := Option.some.inj hmapped
    refine ⟨?_, ?_, ChildAddress.orchestratedScheme?_virtualDevice child⟩
    · change (d.registry.ports.openSpace (virtualDevice child)).isOpen (virtualDevice child) = true
      rw [Registry.isOpen_openSpace, beq_self_eq_true, Bool.true_or]
    · rw [Topology.knows_connectDevice]
      simp [Device.switch]
  · exact (h.ready_of_virtual hmapped.symm).mono (hports virtual) (hknows virtual)

theorem Coherent.shows_iff_of_entered {spans : Table DevicePair Ends} {real link span e : Ends}
    (hspan : Table.get? spans link.pair = some span) (hlink : link = span ∨ link = span.inverted)
    (hkeep : ∀ pair, pair ≠ link.pair →
      Table.get? spans pair = Table.get? d.registry.links.spans pair)
    (hold : ∀ s, Table.get? d.registry.links.spans link.pair = some s → s = span) :
    (LinkBook.record { d.registry.links with spans } real link).Shows e ↔
      (e = link ∨ e = link.inverted) ∨ d.registry.links.Shows e := by
  rw [LinkBook.shows_record hspan hlink]
  by_cases hpair : e.pair = link.pair
  · have hthis : ∀ s, (e = s ∨ e = s.inverted) → s = span → e = link ∨ e = link.inverted := by
      intro s he hs
      exact Ends.orientation_trans (hs ▸ he) (Ends.orientation_symm hlink)
    constructor
    · intro h
      obtain he | ⟨⟨s, hs, he⟩, _⟩ := h
      · exact Or.inl he
      · refine Or.inl (hthis s he ?_)
        rw [hpair, hspan] at hs
        exact (Option.some.inj hs).symm
    · intro h
      obtain he | ⟨⟨s, hs, he⟩, _⟩ := h
      · exact Or.inl he
      · refine Or.inl (hthis s he (hold s ?_))
        rwa [hpair] at hs
  · have hsame : LinkBook.Shows { d.registry.links with spans } e ↔ d.registry.links.Shows e := by
      unfold LinkBook.Shows
      rw [hkeep e.pair hpair]
      rfl
    rw [hsame]

/-- Recording a real link for the virtual link of its pair, old or new, and showing that virtual
link keeps the invariant. -/
theorem Coherent.of_entered (h : Coherent d) (spans : Table DevicePair Ends) (ports : PortBook)
    {real link : Ends} (span : Ends) (hsrc : Ready d link.src.device)
    (hdst : Ready d link.dst.device) (hne : link.src.device ≠ link.dst.device)
    (hports : ∀ device, d.registry.ports.isOpen device = true → ports.isOpen device = true)
    (hspan : Table.get? spans link.pair = some span) (hlink : link = span ∨ link = span.inverted)
    (hkeep : ∀ pair, pair ≠ link.pair →
      Table.get? spans pair = Table.get? d.registry.links.spans pair)
    (hold : ∀ s, Table.get? d.registry.links.spans link.pair = some s → s = span) :
    Coherent
      { registry := { d.registry with
          ports, links := LinkBook.record { d.registry.links with spans } real link }
        topology := shown d.topology link } := by
  have hknown : Known d.topology link := ⟨hsrc.scheme, hdst.scheme, hsrc.known, hdst.known⟩
  have hspans : (LinkBook.record { d.registry.links with spans } real link).spans = spans :=
    LinkBook.spans_record_of_some hspan
  have hmono : ∀ {device}, Ready d device → Ready
      { registry := { d.registry with
          ports, links := LinkBook.record { d.registry.links with spans } real link }
        topology := shown d.topology link } device := by
    intro device hready
    refine hready.mono (hports device) fun hk => ?_
    rwa [Topology.knows_of_devices (devices_shown hknown)]
  constructor
  case ready_of_virtual =>
    intro device virtual hvirtual
    exact hmono (h.ready_of_virtual hvirtual)
  case pair_of_span =>
    intro pair s hs
    simp only [hspans] at hs
    by_cases hpair : pair = link.pair
    · subst hpair
      rw [hspan] at hs
      obtain rfl := Option.some.inj hs
      rcases hlink with rfl | rfl
      · exact ⟨rfl, hne, hmono hsrc, hmono hdst⟩
      · exact ⟨(Ends.pair_inverted span).symm, hne.symm, hmono hdst, hmono hsrc⟩
    · rw [hkeep pair hpair] at hs
      obtain ⟨hp, hn, hs, hd⟩ := h.pair_of_span hs
      exact ⟨hp, hn, hmono hs, hmono hd⟩
  case span_of_carried =>
    intro heading other hcarried
    simp only [hspans, LinkBook.flag?_record]
    change Table.get? (Table.set d.registry.links.carried real.heading link) heading = some other at hcarried
    rw [Table.get?_set] at hcarried
    split at hcarried
    · next hheading =>
      obtain rfl := Option.some.inj hcarried
      exact ⟨by simp [hheading], span, hspan, hlink⟩
    · obtain ⟨hflag, s, hs, hother⟩ := h.span_of_carried hcarried
      refine ⟨?_, s, ?_, hother⟩
      · split
        · rfl
        · exact hflag
      · by_cases hpair : other.pair = link.pair
        · rw [hpair] at hs ⊢
          rw [hspan, hold s hs]
        · rw [hkeep _ hpair, hs]
  case find?_iff =>
    intro e l
    have hdirect : ∀ e l, d.topology.links.find? e = some l → l = .direct e :=
      fun e l hl => (h.find?_iff.1 hl).1
    simp only [Coherent.shows_iff_of_entered hspan hlink hkeep hold, find?_shown hknown hdirect]
    by_cases he : e = link ∨ e = link.inverted
    · simp only [he, if_true, true_or, and_true, Option.some.injEq]
      exact eq_comm
    · simp only [he, if_false, false_or]
      exact h.find?_iff

theorem Ready.exists_space {device : DeviceId} (h : Ready d device) :
    ∃ space, Table.get? d.registry.ports device = some space :=
  Registry.exists_space_of_isOpen h.isOpen

theorem Coherent.housed (h : Coherent d) : d.registry.Housed where
  isOpen hvirtual := (h.ready_of_virtual hvirtual).isOpen

/-- A link between two virtual devices can always be folded. -/
theorem Coherent.foldLink_ne_error {real : Ends} {src dst : DeviceId} {fault : TableFault}
    (h : Coherent d) (hsrc : d.registry.virtual? real.src.device = some src)
    (hdst : d.registry.virtual? real.dst.device = some dst) :
    d.registry.foldLink real ≠ .error fault := by
  obtain ⟨_, _, hfold⟩ := h.housed.exists_foldLink hsrc hdst
  exact fun hfault => nomatch hfold.symm.trans hfault

/-- The virtual link of a pair, seen from a device of the pair, has the pair. -/
theorem Coherent.pair_seenFrom {src dst : DeviceId} {span : Ends} (h : Coherent d)
    (hspan : Table.get? d.registry.links.spans (.of src dst) = some span) :
    (LinkBook.seenFrom span src).pair = .of src dst := by
  obtain ⟨hsrc, hdst, _⟩ := LinkBook.seenFrom_of_pair (h.pair_of_span hspan).1
  rw [Ends.pair, hsrc, hdst]

theorem coherent_folded {real link : Ends} {src dst : DeviceId} {registry : Registry}
    (h : Coherent d) (hsrc : d.registry.virtual? real.src.device = some src)
    (hdst : d.registry.virtual? real.dst.device = some dst) (hne : src ≠ dst)
    (hfold : d.registry.foldLink real = .ok (registry, link)) :
    Coherent ⟨registry, shown d.topology link⟩ := by
  have hsrcReady := h.ready_of_virtual hsrc
  have hdstReady := h.ready_of_virtual hdst
  obtain ⟨span, hspan, rfl, rfl⟩ | ⟨srcSpace, dstSpace, hnone, hsrcSpace, hdstSpace, rfl, rfl⟩ :=
    Registry.foldLink_of_ok hsrc hdst hfold
  · obtain ⟨hlinkSrc, hlinkDst, hlink⟩ := LinkBook.seenFrom_of_pair (h.pair_of_span hspan).1
    have hpair := h.pair_seenFrom hspan
    refine h.of_entered d.registry.links.spans d.registry.ports span
      (by rwa [hlinkSrc]) (by rwa [hlinkDst]) (by rwa [hlinkSrc, hlinkDst]) (fun _ hp => hp)
      (by rwa [hpair]) hlink (fun _ _ => rfl) ?_
    intro s hs
    rw [hpair, hspan] at hs
    exact (Option.some.inj hs).symm
  · refine h.of_entered _ _ (Registry.firstLink src dst real srcSpace dstSpace)
      hsrcReady hdstReady hne ?_ (Table.get?_set_self _ _ _) (Or.inl rfl) ?_ ?_
    · intro device hopen
      rw [Registry.isOpen_set_of_some hdstSpace, Registry.isOpen_set_of_some hsrcSpace, hopen]
    · intro pair hpair
      exact (Table.get?_set _ _ _ _).trans (if_neg (Ne.symm hpair))
    · intro s hs
      exact nomatch hnone.symm.trans hs

theorem Coherent.span_of_carried_disconnect {real : Ends} {heading : Heading} {link : Ends}
    (h : Coherent d)
    (hcarried : Table.get? (d.registry.links.disconnect real).carried heading = some link) :
    ((d.registry.links.disconnect real).flag? link.pair heading).isSome ∧
      ∃ span, Table.get? (d.registry.links.disconnect real).spans link.pair = some span ∧
        (link = span ∨ link = span.inverted) := by
  rw [LinkBook.carried_disconnect] at hcarried
  rw [LinkBook.spans_disconnect, LinkBook.flag?_disconnect]
  obtain ⟨hflag, hspan⟩ := h.span_of_carried hcarried
  refine ⟨?_, hspan⟩
  split
  · rwa [Option.isSome_map]
  · exact hflag

theorem coherent_thinned {real link : Ends} (h : Coherent d)
    (hcarried : d.registry.links.carriedBy? real = some link)
    (hup : (d.registry.links.disconnect real).isUp link = true) :
    Coherent ⟨(d.registry.disconnectLink real).1, d.topology⟩ where
  ready_of_virtual hvirtual := (h.ready_of_virtual hvirtual).mono id id
  pair_of_span hspan := by
    change Table.get? (d.registry.links.disconnect real).spans _ = _ at hspan
    rw [LinkBook.spans_disconnect] at hspan
    obtain ⟨hpair, hne, hsrc, hdst⟩ := h.pair_of_span hspan
    exact ⟨hpair, hne, hsrc.mono id id, hdst.mono id id⟩
  span_of_carried hother := h.span_of_carried_disconnect hother
  find?_iff := by
    intro e l
    rw [h.find?_iff]
    exact and_congr_right fun _ => (LinkBook.shows_disconnect_of_isUp hcarried hup).symm

theorem coherent_withdrawn {real link : Ends} (h : Coherent d)
    (hcarried : d.registry.links.carriedBy? real = some link)
    (hdown : (d.registry.links.disconnect real).isUp link = false) :
    Coherent ⟨(d.registry.disconnectLink real).1, hidden d.topology link⟩ := by
  obtain ⟨_, span, hspan, hlink⟩ := h.span_of_carried hcarried
  have hknown := h.known_of_span hspan hlink
  have hmono : ∀ {device}, Ready d device →
      Ready ⟨(d.registry.disconnectLink real).1, hidden d.topology link⟩ device := by
    intro device hready
    refine hready.mono id fun hk => ?_
    rwa [Topology.knows_of_devices (devices_hidden hknown)]
  constructor
  case ready_of_virtual =>
    intro device virtual hvirtual
    exact hmono (h.ready_of_virtual hvirtual)
  case pair_of_span =>
    intro pair s hs
    change Table.get? (d.registry.links.disconnect real).spans _ = _ at hs
    rw [LinkBook.spans_disconnect] at hs
    obtain ⟨hpair, hne, hsrc, hdst⟩ := h.pair_of_span hs
    exact ⟨hpair, hne, hmono hsrc, hmono hdst⟩
  case span_of_carried => exact fun hother => h.span_of_carried_disconnect hother
  case find?_iff =>
    intro e l
    change (hidden d.topology link).links.find? e = _ ↔ _ ∧ (d.registry.links.disconnect real).Shows e
    rw [find?_hidden hknown, LinkBook.shows_disconnect_of_not_isUp hcarried hdown hspan hlink]
    by_cases he : e = link ∨ e = link.inverted
    · simp [he]
    · simp only [he, if_false, not_false_eq_true, and_true]
      exact h.find?_iff

theorem coherent_attached {real location : ConnectPoint} {id : HostId} {host : Host}
    {registry : Registry} (h : Coherent d)
    (hexpose : d.registry.exposePoint real = .ok (registry, location)) :
    Coherent
      { registry := (registry.recordHost ⟨id, real⟩ ⟨id, location⟩).1
        topology := (d.topology.heedAll [.host host]).1 } := by
  obtain ⟨space, _, hspace, _, rfl⟩ := Registry.exposePoint_of_ok hexpose
  have htopology := Topology.links_heedAll_host d.topology host
  have hports : ∀ device, d.registry.ports.isOpen device = true →
      PortBook.isOpen (Table.set d.registry.ports location.device (space.allocate real)) device =
        true := by
    intro device hopen
    rw [Registry.isOpen_set_of_some hspace, hopen]
  have hknows : ∀ device, d.topology.knows device = true →
      (d.topology.heedAll [.host host]).1.knows device = true := by
    intro device hknown
    rwa [Topology.knows_of_devices htopology.2]
  refine h.of_same_links rfl htopology.1 hports hknows ?_
  intro device virtual hvirtual
  exact (h.ready_of_virtual hvirtual).mono (hports virtual) (hknows virtual)

/-- Every report keeps the invariant. -/
theorem coherent_hear (h : Coherent d) (r : Report) : Coherent (d.hear .implicit r) := by
  generalize helement : r.element? = element
  have heffect := effect_hear d r
  rw [helement] at heffect
  generalize d.hear .implicit r = d' at heffect ⊢
  cases heffect with
  | unread => exact h
  | absorbed entry => exact coherent_absorbed h r.child entry.id
  | ignored => exact h
  | failed entry hsrc hdst hne hfold => exact absurd hfold (h.foldLink_ne_error hsrc hdst)
  | folded entry hsrc hdst hne hfold => exact coherent_folded h hsrc hdst hne hfold
  | unknown => exact h
  | thinned entry hcarried hup => exact coherent_thinned h hcarried hup
  | withdrawn entry hcarried hdown => exact coherent_withdrawn h hcarried hdown
  | unattached => exact h
  | attached entry hexpose => exact coherent_attached h hexpose

theorem coherent_hearAll (reports : List Report) :
    Coherent (Domain.empty.hearAll .implicit reports) := by
  refine Domain.hearAll_induction (motive := fun _ d => Coherent d) coherent_empty ?_ reports
  intro _ r h
  exact coherent_hear h r

/-! ### Links between two virtual devices -/

theorem Coherent.mem_links_iff (h : Coherent d) {l : Link} :
    l ∈ d.topology.links.items ↔ l = .direct l.ends ∧ d.registry.links.Shows l.ends := by
  rw [Roster.mem_items_iff, h.find?_iff]

/-- The virtual link between two devices, seen from the first, joins them in that order. -/
theorem Coherent.lookup?_eq_some (h : Coherent d) {a b : DeviceId} {link : Ends}
    (hlink : d.registry.links.lookup? a b = some link) :
    link.heading = ⟨a, b⟩ ∧ ∃ span, Table.get? d.registry.links.spans (.of a b) = some span ∧
      (link = span ∨ link = span.inverted) := by
  obtain ⟨span, hspan, horiented⟩ := Option.bind_eq_some_iff.1 hlink
  obtain ⟨hsrc, hdst, hseen⟩ := LinkBook.seenFrom_of_pair (h.pair_of_span hspan).1
  have hsame : LinkBook.seenFrom span a = link := by rw [LinkBook.seenFrom, horiented, Option.getD_some]
  rw [hsame] at hsrc hdst hseen
  exact ⟨by rw [Ends.heading, hsrc, hdst], span, hspan, hseen⟩

theorem Coherent.lookup?_of_span (h : Coherent d) {a b : DeviceId} {span : Ends}
    (hspan : Table.get? d.registry.links.spans (.of a b) = some span) :
    ∃ link, d.registry.links.lookup? a b = some link := by
  obtain ⟨hsrc, _, _⟩ := LinkBook.seenFrom_of_pair (h.pair_of_span hspan).1
  unfold LinkBook.lookup?
  rw [hspan, Option.bind_some]
  rcases DevicePair.of_eq_of_iff.1 (h.pair_of_span hspan).1 with ⟨hs, _⟩ | ⟨_, hd⟩
  · exact ⟨span, by rw [Ends.orientedFrom?, if_pos hs]⟩
  · by_cases hs : span.src.device = a
    · exact ⟨span, by rw [Ends.orientedFrom?, if_pos hs]⟩
    · exact ⟨span.inverted, by rw [Ends.orientedFrom?, if_neg hs, if_pos hd]⟩

/-- A link between two devices is shown exactly when it is their virtual link, seen from one side or
the other, and that one is up. -/
theorem Coherent.mem_between_iff (h : Coherent d) {a b : DeviceId} {link : Ends}
    (hlink : d.registry.links.lookup? a b = some link) (hup : d.registry.links.isUp link = true)
    (l : Link) :
    l ∈ d.topology.links.items ∧ l.ends.pair = .of a b ↔
      l = .direct link ∨ l = .direct link.inverted := by
  obtain ⟨hheading, span, hspan, hseen⟩ := h.lookup?_eq_some hlink
  have hpair : link.pair = .of a b := Ends.pair_of_heading hheading
  have hshows : ∀ e, e.pair = .of a b →
      (d.registry.links.Shows e ↔ e = link ∨ e = link.inverted) := by
    intro e he
    constructor
    · intro ⟨⟨span', hspan', hor⟩, _⟩
      rw [he, hspan] at hspan'
      obtain rfl := Option.some.inj hspan'
      exact Ends.orientation_trans hor (Ends.orientation_symm hseen)
    · intro hor
      have hup' : d.registry.links.isUp e = true := by
        rw [LinkBook.isUp_congr (he.trans hpair.symm), hup]
      exact ⟨⟨span, by rw [he, hspan], Ends.orientation_trans hor hseen⟩, hup'⟩
  rw [h.mem_links_iff]
  constructor
  · intro ⟨⟨hdirect, hvisible⟩, hbetween⟩
    obtain he | he := (hshows _ hbetween).1 hvisible
    · exact Or.inl (he ▸ hdirect)
    · exact Or.inr (he ▸ hdirect)
  · intro hl
    obtain rfl | rfl := hl
    · exact ⟨⟨rfl, (hshows link hpair).2 (Or.inl rfl)⟩, hpair⟩
    · have hback : link.inverted.pair = .of a b := (Ends.pair_inverted link).trans hpair
      exact ⟨⟨rfl, (hshows link.inverted hback).2 (Or.inr rfl)⟩, hback⟩

/-- **The topology shows what the book holds up.** Whatever documents children sent, a link leads
from one virtual device to another exactly when their virtual link is up, and then the links between
the two are that virtual link and its inverse. -/
theorem shown_iff_up_afterLetters (letters : List Letter) (a b : DeviceId) :
    let d := Domain.afterLetters .implicit letters
    ((∃ l ∈ d.topology.links.items, l.heading = ⟨a, b⟩) ↔
      ∃ link, d.registry.links.lookup? a b = some link ∧ d.registry.links.isUp link = true) ∧
    ∀ link, d.registry.links.lookup? a b = some link → d.registry.links.isUp link = true →
      link.heading = ⟨a, b⟩ ∧
      ∀ l, l ∈ d.topology.links.items ∧ l.ends.pair = .of a b ↔
        l = .direct link ∨ l = .direct link.inverted := by
  intro d
  have h : Coherent d := by
    rw [show d = _ from Domain.afterLetters_eq_hearAll letters]
    exact coherent_hearAll _
  refine ⟨⟨?_, ?_⟩, fun link hlink hup => ⟨(h.lookup?_eq_some hlink).1, h.mem_between_iff hlink hup⟩⟩
  · intro ⟨l, hl, hheading⟩
    obtain ⟨_, ⟨span, hspan, _⟩, hup⟩ := h.mem_links_iff.1 hl
    have hpair : l.ends.pair = .of a b := Ends.pair_of_heading hheading
    rw [hpair] at hspan
    obtain ⟨link, hlink⟩ := h.lookup?_of_span hspan
    obtain ⟨hseen, _⟩ := h.lookup?_eq_some hlink
    refine ⟨link, hlink, ?_⟩
    rw [← hup]
    exact LinkBook.isUp_congr ((Ends.pair_of_heading hseen).trans hpair.symm)
  · intro ⟨link, hlink, hup⟩
    exact ⟨.direct link, ((h.mem_between_iff hlink hup _).2 (Or.inl rfl)).1,
      (h.lookup?_eq_some hlink).1⟩

end Implicit

end Multidomain

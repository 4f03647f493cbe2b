import Mathlib.Data.List.Basic
import Multidomain.Topology.Route

/-!
# What a route is

A route is a chain: each link starts on the device where the one before ended, and no device is
visited twice. `route?_spec` says that what the search finds is a chain of the topology's links from
source to target, and `exists_route?_of_leads` that it finds one wherever there is one.

Both rest on what one round does. Whatever has been seen stays seen, a trail only ever ends on a
device that had not been seen, and after a round every device one link away from a trail has been
seen. The number of rounds is enough because a round after which the search goes on makes the target
of some link seen that was not.
-/

namespace Multidomain

/-- The links lead from one device to another, each starting where the one before ended. -/
def Leads (target : DeviceId) : DeviceId → List Link → Prop
  | source, [] => source = target
  | source, l :: rest => l.src.device = source ∧ Leads target l.dst.device rest

instance decidableLeads (target : DeviceId) :
    (source : DeviceId) → (links : List Link) → Decidable (Leads target source links)
  | source, [] => inferInstanceAs (Decidable (source = target))
  | source, l :: rest =>
    have := decidableLeads target l.dst.device rest
    inferInstanceAs (Decidable (l.src.device = source ∧ Leads target l.dst.device rest))

/-- The devices that links lead to from a source, and the source. -/
def devicesAlong (source : DeviceId) (links : List Link) : List DeviceId :=
  source :: links.map fun l => l.dst.device

theorem Leads.concat {source : DeviceId} {links : List Link} {l : Link}
    (h : Leads l.src.device source links) : Leads l.dst.device source (links ++ [l]) := by
  induction links generalizing source with
  | nil => exact ⟨h.symm, rfl⟩
  | cons first rest ih => exact ⟨h.1, ih h.2⟩

theorem Leads.append {source middle target : DeviceId} {first second : List Link}
    (hfirst : Leads middle source first) (hsecond : Leads target middle second) :
    Leads target source (first ++ second) := by
  induction first generalizing source with
  | nil =>
    obtain rfl : source = middle := hfirst
    exact hsecond
  | cons l rest ih => exact ⟨hfirst.1, ih hfirst.2⟩

theorem devicesAlong_concat (source : DeviceId) (links : List Link) (l : Link) :
    devicesAlong source (links ++ [l]) = devicesAlong source links ++ [l.dst.device] := by
  simp [devicesAlong]

/-- A chain that leaves a set of devices does so by one of its links. -/
theorem Leads.exists_exit {seen : List DeviceId} {source target : DeviceId} {chain : List Link}
    (h : Leads target source chain) (hsource : source ∈ seen) (htarget : target ∉ seen) :
    ∃ l ∈ chain, l.src.device ∈ seen ∧ l.dst.device ∉ seen := by
  induction chain generalizing source with
  | nil => exact absurd (h ▸ hsource) htarget
  | cons l rest ih =>
    obtain ⟨hsrc, hrest⟩ := h
    by_cases hdst : l.dst.device ∈ seen
    · obtain ⟨k, hk, hexit⟩ := ih hrest hdst
      exact ⟨k, List.mem_cons_of_mem _ hk, hexit⟩
    · exact ⟨l, List.mem_cons_self, hsrc ▸ hsource, hdst⟩

/-- A trail is a chain of links from the source, through devices that have been seen, none twice. -/
structure Trail.Sound (links : List Link) (source : DeviceId) (seen : List DeviceId) (t : Trail) :
    Prop where
  leads : Leads t.reached source t.links.reverse
  stored : ∀ l ∈ t.links, l ∈ links
  seen : ∀ device ∈ devicesAlong source t.links.reverse, device ∈ seen
  nodup : (devicesAlong source t.links.reverse).Nodup

namespace Trail

variable {links : List Link} {source : DeviceId} {seen : List DeviceId} {t : Trail}

theorem Sound.mono {seen' : List DeviceId} (h : t.Sound links source seen)
    (hseen : ∀ device ∈ seen, device ∈ seen') : t.Sound links source seen' :=
  ⟨h.leads, h.stored, fun device hdevice => hseen device (h.seen device hdevice), h.nodup⟩

theorem sound_start (links : List Link) (source : DeviceId) :
    Trail.Sound links source [source] ⟨source, []⟩ where
  leads := rfl
  stored := by simp
  seen := by simp [devicesAlong]
  nodup := by simp [devicesAlong]

theorem Sound.extend {l : Link} (h : t.Sound links source seen) (hl : l ∈ links)
    (hsrc : l.src.device = t.reached) (hdst : l.dst.device ∉ seen) :
    (t.extend l).Sound links source (l.dst.device :: seen) := by
  have hdevices : devicesAlong source (t.extend l).links.reverse
      = devicesAlong source t.links.reverse ++ [l.dst.device] := by
    rw [← devicesAlong_concat, Trail.extend, List.reverse_cons]
  constructor
  · rw [Trail.extend, List.reverse_cons]
    exact Leads.concat (hsrc ▸ h.leads)
  · intro k hk
    obtain rfl | hk := List.mem_cons.1 hk
    · exact hl
    · exact h.stored k hk
  · intro device hdevice
    rw [hdevices, List.mem_append, List.mem_singleton] at hdevice
    rw [List.mem_cons]
    exact hdevice.symm.imp_right (h.seen device)
  · rw [hdevices, List.nodup_append]
    refine ⟨h.nodup, by simp, ?_⟩
    intro a ha b hb hab
    rw [List.mem_singleton] at hb
    exact hdst (hb ▸ hab ▸ h.seen a ha)

end Trail

/-- What one link, and so one trail and one round, does to a frontier: whatever was seen stays seen,
trails stay and stay sound, and what is newly seen ends one of them. -/
structure Frontier.Grows (links : List Link) (source : DeviceId) (f g : Frontier) : Prop where
  seen : ∀ device ∈ f.seen, device ∈ g.seen
  trails : ∀ t ∈ f.trails, t ∈ g.trails
  sound : (∀ t ∈ f.trails, t.Sound links source f.seen) →
    ∀ t ∈ g.trails, t.Sound links source g.seen
  ended : ∀ device ∈ g.seen, device ∈ f.seen ∨ ∃ t ∈ g.trails, t.reached = device

namespace Frontier

variable {links : List Link} {source : DeviceId} {f g k : Frontier} {t : Trail}

theorem Grows.refl (f : Frontier) : Grows links source f f :=
  ⟨fun _ h => h, fun _ h => h, fun h => h, fun _ h => .inl h⟩

theorem Grows.trans (hfg : Grows links source f g) (hgk : Grows links source g k) :
    Grows links source f k where
  seen device h := hgk.seen device (hfg.seen device h)
  trails t h := hgk.trails t (hfg.trails t h)
  sound h := hgk.sound (hfg.sound h)
  ended device h := by
    obtain h | h := hgk.ended device h
    · obtain h | ⟨t, ht, hreached⟩ := hfg.ended device h
      · exact .inl h
      · exact .inr ⟨t, hgk.trails t ht, hreached⟩
    · exact .inr h

theorem grows_follow {l : Link} (ht : t.Sound links source f.seen) (hl : l ∈ links) :
    Grows links source f (follow t f l) := by
  unfold follow
  split
  · next hnew =>
    obtain ⟨hsrc, hdst⟩ := hnew
    constructor
    · intro device h
      exact List.mem_cons_of_mem _ h
    · intro u hu
      exact List.mem_append_left _ hu
    · intro hsound u hu
      obtain hu | hu := List.mem_append.1 hu
      · exact (hsound u hu).mono fun device h => List.mem_cons_of_mem _ h
      · rw [List.mem_singleton.1 hu]
        exact ht.extend hl hsrc hdst
    · intro device h
      obtain rfl | h := List.mem_cons.1 h
      · exact .inr ⟨t.extend l, List.mem_append_right _ (List.mem_singleton_self _), rfl⟩
      · exact .inl h
  · exact .refl f

/-- A link that leads on from a trail ends on a device that has been seen. -/
theorem mem_seen_follow {l : Link} (hsrc : l.src.device = t.reached) :
    l.dst.device ∈ (follow t f l).seen := by
  unfold follow
  split
  · exact List.mem_cons_self
  · next hold => exact Decidable.not_not.1 fun hdst => hold ⟨hsrc, hdst⟩

/-- One trail is continued along some of the links. -/
theorem grows_foldl_follow (steps : List Link) (ht : t.Sound links source f.seen)
    (hsteps : ∀ l ∈ steps, l ∈ links) :
    Grows links source f (steps.foldl (follow t) f)
      ∧ ∀ l ∈ steps, l.src.device = t.reached →
          l.dst.device ∈ (steps.foldl (follow t) f).seen := by
  induction steps generalizing f with
  | nil => exact ⟨.refl f, by simp⟩
  | cons l steps ih =>
    have hfirst := grows_follow ht (hsteps l List.mem_cons_self)
    obtain ⟨hrest, hseen⟩ := ih (ht.mono hfirst.seen) fun k hk => hsteps k (.tail l hk)
    refine ⟨hfirst.trans hrest, fun k hk hsrc => ?_⟩
    obtain rfl | hk := List.mem_cons.1 hk
    · exact hrest.seen _ (mem_seen_follow hsrc)
    · exact hseen k hk hsrc

/-- All trails are continued along all links. -/
theorem grows_foldl_trails (trails : List Trail)
    (htrails : ∀ t ∈ trails, t.Sound links source f.seen) :
    Grows links source f (trails.foldl (fun f t => links.foldl (follow t) f) f)
      ∧ ∀ t ∈ trails, ∀ l ∈ links, l.src.device = t.reached →
          l.dst.device ∈ (trails.foldl (fun f t => links.foldl (follow t) f) f).seen := by
  induction trails generalizing f with
  | nil => exact ⟨.refl f, by simp⟩
  | cons t trails ih =>
    obtain ⟨hfirst, hseen⟩ :=
      grows_foldl_follow links (htrails t List.mem_cons_self) fun _ hl => hl
    obtain ⟨hrest, hseen'⟩ := ih fun u hu => (htrails u (.tail t hu)).mono hfirst.seen
    refine ⟨hfirst.trans hrest, fun u hu l hl hsrc => ?_⟩
    obtain rfl | hu := List.mem_cons.1 hu
    · exact hrest.seen _ (hseen l hl hsrc)
    · exact hseen' u hu l hl hsrc

end Frontier

/-- How a search stands before a round: the trails are sound, and a device that has been seen and ends
no trail is not the target and has been left behind, everything one link away from it seen. -/
structure Searching (links : List Link) (source target : DeviceId) (seen : List DeviceId)
    (trails : List Trail) : Prop where
  sound : ∀ t ∈ trails, t.Sound links source seen
  behind : ∀ device ∈ seen, (∃ t ∈ trails, t.reached = device)
    ∨ (device ≠ target ∧ ∀ l ∈ links, l.src.device = device → l.dst.device ∈ seen)

/-- How many links end on a device that has not been seen. -/
def unseen (links : List Link) (seen : List DeviceId) : Nat :=
  (links.filter fun l => l.dst.device ∉ seen).length

theorem unseen_lt {links : List Link} {seen seen' : List DeviceId} {l : Link} (hl : l ∈ links)
    (hmono : ∀ device ∈ seen, device ∈ seen') (hnew : l.dst.device ∉ seen)
    (hseen : l.dst.device ∈ seen') : unseen links seen' < unseen links seen := by
  have hfilter : links.filter (fun k => k.dst.device ∉ seen')
      = (links.filter fun k => k.dst.device ∉ seen).filter fun k => k.dst.device ∉ seen' := by
    rw [List.filter_filter]
    refine List.filter_congr fun k _ => ?_
    have himp : k.dst.device ∉ seen' → k.dst.device ∉ seen := fun h h' => h (hmono _ h')
    simpa using himp
  unfold unseen
  rw [hfilter, List.length_filter_lt_length_iff_exists]
  exact ⟨l, by simpa using ⟨hl, hnew⟩, by simpa using hseen⟩

namespace Searching

variable {links : List Link} {source target : DeviceId} {seen : List DeviceId}
  {trails : List Trail}

theorem start (links : List Link) (source target : DeviceId) :
    Searching links source target [source] [⟨source, []⟩] where
  sound t ht := by
    rw [List.mem_singleton.1 ht]
    exact Trail.sound_start links source
  behind device hdevice := .inl ⟨⟨source, []⟩, List.mem_singleton_self _,
    (List.mem_singleton.1 hdevice).symm⟩

theorem grows (h : Searching links source target seen trails) :
    (∀ device ∈ seen, device ∈ (Frontier.advance links seen trails).seen)
      ∧ ∀ t ∈ trails, ∀ l ∈ links, l.src.device = t.reached →
          l.dst.device ∈ (Frontier.advance links seen trails).seen :=
  have hgrows := Frontier.grows_foldl_trails (f := ⟨seen, []⟩) trails h.sound
  ⟨hgrows.1.seen, hgrows.2⟩

theorem advance (h : Searching links source target seen trails)
    (hnot : ∀ t ∈ trails, t.reached ≠ target) :
    Searching links source target (Frontier.advance links seen trails).seen
      (Frontier.advance links seen trails).trails := by
  obtain ⟨hgrows, hseen⟩ := Frontier.grows_foldl_trails (f := ⟨seen, []⟩) trails h.sound
  refine ⟨hgrows.sound (by simp), fun device hdevice => ?_⟩
  obtain hold | hended := hgrows.ended device hdevice
  · obtain ⟨t, ht, rfl⟩ | ⟨hne, hbehind⟩ := h.behind device hold
    · exact .inr ⟨hnot t ht, fun l hl hsrc => hseen t ht l hl hsrc⟩
    · exact .inr ⟨hne, fun l hl hsrc => hgrows.seen _ (hbehind l hl hsrc)⟩
  · exact .inl hended

/-- What the search finds is sound. -/
theorem sound_of_searchTrail {rounds : Nat} {t : Trail}
    (h : Searching links source target seen trails)
    (hfound : searchTrail links target rounds seen trails = some t) :
    t.reached = target ∧ ∃ seen', t.Sound links source seen' := by
  induction rounds generalizing seen trails with
  | zero =>
    rw [searchTrail] at hfound
    cases hfind : trails.find? fun t => t.reached = target with
    | none => simp [hfind] at hfound
    | some u =>
      obtain rfl : u = t := by simpa [hfind] using hfound
      exact ⟨by simpa using List.find?_some hfind, seen, h.sound u (List.mem_of_find?_eq_some hfind)⟩
  | succ rounds ih =>
    rw [searchTrail] at hfound
    cases hfind : trails.find? fun t => t.reached = target with
    | none =>
      rw [hfind] at hfound
      refine ih (h.advance fun u hu => ?_) hfound
      simpa using List.find?_eq_none.1 hfind u hu
    | some u =>
      obtain rfl : u = t := by simpa [hfind] using hfound
      exact ⟨by simpa using List.find?_some hfind, seen, h.sound u (List.mem_of_find?_eq_some hfind)⟩

/-- Where some device that has been seen leads to the target, the target itself ends a trail or a
device that has not been seen is one link away from a trail. -/
theorem exists_way_on {device : DeviceId} {chain : List Link}
    (h : Searching links source target seen trails) (hdevice : device ∈ seen)
    (hchain : Leads target device chain) (hstored : ∀ l ∈ chain, l ∈ links)
    (hnot : ∀ t ∈ trails, t.reached ≠ target) :
    ∃ t ∈ trails, ∃ l ∈ links, l.src.device = t.reached ∧ l.dst.device ∉ seen := by
  have htarget : target ∉ seen := by
    intro htarget
    obtain ⟨t, ht, hreached⟩ | ⟨hne, -⟩ := h.behind target htarget
    · exact hnot t ht hreached
    · exact hne rfl
  obtain ⟨l, hl, hsrc, hdst⟩ := hchain.exists_exit hdevice htarget
  obtain ⟨t, ht, hreached⟩ | ⟨-, hbehind⟩ := h.behind l.src.device hsrc
  · exact ⟨t, ht, l, hstored l hl, hreached.symm, hdst⟩
  · exact absurd (hbehind l (hstored l hl) rfl) hdst

/-- The search finds the target where it can be reached, in as many rounds as links end on devices
that have not been seen. -/
theorem exists_searchTrail {rounds : Nat} {device : DeviceId} {chain : List Link}
    (h : Searching links source target seen trails) (hdevice : device ∈ seen)
    (hchain : Leads target device chain) (hstored : ∀ l ∈ chain, l ∈ links)
    (hrounds : unseen links seen ≤ rounds) :
    ∃ t, searchTrail links target rounds seen trails = some t := by
  induction rounds generalizing seen trails with
  | zero =>
    rw [searchTrail]
    cases hfind : trails.find? fun t => t.reached = target with
    | some u => exact ⟨u, rfl⟩
    | none =>
      have hnot : ∀ t ∈ trails, t.reached ≠ target :=
        fun u hu => by simpa using List.find?_eq_none.1 hfind u hu
      obtain ⟨t, ht, l, hl, hsrc, hdst⟩ := h.exists_way_on hdevice hchain hstored hnot
      have hlt := unseen_lt hl h.grows.1 hdst (h.grows.2 t ht l hl hsrc)
      omega
  | succ rounds ih =>
    rw [searchTrail]
    cases hfind : trails.find? fun t => t.reached = target with
    | some u => exact ⟨u, rfl⟩
    | none =>
      have hnot : ∀ t ∈ trails, t.reached ≠ target :=
        fun u hu => by simpa using List.find?_eq_none.1 hfind u hu
      obtain ⟨t, ht, l, hl, hsrc, hdst⟩ := h.exists_way_on hdevice hchain hstored hnot
      have hlt := unseen_lt hl h.grows.1 hdst (h.grows.2 t ht l hl hsrc)
      exact ih (h.advance hnot) (h.grows.1 device hdevice) (by omega)

end Searching

namespace Topology

variable {t : Topology} {source target : DeviceId} {links : List Link}

theorem route?_spec (h : t.route? source target = some links) :
    Leads target source links ∧ (∀ l ∈ links, l ∈ t.links.items)
      ∧ (devicesAlong source links).Nodup := by
  unfold route? at h
  split at h
  · cases h
  · obtain ⟨trail, hfound, rfl⟩ := Option.map_eq_some_iff.1 h
    have hsearch := Searching.start t.links.items source target
    obtain ⟨rfl, seen, hsound⟩ := hsearch.sound_of_searchTrail hfound
    exact ⟨hsound.leads, fun l hl => hsound.stored l (List.mem_reverse.1 hl), hsound.nodup⟩

theorem exists_route?_of_leads (hne : source ≠ target) (hchain : Leads target source links)
    (hstored : ∀ l ∈ links, l ∈ t.links.items) : ∃ way, t.route? source target = some way := by
  have hsearch := Searching.start t.links.items source target
  have hrounds : unseen t.links.items [source] ≤ t.links.items.length := List.length_filter_le _ _
  obtain ⟨trail, htrail⟩ :=
    hsearch.exists_searchTrail (List.mem_singleton_self source) hchain hstored hrounds
  refine ⟨trail.links.reverse, ?_⟩
  simp only [route?, hne, if_false, htrail, Option.map_some]

end Topology

end Multidomain

import Mathlib.Data.List.Forall2
import Mathlib.Data.List.Nodup
import Multidomain.Proofs.Roster
import Multidomain.Topology.Store

/-!
# The table of a device

What a device's table lists can be told from the rules that were applied to it. There is one rule for
each slot, the last one of the slot, and the slots stand in the order in which they were first taken;
how the rules came in batches and what was applied to other devices is of no account.

A slot goes by the list of fields as it was given. Rules that ask for the same fields in another order,
or for one of them twice, therefore do not compete, and the table may hold several that match the same
frames with the same priority. `slots_unique_iff` says when it does: exactly when rules were applied
that match alike and list their fields differently.
-/

namespace Multidomain

namespace FlowRule

def SameSlot (r r' : FlowRule) : Prop := r.slot = r'.slot

/-- The two rules are on the same device, have the same priority and ask for the same set of fields. -/
def MatchAlike (r r' : FlowRule) : Prop :=
  r.device = r'.device ∧ r.priority = r'.priority ∧ ∀ field, field ∈ r.fields ↔ field ∈ r'.fields

/-- Of the rules that are the same in some respect, the rule is the last in the list. -/
def LastOf (r : FlowRule) (same : FlowRule → FlowRule → Prop) (rules : List FlowRule) : Prop :=
  ∃ before rest, rules = before ++ r :: rest ∧ ∀ later ∈ rest, ¬ same r later

variable {r r' s s' : FlowRule} {rules : List FlowRule}

theorem SameSlot.matchAlike (h : r.SameSlot r') : r.MatchAlike r' :=
  ⟨congrArg FlowSlot.device h, congrArg FlowSlot.priority h,
    fun _ => by rw [show r.fields = r'.fields from congrArg FlowSlot.fields h]⟩

theorem MatchAlike.sameSlot (h : r.MatchAlike r') (hfields : r.fields = r'.fields) :
    r.SameSlot r' := by
  unfold SameSlot slot
  rw [h.1, h.2.1, hfields]

theorem MatchAlike.symm (h : r.MatchAlike r') : r'.MatchAlike r :=
  ⟨h.1.symm, h.2.1.symm, fun field => (h.2.2 field).symm⟩

theorem MatchAlike.trans {r'' : FlowRule} (h : r.MatchAlike r') (h' : r'.MatchAlike r'') :
    r.MatchAlike r'' :=
  ⟨h.1.trans h'.1, h.2.1.trans h'.2.1, fun field => (h.2.2 field).trans (h'.2.2 field)⟩

theorem LastOf.mem {same : FlowRule → FlowRule → Prop} (h : r.LastOf same rules) : r ∈ rules := by
  obtain ⟨before, rest, rfl, -⟩ := h
  exact List.mem_append_right before List.mem_cons_self

theorem lastOf_congr {same same' : FlowRule → FlowRule → Prop}
    (h : ∀ a ∈ rules, ∀ b ∈ rules, same a b ↔ same' a b) :
    r.LastOf same rules ↔ r.LastOf same' rules := by
  unfold LastOf
  refine exists_congr fun before => exists_congr fun rest => and_congr_right fun hsplit => ?_
  have hr : r ∈ rules := by rw [hsplit]; simp
  refine forall₂_congr fun later hlater => not_congr (h r hr later ?_)
  rw [hsplit]
  simp [hlater]

theorem find?_reverse_eq_some {slot : FlowSlot} :
    rules.reverse.find? (fun r => r.slot = slot) = some r ↔
      r.slot = slot ∧ r.LastOf SameSlot rules := by
  rw [List.find?_eq_some_iff_append, decide_eq_true_iff]
  refine and_congr_right fun hslot => ?_
  subst hslot
  constructor
  · rintro ⟨rest, before, hsplit, hother⟩
    refine ⟨before.reverse, rest.reverse, by simpa using congrArg List.reverse hsplit, ?_⟩
    intro later hlater hsame
    simpa [hsame.symm] using hother later (List.mem_reverse.1 hlater)
  · rintro ⟨before, rest, rfl, hother⟩
    refine ⟨rest.reverse, before.reverse, by simp, ?_⟩
    intro later hlater
    have hne : later.slot ≠ r.slot := fun h => hother later (List.mem_reverse.1 hlater) h.symm
    simpa using hne

theorem exists_lastOf (h : r ∈ rules) :
    ∃ last : FlowRule, last.slot = r.slot ∧ last.LastOf SameSlot rules := by
  cases hfind : rules.reverse.find? fun s => s.slot = r.slot with
  | some last => exact ⟨last, find?_reverse_eq_some.1 hfind⟩
  | none => simpa using List.find?_eq_none.1 hfind r (List.mem_reverse.2 h)

end FlowRule

namespace Topology

open FlowRule (SameSlot MatchAlike)

def applyBatches (t : Topology) (batches : List (List FlowRule)) : Topology :=
  batches.foldl applyFlowRules t

/-- The rules of the batches that are for a device. -/
def appliedTo (device : DeviceId) (batches : List (List FlowRule)) : List FlowRule :=
  batches.flatten.filter fun r => r.device = device

theorem applyBatches_eq (t : Topology) (batches : List (List FlowRule)) :
    t.applyBatches batches = t.applyFlowRules batches.flatten := by
  induction batches generalizing t with
  | nil => rfl
  | cons rules rest ih =>
    rw [List.flatten_cons, applyFlowRules_append]
    exact ih (t.applyFlowRules rules)

theorem flowRules_applyFlowRules (t : Topology) (rules : List FlowRule) (device : DeviceId) :
    (t.applyFlowRules rules).flowRules device
      = ((t.flows.restrict fun slot => slot.device = device).putAll
          (rules.filter fun r => r.device = device)).items := by
  have htable := Roster.restrict_putAll (r := t.flows) (p := fun slot => slot.device = device) rules
  exact congrArg Roster.items htable

variable {batches : List (List FlowRule)} {device : DeviceId} {r : FlowRule}

theorem flowRules_applyBatches (batches : List (List FlowRule)) (device : DeviceId) :
    (empty.applyBatches batches).flowRules device
      = ((.empty : FlowTables).putAll (appliedTo device batches)).items := by
  rw [applyBatches_eq, flowRules_applyFlowRules]
  rfl

theorem find?_putAll_appliedTo {slot : FlowSlot} :
    ((.empty : FlowTables).putAll (appliedTo device batches)).find? slot = some r ↔
      r.slot = slot ∧ r.LastOf SameSlot (appliedTo device batches) := by
  rw [Roster.find?_putAll, Roster.find?_empty, Option.or_none, FlowRule.find?_reverse_eq_some]

theorem mem_flowRules_applyBatches :
    r ∈ (empty.applyBatches batches).flowRules device ↔
      r.LastOf SameSlot (appliedTo device batches) := by
  rw [flowRules_applyBatches, Roster.mem_items_iff, find?_putAll_appliedTo]
  exact and_iff_right rfl

theorem pairwise_flowRules_applyBatches (batches : List (List FlowRule)) (device : DeviceId) :
    ((empty.applyBatches batches).flowRules device).Pairwise fun r r' => ¬ r.SameSlot r' := by
  rw [flowRules_applyBatches]
  exact List.pairwise_map.1 (Roster.nodup_keys _)

/-- **The last rule of each slot.** Two lists of rules may be installed as one, whatever is known and
installed already, and a device's table depends on nothing but the rules for the device. Where nothing
was installed before, the table lists the slots of these rules in the order in which they were first
taken, and for each slot the rule that was applied last. -/
theorem flowRules_last_of_each_slot :
    (∀ (t : Topology) (first second : List FlowRule),
        t.applyFlowRules (first ++ second) = (t.applyFlowRules first).applyFlowRules second)
      ∧ (∀ (t : Topology) (rules : List FlowRule) (device : DeviceId),
          (t.applyFlowRules rules).flowRules device
            = (t.applyFlowRules (rules.filter fun r => r.device = device)).flowRules device)
      ∧ ∀ (batches : List (List FlowRule)) (device : DeviceId),
          List.Forall₂ (fun slot r => r.slot = slot ∧ r.LastOf SameSlot (appliedTo device batches))
            ((appliedTo device batches).map FlowRule.slot).eraseDups
            ((empty.applyBatches batches).flowRules device) := by
  refine ⟨applyFlowRules_append, fun t rules device => ?_, fun batches device => ?_⟩
  · rw [flowRules_applyFlowRules, flowRules_applyFlowRules, List.filter_filter]
    simp only [Bool.and_self]
  · rw [flowRules_applyBatches, ← Roster.keys_putAll_empty, List.forall₂_map_left_iff,
      List.forall₂_same]
    intro r hr
    exact find?_putAll_appliedTo.1 (Roster.mem_items_iff.1 hr)

/-- The rules of a slot are replaced where it was first taken, whatever other devices get meanwhile. -/
example :
    let rule (device : String) (output : PortNumber) : FlowRule :=
      { device := ⟨device⟩, app := "", priority := 10, idle := none, fields := [.inPort output],
        output }
    let again : FlowRule := { rule "of:1" 1 with output := 7 }
    (empty.applyBatches [[rule "of:1" 1, rule "of:2" 1], [rule "of:1" 2, again]]).flowRules ⟨"of:1"⟩
      = [again, rule "of:1" 2] := by
  decide

/-- What it is for the slots of a device to go by match sets: no two rules in its table match alike, and
the table holds exactly those that are the last among the rules that match alike. -/
def SlotsByMatchSet (t : Topology) (device : DeviceId) (applied : List FlowRule) : Prop :=
  (t.flowRules device).Pairwise (fun r r' => ¬ r.MatchAlike r')
    ∧ ∀ r, r ∈ t.flowRules device ↔ r.LastOf MatchAlike applied

/-- **Slots go by listed fields.** In the table of a device no two rules have the same priority and list
of fields, and it holds exactly those that are the last of theirs. The same is true with sets of fields
in the place of lists exactly when the rules that were applied to the device and match alike list
their fields in one way. -/
theorem slots_unique_iff (batches : List (List FlowRule)) (device : DeviceId) :
    let t := empty.applyBatches batches
    (t.flowRules device).Pairwise (fun r r' => ¬ r.SameSlot r')
      ∧ (∀ r, r ∈ t.flowRules device ↔ r.LastOf SameSlot (appliedTo device batches))
      ∧ (t.SlotsByMatchSet device (appliedTo device batches) ↔
          ∀ r ∈ appliedTo device batches, ∀ r' ∈ appliedTo device batches,
            r.MatchAlike r' → r.fields = r'.fields) := by
  intro t
  have hapart : (t.flowRules device).Pairwise fun r r' => ¬ r.SameSlot r' :=
    pairwise_flowRules_applyBatches batches device
  have hmem : ∀ r, r ∈ t.flowRules device ↔ r.LastOf SameSlot (appliedTo device batches) :=
    fun r => mem_flowRules_applyBatches
  refine ⟨hapart, hmem, fun ⟨hunlike, _⟩ r hr r' hr' halike => ?_, fun hlisted => ?_⟩
  · -- the last rules of the two slots are in the table and match alike, so they are one rule
    obtain ⟨last, hslot, hlast⟩ := FlowRule.exists_lastOf hr
    obtain ⟨last', hslot', hlast'⟩ := FlowRule.exists_lastOf hr'
    have hboth : last.MatchAlike last' :=
      (SameSlot.matchAlike hslot).trans (halike.trans (SameSlot.matchAlike hslot').symm)
    have hsame : last = last' := by
      by_contra hne
      have hsymm : Std.Symm fun r r' : FlowRule => ¬ r.MatchAlike r' :=
        ⟨fun _ _ h h' => h h'.symm⟩
      exact hunlike.forall ((hmem last).2 hlast) ((hmem last').2 hlast') hne hboth
    subst hsame
    exact congrArg FlowSlot.fields (hslot.symm.trans hslot')
  · have hiff : ∀ a ∈ appliedTo device batches, ∀ b ∈ appliedTo device batches,
        a.SameSlot b ↔ a.MatchAlike b :=
      fun a ha b hb => ⟨SameSlot.matchAlike, fun h => h.sameSlot (hlisted a ha b hb h)⟩
    refine ⟨hapart.imp_of_mem fun {a b} ha hb => ?_, fun r => ?_⟩
    · rw [hiff a ((hmem a).1 ha).mem b ((hmem b).1 hb).mem]
      exact id
    · rw [hmem, FlowRule.lastOf_congr hiff]

/-- Two rules of one priority that ask for the same two fields in different order are both in the
table. -/
theorem alike_rules_kept :
    let first : FlowRule :=
      { device := ⟨"of:1"⟩, app := "a", priority := 10, idle := none,
        fields := [.inPort 1, .ethDst ⟨[0, 0, 0, 0, 0, 2], rfl⟩], output := 2 }
    let second : FlowRule := { first with fields := first.fields.reverse, output := 3 }
    let t := empty.applyBatches [[first], [second]]
    first.MatchAlike second ∧ t.flowRules ⟨"of:1"⟩ = [first, second]
      ∧ ¬ t.SlotsByMatchSet ⟨"of:1"⟩ (appliedTo ⟨"of:1"⟩ [[first], [second]]) := by
  intro first second t
  have halike : first.MatchAlike second := ⟨rfl, rfl, fun field => List.mem_reverse.symm⟩
  have htable : t.flowRules ⟨"of:1"⟩ = [first, second] := by decide
  refine ⟨halike, htable, fun ⟨hunlike, _⟩ => ?_⟩
  rw [htable, List.pairwise_pair] at hunlike
  exact hunlike halike

end Topology

end Multidomain

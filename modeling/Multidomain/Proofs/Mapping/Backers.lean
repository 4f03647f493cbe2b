import Mathlib.Data.List.Induction
import Multidomain.Proofs.Mapping.LinkBook
import Multidomain.Proofs.Orchestration.History

/-!
# What keeps a virtual link up

A virtual link is up while a real link that was recorded for it has its flag set. The flag stands from
the recording on, and disconnecting the real link clears it; but what is disconnected is what the real
link carries by then. A real link that has been recorded for another virtual link meanwhile leaves its
flag behind, and no disconnecting reaches it any more. `tells_after` says this of every history, and
`flag?_after_cutting` which flags are left when all real links that were ever recorded for a virtual
link are disconnected.
-/

namespace Multidomain

/-- Something that is done to a book of links. -/
inductive LinkOp where
  /-- The virtual link of two devices is asked for; none can be made where `fresh` is none. -/
  | ensure (src dst : DeviceId) (fresh : Option Ends)
  | record (real virtual : Ends)
  | disconnect (real : Ends)
  deriving DecidableEq, Repr

namespace LinkOp

/-- The heading that is recorded, and for which pair. -/
def recorded? : LinkOp → Option (Heading × DevicePair)
  | record real virtual => some (real.heading, virtual.pair)
  | ensure .. | disconnect _ => none

def cut? : LinkOp → Option Heading
  | disconnect real => some real.heading
  | ensure .. | record .. => none

/-- The headings that were ever recorded for a pair. -/
def backersOf (pair : DevicePair) (ops : List LinkOp) : List Heading :=
  (ops.filterMap recorded?).filterMap fun told => if told.2 = pair then some told.1 else none

/-- The heading was recorded for the pair and has not been disconnected since. -/
def Standing (ops : List LinkOp) (pair : DevicePair) (heading : Heading) : Prop :=
  Since (fun _ op => op.recorded? = some (heading, pair)) (fun op => op.cut? ≠ some heading) ops

/-- The heading was recorded for another pair while it stood for this one, and has not been recorded
for this one since. -/
def LeftBehind (ops : List LinkOp) (pair : DevicePair) (heading : Heading) : Prop :=
  Since (fun before op => Standing before pair heading
      ∧ ∃ other, other ≠ pair ∧ op.recorded? = some (heading, other))
    (fun op => op.recorded? ≠ some (heading, pair)) ops

variable {ops : List LinkOp} {op : LinkOp} {pair : DevicePair} {heading : Heading}

theorem standing_concat :
    Standing (ops ++ [op]) pair heading ↔
      op.recorded? = some (heading, pair) ∨ (Standing ops pair heading ∧ op.cut? ≠ some heading) :=
  since_concat

theorem leftBehind_concat :
    LeftBehind (ops ++ [op]) pair heading ↔
      (Standing ops pair heading ∧ ∃ other, other ≠ pair ∧ op.recorded? = some (heading, other))
        ∨ (LeftBehind ops pair heading ∧ op.recorded? ≠ some (heading, pair)) :=
  since_concat

theorem leftBehind_concat_of_not_recorded (h : ∀ other, op.recorded? ≠ some (heading, other)) :
    LeftBehind (ops ++ [op]) pair heading ↔ LeftBehind ops pair heading := by
  rw [leftBehind_concat]
  exact ⟨fun told => (told.resolve_left fun ⟨_, other, _, hother⟩ => h other hother).1,
    fun behind => .inr ⟨behind, h pair⟩⟩

theorem standing_concat_of_kept (hrecorded : op.recorded? ≠ some (heading, pair))
    (hcut : op.cut? ≠ some heading) :
    Standing (ops ++ [op]) pair heading ↔ Standing ops pair heading := by
  rw [standing_concat]
  exact ⟨fun told => (told.resolve_left hrecorded).1, fun stands => .inr ⟨stands, hcut⟩⟩

theorem recorded?_eq_none_of_cut (h : op.cut? = some heading) : op.recorded? = none := by
  cases op with
  | disconnect real => rfl
  | ensure src dst fresh => cases h
  | record real virtual => cases h

theorem mem_backersOf_of_standing (h : Standing ops pair heading) : heading ∈ backersOf pair ops := by
  obtain ⟨before, op, rest, rfl, hrecorded, -⟩ := h
  simp only [backersOf, List.mem_filterMap]
  exact ⟨(heading, pair), ⟨op, by simp, hrecorded⟩, if_pos rfl⟩

theorem leftBehind_append_disconnect (reals : List Ends) :
    LeftBehind (ops ++ reals.map .disconnect) pair heading ↔ LeftBehind ops pair heading := by
  induction reals using List.reverseRecOn with
  | nil => simp
  | append_singleton reals real ih =>
    rw [List.map_append, List.map_singleton, ← List.append_assoc, leftBehind_concat, ih]
    simp [recorded?]

theorem standing_append_disconnect (reals : List Ends) :
    Standing (ops ++ reals.map .disconnect) pair heading ↔
      Standing ops pair heading ∧ heading ∉ reals.map Ends.heading := by
  induction reals using List.reverseRecOn with
  | nil => simp
  | append_singleton reals real ih =>
    rw [List.map_append, List.map_singleton, ← List.append_assoc, standing_concat, ih]
    simp [recorded?, cut?, and_assoc, eq_comm]

end LinkOp

namespace LinkBook

open LinkOp (Standing LeftBehind backersOf)

def act (b : LinkBook) : LinkOp → LinkBook
  | .ensure src dst (some fresh) => (b.ensure src dst fresh).1
  | .ensure _ _ none => b
  | .record real virtual => b.record real virtual
  | .disconnect real => b.disconnect real

/-- What operations make of the book without links. -/
def after (ops : List LinkOp) : LinkBook := ops.foldl act .empty

/-- The pair of which a heading carries the virtual link. -/
def carriedPair? (b : LinkBook) (heading : Heading) : Option DevicePair :=
  (Table.get? b.carried heading).map Ends.pair

variable {ops : List LinkOp}

theorem after_concat (ops : List LinkOp) (op : LinkOp) : after (ops ++ [op]) = (after ops).act op := by
  rw [after, List.foldl_append]
  rfl

/-- Asking for a virtual link changes neither flags nor what real links carry. -/
theorem act_ensure (b : LinkBook) (src dst : DeviceId) (fresh : Option Ends) :
    (b.act (.ensure src dst fresh)).backers = b.backers
      ∧ (b.act (.ensure src dst fresh)).carried = b.carried := by
  cases fresh with
  | none => exact ⟨rfl, rfl⟩
  | some fresh =>
    rw [act, ensure]
    split <;> exact ⟨rfl, rfl⟩

theorem flag?_act (b : LinkBook) (op : LinkOp) (pair : DevicePair) (heading : Heading) :
    (b.act op).flag? pair heading =
      if op.recorded? = some (heading, pair) then some true
      else if op.cut? = some heading ∧ b.carriedPair? heading = some pair then
        (b.flag? pair heading).map fun _ => false
      else b.flag? pair heading := by
  cases op with
  | ensure src dst fresh => rw [flag?, (act_ensure b src dst fresh).1]; rfl
  | record real virtual =>
    rw [act, flag?_record]
    simp [LinkOp.recorded?, LinkOp.cut?, and_comm]
  | disconnect real =>
    rw [act, flag?_disconnect]
    simp only [LinkOp.recorded?, LinkOp.cut?, reduceCtorEq, if_false, Option.some.injEq, carriedBy?,
      carriedPair?]
    by_cases hheading : real.heading = heading <;> simp [hheading]

theorem carriedPair?_act (b : LinkBook) (op : LinkOp) (heading : Heading) :
    (b.act op).carriedPair? heading =
      match op.recorded? with
      | some (told, pair) => if told = heading then some pair else b.carriedPair? heading
      | none => b.carriedPair? heading := by
  cases op with
  | ensure src dst fresh => rw [carriedPair?, (act_ensure b src dst fresh).2]; rfl
  | record real virtual =>
    simp only [act, carriedPair?, get?_carried_record, LinkOp.recorded?]
    split <;> rfl
  | disconnect real =>
    rw [act, carriedPair?, carried_disconnect]
    rfl

theorem carriedPair?_act_of_not_recorded {b : LinkBook} {op : LinkOp} {heading : Heading}
    (h : ∀ other, op.recorded? ≠ some (heading, other)) :
    (b.act op).carriedPair? heading = b.carriedPair? heading := by
  rw [carriedPair?_act]
  split
  · next told other htold => exact if_neg fun heq => h other (by rw [htold, heq])
  · rfl

/-- What a book has to do with the operations that it comes from, as far as one heading and one pair
are concerned. -/
structure Tells (ops : List LinkOp) (b : LinkBook) (pair : DevicePair) (heading : Heading) :
    Prop where
  flag : b.flag? pair heading = some true ↔ LeftBehind ops pair heading ∨ Standing ops pair heading
  away : LeftBehind ops pair heading → b.carriedPair? heading ≠ some pair
  here : Standing ops pair heading → LeftBehind ops pair heading ∨ b.carriedPair? heading = some pair

namespace Tells

variable {op : LinkOp} {b : LinkBook} {pair other : DevicePair} {heading : Heading}

theorem act_here (hrecorded : op.recorded? = some (heading, pair)) :
    Tells (ops ++ [op]) (b.act op) pair heading := by
  have hgone : ¬ LeftBehind (ops ++ [op]) pair heading := by
    rw [LinkOp.leftBehind_concat, hrecorded]
    simp
  have hstands : Standing (ops ++ [op]) pair heading := LinkOp.standing_concat.mpr (.inl hrecorded)
  refine ⟨iff_of_true ?_ (.inr hstands), fun behind => absurd behind hgone, fun _ => .inr ?_⟩
  · rw [flag?_act, if_pos hrecorded]
  · simp [carriedPair?_act, hrecorded]

theorem act_elsewhere (h : Tells ops b pair heading)
    (hrecorded : op.recorded? = some (heading, other)) (hother : other ≠ pair) :
    Tells (ops ++ [op]) (b.act op) pair heading := by
  have hnot : op.recorded? ≠ some (heading, pair) := by simp [hrecorded, hother]
  have hcut : op.cut? ≠ some heading := fun hcut => by
    simp [LinkOp.recorded?_eq_none_of_cut hcut] at hrecorded
  have hstanding : Standing (ops ++ [op]) pair heading ↔ Standing ops pair heading :=
    LinkOp.standing_concat_of_kept hnot hcut
  have hleft : LeftBehind (ops ++ [op]) pair heading ↔
      LeftBehind ops pair heading ∨ Standing ops pair heading := by
    rw [LinkOp.leftBehind_concat]
    constructor
    · rintro (⟨stands, -⟩ | ⟨behind, -⟩)
      exacts [.inr stands, .inl behind]
    · rintro (behind | stands)
      exacts [.inr ⟨behind, hnot⟩, .inl ⟨stands, other, hother, hrecorded⟩]
  refine ⟨?_, fun _ => ?_, fun stands => .inl (hleft.mpr (.inr (hstanding.mp stands)))⟩
  · rw [flag?_act, if_neg hnot, if_neg fun told => hcut told.1, h.flag, hleft, hstanding, or_assoc,
      or_self]
  · simp [carriedPair?_act, hrecorded, hother]

/-- Disconnecting a heading clears its flag for the pair that it carries by then, and so leaves the
flags that stand for other pairs. -/
theorem act_cut (h : Tells ops b pair heading) (hcut : op.cut? = some heading) :
    Tells (ops ++ [op]) (b.act op) pair heading := by
  have hnot : ∀ other, op.recorded? ≠ some (heading, other) := by
    simp [LinkOp.recorded?_eq_none_of_cut hcut]
  have hleft : LeftBehind (ops ++ [op]) pair heading ↔ LeftBehind ops pair heading :=
    LinkOp.leftBehind_concat_of_not_recorded hnot
  have hstanding : ¬ Standing (ops ++ [op]) pair heading := by
    rw [LinkOp.standing_concat]
    rintro (told | ⟨-, kept⟩)
    exacts [hnot pair told, kept hcut]
  refine ⟨?_, fun behind => ?_, fun stands => absurd stands hstanding⟩
  · rw [flag?_act, if_neg (hnot pair), hleft]
    by_cases hhere : b.carriedPair? heading = some pair
    · rw [if_pos ⟨hcut, hhere⟩]
      refine iff_of_false (by simp) ?_
      rintro (behind | stands)
      exacts [h.away behind hhere, hstanding stands]
    · rw [if_neg fun told => hhere told.2, h.flag]
      constructor
      · rintro (behind | stands)
        exacts [.inl behind, .inl ((h.here stands).resolve_right hhere)]
      · rintro (behind | stands)
        exacts [.inl behind, absurd stands hstanding]
  · rw [carriedPair?_act_of_not_recorded hnot]
    exact h.away (hleft.mp behind)

theorem act_aside (h : Tells ops b pair heading)
    (hnot : ∀ other, op.recorded? ≠ some (heading, other)) (hcut : op.cut? ≠ some heading) :
    Tells (ops ++ [op]) (b.act op) pair heading := by
  have hleft : LeftBehind (ops ++ [op]) pair heading ↔ LeftBehind ops pair heading :=
    LinkOp.leftBehind_concat_of_not_recorded hnot
  have hstanding : Standing (ops ++ [op]) pair heading ↔ Standing ops pair heading :=
    LinkOp.standing_concat_of_kept (hnot pair) hcut
  have hcarried : (b.act op).carriedPair? heading = b.carriedPair? heading :=
    carriedPair?_act_of_not_recorded hnot
  refine ⟨?_, by rw [hleft, hcarried]; exact h.away, by rw [hstanding, hleft, hcarried]; exact h.here⟩
  rw [flag?_act, if_neg (hnot pair), if_neg fun told => hcut told.1, h.flag, hleft, hstanding]

theorem act (h : Tells ops b pair heading) (op : LinkOp) :
    Tells (ops ++ [op]) (b.act op) pair heading := by
  by_cases hrecorded : ∃ other, op.recorded? = some (heading, other)
  · obtain ⟨other, hrecorded⟩ := hrecorded
    by_cases hother : other = pair
    · exact act_here (hother ▸ hrecorded)
    · exact h.act_elsewhere hrecorded hother
  · rw [not_exists] at hrecorded
    by_cases hcut : op.cut? = some heading
    · exact h.act_cut hcut
    · exact h.act_aside hrecorded hcut

end Tells

theorem tells_after (ops : List LinkOp) (pair : DevicePair) (heading : Heading) :
    Tells ops (after ops) pair heading := by
  induction ops using List.reverseRecOn with
  | nil =>
    have hno : ¬ Standing [] pair heading := not_since_nil
    have hnone : ¬ LeftBehind [] pair heading := not_since_nil
    refine ⟨iff_of_false ?_ (by simp [hno, hnone]), fun behind => absurd behind hnone,
      fun stands => absurd stands hno⟩
    simp [after, flag?, empty, Table.get?_empty]
  | append_singleton ops op ih =>
    rw [after_concat]
    exact ih.act op

/-- When all headings that were recorded for a pair are disconnected, the flags that still stand are
those of the headings that were left behind. -/
theorem flag?_after_cutting {ops : List LinkOp} {pair : DevicePair} {reals : List Ends}
    (hall : ∀ heading ∈ backersOf pair ops, heading ∈ reals.map Ends.heading) (heading : Heading) :
    (after (ops ++ reals.map .disconnect)).flag? pair heading = some true
      ↔ LeftBehind ops pair heading := by
  have hgone : ¬ Standing (ops ++ reals.map .disconnect) pair heading := by
    rw [LinkOp.standing_append_disconnect]
    rintro ⟨stands, huncut⟩
    exact huncut (hall heading (LinkOp.mem_backersOf_of_standing stands))
  rw [(tells_after _ pair heading).flag, LinkOp.leftBehind_append_disconnect, or_iff_left hgone]

/-- When all real links that were ever recorded for a virtual link are disconnected, the virtual link
is down exactly when none of them was left behind; recording any real link for it brings it up again. -/
theorem isUp_after_cutting_iff (ops : List LinkOp) (link : Ends) (reals : List Ends)
    (hall : ∀ heading ∈ backersOf link.pair ops, heading ∈ reals.map Ends.heading) :
    let b := after (ops ++ reals.map .disconnect)
    (b.isUp link = false ↔ ∀ heading, ¬ LeftBehind ops link.pair heading)
      ∧ ∀ real virtual, virtual.pair = link.pair → (b.record real virtual).isUp link = true := by
  intro b
  refine ⟨?_, fun real virtual hpair => ?_⟩
  · rw [← Bool.not_eq_true, isUp_iff_flag?, not_exists]
    exact forall_congr' fun heading => not_congr (flag?_after_cutting hall heading)
  · rw [isUp_iff_flag?]
    exact ⟨real.heading, by rw [flag?_record, if_pos ⟨hpair, rfl⟩]⟩

/-- A real link that is disconnected before it is recorded for another virtual link leaves nothing
behind. -/
theorem isUp_after_cutting_iff_moved :
    let link : Ends := ⟨⟨⟨"imvs:a"⟩, 1⟩, ⟨⟨"imvs:b"⟩, 1⟩⟩
    let moved : Ends := ⟨⟨⟨"of:1"⟩, 1⟩, ⟨⟨"of:2"⟩, 1⟩⟩
    let stayed : Ends := ⟨⟨⟨"of:1"⟩, 2⟩, ⟨⟨"of:3"⟩, 1⟩⟩
    let ops : List LinkOp := [.ensure ⟨"imvs:a"⟩ ⟨"imvs:b"⟩ (some link), .record moved link,
      .disconnect moved, .record moved ⟨⟨⟨"imvs:a"⟩, 2⟩, ⟨⟨"imvs:c"⟩, 1⟩⟩,
      .record stayed link.inverted]
    (∀ heading ∈ backersOf link.pair ops, heading ∈ [stayed, moved].map Ends.heading)
      ∧ (∀ heading, ¬ LeftBehind ops link.pair heading)
      ∧ ((after (ops ++ [stayed, moved].map .disconnect)).record moved link.inverted).isUp link := by
  intro link moved stayed ops
  have hall : ∀ heading ∈ backersOf link.pair ops, heading ∈ [stayed, moved].map Ends.heading := by
    decide
  have h := isUp_after_cutting_iff ops link [stayed, moved] hall
  exact ⟨hall, h.1.mp (by decide), h.2 moved link.inverted (by decide)⟩

/-- A real link that is recorded for one virtual link while it is connected for another keeps the
other up, although it carries it no longer. -/
theorem up_with_all_backers_cut :
    let link : Ends := ⟨⟨⟨"imvs:a"⟩, 1⟩, ⟨⟨"imvs:b"⟩, 1⟩⟩
    let other : Ends := ⟨⟨⟨"imvs:a"⟩, 2⟩, ⟨⟨"imvs:c"⟩, 1⟩⟩
    let real : Ends := ⟨⟨⟨"of:1"⟩, 1⟩, ⟨⟨"of:2"⟩, 1⟩⟩
    let ops : List LinkOp := [.record real link, .record real other]
    let b := after (ops ++ [real].map .disconnect)
    backersOf link.pair ops = [real.heading] ∧ b.isUp link = true ∧ b.isUp other = false := by
  decide

end LinkBook

end Multidomain

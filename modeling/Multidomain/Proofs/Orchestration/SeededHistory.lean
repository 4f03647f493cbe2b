import Multidomain.Proofs.Orchestration.History
import Multidomain.Topology.Seed

/-!
# What a node has been told and given

Beside what its children report, a node may be given elements of its own by seed documents, which go
straight to its topology. `afterIntakes` is the state after any sequence of documents of children and
seed documents. As with `afterLetters`, such a sequence is one of single reports and seed documents
(`afterIntakes_eq`), and what each of these keeps, every sequence keeps (`after_induction`).
-/

namespace Multidomain

/-- What a node takes in: something that a child sends, or a seed document. -/
inductive Intake (α : Type) where
  | sent (content : α)
  | seed (s : Seed)

/-- The reports of a document of a child, each on its own, or the seed document. -/
def Intake.split : Intake Letter → List (Intake Report)
  | .sent l => l.reports.map .sent
  | .seed s => [.seed s]

/-- What a sequence of documents comes to, report by report. -/
def historyOf (intakes : List (Intake Letter)) : List (Intake Report) :=
  intakes.flatMap Intake.split

theorem seed_mem_historyOf {intakes : List (Intake Letter)} {s : Seed} :
    .seed s ∈ historyOf intakes ↔ .seed s ∈ intakes := by
  unfold historyOf
  rw [List.mem_flatMap]
  constructor
  · rintro ⟨l | seed, hmem, hseed⟩
    · simp [Intake.split] at hseed
    · obtain rfl : s = seed := by simpa [Intake.split] using hseed
      exact hmem
  · intro hmem
    exact ⟨.seed s, hmem, List.mem_singleton_self _⟩

namespace Domain

def sow (d : Domain) (s : Seed) : Domain := { d with topology := (s.plant d.topology).1 }

/-- The domain after one more document. -/
def takeIn (mode : Abstraction) (d : Domain) : Intake Letter → Domain
  | .sent l => (d.apply mode l.child l.document).1
  | .seed s => d.sow s

/-- The domain after one more report, or after a seed document. -/
def undergo (mode : Abstraction) (d : Domain) : Intake Report → Domain
  | .sent r => d.hear mode r
  | .seed s => d.sow s

/-- The domain of a node that started from nothing, after documents of children and seed documents. -/
def afterIntakes (mode : Abstraction) (intakes : List (Intake Letter)) : Domain :=
  intakes.foldl (takeIn mode) .empty

/-- The domain of a node that started from nothing, after reports and seed documents. -/
def after (mode : Abstraction) (history : List (Intake Report)) : Domain :=
  history.foldl (undergo mode) .empty

variable {mode : Abstraction}

theorem after_concat (history : List (Intake Report)) (intake : Intake Report) :
    after mode (history ++ [intake]) = (after mode history).undergo mode intake := by
  unfold after
  rw [List.foldl_append]
  rfl

theorem takeIn_eq (d : Domain) (intake : Intake Letter) :
    d.takeIn mode intake = intake.split.foldl (undergo mode) d := by
  cases intake with
  | sent l =>
    have hreports : d.hearAll mode l.reports = (l.reports.map Intake.sent).foldl (undergo mode) d := by
      rw [List.foldl_map]
      rfl
    exact (apply_fst d l).trans hreports
  | seed s => rfl

theorem afterIntakes_eq (intakes : List (Intake Letter)) :
    afterIntakes mode intakes = after mode (historyOf intakes) := by
  unfold afterIntakes after historyOf
  rw [List.foldl_flatMap]
  congr
  funext d intake
  exact takeIn_eq d intake

/-- What holds of a node that was told nothing, and is kept by every report and seed document, holds
after every history. -/
theorem after_induction {motive : List (Intake Report) → Domain → Prop} (hnil : motive [] .empty)
    (hstep : ∀ history intake, motive history (after mode history) →
      motive (history ++ [intake]) ((after mode history).undergo mode intake))
    (history : List (Intake Report)) : motive history (after mode history) := by
  induction history using List.reverseRecOn with
  | nil => exact hnil
  | append_singleton history intake ih =>
    rw [after_concat]
    exact hstep history intake ih

/-- Of the reports of a history that wrote something, the last wrote `a`. -/
def LastWritten {α : Type} (mode : Abstraction) (Writes : Domain → Report → α → Prop)
    (history : List (Intake Report)) (a : α) : Prop :=
  ∃ before r rest, history = before ++ .sent r :: rest ∧ Writes (after mode before) r a
    ∧ ∀ mid later rest', rest = mid ++ .sent later :: rest' →
        ∀ b, ¬ Writes (after mode (before ++ .sent r :: mid)) later b

variable {α : Type} {Writes : Domain → Report → α → Prop} {history : List (Intake Report)} {a : α}

theorem LastWritten.concat {intake : Intake Report} (h : LastWritten mode Writes history a)
    (hintake : ∀ r, intake = .sent r → ∀ b, ¬ Writes (after mode history) r b) :
    LastWritten mode Writes (history ++ [intake]) a := by
  obtain ⟨before, r, rest, rfl, hwrites, hlast⟩ := h
  refine ⟨before, r, rest ++ [intake], by simp, hwrites, ?_⟩
  intro mid later rest' hsplit
  obtain ⟨rest'', hrest⟩ | ⟨rfl, rfl, -⟩ := concat_eq_split hsplit
  · exact hlast mid later rest'' hrest
  · exact hintake later rfl

/-- What is read is what was written last, if a report that writes leaves nothing to be read but what
it wrote, and everything else leaves no more to be read than there was. -/
theorem lastWritten_of_reads (Reads : Domain → α → Prop) (hempty : ∀ a, ¬ Reads .empty a)
    (hsow : ∀ d s a, Reads (d.sow s) a → Reads d a)
    (hhear : ∀ d r a, Reads (d.hear mode r) a → Writes d r a ∨ Reads d a ∧ ∀ b, ¬ Writes d r b)
    (h : Reads (after mode history) a) : LastWritten mode Writes history a := by
  -- going back in time: the last report either wrote `a`, or `a` could be read before it
  induction history using List.reverseRecOn with
  | nil => exact absurd h (hempty a)
  | append_singleton history intake ih =>
    rw [after_concat] at h
    cases intake with
    | seed s => exact (ih (hsow _ s a h)).concat fun r hr => nomatch hr
    | sent r =>
      obtain hwrites | ⟨hold, hnone⟩ := hhear _ r a h
      · refine ⟨history, r, [], rfl, hwrites, ?_⟩
        intro mid later rest' hsplit
        simp at hsplit
      · refine (ih hold).concat ?_
        rintro _ ⟨⟩
        exact hnone

end Domain

end Multidomain

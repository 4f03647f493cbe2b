import Mathlib.Data.List.Induction
import Mathlib.Data.List.Nodup
import Multidomain.Orchestration.TaskPool

/-!
# No permit and no task is lost

Between the steps of a pool every permit is either free or held by one task, and none is free while a
task waits (`Semaphore.Fits`). The tasks that have not come to their ends are in the order in which they
were spawned, those that run before those that wait, and they are what is left of the tasks of the pool
once the ended ones are taken out (`Sound`). From these two everything that can be asked of a pool is
read off: `run_bounded` puts it together for every run.
-/

namespace Multidomain

namespace Semaphore

/-- Every permit is accounted for, and none is free while a task waits for it. -/
structure Fits (total : Nat) (s : Semaphore) : Prop where
  sum : s.free + s.holders.length = total
  idle : s.queue = [] ∨ s.free = 0

variable {total task : Nat} {s : Semaphore}

theorem grant_cases (s : Semaphore) :
    (s.grant = s ∧ (s.queue = [] ∨ s.free = 0)) ∨
      ∃ free next rest, s.free = free + 1 ∧ s.queue = next :: rest ∧
        s.grant = { free, holders := s.holders ++ [next], queue := rest } := by
  obtain ⟨free, holders, queue⟩ := s
  cases free with
  | zero => exact .inl ⟨by cases queue <;> rfl, .inr rfl⟩
  | succ free =>
    cases queue with
    | nil => exact .inl ⟨rfl, .inl rfl⟩
    | cons next rest => exact .inr ⟨free, next, rest, rfl, rfl, rfl⟩

/-- Where permits are given out, nobody overtakes anybody. -/
theorem holders_append_queue_grant (s : Semaphore) :
    s.grant.holders ++ s.grant.queue = s.holders ++ s.queue := by
  obtain ⟨heq, -⟩ | ⟨free, next, rest, -, hqueue, heq⟩ := s.grant_cases
  · rw [heq]
  · rw [heq, hqueue, List.append_assoc, List.singleton_append]

theorem holders_prefix_grant (s : Semaphore) : s.holders <+: s.grant.holders := by
  obtain ⟨heq, -⟩ | ⟨free, next, rest, -, -, heq⟩ := s.grant_cases
  · have hsame : s.grant.holders = s.holders := congrArg holders heq
    exact hsame ▸ List.prefix_rfl
  · rw [heq]
    exact List.prefix_append _ _

theorem fits_grant (htotal : s.free + s.holders.length = total)
    (hone : s.queue.length ≤ 1 ∨ s.free ≤ 1) : s.grant.Fits total := by
  obtain ⟨heq, hidle⟩ | ⟨free, next, rest, hfree, hqueue, heq⟩ := s.grant_cases
  · rw [heq]
    exact ⟨htotal, hidle⟩
  · rw [heq]
    refine ⟨?_, hone.imp (fun h => ?_) fun h => ?_⟩
    · show free + (s.holders ++ [next]).length = total
      rw [List.length_append, List.length_singleton]
      omega
    · rw [hqueue, List.length_cons] at h
      exact List.eq_nil_of_length_eq_zero (Nat.le_zero.1 (Nat.le_of_succ_le_succ h))
    · show free = 0
      omega

theorem Fits.acquire (h : s.Fits total) (task : Nat) : (s.acquire task).Fits total := by
  refine fits_grant h.sum (h.idle.imp (fun hqueue => ?_) fun hfree => ?_)
  · simp [hqueue]
  · show s.free ≤ 1
    omega

theorem holders_append_queue_acquire (s : Semaphore) (task : Nat) :
    (s.acquire task).holders ++ (s.acquire task).queue = s.holders ++ s.queue ++ [task] := by
  rw [acquire, holders_append_queue_grant, List.append_assoc]

theorem Fits.quit (h : s.Fits total) (task : Nat) : (s.quit task).Fits total := by
  unfold Semaphore.quit
  split
  · next hheld =>
    have hlength := List.length_erase_of_mem hheld
    have hpos := List.length_pos_of_mem hheld
    refine fits_grant ?_ (h.idle.imp (fun hqueue => ?_) fun hfree => ?_)
    · rw [← h.sum]
      simp only [hlength]
      omega
    · simp [hqueue]
    · simp [hfree]
  · refine ⟨h.sum, h.idle.imp_left fun hqueue => ?_⟩
    rw [hqueue]
    rfl

theorem holders_append_queue_quit (s : Semaphore) (task : Nat) :
    (s.quit task).holders ++ (s.quit task).queue = (s.holders ++ s.queue).erase task := by
  unfold quit
  split
  · next hheld => rw [holders_append_queue_grant, List.erase_append_left _ hheld]
  · next hwaits => rw [List.erase_append_right _ hwaits]

/-- A task that holds a permit keeps it when another one quits. -/
theorem mem_holders_quit {other : Nat} (hheld : other ∈ s.holders) (hne : other ≠ task) :
    other ∈ (s.quit task).holders := by
  unfold Semaphore.quit
  split
  · exact (holders_prefix_grant _).subset ((List.mem_erase_of_ne hne).2 hheld)
  · exact hheld

end Semaphore

/-- Something that happens to a pool. -/
inductive PoolOp where
  | spawn
  /-- A task comes to its end, if it runs. -/
  | finish (task : Nat)
  | abortAll
  deriving DecidableEq, Repr

namespace TaskPool

def act (p : TaskPool) : PoolOp → TaskPool
  | .spawn => p.spawn
  | .finish task => p.finish task
  | .abortAll => p.abortAll

def run (p : TaskPool) (ops : List PoolOp) : TaskPool := ops.foldl act p

/-- The tasks that begin to run in the course of the operations, in that order. -/
def begun (p : TaskPool) : List PoolOp → List Nat
  | [] => []
  | op :: rest => (p.act op).running.filter (· ∉ p.running) ++ (p.act op).begun rest

/-- The tasks that have not come to their ends are those of the pool that have not ended, each once and
in order, and no permit is lost. -/
structure Sound (total : Nat) (p : TaskPool) : Prop where
  fits : p.permits.Fits total
  sorted : p.unfinished.Pairwise (· < ·)
  tasks : p.tasks.filter (· ∉ p.ended) = p.unfinished
  old : ∀ task ∈ p.tasks ++ p.ended, task < p.spawned
  count : p.finished + p.unfinished.length + p.dropped = p.spawned

variable {total : Nat} {p : TaskPool}

theorem sound_ofSize (size : Nat) : (ofSize size).Sound (max size 1) where
  fits := ⟨rfl, .inl rfl⟩
  sorted := .nil
  tasks := rfl
  old := by simp [ofSize]
  count := rfl

theorem unfinished_spawn (p : TaskPool) : p.spawn.unfinished = p.unfinished ++ [p.spawned] :=
  p.permits.holders_append_queue_acquire p.spawned

namespace Sound

theorem nodup (h : p.Sound total) : p.unfinished.Nodup := h.sorted.imp Nat.ne_of_lt

theorem mem_tasks (h : p.Sound total) {task : Nat} (htask : task ∈ p.unfinished) :
    task ∈ p.tasks ∧ task ∉ p.ended := by
  rw [← h.tasks, List.mem_filter] at htask
  exact ⟨htask.1, by simpa using htask.2⟩

theorem lt_spawned (h : p.Sound total) {task : Nat} (htask : task ∈ p.unfinished) :
    task < p.spawned :=
  h.old task (List.mem_append_left _ (h.mem_tasks htask).1)

theorem size_eq (h : p.Sound total) : p.size = p.unfinished.length := congrArg List.length h.tasks

/-- No more tasks run than there are permits, and no fewer than there are or there is work for. -/
theorem length_running (h : p.Sound total) :
    p.running.length = min total p.unfinished.length := by
  have htotal := h.fits.sum
  have hlength : p.unfinished.length = p.running.length + p.waiting.length := List.length_append
  rw [running, waiting] at hlength
  rw [running]
  obtain hqueue | hfree := h.fits.idle
  · rw [hqueue, List.length_nil] at hlength
    omega
  · omega

theorem spawn (h : p.Sound total) : p.spawn.Sound total := by
  have hnew : p.spawn.unfinished = p.unfinished ++ [p.spawned] := p.unfinished_spawn
  have hreaped : ∀ task ∈ p.reap.tasks, task < p.spawned := fun task htask =>
    h.old task (List.mem_append_left _ (List.mem_of_mem_filter htask))
  refine ⟨h.fits.acquire _, ?_, ?_, ?_, ?_⟩
  · rw [hnew, List.pairwise_append]
    exact ⟨h.sorted, List.pairwise_singleton _ _, fun task htask new hmem =>
      List.mem_singleton.1 hmem ▸ h.lt_spawned htask⟩
  · rw [hnew, ← h.tasks]
    simp [TaskPool.spawn, reap]
  · intro task htask
    have htask : task ∈ p.reap.tasks ∨ task = p.spawned := by
      simpa [TaskPool.spawn, reap] using htask
    obtain hold | rfl := htask
    · exact Nat.lt_succ_of_lt (hreaped task hold)
    · exact Nat.lt_succ_self _
  · rw [hnew, List.length_append, List.length_singleton]
    have hcount := h.count
    show p.finished + (p.unfinished.length + 1) + p.dropped = p.spawned + 1
    omega

/-- What comes of a pool when a task ends, one way or the other. -/
theorem ended (h : p.Sound total) {task : Nat} (htask : task ∈ p.unfinished) {finished dropped : Nat}
    (hcount : finished + dropped = p.finished + p.dropped + 1) :
    Sound total { p with
      permits := p.permits.quit task
      ended := p.ended ++ [task]
      finished, dropped } := by
  have herase : TaskPool.unfinished { p with
      permits := p.permits.quit task
      ended := p.ended ++ [task]
      finished, dropped } = p.unfinished.erase task :=
    p.permits.holders_append_queue_quit task
  refine ⟨h.fits.quit task, ?_, ?_, ?_, ?_⟩
  · rw [herase]
    exact h.sorted.sublist List.erase_sublist
  · rw [herase, h.nodup.erase_eq_filter, ← h.tasks, List.filter_filter]
    refine List.filter_congr fun other _ => ?_
    rw [Bool.eq_iff_iff]
    simp [and_comm]
  · intro other hother
    rw [← List.append_assoc, List.mem_append, List.mem_singleton] at hother
    obtain hother | rfl := hother
    · exact h.old other hother
    · exact h.lt_spawned htask
  · rw [herase, List.length_erase_of_mem htask]
    have hpos := List.length_pos_of_mem htask
    have hsum := h.count
    show finished + (p.unfinished.length - 1) + dropped = p.spawned
    omega

theorem finish (h : p.Sound total) (task : Nat) : (p.finish task).Sound total := by
  unfold TaskPool.finish
  split
  · next hruns => exact h.ended (List.mem_append_left _ hruns) (by omega)
  · exact h

theorem abort (h : p.Sound total) (task : Nat) : (p.abort task).Sound total := by
  unfold TaskPool.abort
  split
  · next htask => exact h.ended htask (by omega)
  · exact h

end Sound

theorem unfinished_abort (p : TaskPool) (task : Nat) :
    (p.abort task).unfinished = p.unfinished.erase task := by
  unfold abort
  split
  · exact p.permits.holders_append_queue_quit task
  · next hgone => rw [List.erase_of_not_mem hgone]

theorem finished_abort (p : TaskPool) (task : Nat) : (p.abort task).finished = p.finished := by
  unfold abort
  split <;> rfl

theorem spawned_abort (p : TaskPool) (task : Nat) : (p.abort task).spawned = p.spawned := by
  unfold abort
  split <;> rfl

/-- What dropping one task leaves as it is, dropping all of them does. -/
theorem abortAll_keeps {α : Type} {f : TaskPool → α} (hone : ∀ p task, f (p.abort task) = f p)
    (p : TaskPool) : f p.abortAll = f p := by
  have hall : ∀ (tasks : List Nat) (p : TaskPool), f (tasks.foldl abort p) = f p := by
    intro tasks
    induction tasks with
    | nil => exact fun _ => rfl
    | cons task rest ih => exact fun p => (ih _).trans (hone p task)
  exact hall p.tasks p

theorem finished_abortAll (p : TaskPool) : p.abortAll.finished = p.finished :=
  abortAll_keeps finished_abort p

theorem spawned_abortAll (p : TaskPool) : p.abortAll.spawned = p.spawned :=
  abortAll_keeps spawned_abort p

/-- The tasks that are dropped, and they only, are gone. -/
theorem Sound.foldl_abort (tasks : List Nat) : ∀ {p : TaskPool}, p.Sound total →
    (tasks.foldl TaskPool.abort p).Sound total ∧
      (tasks.foldl TaskPool.abort p).unfinished = p.unfinished.filter (· ∉ tasks) := by
  induction tasks with
  | nil => exact fun h => ⟨h, by simp⟩
  | cons task rest ih =>
    intro p h
    obtain ⟨hsound, hleft⟩ := ih (h.abort task)
    refine ⟨hsound, hleft.trans ?_⟩
    rw [unfinished_abort, h.nodup.erase_eq_filter, List.filter_filter]
    refine List.filter_congr fun other _ => ?_
    rw [Bool.eq_iff_iff]
    simp [and_comm]

theorem Sound.abortAll (h : p.Sound total) : p.abortAll.Sound total :=
  (Sound.foldl_abort p.tasks h).1

theorem Sound.unfinished_abortAll (h : p.Sound total) : p.abortAll.unfinished = [] := by
  rw [TaskPool.abortAll, (Sound.foldl_abort p.tasks h).2, List.filter_eq_nil_iff]
  intro task htask
  simp [(h.mem_tasks htask).1]

/-- A pool without tasks has all its permits to give. -/
theorem Sound.free_eq (h : p.Sound total) (hnone : p.unfinished = []) : p.permits.free = total := by
  have hheld : p.permits.holders = [] := (List.append_eq_nil_iff.1 hnone).1
  have hsum := h.fits.sum
  rwa [hheld] at hsum

theorem Sound.spawnMany (n : Nat) : ∀ {p : TaskPool}, p.Sound total →
    (p.spawnMany n).Sound total ∧ (p.spawnMany n).unfinished.length = p.unfinished.length + n := by
  induction n with
  | zero => exact fun h => ⟨h, rfl⟩
  | succ n ih =>
    intro p h
    obtain ⟨hsound, hlength⟩ := ih h.spawn
    refine ⟨hsound, hlength.trans ?_⟩
    rw [unfinished_spawn, List.length_append, List.length_singleton]
    omega

theorem Sound.act (h : p.Sound total) : ∀ op, (p.act op).Sound total
  | .spawn => h.spawn
  | .finish task => h.finish task
  | .abortAll => h.abortAll

/-! ### The order in which tasks begin -/

theorem unfinished_finish_sublist (p : TaskPool) (task : Nat) :
    (p.finish task).unfinished.Sublist p.unfinished := by
  unfold finish
  split
  · show ((p.permits.quit task).holders ++ (p.permits.quit task).queue).Sublist p.unfinished
    rw [Semaphore.holders_append_queue_quit]
    exact List.erase_sublist
  · exact .refl _

/-- One step adds at most the task that is spawned in it. -/
theorem Sound.unfinished_act (h : p.Sound total) (op : PoolOp) :
    ∀ task ∈ (p.act op).unfinished, task ∈ p.unfinished ∨ task = p.spawned := by
  intro task htask
  cases op with
  | spawn =>
    have htask : task ∈ p.unfinished ++ [p.spawned] := p.unfinished_spawn ▸ htask
    exact (List.mem_append.1 htask).imp_right List.mem_singleton.1
  | finish other => exact .inl ((p.unfinished_finish_sublist other).subset htask)
  | abortAll =>
    have htask : task ∈ ([] : List Nat) := h.unfinished_abortAll ▸ htask
    exact absurd htask List.not_mem_nil

theorem spawned_finish (p : TaskPool) (task : Nat) : (p.finish task).spawned = p.spawned := by
  unfold finish
  split <;> rfl

theorem spawned_act (p : TaskPool) (op : PoolOp) :
    (p.act op).spawned = p.spawned + [op].count .spawn := by
  cases op with
  | spawn => rfl
  | finish task => exact p.spawned_finish task
  | abortAll => exact p.spawned_abortAll

/-- A task that runs is not made to wait again. -/
theorem Sound.waiting_act (h : p.Sound total) (op : PoolOp) :
    ∀ task ∈ (p.act op).waiting, task ∉ p.running := by
  have hapart : ∀ task ∈ (p.act op).waiting, task ∉ (p.act op).running := fun task hwaits hruns =>
    (List.nodup_append.1 (h.act op).nodup).2.2 task hruns task hwaits rfl
  intro task hwaits hruns
  refine hapart task hwaits ?_
  cases op with
  | spawn => exact (Semaphore.holders_prefix_grant _).subset hruns
  | finish other =>
    have hleft : task ∈ (p.finish other).unfinished := List.mem_append_right _ hwaits
    show task ∈ (p.finish other).running
    unfold TaskPool.finish at hleft ⊢
    split
    · next hother =>
      rw [if_pos hother] at hleft
      have hleft : task ∈ p.unfinished.erase other :=
        p.permits.holders_append_queue_quit other ▸ hleft
      exact Semaphore.mem_holders_quit hruns (h.nodup.mem_erase_iff.1 hleft).1
    · exact hruns
  | abortAll =>
    have hwaits : task ∈ ([] : List Nat) := h.unfinished_abortAll ▸ List.mem_append_right _ hwaits
    exact absurd hwaits List.not_mem_nil

/-- The tasks that have begun, in that order, were spawned in that order and before all that wait. -/
structure Begun (log : List Nat) (p : TaskPool) : Prop where
  sorted : (log ++ p.waiting).Pairwise (· < ·)
  running : ∀ task ∈ p.running, task ∈ log
  old : ∀ task ∈ log, task < p.spawned

variable {log : List Nat}

theorem begun_ofSize (size : Nat) : (ofSize size).Begun [] where
  sorted := .nil
  running := by simp [ofSize, TaskPool.running]
  old := by simp

theorem Begun.act (hlog : p.Begun log) (h : p.Sound total) (op : PoolOp) :
    (p.act op).Begun (log ++ (p.act op).running.filter (· ∉ p.running)) := by
  have hstay := h.waiting_act op
  have hspawned := p.spawned_act op
  -- Those that begin and those that still wait are what did not run before.
  have hlater : (p.act op).running.filter (· ∉ p.running) ++ (p.act op).waiting =
      (p.act op).unfinished.filter (· ∉ p.running) := by
    rw [unfinished, List.filter_append]
    refine congrArg _ (List.filter_eq_self.2 fun task htask => ?_).symm
    simpa using hstay task htask
  have hfresh : ∀ task ∈ (p.act op).unfinished.filter (· ∉ p.running),
      task ∈ p.waiting ∨ task = p.spawned := by
    intro task htask
    obtain ⟨htask, hidle⟩ := List.mem_filter.1 htask
    have hidle : task ∉ p.running := by simpa using hidle
    exact (h.unfinished_act op task htask).imp_left fun hmem =>
      (List.mem_append.1 hmem).resolve_left hidle
  have hbefore := List.pairwise_append.1 hlog.sorted
  refine ⟨?_, fun task hruns => ?_, fun task hmem => ?_⟩
  · rw [List.append_assoc, hlater, List.pairwise_append]
    refine ⟨hbefore.1, (h.act op).sorted.filter _, fun task htask later hlater => ?_⟩
    obtain hwaits | rfl := hfresh later hlater
    · exact hbefore.2.2 task htask later hwaits
    · exact hlog.old task htask
  · by_cases hran : task ∈ p.running
    · exact List.mem_append_left _ (hlog.running task hran)
    · exact List.mem_append_right _ (List.mem_filter.2 ⟨hruns, by simpa using hran⟩)
  · obtain hmem | hmem := List.mem_append.1 hmem
    · exact Nat.lt_of_lt_of_le (hlog.old task hmem) (hspawned ▸ Nat.le_add_right _ _)
    · exact (h.act op).lt_spawned (List.mem_append_left _ (List.mem_of_mem_filter hmem))

theorem Sound.run (ops : List PoolOp) : ∀ {p : TaskPool} {log : List Nat}, p.Sound total →
    p.Begun log → (p.run ops).Sound total ∧ (p.run ops).Begun (log ++ p.begun ops) := by
  induction ops with
  | nil => exact fun h hlog => ⟨h, by rwa [begun, List.append_nil]⟩
  | cons op rest ih =>
    intro p log h hlog
    rw [begun, ← List.append_assoc]
    exact ih (h.act op) (hlog.act h op)

theorem spawned_run (ops : List PoolOp) :
    ∀ p : TaskPool, (p.run ops).spawned = p.spawned + ops.count .spawn := by
  induction ops with
  | nil => exact fun _ => rfl
  | cons op rest ih =>
    intro p
    have hsplit : ([op] ++ rest).count .spawn = [op].count .spawn + rest.count .spawn :=
      List.count_append
    rw [List.singleton_append] at hsplit
    rw [hsplit, ← Nat.add_assoc, ← spawned_act]
    exact ih (p.act op)

/-- However tasks are spawned, finished and dropped: as many run as there are permits, or all that are
not finished where these are fewer; they begin at most once each, in the order in which they were
spawned and before all that wait; the size is what is not finished; every task is accounted for. Where
all are dropped, the pool is as good as new. -/
theorem run_bounded (size : Nat) (ops : List PoolOp) :
    let p := (ofSize size).run ops
    let started := (ofSize size).begun ops
    p.running.length = min (max size 1) p.unfinished.length ∧
      (started ++ p.waiting).Pairwise (· < ·) ∧
      (∀ task ∈ p.running, task ∈ started) ∧
      (∀ task ∈ started, task < p.spawned) ∧
      p.size = p.unfinished.length ∧
      p.finished + p.unfinished.length + p.dropped = p.spawned ∧
      p.spawned = ops.count .spawn ∧
      p.abortAll.unfinished = [] ∧
      p.abortAll.dropped = p.dropped + p.unfinished.length ∧
      p.abortAll.permits.free = max size 1 ∧
      ∀ n, (p.abortAll.spawnMany n).running.length = min (max size 1) n := by
  intro p started
  obtain ⟨hsound, hbegun⟩ : p.Sound (max size 1) ∧ p.Begun started :=
    (sound_ofSize size).run ops (begun_ofSize size)
  have hnone := hsound.unfinished_abortAll
  have hdropped : p.abortAll.dropped = p.dropped + p.unfinished.length := by
    have hbefore := hsound.count
    have hafter := hsound.abortAll.count
    rw [hnone, finished_abortAll, spawned_abortAll, List.length_nil] at hafter
    omega
  have hspawned : p.spawned = ops.count .spawn := (spawned_run ops _).trans (Nat.zero_add _)
  refine ⟨hsound.length_running, hbegun.sorted, hbegun.running, hbegun.old, hsound.size_eq,
    hsound.count, hspawned, hnone, hdropped, hsound.abortAll.free_eq hnone, fun n => ?_⟩
  obtain ⟨hagain, hlength⟩ := hsound.abortAll.spawnMany n
  rw [hagain.length_running, hlength, hnone, List.length_nil, Nat.zero_add]

/-- The task that waits as all are dropped never begins. -/
example : (ofSize 2).begun
    [.spawn, .spawn, .spawn, .spawn, .finish 1, .abortAll, .spawn] = [0, 1, 2, 4] := by
  decide

end TaskPool

end Multidomain

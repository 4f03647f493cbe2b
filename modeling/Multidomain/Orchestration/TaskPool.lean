/-!
# The task pool

Work towards children runs in a pool of bounded size. A task that is spawned asks for a permit, runs
while it holds one, and gives it back at its end; permits are given out in the order in which they were
asked for. The pool keeps what it has spawned until it takes note of its end, which it does before it
spawns or counts. A pool of size zero has one permit. Tasks are numbered in the order in which they were
spawned.
-/

namespace Multidomain

/-- Permits: `holders` are the tasks in the order in which they were given one, `queue` those that wait in
the order in which they asked. -/
structure Semaphore where
  free : Nat
  holders : List Nat := []
  queue : List Nat := []
  deriving DecidableEq, Repr, Inhabited

namespace Semaphore

/-- Give a free permit to the task that has waited longest. -/
def grant (s : Semaphore) : Semaphore :=
  match s.free, s.queue with
  | free + 1, next :: rest => { free, holders := s.holders ++ [next], queue := rest }
  | _, _ => s

def acquire (s : Semaphore) (task : Nat) : Semaphore := grant { s with queue := s.queue ++ [task] }

/-- Give a permit back, or wait for one no longer. -/
def quit (s : Semaphore) (task : Nat) : Semaphore :=
  if task ∈ s.holders then grant { s with free := s.free + 1, holders := s.holders.erase task }
  else { s with queue := s.queue.erase task }

end Semaphore

structure TaskPool where
  permits : Semaphore
  /-- The tasks whose ends were not taken note of, in the order in which they were spawned. -/
  tasks : List Nat := []
  /-- Those of them that have come to their ends. -/
  ended : List Nat := []
  spawned : Nat := 0
  finished : Nat := 0
  dropped : Nat := 0
  deriving DecidableEq, Repr, Inhabited

namespace TaskPool

def ofSize (size : Nat) : TaskPool := { permits := { free := max size 1 } }

def running (p : TaskPool) : List Nat := p.permits.holders

def waiting (p : TaskPool) : List Nat := p.permits.queue

/-- The tasks that have not come to their ends, in the order in which they were spawned. -/
def unfinished (p : TaskPool) : List Nat := p.running ++ p.waiting

/-- Take note of the tasks that have come to their ends. -/
def reap (p : TaskPool) : TaskPool :=
  { p with tasks := p.tasks.filter (· ∉ p.ended), ended := [] }

def spawn (p : TaskPool) : TaskPool :=
  let p := p.reap
  { p with
    permits := p.permits.acquire p.spawned
    tasks := p.tasks ++ [p.spawned]
    spawned := p.spawned + 1 }

def spawnMany (p : TaskPool) : Nat → TaskPool
  | 0 => p
  | n + 1 => p.spawn.spawnMany n

def finish (p : TaskPool) (task : Nat) : TaskPool :=
  if task ∈ p.running then
    { p with
      permits := p.permits.quit task
      ended := p.ended ++ [task]
      finished := p.finished + 1 }
  else p

/-- Let the longest-running tasks come to their ends, `n` of them if there are so many. Gives how
many were not there to finish. -/
def finishOldest (p : TaskPool) : Nat → TaskPool × Nat
  | 0 => (p, 0)
  | n + 1 =>
    match p.running with
    | [] => (p, n + 1)
    | task :: _ => (p.finish task).finishOldest n

def abort (p : TaskPool) (task : Nat) : TaskPool :=
  if task ∈ p.unfinished then
    { p with
      permits := p.permits.quit task
      ended := p.ended ++ [task]
      dropped := p.dropped + 1 }
  else p

/-- Drop all tasks, one after the other. None of those that wait begins in between, even where a permit
has come to it. -/
def abortAll (p : TaskPool) : TaskPool := p.tasks.foldl abort p

/-- The number of tasks that have not come to their ends, the others taken note of. -/
def size (p : TaskPool) : Nat := p.reap.tasks.length

end TaskPool

end Multidomain

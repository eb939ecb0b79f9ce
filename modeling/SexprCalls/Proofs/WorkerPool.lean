import Mathlib.Data.List.Nodup
import SexprCalls.Proofs.CheckReport

/-!
# Compiling files at the same time

The files of a check may be shared among workers.  The indices of all files wait
in a queue that gets no more; each worker takes the next index, compiles that file,
stores the result under the index, and stops once the queue is empty.  Their steps
may follow each other in any order.

An index is always in one place: in the queue, with one worker, or among the stored
results.  So a pool in which all workers have stopped has compiled each file once,
and its results are those of compiling one file after the other.  The files do not
change meanwhile, so that compiling a path is a function of the path.
-/

namespace SexprCalls.CommandLine

/-- What a worker is doing. -/
inductive Worker (α : Type) where
  | waiting
  | compiling (index : Nat)
  | storing (index : Nat) (result : α)
  | finished

namespace Worker

variable {α : Type}

/-- The index that a worker has taken and stored no result for. -/
def index? : Worker α → Option Nat
  | .waiting => none
  | .compiling index => some index
  | .storing index _ => some index
  | .finished => none

/-- The number of steps from a worker to its end, if it takes nothing more. -/
def load : Worker α → Nat
  | .waiting => 1
  | .compiling _ => 3
  | .storing _ _ => 2
  | .finished => 0

def totalLoad : List (Worker α) → Nat
  | [] => 0
  | worker :: rest => worker.load + totalLoad rest

theorem totalLoad_append (before after : List (Worker α)) :
    totalLoad (before ++ after) = totalLoad before + totalLoad after := by
  induction before with
  | nil =>
      exact (Nat.zero_add _).symm
  | cons worker rest inductionHypothesis =>
      simp [totalLoad, inductionHypothesis, Nat.add_assoc]

theorem totalLoad_replicate_waiting (count : Nat) :
    totalLoad (List.replicate count (.waiting : Worker α)) = count := by
  induction count with
  | zero =>
      rfl
  | succ count inductionHypothesis =>
      rw [List.replicate_succ, totalLoad, inductionHypothesis]
      exact Nat.add_comm 1 count

/-- The indices that workers hold, each with the number of its worker; the numbers
start with the given one. -/
def heldFrom (number : Nat) : List (Worker α) → List (Nat × Nat)
  | [] => []
  | worker :: rest =>
      (worker.index?.map fun index => (number, index)).toList ++
        heldFrom (number + 1) rest

theorem heldFrom_append
    (number : Nat) (before after : List (Worker α)) :
    heldFrom number (before ++ after) =
      heldFrom number before ++ heldFrom (number + before.length) after := by
  induction before generalizing number with
  | nil =>
      rfl
  | cons worker rest inductionHypothesis =>
      have shifted : number + 1 + rest.length = number + (rest.length + 1) := by
        omega
      simp [heldFrom, inductionHypothesis, shifted]

theorem heldFrom_middle
    (before : List (Worker α)) (worker : Worker α) (after : List (Worker α)) :
    heldFrom 0 (before ++ worker :: after) =
      heldFrom 0 before ++
        ((worker.index?.map fun index => (before.length, index)).toList ++
          heldFrom (before.length + 1) after) := by
  rw [heldFrom_append, heldFrom, Nat.zero_add]

theorem heldFrom_eq_nil
    {workers : List (Worker α)}
    (idle : ∀ worker ∈ workers, worker.index? = none) (number : Nat) :
    heldFrom number workers = [] := by
  induction workers generalizing number with
  | nil =>
      rfl
  | cons worker rest inductionHypothesis =>
      obtain ⟨workerIdle, restIdle⟩ := List.forall_mem_cons.mp idle
      rw [heldFrom, workerIdle, inductionHypothesis restIdle]
      rfl

theorem mem_heldFrom
    {worker : Worker α} {index : Nat} (holds : worker.index? = some index)
    {workers : List (Worker α)} (member : worker ∈ workers) (number : Nat) :
    ∃ holder, (holder, index) ∈ heldFrom number workers := by
  obtain ⟨before, after, rfl⟩ := List.append_of_mem member
  refine ⟨number + before.length, ?_⟩
  simp [heldFrom_append, heldFrom, holds]

end Worker

/-- The indices that wait, the workers, and the results under their indices. -/
structure Pool (α : Type) where
  queue : List Nat
  workers : List (Worker α)
  results : List α

/-- What a worker, given by its number, does in one step. -/
inductive PoolEvent where
  | take (worker index : Nat)
  | compile (worker index : Nat)
  | store (worker index : Nat)
  | stop (worker : Nat)
deriving DecidableEq, Repr

namespace PoolEvent

/-- The number of the worker that takes the step. -/
def worker : PoolEvent → Nat
  | .take worker _ => worker
  | .compile worker _ => worker
  | .store worker _ => worker
  | .stop worker => worker

def taken? : PoolEvent → Option (Nat × Nat)
  | .take worker index => some (worker, index)
  | _ => none

def stored? : PoolEvent → Option (Nat × Nat)
  | .store worker index => some (worker, index)
  | _ => none

/-- The indices that were taken, in order, each with the worker that took it. -/
def takes (trace : List PoolEvent) : List (Nat × Nat) :=
  trace.filterMap taken?

/-- The indices under which results were stored, each with its worker. -/
def stores (trace : List PoolEvent) : List (Nat × Nat) :=
  trace.filterMap stored?

theorem takes_concat (trace : List PoolEvent) (event : PoolEvent) :
    takes (trace ++ [event]) = takes trace ++ event.taken?.toList := by
  cases event <;> simp [takes, taken?]

theorem stores_concat (trace : List PoolEvent) (event : PoolEvent) :
    stores (trace ++ [event]) = stores trace ++ event.stored?.toList := by
  cases event <;> simp [stores, stored?]

end PoolEvent

namespace Pool

open PoolEvent (takes stores)

variable {α : Type}

/-- The number of workers for a number of jobs: at least one. -/
def size (jobs : Int) : Nat :=
  if jobs < 1 then 1 else jobs.toNat

/-- All indices wait and no worker has begun; `blank` stands where no result has
been stored. -/
def initial (jobs : Int) (count : Nat) (blank : α) : Pool α where
  queue := List.range count
  workers := List.replicate (size jobs) .waiting
  results := List.replicate count blank

def IsDone (pool : Pool α) : Prop :=
  ∀ worker ∈ pool.workers, worker = .finished

/-- The number of steps that are left. -/
def load (pool : Pool α) : Nat :=
  3 * pool.queue.length + Worker.totalLoad pool.workers

variable (compile : Bytes → α) (paths : List Bytes)

/-- One step of one worker. -/
inductive Step : Pool α → PoolEvent → Pool α → Prop
  | take {index : Nat} {queue : List Nat} {before after : List (Worker α)}
      {results : List α} :
      Step ⟨index :: queue, before ++ .waiting :: after, results⟩
        (.take before.length index)
        ⟨queue, before ++ .compiling index :: after, results⟩
  | compile {index : Nat} {path : Bytes} {queue : List Nat}
      {before after : List (Worker α)} {results : List α} :
      paths[index]? = some path →
      Step ⟨queue, before ++ .compiling index :: after, results⟩
        (.compile before.length index)
        ⟨queue, before ++ .storing index (compile path) :: after, results⟩
  | store {index : Nat} {result : α} {queue : List Nat}
      {before after : List (Worker α)} {results : List α} :
      index < results.length →
      Step ⟨queue, before ++ .storing index result :: after, results⟩
        (.store before.length index)
        ⟨queue, before ++ .waiting :: after, results.set index result⟩
  | stop {before after : List (Worker α)} {results : List α} :
      Step ⟨[], before ++ .waiting :: after, results⟩
        (.stop before.length)
        ⟨[], before ++ .finished :: after, results⟩

/-- The steps of a pool from its start on, in any order of the workers. -/
inductive Run (start : Pool α) : List PoolEvent → Pool α → Prop
  | nil : Run start [] start
  | snoc {trace : List PoolEvent} {event : PoolEvent} {pool next : Pool α} :
      Run start trace pool →
      Step compile paths pool event next →
      Run start (trace ++ [event]) next

/-- Where every index is, after the steps of a trace: those that were taken come
before those that wait, and each of them is stored or with the worker that took
it. -/
structure Accounted (trace : List PoolEvent) (pool : Pool α) : Prop where
  waiting :
    (takes trace).map Prod.snd ++ pool.queue = List.range paths.length
  held : (stores trace ++ Worker.heldFrom 0 pool.workers).Perm (takes trace)
  sized : pool.results.length = paths.length
  compiled : ∀ index result, .storing index result ∈ pool.workers →
    paths[index]?.map compile = some result
  stored : ∀ worker index, (worker, index) ∈ stores trace →
    pool.results[index]? = paths[index]?.map compile
  closed : .finished ∈ pool.workers → pool.queue = []

variable {compile paths}

/-! ## One step -/

variable {trace : List PoolEvent} {event : PoolEvent} {pool next : Pool α}

theorem Step.load_eq (step : Step compile paths pool event next) :
    next.load + 1 = pool.load := by
  cases step <;>
    simp [load, Worker.totalLoad_append, Worker.totalLoad, Worker.load] <;>
    omega

theorem Step.length_workers (step : Step compile paths pool event next) :
    next.workers.length = pool.workers.length := by
  cases step <;> simp

theorem Step.length_results (step : Step compile paths pool event next) :
    next.results.length = pool.results.length := by
  cases step <;> simp

theorem accounted_initial (jobs : Int) (blank : α) :
    Accounted compile paths [] (initial jobs paths.length blank) where
  waiting := rfl
  held := by
    have idle :
        ∀ worker ∈ (initial jobs paths.length blank).workers,
          worker.index? = none := by
      intro worker member
      rw [List.eq_of_mem_replicate member]
      rfl
    rw [Worker.heldFrom_eq_nil idle]
    exact List.Perm.refl []
  sized := List.length_replicate
  compiled := by
    intro index result member
    cases List.eq_of_mem_replicate member
  stored := by
    intro worker index member
    cases member
  closed := by
    intro member
    cases List.eq_of_mem_replicate member

theorem Step.waiting
    (step : Step compile paths pool event next)
    (waiting :
      (takes trace).map Prod.snd ++ pool.queue = List.range paths.length) :
    (takes (trace ++ [event])).map Prod.snd ++ next.queue =
      List.range paths.length := by
  cases step <;>
    simpa [PoolEvent.takes_concat, PoolEvent.taken?] using waiting

theorem Step.held
    (step : Step compile paths pool event next)
    (held :
      (stores trace ++ Worker.heldFrom 0 pool.workers).Perm (takes trace)) :
    (stores (trace ++ [event]) ++ Worker.heldFrom 0 next.workers).Perm
      (takes (trace ++ [event])) := by
  rw [PoolEvent.stores_concat, PoolEvent.takes_concat]
  cases step with
  | @take index queue before after results =>
      simp only [Worker.heldFrom_middle, Worker.index?, PoolEvent.taken?,
        PoolEvent.stored?, Option.map_none, Option.map_some,
        Option.toList_none, Option.toList_some, List.nil_append,
        List.append_nil, List.singleton_append] at held ⊢
      rw [← List.append_assoc] at held ⊢
      exact List.perm_middle.trans
        ((held.cons _).trans (List.perm_append_singleton _ _).symm)
  | @compile index path queue before after results found =>
      simpa [Worker.heldFrom_middle, Worker.index?, PoolEvent.taken?,
        PoolEvent.stored?] using held
  | @store index result queue before after results inside =>
      simp only [Worker.heldFrom_middle, Worker.index?, PoolEvent.taken?,
        PoolEvent.stored?, Option.map_none, Option.map_some,
        Option.toList_none, Option.toList_some, List.nil_append,
        List.append_nil, List.singleton_append, List.append_assoc] at held ⊢
      exact (List.perm_middle.symm.append_left _).trans held
  | @stop before after results =>
      simpa [Worker.heldFrom_middle, Worker.index?, PoolEvent.taken?,
        PoolEvent.stored?] using held

theorem Step.compiled
    (step : Step compile paths pool event next)
    (compiled : ∀ index result, .storing index result ∈ pool.workers →
      paths[index]?.map compile = some result) :
    ∀ index result, .storing index result ∈ next.workers →
      paths[index]?.map compile = some result := by
  intro index result member
  cases step with
  | take =>
      apply compiled
      simpa using member
  | @compile taken path queue before after results found =>
      rcases List.mem_append.mp member with early | late
      · exact compiled index result (List.mem_append_left _ early)
      · rcases List.mem_cons.mp late with same | later
        · cases same
          rw [found]
          rfl
        · exact compiled index result
            (List.mem_append_right _ (List.mem_cons_of_mem _ later))
  | store =>
      apply compiled
      simp only [List.mem_append, List.mem_cons, reduceCtorEq, false_or]
        at member ⊢
      exact member.imp_right Or.inr
  | stop =>
      apply compiled
      simpa using member

theorem Step.stored
    (step : Step compile paths pool event next)
    (compiled : ∀ index result, .storing index result ∈ pool.workers →
      paths[index]?.map compile = some result)
    (stored : ∀ worker index, (worker, index) ∈ stores trace →
      pool.results[index]? = paths[index]?.map compile) :
    ∀ worker index, (worker, index) ∈ stores (trace ++ [event]) →
      next.results[index]? = paths[index]?.map compile := by
  intro worker index member
  rw [PoolEvent.stores_concat] at member
  cases step with
  | @store given result queue before after results inside =>
      have right := compiled given result (by simp)
      by_cases same : index = given
      · subst same
        rw [right, List.getElem?_set_self inside]
      · have earlier : (worker, index) ∈ stores trace := by
          simpa [PoolEvent.stored?, same] using member
        rw [List.getElem?_set_ne (Ne.symm same)]
        exact stored worker index earlier
  | take =>
      exact stored worker index (by simpa [PoolEvent.stored?] using member)
  | compile =>
      exact stored worker index (by simpa [PoolEvent.stored?] using member)
  | stop =>
      exact stored worker index (by simpa [PoolEvent.stored?] using member)

theorem Step.closed
    (step : Step compile paths pool event next)
    (closed : .finished ∈ pool.workers → pool.queue = []) :
    .finished ∈ next.workers → next.queue = [] := by
  intro member
  cases step with
  | take =>
      have empty := closed (by simpa using member)
      cases empty
  | compile =>
      exact closed (by simpa using member)
  | store =>
      exact closed (by simpa using member)
  | stop =>
      rfl

theorem Accounted.step
    (accounted : Accounted compile paths trace pool)
    (step : Step compile paths pool event next) :
    Accounted compile paths (trace ++ [event]) next where
  waiting := step.waiting accounted.waiting
  held := step.held accounted.held
  sized := step.length_results.trans accounted.sized
  compiled := step.compiled accounted.compiled
  stored := step.stored accounted.compiled accounted.stored
  closed := step.closed accounted.closed

/-! ## Progress -/

theorem Accounted.index_lt
    (accounted : Accounted compile paths trace pool)
    {worker : Worker α} (member : worker ∈ pool.workers)
    {index : Nat} (holds : worker.index? = some index) :
    index < paths.length := by
  obtain ⟨holder, inHeld⟩ := Worker.mem_heldFrom holds member 0
  have inTakes : (holder, index) ∈ takes trace :=
    accounted.held.mem_iff.mp (List.mem_append_right _ inHeld)
  rw [← List.mem_range, ← accounted.waiting]
  exact List.mem_append_left _ (List.mem_map_of_mem inTakes)

/-- A worker that has not finished can always go on. -/
theorem Accounted.exists_step
    (accounted : Accounted compile paths trace pool)
    {number : Nat} {worker : Worker α}
    (atNumber : pool.workers[number]? = some worker)
    (unfinished : worker ≠ .finished) :
    ∃ event next, event.worker = number ∧
      Step compile paths pool event next := by
  have inRange :
      ∀ index, worker.index? = some index → index < paths.length :=
    fun _ => accounted.index_lt (List.mem_of_getElem? atNumber)
  have sized := accounted.sized
  obtain ⟨queue, workers, results⟩ := pool
  obtain ⟨before, after, rfl, rfl⟩ :
      ∃ before after, workers = before ++ worker :: after ∧
        before.length = number := by
    obtain ⟨inside, found⟩ := List.getElem?_eq_some_iff.mp atNumber
    refine ⟨workers.take number, workers.drop (number + 1), ?_,
      List.length_take_of_le (Nat.le_of_lt inside)⟩
    rw [← found, ← List.drop_eq_getElem_cons inside, List.take_append_drop]
  cases worker with
  | waiting =>
      cases queue with
      | nil =>
          exact ⟨_, _, rfl, .stop⟩
      | cons index queue =>
          exact ⟨_, _, rfl, .take⟩
  | compiling index =>
      exact ⟨_, _, rfl,
        .compile (List.getElem?_eq_getElem (inRange index rfl))⟩
  | storing index result =>
      exact ⟨_, _, rfl, .store (sized ▸ inRange index rfl)⟩
  | finished =>
      exact absurd rfl unfinished

/-! ## Whole runs -/

namespace Run

variable {start : Pool α}

theorem load_eq (run : Run compile paths start trace pool) :
    trace.length + pool.load = start.load := by
  induction run with
  | nil =>
      exact Nat.zero_add _
  | snoc _ step inductionHypothesis =>
      have lower := step.load_eq
      rw [List.length_append, List.length_singleton]
      omega

theorem length_workers (run : Run compile paths start trace pool) :
    pool.workers.length = start.workers.length := by
  induction run with
  | nil =>
      rfl
  | snoc _ step inductionHypothesis =>
      exact step.length_workers.trans inductionHypothesis

theorem accounted
    {jobs : Int} {blank : α}
    (run :
      Run compile paths (initial jobs paths.length blank) trace pool) :
    Accounted compile paths trace pool := by
  induction run with
  | nil =>
      exact accounted_initial jobs blank
  | snoc _ step inductionHypothesis =>
      exact inductionHypothesis.step step

end Run

theorem load_initial (jobs : Int) (count : Nat) (blank : α) :
    (initial jobs count blank).load = 3 * count + size jobs := by
  simp [load, initial, Worker.totalLoad_replicate_waiting]

theorem size_pos (jobs : Int) : 0 < size jobs := by
  unfold size
  split <;> omega

/-! ## Pools that have come to their end -/

namespace Accounted

variable (accounted : Accounted compile paths trace pool)
  (done : pool.IsDone)

include accounted done

theorem stores_perm_takes : (stores trace).Perm (takes trace) := by
  have idle : ∀ worker ∈ pool.workers, worker.index? = none := by
    intro worker member
    rw [done worker member]
    rfl
  have held := accounted.held
  rw [Worker.heldFrom_eq_nil idle, List.append_nil] at held
  exact held

theorem takes_eq_range (some : pool.workers ≠ []) :
    (takes trace).map Prod.snd = List.range paths.length := by
  obtain ⟨worker, rest, whole⟩ := List.exists_cons_of_ne_nil some
  have member : worker ∈ pool.workers := by
    rw [whole]
    exact List.mem_cons_self
  have empty := accounted.closed (done worker member ▸ member)
  have waiting := accounted.waiting
  rw [empty, List.append_nil] at waiting
  exact waiting

theorem results_eq (some : pool.workers ≠ []) :
    pool.results = paths.map compile := by
  apply List.ext_getElem?
  intro index
  rw [List.getElem?_map]
  by_cases inside : index < paths.length
  · rw [← List.mem_range, ← takes_eq_range accounted done some] at inside
    obtain ⟨⟨worker, _⟩, inTakes, rfl⟩ := List.mem_map.mp inside
    apply accounted.stored worker
    exact (stores_perm_takes accounted done).mem_iff.mpr inTakes
  · have outside : paths.length ≤ index := Nat.le_of_not_lt inside
    rw [List.getElem?_eq_none outside,
      List.getElem?_eq_none (accounted.sized ▸ outside)]
    rfl

end Accounted

theorem mem_takes_iff (worker index : Nat) :
    (worker, index) ∈ takes trace ↔ PoolEvent.take worker index ∈ trace := by
  rw [takes, List.mem_filterMap]
  constructor
  · rintro ⟨event, member, found⟩
    cases event with
    | take =>
        cases found
        exact member
    | compile =>
        cases found
    | store =>
        cases found
    | stop =>
        cases found
  · intro member
    exact ⟨_, member, rfl⟩

/-- An index that is taken once is taken by one worker. -/
theorem existsUnique_take
    {count : Nat} (all : (takes trace).map Prod.snd = List.range count)
    {index : Nat} (inside : index < count) :
    ∃! worker, PoolEvent.take worker index ∈ trace := by
  have once : ((takes trace).map Prod.snd).Nodup := all ▸ List.nodup_range
  rw [← List.mem_range, ← all] at inside
  obtain ⟨⟨worker, _⟩, member, rfl⟩ := List.mem_map.mp inside
  refine ⟨worker, (mem_takes_iff _ _).mp member, ?_⟩
  intro other taken
  have same :=
    List.inj_on_of_nodup_map once ((mem_takes_iff _ _).mpr taken) member rfl
  exact congrArg Prod.fst same

end Pool

/-! ## The report -/

/-- The report on stored results is that of a check which compiles the files one
after the other, apart from the log. -/
theorem report_zipWith
    {compiler : Compiler} {files : Files} {targets paths : List Bytes}
    (collected : collect files targets = .ok paths) (some : paths ≠ [])
    {results : List (Except (Fault Error) Unit)}
    (same : results = paths.map (compileResult compiler files))
    (log : Bytes) :
    (report (List.zipWith Verdict.mk paths results) log).stdout =
        (checkTargets compiler files targets).stdout ∧
      (report (List.zipWith Verdict.mk paths results) log).result =
        (checkTargets compiler files targets).result := by
  have verdicts :
      List.zipWith Verdict.mk paths results =
        paths.map (verdictOn compiler files) := by
    rw [same, List.zipWith_map_right, List.zipWith_self]
    rfl
  rw [verdicts, checkTargets_of_collect collected some]
  exact ⟨rfl, rfl⟩

namespace Pool

open PoolEvent (takes stores)

/-- In whatever order the workers take their steps, they come to an end, and none
has to wait for another.  At the end each index has been taken once, by one worker,
which has also stored its result, and the results are those of compiling the files
one after the other.  So the report is that of a check without workers. -/
theorem every_schedule_reports_alike
    (compiler : Compiler) (files : Files) (paths : List Bytes) (jobs : Int)
    {trace : List PoolEvent} {pool : Pool (Except (Fault Error) Unit)}
    (run :
      Run (compileResult compiler files) paths
        (initial jobs paths.length (.ok ())) trace pool) :
    trace.length ≤ 3 * paths.length + size jobs ∧
    (∀ number worker, pool.workers[number]? = some worker →
      worker ≠ .finished →
        ∃ event next, event.worker = number ∧
          Step (compileResult compiler files) paths pool event next) ∧
    (pool.IsDone →
      (takes trace).map Prod.snd = List.range paths.length ∧
        (∀ index < paths.length,
          ∃! worker, PoolEvent.take worker index ∈ trace) ∧
        (stores trace).Perm (takes trace) ∧
        pool.results = paths.map (compileResult compiler files) ∧
        ∀ targets log,
          collect files targets = .ok paths → paths ≠ [] →
            (report (List.zipWith Verdict.mk paths pool.results) log).stdout =
                (checkTargets compiler files targets).stdout ∧
              (report (List.zipWith Verdict.mk paths pool.results)
                  log).result =
                (checkTargets compiler files targets).result) := by
  have accounted := run.accounted
  refine ⟨?_, fun _ _ => accounted.exists_step, fun done => ?_⟩
  · have load := run.load_eq
    rw [load_initial] at load
    omega
  · have some : pool.workers ≠ [] := by
      apply List.ne_nil_of_length_pos
      rw [run.length_workers]
      simpa [initial] using size_pos jobs
    have all := accounted.takes_eq_range done some
    have results := accounted.results_eq done some
    refine ⟨all, fun index => existsUnique_take all,
      accounted.stores_perm_takes done, results, ?_⟩
    intro targets log collected nonempty
    exact report_zipWith collected nonempty results log

/-- The steps of two workers on two files, of which the second is done first. -/
def overtaking : List PoolEvent :=
  [.take 0 0, .take 1 1, .compile 1 1, .store 1 1, .compile 0 0, .store 0 0,
    .stop 1, .stop 0]

/-- The pool behind these steps. -/
def overtaken (compile : Bytes → Except (Fault Error) Unit)
    (first second : Bytes) : Pool (Except (Fault Error) Unit) :=
  ⟨[], [.finished, .finished], [compile first, compile second]⟩

theorem run_overtaking
    (compile : Bytes → Except (Fault Error) Unit) (first second : Bytes) :
    Run compile [first, second] (initial 2 2 (.ok ())) overtaking
      (overtaken compile first second) := by
  have start :
      Run compile [first, second] (initial 2 2 (.ok ())) []
        ⟨[0, 1], [.waiting, .waiting], [.ok (), .ok ()]⟩ := .nil
  have bothTaken :=
    (start.snoc (@Step.take _ _ _ 0 [1] [] [.waiting] _)).snoc
      (@Step.take _ _ _ 1 [] [.compiling 0] [] _)
  have secondStored :=
    (bothTaken.snoc (@Step.compile _ _ _ 1 second [] [.compiling 0] [] _ rfl)).snoc
      (@Step.store _ _ _ 1 _ [] [.compiling 0] [] _ (Nat.lt_succ_self 1))
  have firstStored :=
    (secondStored.snoc (@Step.compile _ _ _ 0 first [] [] [.waiting] _ rfl)).snoc
      (@Step.store _ _ _ 0 _ [] [] [.waiting] _ (Nat.zero_lt_succ 1))
  exact (firstStored.snoc (@Step.stop _ _ _ [.waiting] [] _)).snoc
    (@Step.stop _ _ _ [] [.finished] _)

/-- A file with a number and a file with a call that does not end. -/
def numberAndOpenCall : FileTree :=
  .directory [([0x61], .file [0x31]), ([0x62], .file [0x28])]

theorem every_schedule_reports_alike_of_overtaking :
    let files := numberAndOpenCall.files
    let pool := overtaken (compileResult {} files) [0x61] [0x62]
    Run (compileResult {} files) [[0x61], [0x62]] (initial 2 2 (.ok ()))
        overtaking pool ∧
      pool.IsDone ∧ collect files [[0x61], [0x62]] = .ok [[0x61], [0x62]] ∧
      (takes overtaking).map Prod.snd = [0, 1] ∧
      (∃! worker, PoolEvent.take worker 1 ∈ overtaking) ∧
      (report (List.zipWith Verdict.mk [[0x61], [0x62]] pool.results)
          []).stdout =
        (checkTargets {} files [[0x61], [0x62]]).stdout := by
  intro files pool
  have run : Run (compileResult {} files) [[0x61], [0x62]]
      (initial 2 2 (.ok ())) overtaking pool :=
    run_overtaking (compileResult {} files) [0x61] [0x62]
  have done : pool.IsDone := by
    intro worker member
    simpa [pool, overtaken] using member
  have collected : collect files [[0x61], [0x62]] = .ok [[0x61], [0x62]] :=
    rfl
  have finished :=
    (every_schedule_reports_alike {} files [[0x61], [0x62]] 2 run).2.2 done
  obtain ⟨taken, unique, _, _, reports⟩ := finished
  have same := reports [[0x61], [0x62]] [] collected (List.cons_ne_nil _ _)
  exact ⟨run, done, collected, taken, unique 1 (Nat.lt_succ_self 1), same.1⟩

end Pool
end SexprCalls.CommandLine

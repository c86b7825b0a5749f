import Mathlib.Algebra.BigOperators.Group.Finset.Piecewise
import Mathlib.Algebra.Order.BigOperators.Group.Finset
import Mathlib.Data.Fintype.Option
import Mathlib.Data.Multiset.OrderedMonoid
/-!
# The script check queue

`CCheckQueue` and `CCheckQueueControl` (`checkqueue.h`). The master pushes
checks onto the queue (`Add`) and then joins the workers in `Loop` (`Wait`)
until every check is done. A thread in `Loop` takes a batch from the end of
the queue under the mutex, runs it with the mutex released, and publishes
the batch's result (`fAllOk &= fOk`, `nTodo -= nNow`) the next time it takes
the mutex.

The model is the program's interleaving semantics over any set of worker
threads. A step is one critical section of one thread (the head of the do
loop through the while test and the batch taken; a wakeup from `cond.wait`
through the same test; the push of `Add`), or one check that a thread runs
with the mutex released. A condition variable may wake a thread at any time
(spurious wakeups are allowed), so `wake` is enabled for every thread in
`cond.wait` and the notifications are left out: every run of the program is
a run of the model. `m_request_stop` is only set by the destructor and is
not modelled. The counters are `Nat`: a block adds far fewer than `2 ^ 32`
checks, so `nTodo` never wraps.

Checks are deterministic and independent: `check c` is what `c()` returns.
What the master's `Wait` returned is kept until the next
`CCheckQueueControl`. Three ghost fields record what the statements speak
of: the checks added since the current `CCheckQueueControl` was made, those
whose results are in `fAllOk`, and those whose `operator()` ran; a thread's
ghost `done` holds the checks of its batch it has gone through.

`Inv` is the invariant of every reachable state: `nTodo` counts the checks
added and not yet published (`outstanding`), `fAllOk` says whether every
published check passed, and a batch whose `fOk` is false can point at a
failed check. `next_inv` is its step lemma, with one lemma for each block of
`Loop` (`publish_test`, `whileTest_inv`, `runCheck_inv`) and for the
master's calls, and `Reachable.inv` its run lemma. Once the master's `Wait`
has returned (`Wait_result`) the queue is empty, `nTodo = 0`, no thread is
running a batch, `fAllOk` is reset, the value returned says whether every
check added passes, and no check ran more often than it was added.
-/

namespace Tapyrus.CheckQueue

open Finset

/-- Where a thread is, in `Loop` or around it. -/
inductive Pc where
  /-- The master outside `Loop`: adding checks, or back from `Wait`. -/
  | outside
  /-- At `WaitableLock lock(mutex)` at the head of the do loop. -/
  | lock
  /-- Blocked in `cond.wait(lock)`, counted in `nIdle`. -/
  | wait
  /-- Running its batch with the mutex released. -/
  | work
  deriving DecidableEq, Repr

/-- The locals of one call of `Loop`. -/
structure LoopState (T : Type) where
  pc : Pc
  vChecks : List T
  nNow : Nat
  fOk : Bool
  /-- Ghost: the checks of the batch the thread has gone through and not yet
  published. -/
  done : List T

/-- The locals when `Loop` is entered. -/
def LoopState.start {T : Type} : LoopState T := ⟨.lock, [], 0, true, []⟩

/-- `CCheckQueue<T>`: the state under the mutex, the threads running `Loop`
(`none` is the master, `some w` the worker thread `w`), and the ghost
histories. -/
structure CCheckQueue (T W : Type) where
  queue : List T
  nIdle : Nat
  nTotal : Nat
  fAllOk : Bool
  nTodo : Nat
  nBatchSize : Nat
  thread : Option W → LoopState T
  /-- Ghost: the checks added since the current `CCheckQueueControl`. -/
  added : List T
  /-- Ghost: the checks whose results are in `fAllOk`. -/
  published : List T
  /-- Ghost: the checks whose `operator()` ran. -/
  ran : List T
  /-- What the master's `Wait` returned; `none` until it returns. -/
  fRet : Option Bool

namespace CCheckQueue

variable {T W : Type} [DecidableEq W]

/-- `CCheckQueue(batch_size, worker_threads_num)`: every worker has entered
`Loop(false)`; the master is outside `Loop`. -/
def init (nBatchSize : Nat) : CCheckQueue T W where
  queue := []
  nIdle := 0
  nTotal := 0
  fAllOk := true
  nTodo := 0
  nBatchSize := nBatchSize
  thread
    | none => { LoopState.start with pc := .outside }
    | some _ => LoopState.start
  added := []
  published := []
  ran := []
  fRet := none

/-- Thread `t`'s locals replaced by `w`. -/
def setThread (q : CCheckQueue T W) (t : Option W) (w : LoopState T) : CCheckQueue T W :=
  { q with thread := Function.update q.thread t w }

@[simp] theorem setThread_self (q : CCheckQueue T W) (t : Option W) (w : LoopState T) :
    (q.setThread t w).thread t = w := by
  simp [setThread]

@[simp] theorem setThread_ne (q : CCheckQueue T W) {t u : Option W} (w : LoopState T) (h : u ≠ t) :
    (q.setThread t w).thread u = q.thread u := by
  simp [setThread, h]

/-- `fAllOk &= fOk; nTodo -= nNow;`: the result and the count of the batch
thread `t` has run are published. -/
def publishBatch (q : CCheckQueue T W) (t : Option W) : CCheckQueue T W :=
  { q with fAllOk := q.fAllOk && (q.thread t).fOk, nTodo := q.nTodo - (q.thread t).nNow,
           published := q.published ++ (q.thread t).done }.setThread t { q.thread t with done := [] }

/-- The head of the do loop of `Loop` for thread `t`, the mutex taken: the
batch just run is published, or on the first iteration the thread is counted
in `nTotal`. -/
def publish (q : CCheckQueue T W) (t : Option W) : CCheckQueue T W :=
  if (q.thread t).nNow ≠ 0 then q.publishBatch t else { q with nTotal := q.nTotal + 1 }

/-- `std::max(1U, std::min(nBatchSize, (unsigned int)queue.size() / (nTotal + nIdle + 1)))`:
how many checks a thread takes, fewer when more threads are in `Loop`. -/
def batchSize (q : CCheckQueue T W) : Nat :=
  max 1 (min q.nBatchSize (q.queue.length % 2 ^ 32 / (q.nTotal + q.nIdle + 1)))

/-- `nTotal--; fRet = fAllOk; fAllOk = true; return fRet;`: the master leaves
`Loop`, resetting `fAllOk` for the next block. -/
def returnLoop (q : CCheckQueue T W) (t : Option W) : CCheckQueue T W :=
  { q with nTotal := q.nTotal - 1, fAllOk := true, fRet := some q.fAllOk }.setThread t
    { q.thread t with pc := .outside }

/-- `nIdle++; cond.wait(lock);` -/
def waitCond (q : CCheckQueue T W) (t : Option W) : CCheckQueue T W :=
  { q with nIdle := q.nIdle + 1 }.setThread t { q.thread t with pc := .wait }

/-- `nNow = ...; vChecks.assign(start_it, queue.end()); queue.erase(start_it,
queue.end()); fOk = fAllOk;`: the last `batchSize` checks move from the queue
to the thread's batch. -/
def takeBatch (q : CCheckQueue T W) (t : Option W) : CCheckQueue T W :=
  { q with queue := q.queue.take (q.queue.length - q.batchSize) }.setThread t
    { q.thread t with pc := .work, vChecks := q.queue.drop (q.queue.length - q.batchSize), nNow := q.batchSize,
                      fOk := q.fAllOk, done := [] }

/-- The while loop of `Loop` for thread `t`, the mutex held: on an empty
queue the master returns once nothing is left to do and any other thread
waits; on a nonempty queue the thread takes a batch. -/
def whileTest (q : CCheckQueue T W) (t : Option W) : CCheckQueue T W :=
  if q.queue.isEmpty then
    if t.isNone && q.nTodo == 0 then q.returnLoop t else q.waitCond t
  else q.takeBatch t

/-- The loop over `vChecks` of thread `t`, the mutex released: one check,
`if (fOk) fOk = check();`, or once the batch is through, `vChecks.clear()`
and back to the head of the do loop. -/
def runCheck (check : T → Bool) (q : CCheckQueue T W) (t : Option W) : CCheckQueue T W :=
  match (q.thread t).vChecks with
  | [] => q.setThread t { q.thread t with pc := .lock }
  | c :: rest =>
    if (q.thread t).fOk then
      { q with ran := q.ran ++ [c] }.setThread t
        { q.thread t with vChecks := rest, fOk := check c, done := (q.thread t).done ++ [c] }
    else q.setThread t { q.thread t with vChecks := rest, done := (q.thread t).done ++ [c] }

/-- `Add(vChecks)`: the checks pushed onto the queue and counted in `nTodo`. -/
def Add (q : CCheckQueue T W) (vChecks : List T) : CCheckQueue T W :=
  if vChecks.isEmpty then q
  else { q with queue := q.queue ++ vChecks, nTodo := q.nTodo + vChecks.length, added := q.added ++ vChecks }

end CCheckQueue

/-- What a thread can do next. -/
inductive Event (T W : Type) where
  /-- A new `CCheckQueueControl` for the next block. -/
  | control
  /-- `CCheckQueueControl::Add`. -/
  | add (vChecks : List T)
  /-- `CCheckQueueControl::Wait` enters `Loop(true)`. -/
  | wait
  /-- Thread `t` takes the mutex at the head of the do loop. -/
  | lock (t : Option W)
  /-- Thread `t` wakes from `cond.wait`, the mutex taken again. -/
  | wake (t : Option W)
  /-- Thread `t` goes on through its batch. -/
  | run (t : Option W)

open CCheckQueue

variable {T W : Type} [DecidableEq W]

/-- The state after an event, when the thread is where the event can
happen. -/
def next (check : T → Bool) (q : CCheckQueue T W) : Event T W → Option (CCheckQueue T W)
  | .control => if q.fRet.isSome then some { q with added := [], published := [], ran := [], fRet := none } else none
  | .add vChecks => if (q.thread none).pc = .outside ∧ q.fRet = none then some (q.Add vChecks) else none
  | .wait =>
    if (q.thread none).pc = .outside ∧ q.fRet = none then some (q.setThread none LoopState.start) else none
  | .lock t => if (q.thread t).pc = .lock then some ((q.publish t).whileTest t) else none
  | .wake t => if (q.thread t).pc = .wait then some ({ q with nIdle := q.nIdle - 1 }.whileTest t) else none
  | .run t => if (q.thread t).pc = .work then some (q.runCheck check t) else none

/-- The states a run from `q₀` can reach, under any interleaving. -/
inductive Reachable (check : T → Bool) (q₀ : CCheckQueue T W) : CCheckQueue T W → Prop
  | init : Reachable check q₀ q₀
  | step {q q' : CCheckQueue T W} (e : Event T W) :
      Reachable check q₀ q → next check q e = some q' → Reachable check q₀ q'

/-! ## The invariant -/

/-- The checks a thread holds: those of its batch, gone through or not,
whose result it has not published. -/
def LoopState.holds (w : LoopState T) : Multiset T := ↑(w.done ++ w.vChecks)

/-- What holds of one thread's locals. A thread whose batch failed, or was
taken once `fAllOk` had dropped, can point at a failed check in its batch or
among those published. -/
structure LoopInv (check : T → Bool) (published : List T) (w : LoopState T) : Prop where
  vChecks_nil : w.pc ≠ .work → w.vChecks = []
  done_nil : w.pc ≠ .work → w.pc ≠ .lock → w.done = []
  nNow_lock : w.pc = .lock → w.nNow = w.done.length
  nNow_work : w.pc = .work → w.nNow = w.done.length + w.vChecks.length ∧ 0 < w.nNow
  fOk_true : w.fOk = true → ∀ c ∈ w.done, check c = true
  fOk_false : w.fOk = false → w.holds ≠ 0 → ∃ c ∈ published ++ w.done, check c = false

theorem LoopInv.mono {check : T → Bool} {p p' : List T} {w : LoopState T} (h : LoopInv check p w)
    (hp : p ⊆ p') : LoopInv check p' w where
  __ := h
  fOk_false hf hh := by
    obtain ⟨c, hc, hfail⟩ := h.fOk_false hf hh
    refine ⟨c, ?_, hfail⟩
    rcases List.mem_append.1 hc with hc | hc
    · exact List.mem_append_left _ (hp hc)
    · exact List.mem_append_right _ hc

/-- A thread with nothing in hand, away from the loop's head and its batch. -/
theorem LoopInv.of_idle {check : T → Bool} {p : List T} {w : LoopState T} (hv : w.vChecks = [])
    (hd : w.done = []) (hwork : w.pc ≠ .work) (hlock : w.pc ≠ .lock) : LoopInv check p w where
  vChecks_nil _ := hv
  done_nil _ _ := hd
  nNow_lock h := absurd h hlock
  nNow_work h := absurd h hwork
  fOk_true _ := by simp [hd]
  fOk_false _ h := absurd (by simp [LoopState.holds, hv, hd]) h

theorem LoopInv.start {check : T → Bool} {p : List T} : LoopInv check p (LoopState.start : LoopState T) where
  vChecks_nil _ := rfl
  done_nil _ _ := rfl
  nNow_lock _ := rfl
  nNow_work h := by cases h
  fOk_true _ := by simp [LoopState.start]
  fOk_false h := by cases h

/-- A sum over the threads after thread `t`'s locals are replaced. -/
theorem sum_update [Fintype W] {M : Type} [AddCommMonoid M] (g : LoopState T → M) (f : Option W → LoopState T)
    (t : Option W) (w : LoopState T) :
    ∑ u, g (Function.update f t w u) + g (f t) = ∑ u, g (f u) + g w := by
  simp only [Function.apply_update (fun _ => g)]
  rw [sum_update_of_mem (mem_univ t), ← add_sum_erase _ _ (mem_univ t), sdiff_singleton_eq_erase]
  ac_rfl

namespace CCheckQueue

variable [Fintype W]

/-- The checks added and not yet published: in the queue, or held by a
thread. -/
def outstanding (q : CCheckQueue T W) : Multiset T := ↑q.queue + ∑ t, (q.thread t).holds

/-- The checks the threads have gone through and not yet published. -/
def doneAll (q : CCheckQueue T W) : Multiset T := ∑ t, ((q.thread t).done : Multiset T)

theorem outstanding_setThread (q : CCheckQueue T W) (t : Option W) (w : LoopState T) :
    (q.setThread t w).outstanding + (q.thread t).holds = q.outstanding + w.holds := by
  simp only [outstanding, setThread, add_assoc, sum_update]

theorem doneAll_setThread (q : CCheckQueue T W) (t : Option W) (w : LoopState T) :
    (q.setThread t w).doneAll + ↑(q.thread t).done = q.doneAll + ↑w.done :=
  sum_update (fun w : LoopState T => (w.done : Multiset T)) q.thread t w

theorem outstanding_setThread_eq (q : CCheckQueue T W) (t : Option W) (w : LoopState T) {a b : Multiset T}
    (ha : (q.thread t).holds = a) (hb : w.holds = b) : (q.setThread t w).outstanding + a = q.outstanding + b :=
  ha ▸ hb ▸ outstanding_setThread q t w

theorem doneAll_setThread_eq (q : CCheckQueue T W) (t : Option W) (w : LoopState T) {a b : Multiset T}
    (ha : ↑(q.thread t).done = a) (hb : ↑w.done = b) : (q.setThread t w).doneAll + a = q.doneAll + b :=
  ha ▸ hb ▸ doneAll_setThread q t w

theorem doneAll_setThread_append (q : CCheckQueue T W) (t : Option W) (w : LoopState T) (l : List T)
    (h : w.done = (q.thread t).done ++ l) : (q.setThread t w).doneAll = q.doneAll + ↑l := by
  have := doneAll_setThread q t w
  rw [h, ← Multiset.coe_add, ← add_assoc, add_right_comm] at this
  exact add_right_cancel this

theorem outstanding_setThread_of_holds (q : CCheckQueue T W) (t : Option W) (w : LoopState T)
    (h : w.holds = (q.thread t).holds) : (q.setThread t w).outstanding = q.outstanding := by
  have := outstanding_setThread q t w
  rw [h] at this
  exact add_right_cancel this

theorem doneAll_setThread_of_done (q : CCheckQueue T W) (t : Option W) (w : LoopState T)
    (h : w.done = (q.thread t).done) : (q.setThread t w).doneAll = q.doneAll := by
  have := doneAll_setThread q t w
  rw [h] at this
  exact add_right_cancel this

theorem outstanding_setThread_of_empty (q : CCheckQueue T W) (t : Option W) (w : LoopState T)
    (h : (q.thread t).holds = 0) : (q.setThread t w).outstanding = q.outstanding + w.holds := by
  have := outstanding_setThread q t w
  rwa [h, add_zero] at this

omit [DecidableEq W] in
theorem holds_le_outstanding (q : CCheckQueue T W) (t : Option W) : (q.thread t).holds ≤ q.outstanding :=
  le_add_left (single_le_sum (fun _ _ => Multiset.zero_le _) (mem_univ t))

omit [Fintype W] in
/-- The master is in `Loop` only while its `Wait` has not returned: kept by a
change of thread `t`'s locals that does not bring `t` into `Loop`. -/
theorem master_setThread {q : CCheckQueue T W} {t : Option W} {w : LoopState T}
    (h : (q.thread none).pc ≠ .outside → q.fRet = none) (hw : w.pc ≠ .outside → (q.thread t).pc ≠ .outside) :
    ((q.setThread t w).thread none).pc ≠ .outside → (q.setThread t w).fRet = none := by
  by_cases ht : none = t
  · subst ht
    rw [setThread_self]
    exact fun hpc => h (hw hpc)
  · rw [setThread_ne _ _ ht]
    exact h

omit [Fintype W] in
theorem loop_setThread {check : T → Bool} {p : List T} {q : CCheckQueue T W} {t : Option W} {w : LoopState T}
    (hloop : ∀ u, u ≠ t → LoopInv check p (q.thread u)) (hw : LoopInv check p w) (u : Option W) :
    LoopInv check p ((q.setThread t w).thread u) := by
  by_cases hu : u = t
  · subst hu
    rw [setThread_self]
    exact hw
  · rw [setThread_ne _ _ hu]
    exact hloop u hu

omit [DecidableEq W] in
theorem doneAll_le_outstanding (q : CCheckQueue T W) : q.doneAll ≤ q.outstanding :=
  le_add_left (sum_le_sum fun u _ => by
    rw [LoopState.holds, ← Multiset.coe_add]
    exact le_add_right le_rfl)

omit [DecidableEq W] in
theorem outstanding_eq_zero_iff (q : CCheckQueue T W) :
    q.outstanding = 0 ↔ q.queue = [] ∧ ∀ t, (q.thread t).holds = 0 := by
  rw [outstanding, add_eq_zero, Multiset.coe_eq_zero, Finset.sum_eq_zero_iff]
  simp only [mem_univ, true_implies]


omit [DecidableEq W] [Fintype W] in
theorem batchSize_pos (q : CCheckQueue T W) : 0 < q.batchSize :=
  lt_of_lt_of_le Nat.one_pos (le_max_left _ _)

omit [DecidableEq W] [Fintype W] in
/-- A batch is never larger than the queue it is taken from. -/
theorem batchSize_le (q : CCheckQueue T W) (h : q.queue ≠ []) : q.batchSize ≤ q.queue.length :=
  max_le (List.length_pos_iff.2 h)
    ((min_le_right _ _).trans ((Nat.div_le_self _ _).trans (Nat.mod_le _ _)))

end CCheckQueue

variable [Fintype W]

/-- What holds of the state under the mutex and of the ghost histories. -/
structure QueueInv (check : T → Bool) (q : CCheckQueue T W) : Prop where
  added : (q.added : Multiset T) = q.published + q.outstanding
  nTodo : q.nTodo = Multiset.card q.outstanding
  ran : (q.ran : Multiset T) ≤ q.published + q.doneAll
  fAllOk : q.fRet = none → (q.fAllOk = true ↔ ∀ c ∈ q.published, check c = true)
  returned : ∀ r, q.fRet = some r → (r = true ↔ ∀ c ∈ q.published, check c = true) ∧ q.fAllOk = true ∧ q.nTodo = 0
  master : (q.thread none).pc ≠ .outside → q.fRet = none

/-- The invariant of every reachable state. -/
structure Inv (check : T → Bool) (q : CCheckQueue T W) : Prop extends QueueInv check q where
  loop : ∀ t, LoopInv check q.published (q.thread t)

/-- The state in the while test of thread `t`: the thread holds nothing. -/
structure TestInv (check : T → Bool) (q : CCheckQueue T W) (t : Option W) : Prop extends QueueInv check q where
  others : ∀ u, u ≠ t → LoopInv check q.published (q.thread u)
  vChecks_nil : (q.thread t).vChecks = []
  done_nil : (q.thread t).done = []
  pc : (q.thread t).pc = .lock ∨ (q.thread t).pc = .wait

omit [DecidableEq W] in
theorem QueueInv.outstanding_eq_zero {check : T → Bool} {q : CCheckQueue T W} (h : QueueInv check q) {r : Bool}
    (hr : q.fRet = some r) : q.outstanding = 0 := by
  rw [← Multiset.card_eq_zero, ← h.nTodo]
  exact (h.returned r hr).2.2

omit [DecidableEq W] in
/-- While any check is outstanding, the master's `Wait` has not returned. -/
theorem QueueInv.fRet_none {check : T → Bool} {q : CCheckQueue T W} (h : QueueInv check q)
    (ho : q.outstanding ≠ 0) : q.fRet = none := by
  cases hr : q.fRet with
  | none => rfl
  | some r => exact absurd (h.outstanding_eq_zero hr) ho

omit [DecidableEq W] in
theorem QueueInv.fRet_none_of_holds {check : T → Bool} {q : CCheckQueue T W} (h : QueueInv check q)
    {t : Option W} (ht : (q.thread t).holds ≠ 0) : q.fRet = none :=
  h.fRet_none fun ho => ht (nonpos_iff_eq_zero.1 (ho ▸ holds_le_outstanding q t))

omit [DecidableEq W] in
theorem TestInv.not_outside {check : T → Bool} {q : CCheckQueue T W} {t : Option W} (h : TestInv check q t) :
    (q.thread t).pc ≠ .outside := by
  rcases h.pc with hpc | hpc <;> rw [hpc] <;> exact Pc.noConfusion

/-! ## The while test -/

section WhileTest

variable {check : T → Bool} {q : CCheckQueue T W} {t : Option W}

theorem returnLoop_inv (h : TestInv check q t) (ht : t = none) (hzero : q.nTodo = 0) :
    Inv check (q.returnLoop t) := by
  subst ht
  have hnone : q.fRet = none := h.master h.not_outside
  have hret : (q.returnLoop none).fRet = some q.fAllOk := rfl
  refine ⟨⟨?_, ?_, ?_, fun hr => absurd (hret.symm.trans hr) (Option.some_ne_none _), ?_, ?_⟩, ?_⟩
  · rw [returnLoop, outstanding_setThread_of_holds]
    · exact h.added
    · rfl
  · rw [returnLoop, outstanding_setThread_of_holds]
    · exact h.nTodo
    · rfl
  · rw [returnLoop, doneAll_setThread_of_done]
    · exact h.ran
    · rfl
  · intro r hr
    obtain rfl : q.fAllOk = r := Option.some.inj (hret.symm.trans hr)
    exact ⟨h.fAllOk hnone, rfl, hzero⟩
  · intro hpc
    exact absurd (by simp [returnLoop]) hpc
  · apply loop_setThread h.others
    exact LoopInv.of_idle h.vChecks_nil h.done_nil Pc.noConfusion Pc.noConfusion

theorem waitCond_inv (h : TestInv check q t) : Inv check (q.waitCond t) := by
  refine ⟨⟨?_, ?_, ?_, h.fAllOk, h.returned, ?_⟩, ?_⟩
  · rw [waitCond, outstanding_setThread_of_holds]
    · exact h.added
    · rfl
  · rw [waitCond, outstanding_setThread_of_holds]
    · exact h.nTodo
    · rfl
  · rw [waitCond, doneAll_setThread_of_done]
    · exact h.ran
    · rfl
  · exact master_setThread h.master fun _ => h.not_outside
  · apply loop_setThread h.others
    exact LoopInv.of_idle h.vChecks_nil h.done_nil Pc.noConfusion Pc.noConfusion

theorem takeBatch_inv (h : TestInv check q t) (hne : q.queue ≠ []) : Inv check (q.takeBatch t) := by
  -- the queue is not empty, so the master's `Wait` has not returned
  have hnone : q.fRet = none := by
    refine h.fRet_none fun ho => hne ?_
    have hle : (q.queue : Multiset T) ≤ q.outstanding := le_add_right le_rfl
    rw [ho, nonpos_iff_eq_zero, Multiset.coe_eq_zero] at hle
    exact hle
  -- the batch moves from the queue to the thread: nothing else is outstanding
  have ho : (q.takeBatch t).outstanding = q.outstanding := by
    rw [takeBatch, outstanding_setThread_of_empty]
    · simp only [outstanding, LoopState.holds, List.nil_append]
      rw [add_right_comm, Multiset.coe_add, List.take_append_drop]
    · simp [LoopState.holds, h.vChecks_nil, h.done_nil]
  refine ⟨⟨?_, ?_, ?_, h.fAllOk, h.returned, ?_⟩, ?_⟩
  · rw [ho]
    exact h.added
  · rw [ho]
    exact h.nTodo
  · rw [takeBatch, doneAll_setThread_of_done]
    · exact h.ran
    · exact h.done_nil.symm
  · exact master_setThread h.master fun _ => h.not_outside
  · apply loop_setThread h.others
    have hle := batchSize_le q hne
    refine ⟨fun h => absurd rfl h, fun h => absurd rfl h, Pc.noConfusion, fun _ => ⟨?_, batchSize_pos q⟩,
      fun _ c hc => absurd hc List.not_mem_nil, fun hf _ => ?_⟩
    · simp only [List.length_nil, List.length_drop, Nat.zero_add]
      omega
    · have hall : ¬ ∀ c ∈ q.published, check c = true := fun hall => by
        have := (h.fAllOk hnone).2 hall
        simp_all
      simpa using hall

theorem whileTest_inv (h : TestInv check q t) : Inv check (q.whileTest t) := by
  unfold whileTest
  split_ifs with hempty hret
  · obtain ⟨ht, hzero⟩ : t = none ∧ q.nTodo = 0 := by simpa using hret
    exact returnLoop_inv h ht hzero
  · exact waitCond_inv h
  · exact takeBatch_inv h (by simpa using hempty)

end WhileTest

/-! ## The head of the loop -/

section Publish

variable {check : T → Bool} {q : CCheckQueue T W} {t : Option W}

theorem publishBatch_test (h : Inv check q) (hpc : (q.thread t).pc = .lock) (hv : (q.thread t).vChecks = [])
    (hdone : (q.thread t).done ≠ []) : TestInv check (q.publishBatch t) t := by
  have hl := h.loop t
  have hholds : (q.thread t).holds = ↑(q.thread t).done := by simp [LoopState.holds, hv]
  have hnone : q.fRet = none := h.fRet_none_of_holds (by rw [hholds]; simpa using hdone)
  -- the batch leaves what is outstanding and what the threads have gone through
  have ho : (q.publishBatch t).outstanding + ↑(q.thread t).done = q.outstanding + 0 :=
    outstanding_setThread_eq _ _ _ hholds (by simp [LoopState.holds, hv])
  have hD : (q.publishBatch t).doneAll + ↑(q.thread t).done = q.doneAll + 0 :=
    doneAll_setThread_eq _ _ _ rfl rfl
  rw [add_zero] at ho hD
  refine ⟨⟨?_, ?_, ?_, ?_, ?_, ?_⟩, ?_, ?_, ?_, ?_⟩
  · show (q.added : Multiset T) = ↑(q.published ++ (q.thread t).done) + (q.publishBatch t).outstanding
    rw [h.added, ← ho, ← Multiset.coe_add, add_assoc, add_comm (q.publishBatch t).outstanding]
  · show q.nTodo - (q.thread t).nNow = Multiset.card (q.publishBatch t).outstanding
    rw [h.nTodo, ← ho, Multiset.card_add, hl.nNow_lock hpc, Multiset.coe_card, Nat.add_sub_cancel]
  · show (q.ran : Multiset T) ≤ ↑(q.published ++ (q.thread t).done) + (q.publishBatch t).doneAll
    rw [← Multiset.coe_add, add_assoc, add_comm ((q.thread t).done : Multiset T), hD]
    exact h.ran
  · intro _
    show (q.fAllOk && (q.thread t).fOk) = true ↔ ∀ c ∈ q.published ++ (q.thread t).done, check c = true
    cases hf : (q.thread t).fOk
    · -- a failed check is published, or was already
      obtain ⟨c, hc, hfail⟩ := hl.fOk_false hf (by rw [hholds]; simpa using hdone)
      simp only [Bool.and_false, Bool.false_eq_true, false_iff]
      exact fun hall => absurd (hall c hc) (by simp [hfail])
    · simp only [Bool.and_true, List.mem_append, h.fAllOk hnone]
      exact ⟨fun hall c hc => hc.elim (hall c) (hl.fOk_true hf c), fun hall c hc => hall c (.inl hc)⟩
  · intro r hr
    rw [show (q.publishBatch t).fRet = q.fRet from rfl, hnone] at hr
    cases hr
  · exact master_setThread h.master fun _ => by rw [hpc]; exact Pc.noConfusion
  · intro u hu
    rw [publishBatch, setThread_ne _ _ hu]
    exact (h.loop u).mono (List.subset_append_left _ _)
  · simp [publishBatch, hv]
  · simp [publishBatch]
  · exact .inl (by simp [publishBatch, hpc])

theorem publish_test (h : Inv check q) (hpc : (q.thread t).pc = .lock) : TestInv check (q.publish t) t := by
  have hl := h.loop t
  have hv : (q.thread t).vChecks = [] := hl.vChecks_nil (by rw [hpc]; exact Pc.noConfusion)
  have hn : (q.thread t).nNow = (q.thread t).done.length := hl.nNow_lock hpc
  unfold publish
  split_ifs with hnow
  · exact publishBatch_test h hpc hv fun hd => hnow (by rw [hn, hd]; rfl)
  · -- the first iteration: nothing to publish
    have hd : (q.thread t).done = [] := List.length_eq_zero_iff.1 (hn ▸ not_not.1 hnow)
    exact ⟨⟨h.added, h.nTodo, h.ran, h.fAllOk, h.returned, h.master⟩, fun u _ => h.loop u, hv, hd, .inl hpc⟩

omit [DecidableEq W] in
theorem wake_test (h : Inv check q) (hpc : (q.thread t).pc = .wait) :
    TestInv check { q with nIdle := q.nIdle - 1 } t := by
  have hl := h.loop t
  have hwork : (q.thread t).pc ≠ .work := by rw [hpc]; exact Pc.noConfusion
  have hlock : (q.thread t).pc ≠ .lock := by rw [hpc]; exact Pc.noConfusion
  exact ⟨⟨h.added, h.nTodo, h.ran, h.fAllOk, h.returned, h.master⟩, fun u _ => h.loop u, hl.vChecks_nil hwork,
    hl.done_nil hwork hlock, .inr hpc⟩

end Publish

/-! ## A thread's batch -/

section Run

variable {check : T → Bool} {q : CCheckQueue T W} {t : Option W}

theorem runCheck_inv (h : Inv check q) (hpc : (q.thread t).pc = .work) : Inv check (q.runCheck check t) := by
  have hl := h.loop t
  obtain ⟨hn, hpos⟩ := hl.nNow_work hpc
  have hout : ∀ w : LoopState T, w.pc = .work ∨ w.pc = .lock → w.pc ≠ .outside := by
    rintro w (hw | hw) <;> rw [hw] <;> exact Pc.noConfusion
  have hmaster := fun (w : LoopState T) (hw : w.pc = .work ∨ w.pc = .lock) =>
    master_setThread (t := t) (w := w) h.master fun _ => hout _ (.inl hpc)
  unfold runCheck
  split
  · -- the batch is through: back to the head of the loop
    rename_i hv
    refine ⟨⟨?_, ?_, ?_, h.fAllOk, h.returned, hmaster _ (.inr rfl)⟩, ?_⟩
    · rw [outstanding_setThread_of_holds]
      · exact h.added
      · rfl
    · rw [outstanding_setThread_of_holds]
      · exact h.nTodo
      · rfl
    · rw [doneAll_setThread_of_done]
      · exact h.ran
      · rfl
    · refine loop_setThread (fun u _ => h.loop u) ⟨fun _ => hv, fun _ hlock => absurd rfl hlock, fun _ => ?_,
        fun hw => Pc.noConfusion hw, hl.fOk_true, hl.fOk_false⟩
      simpa [hv] using hn
  · rename_i c rest hv
    have hholds : (q.thread t).holds = ↑((q.thread t).done ++ [c] ++ rest) := by simp [LoopState.holds, hv]
    have hne : (q.thread t).holds ≠ 0 := by simp [hholds]
    split_ifs with hf
    · -- the check runs: its result is the batch's from now on
      refine ⟨⟨?_, ?_, ?_, h.fAllOk, h.returned, hmaster _ (.inl hpc)⟩, ?_⟩
      · rw [outstanding_setThread_of_holds]
        · exact h.added
        · exact hholds.symm
      · rw [outstanding_setThread_of_holds]
        · exact h.nTodo
        · exact hholds.symm
      · rw [doneAll_setThread_append _ _ _ [c] rfl]
        show ((q.ran ++ [c] : List T) : Multiset T) ≤ ↑q.published + (q.doneAll + ↑[c])
        rw [← Multiset.coe_add, ← add_assoc]
        exact add_le_add_left h.ran _
      · refine loop_setThread (fun u _ => h.loop u) ⟨fun hw => absurd hpc hw, fun hw => absurd hpc hw,
          fun hw => absurd (hpc.symm.trans hw) Pc.noConfusion, fun _ => ⟨?_, hpos⟩, ?_, ?_⟩
        · simp only [List.length_append, List.length_singleton]
          rw [hn, hv, List.length_cons]
          omega
        · intro hc c' hc'
          rcases List.mem_append.1 hc' with hc' | hc'
          · exact hl.fOk_true hf c' hc'
          · rw [List.mem_singleton.1 hc']
            exact hc
        · intro hc _
          exact ⟨c, by simp, hc⟩
    · -- `fOk` is already false: the check is passed over
      have hf : (q.thread t).fOk = false := by simpa using hf
      refine ⟨⟨?_, ?_, ?_, h.fAllOk, h.returned, hmaster _ (.inl hpc)⟩, ?_⟩
      · rw [outstanding_setThread_of_holds]
        · exact h.added
        · exact hholds.symm
      · rw [outstanding_setThread_of_holds]
        · exact h.nTodo
        · exact hholds.symm
      · rw [doneAll_setThread_append _ _ _ [c] rfl, ← add_assoc]
        exact le_add_right h.ran
      · refine loop_setThread (fun u _ => h.loop u) ⟨fun hw => absurd hpc hw, fun hw => absurd hpc hw,
          fun hw => absurd (hpc.symm.trans hw) Pc.noConfusion, fun _ => ⟨?_, hpos⟩, ?_, ?_⟩
        · simp only [List.length_append, List.length_singleton]
          rw [hn, hv, List.length_cons]
          omega
        · intro hc
          exact absurd (hf.symm.trans hc) Bool.false_ne_true
        · intro _ _
          obtain ⟨c', hc', hfail⟩ := hl.fOk_false hf hne
          exact ⟨c', by simp only [List.mem_append] at hc' ⊢; tauto, hfail⟩

end Run

/-! ## The master outside `Loop` -/

section Master

variable {check : T → Bool} {q : CCheckQueue T W}

omit [DecidableEq W] in
theorem Add_inv (h : Inv check q) (hnone : q.fRet = none) (vChecks : List T) : Inv check (q.Add vChecks) := by
  unfold CCheckQueue.Add
  split_ifs with hempty
  · exact h
  -- the checks join the queue: they are added and outstanding
  have ho : ({ q with queue := q.queue ++ vChecks, nTodo := q.nTodo + vChecks.length,
                      added := q.added ++ vChecks } : CCheckQueue T W).outstanding = q.outstanding + ↑vChecks := by
    simp only [outstanding, ← Multiset.coe_add]
    ac_rfl
  refine ⟨⟨?_, ?_, h.ran, h.fAllOk, fun r hr => absurd (hnone.symm.trans hr) (by simp), h.master⟩, h.loop⟩
  · rw [ho, ← Multiset.coe_add, h.added, add_assoc]
  · rw [ho, Multiset.card_add, ← h.nTodo, Multiset.coe_card]

theorem wait_inv (h : Inv check q) (hpc : (q.thread none).pc = .outside) (hnone : q.fRet = none) :
    Inv check (q.setThread none LoopState.start) := by
  have hl := h.loop none
  have hwork : (q.thread none).pc ≠ .work := by rw [hpc]; exact Pc.noConfusion
  have hlock : (q.thread none).pc ≠ .lock := by rw [hpc]; exact Pc.noConfusion
  have hv := hl.vChecks_nil hwork
  have hd := hl.done_nil hwork hlock
  refine ⟨⟨?_, ?_, ?_, h.fAllOk, h.returned, fun _ => hnone⟩, loop_setThread (fun u _ => h.loop u) LoopInv.start⟩
  · rw [outstanding_setThread_of_holds]
    · exact h.added
    · simp [LoopState.holds, LoopState.start, hv, hd]
  · rw [outstanding_setThread_of_holds]
    · exact h.nTodo
    · simp [LoopState.holds, LoopState.start, hv, hd]
  · rw [doneAll_setThread_of_done]
    · exact h.ran
    · exact hd.symm

omit [DecidableEq W] in
/-- A new `CCheckQueueControl` once the last `Wait` has returned: nothing is
outstanding, and the histories start again. -/
theorem control_inv (h : Inv check q) {r : Bool} (hr : q.fRet = some r) :
    Inv check { q with added := [], published := [], ran := [], fRet := none } := by
  have ho := h.outstanding_eq_zero hr
  have hholds : ∀ u, (q.thread u).holds = 0 := fun u =>
    nonpos_iff_eq_zero.1 (ho ▸ holds_le_outstanding q u)
  refine ⟨⟨?_, h.nTodo, Multiset.zero_le _, fun _ => ?_, fun _ hr' => (by cases hr'), fun _ => rfl⟩,
    fun u => ⟨(h.loop u).vChecks_nil, (h.loop u).done_nil, (h.loop u).nNow_lock, (h.loop u).nNow_work,
      (h.loop u).fOk_true, fun _ hne => absurd (hholds u) hne⟩⟩
  · show ((([] : List T)) : Multiset T) = ↑([] : List T) + q.outstanding
    rw [ho]
    rfl
  · simpa using (h.returned r hr).2.1

end Master

omit [DecidableEq W] in
theorem init_inv (check : T → Bool) (nBatchSize : Nat) : Inv check (init nBatchSize : CCheckQueue T W) := by
  have hthread : ∀ u, LoopInv check [] ((init nBatchSize : CCheckQueue T W).thread u) := by
    rintro (_ | _)
    · exact LoopInv.of_idle rfl rfl Pc.noConfusion Pc.noConfusion
    · exact LoopInv.start
  have hholds : ∀ u, ((init nBatchSize : CCheckQueue T W).thread u).holds = 0 := by
    rintro (_ | _) <;> rfl
  have ho : (init nBatchSize : CCheckQueue T W).outstanding = 0 := by
    simp only [outstanding, hholds, sum_const_zero]
    rfl
  refine ⟨⟨?_, ?_, Multiset.zero_le _, fun _ => ?_, fun _ hr => (by cases hr), fun _ => rfl⟩, hthread⟩
  · rw [ho]
    rfl
  · rw [ho]
    rfl
  · simp [init]

/-- The step lemma: every event keeps the invariant. -/
theorem next_inv {check : T → Bool} {q q' : CCheckQueue T W} {e : Event T W} (h : Inv check q)
    (he : next check q e = some q') : Inv check q' := by
  cases e with
  | control =>
    simp only [next] at he
    split_ifs at he with hsome
    obtain ⟨r, hr⟩ := Option.isSome_iff_exists.1 hsome
    cases he
    exact control_inv h hr
  | add vChecks =>
    simp only [next] at he
    split_ifs at he with hpc
    cases he
    exact Add_inv h hpc.2 vChecks
  | wait =>
    simp only [next] at he
    split_ifs at he with hpc
    cases he
    exact wait_inv h hpc.1 hpc.2
  | lock t =>
    simp only [next] at he
    split_ifs at he with hpc
    cases he
    exact whileTest_inv (publish_test h hpc)
  | wake t =>
    simp only [next] at he
    split_ifs at he with hpc
    cases he
    exact whileTest_inv (wake_test h hpc)
  | run t =>
    simp only [next] at he
    split_ifs at he with hpc
    cases he
    exact runCheck_inv h hpc

/-- The run lemma: every state reachable from the queue as constructed
satisfies the invariant. -/
theorem Reachable.inv {check : T → Bool} {nBatchSize : Nat} {q : CCheckQueue T W}
    (h : Reachable check (CCheckQueue.init nBatchSize) q) : Inv check q := by
  induction h with
  | init => exact init_inv check nBatchSize
  | step _ _ he ih => exact next_inv ih he


omit [DecidableEq W] in
/-- At every reachable state, no check has run more often than it was added. -/
theorem Inv.ran_le_added {check : T → Bool} {q : CCheckQueue T W} (h : Inv check q) :
    (q.ran : Multiset T) ≤ q.added := by
  rw [h.added]
  exact h.ran.trans (add_le_add_right (doneAll_le_outstanding q) _)

/-- What `Wait` returns, over every interleaving of the master and the
workers: once the master's `Wait` has returned `fRet`, no check is queued or
in a thread's batch, `fRet` says whether every check added since the
`CCheckQueueControl` was made passes, no check ran more often than it was
added, and `fAllOk` is reset for the next block. -/
theorem Wait_result {check : T → Bool} {nBatchSize : Nat} {q : CCheckQueue T W}
    (hq : Reachable check (CCheckQueue.init nBatchSize) q) {fRet : Bool} (hret : q.fRet = some fRet) :
    (fRet = true ↔ ∀ c ∈ q.added, check c = true) ∧ (q.ran : Multiset T) ≤ q.added ∧
      q.queue = [] ∧ (∀ t, (q.thread t).pc ≠ .work) ∧ q.nTodo = 0 ∧ q.fAllOk = true := by
  have h := hq.inv
  obtain ⟨hqueue, hholds⟩ := (outstanding_eq_zero_iff q).1 (h.outstanding_eq_zero hret)
  obtain ⟨hr, hok, hzero⟩ := h.returned fRet hret
  -- every check added has been published
  have hperm : q.added.Perm q.published := by
    rw [← Multiset.coe_eq_coe, h.added, h.outstanding_eq_zero hret, add_zero]
  refine ⟨?_, h.ran_le_added, hqueue, fun t hw => ?_, hzero, hok⟩
  · rw [hr]
    exact ⟨fun hall c hc => hall c (hperm.mem_iff.1 hc), fun hall c hc => hall c (hperm.mem_iff.2 hc)⟩
  · -- a thread running a batch would hold its checks
    obtain ⟨hn, hpos⟩ := (h.loop t).nNow_work hw
    have := hholds t
    simp only [LoopState.holds, Multiset.coe_eq_zero, List.append_eq_nil_iff] at this
    rw [this.1, this.2] at hn
    simp at hn
    omega

/-! ## Progress

The master's `Wait` can always return: from every reachable state some
interleaving of the threads brings it back (`Wait_returns`), with no check
added. The schedule runs a batch in hand on, lets a worker at the loop's head
publish, and otherwise moves the master. The measure it lowers counts four
for each queued check and a weight for each thread: two and one for each
check still to go through for a batch in hand, one at the loop's head, two
for the master before `Wait`. A batch of `k` checks taken off the queue costs
`4 * k` and weighs `2 + k`. The condition variable promises no fairness, so
this is the form progress takes: no reachable state is stuck away from the
return. `QueueAnswers` is what `Wait` answers with some set of worker
threads, and by progress and `Wait_result` that is the conjunction of the
checks for every set (`queueAnswers_all`, `QueueAnswers.eq_all`). -/

section Progress

omit [Fintype W] in
theorem Reachable.trans {check : T → Bool} {q₀ q q' : CCheckQueue T W} (h : Reachable check q₀ q)
    (h' : Reachable check q q') : Reachable check q₀ q' := by
  induction h' with
  | init => exact h
  | step e _ he ih => exact .step e ih he

/-- A thread's part in the measure of `Wait_returns`. -/
def LoopState.weight (w : LoopState T) : Nat :=
  match w.pc with
  | .outside => 2
  | .lock => 1
  | .wait => 0
  | .work => 2 + w.vChecks.length

namespace CCheckQueue

/-- The measure of `Wait_returns`. -/
def measure (q : CCheckQueue T W) : Nat := 4 * q.queue.length + ∑ t, (q.thread t).weight

theorem measure_setThread (q : CCheckQueue T W) (t : Option W) (w : LoopState T) :
    (q.setThread t w).measure + (q.thread t).weight = q.measure + w.weight := by
  simp only [measure, setThread, add_assoc, sum_update]

theorem measure_setThread_lt (q : CCheckQueue T W) {t : Option W} {w : LoopState T}
    (hw : w.weight < (q.thread t).weight) : (q.setThread t w).measure < q.measure := by
  have := measure_setThread q t w
  omega

theorem measure_waitCond (q : CCheckQueue T W) (t : Option W) :
    (q.waitCond t).measure + (q.thread t).weight = q.measure :=
  measure_setThread { q with nIdle := q.nIdle + 1 } t _

theorem measure_takeBatch (q : CCheckQueue T W) (t : Option W) (hne : q.queue ≠ []) :
    (q.takeBatch t).measure + (q.thread t).weight < q.measure := by
  have hk := batchSize_pos q
  have hle := batchSize_le q hne
  -- the batch leaves the queue (four for each check) and is the thread's
  -- (two and one for each check)
  have hq : ({ q with queue := q.queue.take (q.queue.length - q.batchSize) } : CCheckQueue T W).measure +
      4 * q.batchSize = q.measure := by
    simp only [measure, List.length_take]
    omega
  have hw : LoopState.weight ⟨.work, q.queue.drop (q.queue.length - q.batchSize), q.batchSize, q.fAllOk, []⟩ =
      2 + q.batchSize := by
    simp only [LoopState.weight, List.length_drop]
    omega
  have h := measure_setThread { q with queue := q.queue.take (q.queue.length - q.batchSize) } t
    ⟨.work, q.queue.drop (q.queue.length - q.batchSize), q.batchSize, q.fAllOk, []⟩
  rw [hw] at h
  unfold takeBatch
  dsimp only at h ⊢
  omega

omit [Fintype W] in
@[simp] theorem publish_added (q : CCheckQueue T W) (t : Option W) : (q.publish t).added = q.added := by
  unfold publish
  split_ifs <;> rfl

omit [Fintype W] in
@[simp] theorem whileTest_added (q : CCheckQueue T W) (t : Option W) : (q.whileTest t).added = q.added := by
  unfold whileTest
  split_ifs <;> rfl

omit [Fintype W] in
@[simp] theorem runCheck_added (check : T → Bool) (q : CCheckQueue T W) (t : Option W) :
    (q.runCheck check t).added = q.added := by
  unfold runCheck
  split
  · rfl
  · split_ifs <;> rfl

omit [Fintype W] in
/-- Publishing a batch leaves every thread where it is, and its weight. -/
theorem weight_publish (q : CCheckQueue T W) (t u : Option W) :
    ((q.publish t).thread u).weight = (q.thread u).weight := by
  unfold publish publishBatch
  split_ifs
  · by_cases hu : u = t
    · subst hu
      rw [setThread_self]
      rfl
    · rw [setThread_ne _ _ hu]
  · rfl

theorem measure_publish (q : CCheckQueue T W) (t : Option W) : (q.publish t).measure = q.measure := by
  simp only [measure, weight_publish]
  unfold publish publishBatch
  split_ifs <;> rfl

/-- A check of thread `t`'s batch, or the end of the batch, lowers `t`'s weight. -/
theorem measure_runCheck (check : T → Bool) (q : CCheckQueue T W) {t : Option W} (hpc : (q.thread t).pc = .work) :
    (q.runCheck check t).measure < q.measure := by
  have hw : (q.thread t).weight = 2 + (q.thread t).vChecks.length := by simp [LoopState.weight, hpc]
  unfold runCheck
  split
  · rename_i hv
    apply measure_setThread_lt
    simp [LoopState.weight, hpc, hv]
  · rename_i c rest hv
    have hrest : LoopState.weight { q.thread t with vChecks := rest } < (q.thread t).weight := by
      simp [LoopState.weight, hpc, hv]
    split_ifs
    · exact measure_setThread_lt { q with ran := q.ran ++ [c] } hrest
    · exact measure_setThread_lt q hrest

/-- The while test ends the master's `Wait` or lowers the measure, unless it
sends a thread of weight zero back to `cond.wait`. -/
theorem whileTest_advances (q : CCheckQueue T W) (t : Option W)
    (hw : q.queue = [] → (t = none → q.nTodo ≠ 0) → 0 < (q.thread t).weight) :
    (q.whileTest t).fRet.isSome ∨ (q.whileTest t).measure < q.measure := by
  unfold whileTest
  split_ifs with hempty hret
  · exact .inl rfl
  · have hpos := hw (by simpa using hempty) (by simpa using hret)
    have := measure_waitCond q t
    exact .inr (by omega)
  · have := measure_takeBatch q t (by simpa using hempty)
    exact .inr (by omega)

/-- A thread at the head of the loop publishes its batch and runs the while
test: the master's `Wait` ends or the measure drops. -/
theorem lock_advances (q : CCheckQueue T W) {t : Option W} (hl : (q.thread t).pc = .lock) :
    ((q.publish t).whileTest t).fRet.isSome ∨ ((q.publish t).whileTest t).measure < q.measure := by
  rw [← measure_publish q t]
  apply whileTest_advances
  intro _ _
  rw [weight_publish]
  simp [LoopState.weight, hl]

end CCheckQueue

variable {check : T → Bool} {q : CCheckQueue T W}

omit [DecidableEq W] in
/-- With the queue empty and no thread running a batch or at the loop's
head, nothing is left to do. -/
theorem Inv.nTodo_eq_zero (h : Inv check q) (hq : q.queue = [])
    (hidle : ∀ u, (q.thread u).pc ≠ .work ∧ (q.thread u).pc ≠ .lock) : q.nTodo = 0 := by
  rw [h.nTodo, Multiset.card_eq_zero, outstanding_eq_zero_iff]
  refine ⟨hq, fun u => ?_⟩
  have hl := h.loop u
  simp [LoopState.holds, hl.vChecks_nil (hidle u).1, hl.done_nil (hidle u).1 (hidle u).2]

/-- The step lemma of progress: while the master's `Wait` has not returned,
some thread can move so that it returns or the measure drops. -/
theorem Inv.exists_step (h : Inv check q) (hnone : q.fRet = none) :
    ∃ e q', next check q e = some q' ∧ q'.added = q.added ∧ (q'.fRet.isSome ∨ q'.measure < q.measure) := by
  -- the master calls `Wait`
  by_cases hout : (q.thread none).pc = .outside
  · refine ⟨.wait, q.setThread none LoopState.start, by simp [next, hout, hnone], rfl, .inr (measure_setThread_lt q ?_)⟩
    simp [LoopState.weight, LoopState.start, hout]
  -- a thread goes on through its batch
  by_cases hwork : ∃ t, (q.thread t).pc = .work
  · obtain ⟨t, ht⟩ := hwork
    exact ⟨.run t, q.runCheck check t, by simp [next, ht], runCheck_added check q t, .inr (measure_runCheck check q ht)⟩
  simp only [not_exists] at hwork
  -- a worker at the head of the loop publishes its batch
  by_cases hlock : ∃ w : W, (q.thread (some w)).pc = .lock
  · obtain ⟨w, hw⟩ := hlock
    exact ⟨.lock (some w), _, by simp [next, hw], by simp, lock_advances q hw⟩
  simp only [not_exists] at hlock
  -- otherwise the master is at the head of the loop or waiting
  cases hm : (q.thread none).pc with
  | outside => exact absurd hm hout
  | work => exact absurd hm (hwork none)
  | lock => exact ⟨.lock none, _, by simp [next, hm], by simp, lock_advances q hm⟩
  | wait =>
    refine ⟨.wake none, { q with nIdle := q.nIdle - 1 }.whileTest none, by simp [next, hm], whileTest_added _ none, ?_⟩
    apply whileTest_advances { q with nIdle := q.nIdle - 1 } none
    -- no thread holds a check, so an empty queue ends the `Wait`
    intro hq hzero
    refine absurd (h.nTodo_eq_zero hq fun u => ?_) (hzero rfl)
    rcases u with _ | w
    · rw [hm]
      exact ⟨Pc.noConfusion, Pc.noConfusion⟩
    · exact ⟨hwork (some w), hlock w⟩

/-- By induction on the measure: the steps of `Inv.exists_step` lead to a
state where the master's `Wait` has returned. -/
theorem Inv.Wait_returns_of_measure : ∀ (n : Nat) (q : CCheckQueue T W), Inv check q → q.measure < n →
    ∃ q', Reachable check q q' ∧ q'.added = q.added ∧ q'.fRet.isSome := by
  intro n
  induction n with
  | zero => exact fun _ _ hn => absurd hn (Nat.not_lt_zero _)
  | succ n ih =>
    intro q h hn
    cases hret : q.fRet with
    | some _ => exact ⟨q, .init, rfl, by rw [hret]; rfl⟩
    | none =>
      obtain ⟨e, q₁, he, hadd, hadv⟩ := h.exists_step hret
      rcases hadv with hdone | hlt
      · exact ⟨q₁, .step e .init he, hadd, hdone⟩
      · obtain ⟨q', hr, hadd', hdone⟩ := ih q₁ (next_inv h he) (by omega)
        exact ⟨q', Reachable.trans (.step e .init he) hr, hadd'.trans hadd, hdone⟩

/-- Progress: from every reachable state, some interleaving of the threads
brings the master back from `Wait`, with no further check added. -/
theorem Wait_returns {nBatchSize : Nat} (hq : Reachable check (init nBatchSize) q) :
    ∃ q', Reachable check q q' ∧ q'.added = q.added ∧ q'.fRet.isSome :=
  Inv.Wait_returns_of_measure _ q hq.inv (Nat.lt_succ_self q.measure)

/-- The value the master's `Wait` returned is the conjunction of the checks added. -/
theorem Wait_result_eq_all {nBatchSize : Nat} (hq : Reachable check (init nBatchSize) q) {fRet : Bool}
    (hret : q.fRet = some fRet) : fRet = q.added.all check :=
  Bool.eq_iff_iff.2 ((Wait_result hq hret).1.trans List.all_eq_true.symm)

omit [DecidableEq W] [Fintype W] in
theorem Add_added (q : CCheckQueue T W) (vChecks : List T) : (q.Add vChecks).added = q.added ++ vChecks := by
  unfold CCheckQueue.Add
  split_ifs with hempty
  · rw [List.isEmpty_iff.1 hempty, List.append_nil]
  · rfl

/-- What `CCheckQueueControl::Wait` answers with the worker threads `W`: for
every list of checks, what the master's `Wait` returned in a run of the queue
in which those are the checks added. -/
def QueueAnswers (check : T → Bool) (W : Type) [DecidableEq W] (nBatchSize : Nat) (Wait : List T → Bool) : Prop :=
  ∀ vChecks, ∃ q : CCheckQueue T W, Reachable check (init nBatchSize) q ∧ q.added = vChecks ∧
    q.fRet = some (Wait vChecks)

/-- Whatever the threads and the interleaving, the queue answers whether all
the checks pass. -/
theorem QueueAnswers.eq_all {nBatchSize : Nat} {Wait : List T → Bool} (h : QueueAnswers check W nBatchSize Wait)
    (vChecks : List T) : Wait vChecks = vChecks.all check := by
  obtain ⟨q, hq, hadd, hret⟩ := h vChecks
  rw [Wait_result_eq_all hq hret, hadd]

/-- The queue answers for any worker threads: from the queue as constructed,
the master adds the checks and its `Wait` returns. -/
theorem queueAnswers_all (nBatchSize : Nat) : QueueAnswers check W nBatchSize (·.all check) := by
  intro vChecks
  have hadd : Reachable check (init nBatchSize) ((init nBatchSize : CCheckQueue T W).Add vChecks) :=
    .step (.add vChecks) .init rfl
  obtain ⟨q, hq, hadded, hsome⟩ := Wait_returns hadd
  obtain ⟨fRet, hret⟩ := Option.isSome_iff_exists.1 hsome
  have hq' := Reachable.trans hadd hq
  have hv : q.added = vChecks := by
    rw [hadded, Add_added]
    exact List.nil_append vChecks
  refine ⟨q, hq', hv, ?_⟩
  rw [hret, Wait_result_eq_all hq' hret, hv]

end Progress

end Tapyrus.CheckQueue

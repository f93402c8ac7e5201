import Rewards.Proofs.Pipeline.Parties

/-!
# Where accepted jobs are

A job that the queue has accepted is in the buffer, with a worker who attempts it or pauses with it,
or with a retry, which sleeps or waits in line. Those in line who are no retries are calls, and the
jobs that these bring have not been accepted yet. The lemmas count the orders in a place that
satisfy some condition `q`, and say how the functions of the pipeline change this number.
-/

namespace Rewards.Pipeline

/-- A place for jobs that the queue has accepted. -/
inductive Place where
  | buffer
  | attempt
  | pause
  | retry
deriving DecidableEq

/-- What is counted in one place counts there and nowhere else. -/
def Place.part (target place : Place) (counts : Bool) : Nat :=
  if place = target then counts.toNat else 0

@[simp] theorem Place.part_self (place : Place) (counts : Bool) :
    Place.part place place counts = counts.toNat := if_pos rfl

@[simp] theorem Place.part_false (target place : Place) : Place.part target place false = 0 := by
  unfold Place.part
  split <;> rfl

/-- The order that a worker attempts or pauses with. -/
def Activity.orderIn : Place → Activity → Option Order
  | .attempt, .attempting order => some order
  | .pause, .pausing order => some order
  | _, _ => none

namespace State

/-- The orders in a place, if these are the calls that go on. -/
def ordersIn (p : State) (calls : List Nat) : Place → List Order
  | .buffer => p.queue.buffer
  | .attempt => p.workers.filterMap (·.2.orderIn .attempt)
  | .pause => p.workers.filterMap (·.2.orderIn .pause)
  | .retry =>
      p.retries.map (·.2) ++ (p.queue.waiting.filter (·.id ∉ calls)).map (·.order)

/-- How many orders there are in a place. -/
def count (p : State) (calls : List Nat) (place : Place) (q : Order → Bool) : Nat :=
  (p.ordersIn calls place).countP q

variable {p : State} (calls : List Nat) (place : Place) (q : Order → Bool)

/-- The orders of workers are counted worker by worker. -/
theorem count_workers (p : State) (calls : List Nat) (q : Order → Bool) :
    p.count calls .attempt q = p.workers.countP (fun w => (w.2.orderIn .attempt).any q) ∧
      p.count calls .pause q = p.workers.countP (fun w => (w.2.orderIn .pause).any q) := by
  have hworkers (place : Place) : (p.workers.filterMap (·.2.orderIn place)).countP q =
      p.workers.countP (fun w => (w.2.orderIn place).any q) := by
    rw [List.countP_filterMap]
    refine List.countP_congr fun w _ => ?_
    cases w.2.orderIn place <;> simp
  exact ⟨hworkers .attempt, hworkers .pause⟩

/-- The orders of retries are counted among those that sleep and those in line. -/
theorem count_retries (p : State) (calls : List Nat) (q : Order → Bool) :
    p.count calls .retry q = p.retries.countP (fun r => q r.2) +
      p.queue.waiting.countP (fun x => q x.order && decide (x.id ∉ calls)) := by
  rw [count, ordersIn, List.countP_append, List.countP_map, List.countP_map, List.countP_filter]
  rfl

/-! ## The buffer -/

/-- An order that is put into the buffer is one more there. -/
theorem count_push (order : Order) :
    (p.onQueue (·.push order)).count calls place q =
      p.count calls place q + Place.part .buffer place (q order) := by
  cases place with
  | buffer =>
      show (p.queue.buffer ++ [order]).countP q = p.queue.buffer.countP q + _
      rw [List.countP_append, count_singleton, Place.part_self]
  | attempt | pause | retry => rfl

/-- An order that is taken from the buffer is one less there. -/
theorem count_take {order : Order} {rest : List Order} (hbuffer : p.queue.buffer = order :: rest) :
    (p.onQueue fun queue => { queue with buffer := rest }).count calls place q +
      Place.part .buffer place (q order) = p.count calls place q := by
  cases place with
  | buffer =>
      show rest.countP q + _ = p.queue.buffer.countP q
      rw [hbuffer, ← List.singleton_append, List.countP_append, count_singleton, Place.part_self,
        Nat.add_comm]
  | attempt | pause | retry => rfl

/-! ## Workers -/

/-- A worker without an order makes no difference. -/
theorem count_add_worker (id : Nat) :
    (p.addWorker id).count calls place q = p.count calls place q := by
  cases place with
  | buffer | retry => rfl
  | attempt | pause => simp [count, ordersIn, addWorker, Activity.orderIn]

/-- A worker who does something else changes places with himself. -/
theorem count_set_activity {id : Nat} {activity : Activity}
    (hfound : p.activity? id = some activity) (hunique : p.tally (Party.isCalled id) ≤ 1)
    (next : Activity) :
    (p.setActivity id next).count calls place q + ((activity.orderIn place).any q).toNat =
      p.count calls place q + ((next.orderIn place).any q).toNat := by
  have hreplace := count_replace Prod.fst (mem_of_activity hfound) (workers_unique hunique)
    (id, next) fun w => (w.2.orderIn place).any q
  cases place with
  | buffer | retry => rfl
  | attempt =>
      rw [(count_workers _ calls q).1, (count_workers _ calls q).1]
      exact hreplace
  | pause =>
      rw [(count_workers _ calls q).2, (count_workers _ calls q).2]
      exact hreplace

/-- A worker who is taken away takes the order along. -/
theorem count_remove_worker {id : Nat} {activity : Activity}
    (hfound : p.activity? id = some activity) (hunique : p.tally (Party.isCalled id) ≤ 1) :
    (p.removeWorker id).count calls place q + ((activity.orderIn place).any q).toNat =
      p.count calls place q := by
  have hremove := count_remove Prod.fst (mem_of_activity hfound) (workers_unique hunique)
    fun w => (w.2.orderIn place).any q
  cases place with
  | buffer | retry => rfl
  | attempt =>
      rw [(count_workers _ calls q).1, (count_workers _ calls q).1]
      exact hremove
  | pause =>
      rw [(count_workers _ calls q).2, (count_workers _ calls q).2]
      exact hremove

/-! ## Retries that sleep -/

/-- A retry that begins to sleep is one more. -/
theorem count_add_retry (id : Nat) (order : Order) :
    ({ p with retries := p.retries ++ [(id, order)] } : State).count calls place q =
      p.count calls place q + Place.part .retry place (q order) := by
  cases place with
  | buffer | attempt | pause => rfl
  | retry =>
      rw [count_retries, count_retries, List.countP_append, count_singleton, Place.part_self]
      exact Nat.add_right_comm _ _ _

/-- A retry that is taken away is one less. -/
theorem count_remove_retry {id : Nat} {order : Order} (hfound : p.retryOrder? id = some order)
    (hunique : p.tally (Party.isCalled id) ≤ 1) :
    (p.removeRetry id).count calls place q + Place.part .retry place (q order) =
      p.count calls place q := by
  cases place with
  | buffer | attempt | pause => rfl
  | retry =>
      have hremove := count_remove Prod.fst (mem_of_retry_order hfound) (retries_unique hunique)
        fun r => q r.2
      rw [count_retries, count_retries, Place.part_self, ← hremove]
      exact Nat.add_right_comm _ _ _

/-! ## Those in line -/

/-- Somebody who gets in line is one more retry, unless it is a call. -/
theorem count_await (sender : Sender) :
    (p.onQueue (·.await sender)).count calls place q = p.count calls place q +
      Place.part .retry place (q sender.order && decide (sender.id ∉ calls)) := by
  cases place with
  | buffer | attempt | pause => rfl
  | retry =>
      rw [count_retries, count_retries]
      show _ + (p.queue.waiting ++ [sender]).countP _ = _
      rw [List.countP_append, count_singleton, Place.part_self]
      exact (Nat.add_assoc _ _ _).symm

/-- Somebody who leaves the line is one retry less, unless it is a call. -/
theorem count_leave {sender : Sender} (hsender : sender ∈ p.queue.waiting)
    (hunique : p.tally (Party.isCalled sender.id) ≤ 1) :
    (p.onQueue (·.leave sender.id)).count calls place q +
      Place.part .retry place (q sender.order && decide (sender.id ∉ calls)) =
        p.count calls place q := by
  cases place with
  | buffer | attempt | pause => rfl
  | retry =>
      have hremove := count_remove Sender.id hsender (waiting_unique hunique)
        fun x => q x.order && decide (x.id ∉ calls)
      rw [count_retries, count_retries, Place.part_self, ← hremove]
      exact Nat.add_assoc _ _ _

/-- It matters which of those in line are calls, and nothing else of the calls. -/
theorem count_calls {other : List Nat}
    (hsame : ∀ x ∈ p.queue.waiting, x.id ∈ other ↔ x.id ∈ calls) :
    p.count other place q = p.count calls place q := by
  cases place with
  | buffer | attempt | pause => rfl
  | retry =>
      rw [count_retries, count_retries]
      congr 1
      refine List.countP_congr fun x hx => ?_
      simp [hsame x hx]

/-- A call of nobody in line makes no difference when it begins. -/
theorem count_with_call {id : Nat} (hother : ∀ x ∈ p.queue.waiting, x.id ≠ id) :
    p.count (calls ++ [id]) place q = p.count calls place q := by
  refine count_calls _ _ _ fun x hx => ?_
  simp [hother x hx]

/-- A call of nobody in line makes no difference when it is over. -/
theorem count_without_call {id : Nat} (hother : ∀ x ∈ p.queue.waiting, x.id ≠ id) :
    p.count (calls.filter (· != id)) place q = p.count calls place q := by
  refine count_calls _ _ _ fun x hx => ?_
  simp [hother x hx]

/-- Somebody leaves the line, and his call, if there is one, is over. -/
theorem count_leave_call {sender : Sender} (hsender : sender ∈ p.queue.waiting)
    (hunique : p.tally (Party.isCalled sender.id) ≤ 1) :
    (p.onQueue (·.leave sender.id)).count (calls.filter (· != sender.id)) place q +
      Place.part .retry place (q sender.order && decide (sender.id ∉ calls)) =
        p.count calls place q := by
  have hother : ∀ x ∈ (p.onQueue (·.leave sender.id)).queue.waiting, x.id ≠ sender.id := by
    intro x hx
    simpa using (List.mem_filter.mp hx).2
  rw [count_without_call _ _ _ hother]
  exact count_leave calls place q hsender hunique

end State

namespace World

/-- The orders in a place. -/
def ordersIn (s : World) (place : Place) : List Order := s.pipeline.ordersIn s.calls place

/-- How many orders there are in a place. -/
def count (s : World) (place : Place) (q : Order → Bool) : Nat := (s.ordersIn place).countP q

theorem count_eq (s : World) (place : Place) (q : Order → Bool) :
    s.count place q = s.pipeline.count s.calls place q := rfl

/-- The orders of all jobs that the queue has accepted. -/
def accepted (s : World) : List Order :=
  s.ordersIn .buffer ++ s.ordersIn .attempt ++ s.ordersIn .pause ++ s.ordersIn .retry

/-- The jobs that calls are bringing are counted among those on their way and those in line. -/
def broughtOf (s : World) (number : OrderNumber) : Nat :=
  s.arriving.countP (·.order.number == number) +
    (s.pipeline.queue.waiting.filter (·.id ∈ s.calls)).countP (·.order.number == number)

/-- All jobs for a number are accepted, or a call is bringing them. -/
theorem jobs_eq (s : World) (number : OrderNumber) :
    s.jobsOf number = s.accepted.countP (·.number == number) + s.broughtOf number := by
  have hsender : (Party.hasOrder number ∘ Party.ofSender) =
      fun x : Sender => x.order.number == number := by
    funext x
    exact Party.has_order_some _ _ _
  have horder : (Party.hasOrder number ∘ Party.ofOrder) =
      fun order : Order => order.number == number := by
    funext order
    exact Party.has_order_some _ _ _
  have hretry : (Party.hasOrder number ∘ Party.ofRetry) =
      fun r : Nat × Order => r.2.number == number := by
    funext r
    exact Party.has_order_some _ _ _
  -- A worker has the order of an attempt, that of a pause, or none.
  have hworkers : s.pipeline.workers.countP (Party.hasOrder number ∘ .ofWorker) =
      s.count .attempt (·.number == number) + s.count .pause (·.number == number) := by
    rw [count, count, ordersIn, ordersIn, ← State.count, ← State.count,
      (State.count_workers _ _ _).1, (State.count_workers _ _ _).2]
    induction s.pipeline.workers with
    | nil => rfl
    | cons w workers ih =>
        obtain ⟨id, activity⟩ := w
        simp only [List.countP_cons, ih]
        cases activity <;>
          simp [Party.ofWorker, Activity.order?, Activity.orderIn] <;> omega
  have hline := List.countP_eq_countP_filter_add s.pipeline.queue.waiting
    (·.order.number == number) (fun x => decide (x.id ∈ s.calls))
  have hretries : s.count .retry (·.number == number) =
      s.pipeline.retries.countP (·.2.number == number) +
        (s.pipeline.queue.waiting.filter fun x => !decide (x.id ∈ s.calls)).countP
          (·.order.number == number) := by
    rw [count, ordersIn, ← State.count, State.count_retries, List.countP_filter]
    simp only [decide_not]
  rw [jobsOf, tally, parties, List.countP_append, List.countP_map, hsender, ← State.tally,
    State.tally_eq, hsender, horder, hretry, hworkers, hline, accepted, List.countP_append,
    List.countP_append, List.countP_append]
  show _ = s.count .buffer _ + s.count .attempt _ + s.count .pause _ + s.count .retry _ + _
  rw [hretries, broughtOf]
  show _ + (_ + s.count .buffer _ + _ + _) = _
  omega

end World

end Rewards.Pipeline

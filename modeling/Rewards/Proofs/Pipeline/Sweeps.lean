import Rewards.Pipeline.Sweep
import Rewards.Proofs.Pipeline.Offers
import Rewards.Proofs.Service.InMemory
import Rewards.Proofs.Store.Calls
import Rewards.Proofs.Store.LifeCycle
import Rewards.Proofs.Store.Listings

/-!
# What a sweep queues

A sweep brings the unfinished orders of a store to the queue. Meanwhile workers may receive orders,
the queue may be stopped and the shutdown signal may be given, at any point. `Covers` says what is
true at every point: the orders that the sweep has behind it have been queued, except those that
were tracked before, and the order that it is in line with is tracked as well.
-/

namespace Rewards.Pipeline

open InMemory (perform)

/-! ## The orders that are to be queued -/

/-- The orders whose numbers are not tracked. -/
def State.untracked (s : State) (orders : List Order) : List Order :=
  orders.filter fun order => !s.queue.isTracked order.number

section Untracked

variable {s : State} {order : Order} {number : OrderNumber}

theorem State.mem_untracked {orders : List Order} :
    order ∈ s.untracked orders ↔ order ∈ orders ∧ s.queue.isTracked order.number = false := by
  simp [State.untracked]

theorem State.untracked_append (s : State) (first second : List Order) :
    s.untracked (first ++ second) = s.untracked first ++ s.untracked second :=
  List.filter_append _ _

/-- A tracked order is left out. -/
theorem State.untracked_cons_of_tracked (h : s.queue.isTracked order.number = true)
    (orders : List Order) : s.untracked (order :: orders) = s.untracked orders :=
  List.filter_cons_of_neg (by simp [h])

/-- An order that is not tracked is kept. -/
theorem State.untracked_cons_of_untracked (h : s.queue.isTracked order.number = false)
    (orders : List Order) : s.untracked (order :: orders) = order :: s.untracked orders :=
  List.filter_cons_of_pos (by simp [h])

/-- A tracked order is left out at the end. -/
theorem State.untracked_concat_of_tracked (h : s.queue.isTracked order.number = true)
    (orders : List Order) : s.untracked (orders ++ [order]) = s.untracked orders := by
  rw [untracked_append, untracked_cons_of_tracked h]
  exact List.append_nil _

/-- An order that is not tracked is kept at the end. -/
theorem State.untracked_concat_of_untracked (h : s.queue.isTracked order.number = false)
    (orders : List Order) : s.untracked (orders ++ [order]) = s.untracked orders ++ [order] := by
  rw [untracked_append, untracked_cons_of_untracked h]
  rfl

end Untracked

/-! ## Runs -/

/-- A sweep at work on a pipeline, and the orders that workers have received meanwhile. -/
structure SweepRun where
  pipeline : State
  sweep : Sweep
  received : List Order

namespace SweepRun

/-- What happens: the sweep makes a step, a worker receives an order, the queue is stopped, or the
shutdown signal is given. -/
inductive Event where
  | go
  | receive (worker : Nat)
  | stop
  | cancel

/-- The run after an event. -/
def step (id : Nat) (r : SweepRun) : Event → SweepRun
  | .go =>
      let (pipeline, sweep) := r.sweep.step id r.pipeline
      ⟨pipeline, sweep, r.received⟩
  | .receive worker =>
      ⟨r.pipeline.receive worker, r.sweep, r.received ++ r.pipeline.queue.buffer.take 1⟩
  | .stop => { r with pipeline := r.pipeline.stop }
  | .cancel => { r with pipeline := r.pipeline.cancel }

/-- The run after events in their order. -/
def after (id : Nat) (r : SweepRun) (events : List Event) : SweepRun := events.foldl (step id) r

/-- Some steps of the sweep, with nobody else at work. -/
def alone (id : Nat) (r : SweepRun) (steps : Nat) : SweepRun :=
  r.after id (List.replicate steps .go)

/-- The orders that have been in the buffer since the beginning. -/
def passed (r : SweepRun) : List Order := r.received ++ r.pipeline.queue.buffer

theorem after_append (id : Nat) (r : SweepRun) (first second : List Event) :
    r.after id (first ++ second) = (r.after id first).after id second :=
  List.foldl_append

theorem alone_succ (id : Nat) (r : SweepRun) (steps : Nat) :
    r.alone id (steps + 1) = (r.step id .go).alone id steps := rfl

/-- The step of a sweep that brings an order. -/
theorem step_bringing {id : Nat} {p q : State} {order : Order} {offer : Option Offer}
    (henqueue : p.enqueue id order = (q, offer)) (rest : List Order) (count : Nat)
    (received : List Order) :
    step id ⟨p, .bringing order rest count, received⟩ .go =
      ⟨q, .afterOffer rest count offer, received⟩ := by
  simp only [step, Sweep.step, henqueue]

/-- The step of a sweep that is in line. -/
theorem step_in_line {id : Nat} {p q : State} {offer : Offer}
    (hresume : p.resumeSender id = (q, offer)) (rest : List Order) (count : Nat)
    (received : List Order) :
    step id ⟨p, .inLine rest count, received⟩ .go =
      ⟨q, .afterOffer rest count (some offer), received⟩ := by
  simp only [step, Sweep.step, hresume]

/-- A tracked order is not brought to the queue. -/
theorem enqueue_tracked {p : State} (id : Nat) {order : Order}
    (htracked : p.queue.isTracked order.number = true) : p.enqueue id order = (p, none) :=
  if_pos htracked

/-- An order that is not tracked is brought to the queue and tracked unless it is refused. -/
theorem enqueue_untracked {p q : State} {id : Nat} {order : Order} {offer : Offer}
    (hnew : p.queue.isTracked order.number = false)
    (hsend : (p.onQueue (·.track order.number)).sendOrRelease id order = (q, offer)) :
    p.enqueue id order = (q, some offer) := by
  simp [State.enqueue, hnew, hsend]

/-! ## With room for all orders -/

/-- The pipeline with orders that have been queued. -/
def queued (s : State) (orders : List Order) : State :=
  s.onQueue fun q => { q with
    buffer := q.buffer ++ orders
    tracked := (orders.map (·.number)).reverse ++ q.tracked }

theorem queued_nil (s : State) : queued s [] = s := by
  simp [queued, State.onQueue]

theorem queued_queued (s : State) (first second : List Order) :
    queued (queued s first) second = queued s (first ++ second) := by
  simp [queued, State.onQueue]

/-- Queued orders are tracked, and so is what was tracked before. -/
theorem tracked_queued (s : State) (orders : List Order) (number : OrderNumber) :
    (queued s orders).queue.isTracked number = true ↔
      s.queue.isTracked number = true ∨ number ∈ orders.map (·.number) := by
  simp [queued, State.onQueue, Queue.isTracked, or_comm]

/-- Once an order has been queued, the orders with other numbers are as untracked as before. -/
theorem untracked_queued (s : State) {order : Order} {orders : List Order}
    (hnew : order.number ∉ orders.map (·.number)) :
    (queued s [order]).untracked orders = s.untracked orders := by
  refine List.filter_congr fun other hother => ?_
  have hnumber : other.number ≠ order.number := by
    intro hsame
    exact hnew (hsame ▸ List.mem_map_of_mem hother)
  have htracked := tracked_queued s [order] other.number
  simp only [List.map_singleton, List.mem_singleton, hnumber, or_false] at htracked
  rw [Bool.eq_iff_iff.mpr htracked]

/-- Nothing is left to be queued once everything has been queued. -/
theorem untracked_all_queued (s : State) (orders : List Order) :
    (queued s (s.untracked orders)).untracked orders = [] := by
  rw [List.eq_nil_iff_forall_not_mem]
  intro order hmem
  obtain ⟨horder, hleft⟩ := State.mem_untracked.mp hmem
  rw [← Bool.not_eq_true, tracked_queued, not_or, Bool.not_eq_true] at hleft
  exact hleft.2 (List.mem_map_of_mem (State.mem_untracked.mpr ⟨horder, hleft.1⟩))

/-- Queued orders take their room and leave the line as it is. -/
theorem room_queued (s : State) (orders : List Order) :
    (queued s orders).queue.room = s.queue.room - orders.length := by
  simp only [queued, State.onQueue, Queue.room, List.length_append]
  omega

/-- An order that nobody has queued before is queued if there is room for it. -/
theorem enqueue_with_room {s : State} (id : Nat) {order : Order} (hopen : s.queue.isOpen = true)
    (hrunning : s.isCancelled = false) (hroom : s.queue.waiting.length < s.queue.room)
    (hfresh : s.queue.isTracked order.number = false) :
    s.enqueue id order = (queued s [order], some .sent) := by
  have hfree : (s.onQueue (·.track order.number)).queue.hasFreeRoom = true := decide_eq_true hroom
  rcases (s.onQueue (·.track order.number)).send_or_release_cases id order with
    ⟨hclosed | hcancelled, _⟩ | ⟨_, _, _, heq⟩ | ⟨_, _, hfull, _⟩
  · change s.queue.isOpen = false at hclosed
    rw [hopen] at hclosed
    cases hclosed
  · change s.isCancelled = true at hcancelled
    rw [hrunning] at hcancelled
    cases hcancelled
  · exact enqueue_untracked hfresh heq
  · rw [hfree] at hfull
    cases hfull

/-- With room for all orders that are not tracked a sweep queues all of them, one in a step. -/
theorem alone_with_room (id : Nat) (orders : List Order)
    (hnumbers : (orders.map (·.number)).Nodup) (s : State) (count : Nat) (received : List Order)
    (hopen : s.queue.isOpen = true) (hrunning : s.isCancelled = false)
    (hroom : (s.untracked orders).length + s.queue.waiting.length ≤ s.queue.room) :
    alone id ⟨s, .goOn count orders, received⟩ orders.length =
      ⟨queued s (s.untracked orders), .ended (count + (s.untracked orders).length), received⟩ := by
  induction orders generalizing s count with
  | nil =>
      show (⟨s, .ended count, received⟩ : SweepRun) = _
      rw [show s.untracked [] = [] from rfl, queued_nil]
      rfl
  | cons order rest ih =>
      obtain ⟨hnew, hrest⟩ := List.nodup_cons.mp hnumbers
      rw [List.length_cons, alone_succ]
      cases hfresh : s.queue.isTracked order.number with
      | true =>
          have hstep : step id ⟨s, .goOn count (order :: rest), received⟩ .go =
              ⟨s, .goOn count rest, received⟩ :=
            step_bringing (enqueue_tracked id hfresh) rest count received
          rw [State.untracked_cons_of_tracked hfresh] at hroom ⊢
          rw [hstep]
          exact ih hrest s count hopen hrunning hroom
      | false =>
          rw [State.untracked_cons_of_untracked hfresh, List.length_cons] at hroom ⊢
          have henqueue := enqueue_with_room id hopen hrunning (by omega) hfresh
          have hstep : step id ⟨s, .goOn count (order :: rest), received⟩ .go =
              ⟨queued s [order], .goOn (count + 1) rest, received⟩ :=
            step_bringing henqueue rest count received
          have hsame := untracked_queued s hnew
          have hleft : ((queued s [order]).untracked rest).length +
              (queued s [order]).queue.waiting.length ≤ (queued s [order]).queue.room := by
            rw [hsame, room_queued]
            show (s.untracked rest).length + s.queue.waiting.length ≤ s.queue.room - 1
            omega
          rw [hstep, ih hrest (queued s [order]) (count + 1) hopen hrunning hleft, hsame,
            queued_queued, Nat.add_assoc, Nat.add_comm 1]
          rfl

/-! ## What is true at every point -/

/-- Those orders have been queued that are done and were not tracked before, the given senders have
got in line, and nothing else has happened in the queue. -/
structure Queued (s : State) (done : List Order) (inLine : List Sender) (p : State)
    (received : List Order) : Prop where
  passed : received ++ p.queue.buffer = s.queue.buffer ++ s.untracked done
  waiting : p.queue.waiting = s.queue.waiting ++ inLine
  tracked : ∀ number, p.queue.isTracked number = true ↔
    s.queue.isTracked number = true ∨ number ∈ (s.untracked done).map (·.number) ∨
      number ∈ inLine.map (·.order.number)

/-- Where the sweep over some orders stands, with what it has done. -/
inductive Covers (s : State) (id : Nat) (orders : List Order) (r : SweepRun) : Prop where
  | bringing (done rest : List Order) (order : Order) :
      orders = done ++ order :: rest →
      r.sweep = .bringing order rest (s.untracked done).length →
      Queued s done [] r.pipeline r.received → Covers s id orders r
  | inLine (done rest : List Order) (order : Order) :
      orders = done ++ order :: rest → s.queue.isTracked order.number = false →
      r.sweep = .inLine rest (s.untracked done).length →
      Queued s done [⟨id, order⟩] r.pipeline r.received → Covers s id orders r
  | ended (done rest : List Order) :
      orders = done ++ rest → r.sweep = .ended (s.untracked done).length →
      Queued s done [] r.pipeline r.received → Covers s id orders r

section Steps

variable {s p q : State} {id : Nat} {orders done rest received : List Order} {inLine : List Sender}
  {order : Order} {number : OrderNumber}

@[simp] theorem tracked_track (s : State) (number other : OrderNumber) :
    (s.onQueue (·.track number)).queue.isTracked other = true ↔
      other = number ∨ s.queue.isTracked other = true := by
  simp [State.onQueue, Queue.track, Queue.isTracked]

@[simp] theorem tracked_release (s : State) (number other : OrderNumber) :
    (s.onQueue (·.release number)).queue.isTracked other = true ↔
      s.queue.isTracked other = true ∧ other ≠ number := by
  simp [State.onQueue, Queue.release, Queue.isTracked]

/-- A sweep that goes on has covered what is done. -/
theorem Covers.of_go_on (horders : orders = done ++ rest) (h : Queued s done [] p received) :
    Covers s id orders ⟨p, .goOn (s.untracked done).length rest, received⟩ := by
  cases rest with
  | nil => exact .ended done [] horders rfl h
  | cons order rest => exact .bringing done rest order horders rfl h

/-- In the beginning nothing is done. -/
theorem covers_start (s : State) (id : Nat) (orders : List Order) :
    Covers s id orders ⟨s, .goOn 0 orders, []⟩ := by
  have hnone : s.untracked [] = [] := rfl
  have horders : orders = [] ++ orders := rfl
  refine .of_go_on horders ⟨?_, ?_, ?_⟩
  · rw [hnone, List.append_nil, List.nil_append]
  · rw [List.append_nil]
  · simp [hnone]

/-- An order that was tracked before is done when it has been passed over. -/
theorem Covers.skip (horders : orders = done ++ order :: rest) (h : Queued s done [] p received)
    (htracked : s.queue.isTracked order.number = true) :
    Covers s id orders ⟨p, .goOn (s.untracked done).length rest, received⟩ := by
  have hnext : orders = (done ++ [order]) ++ rest := by simp [horders]
  have hsame := State.untracked_concat_of_tracked htracked done
  rw [← hsame]
  exact .of_go_on hnext ⟨hsame ▸ h.passed, h.waiting, hsame ▸ h.tracked⟩

/-- An order that was not tracked before is done when it is in the buffer. -/
theorem Covers.push (horders : orders = done ++ order :: rest) (h : Queued s done inLine p received)
    (hfresh : s.queue.isTracked order.number = false)
    (hbuffer : q.queue.buffer = p.queue.buffer ++ [order])
    (hwaiting : q.queue.waiting = s.queue.waiting)
    (htracked : ∀ number, q.queue.isTracked number = true ↔
      s.queue.isTracked number = true ∨ number ∈ (s.untracked done).map (·.number) ∨
        number = order.number) :
    Covers s id orders ⟨q, .goOn ((s.untracked done).length + 1) rest, received⟩ := by
  have hnext : orders = (done ++ [order]) ++ rest := by simp [horders]
  have hmore := State.untracked_concat_of_untracked hfresh done
  have hcount : (s.untracked done).length + 1 = (s.untracked (done ++ [order])).length := by
    rw [hmore, List.length_append]
    rfl
  rw [hcount]
  refine .of_go_on hnext ⟨?_, ?_, fun number => ?_⟩
  · rw [hmore, hbuffer, ← List.append_assoc, h.passed, List.append_assoc]
  · rw [hwaiting, List.append_nil]
  · rw [htracked, hmore, List.map_append, List.mem_append]
    simp

/-- An order that is done has another number than the next one. -/
theorem number_not_done (horders : orders = done ++ order :: rest)
    (hnumbers : (orders.map (·.number)).Nodup) :
    order.number ∉ (s.untracked done).map (·.number) := by
  intro hmem
  obtain ⟨other, hother, hsame⟩ := List.mem_map.mp hmem
  rw [horders, List.map_append, List.map_cons, List.nodup_append] at hnumbers
  exact hnumbers.2.2 other.number (List.mem_map_of_mem (List.mem_of_mem_filter hother))
    order.number List.mem_cons_self hsame

/-- A sweep that brings an order has covered it afterwards, is in line with it, or is over. -/
theorem covers_bringing (horders : orders = done ++ order :: rest)
    (hnumbers : (orders.map (·.number)).Nodup) (h : Queued s done [] p received) :
    Covers s id orders
      (step id ⟨p, .bringing order rest (s.untracked done).length, received⟩ .go) := by
  have hnew : order.number ∉ (s.untracked done).map (·.number) := number_not_done horders hnumbers
  have hbefore (number : OrderNumber) : p.queue.isTracked number = true ↔
      s.queue.isTracked number = true ∨ number ∈ (s.untracked done).map (·.number) := by
    simpa using h.tracked number
  cases htracked : p.queue.isTracked order.number with
  | true =>
      rw [step_bringing (enqueue_tracked id htracked)]
      exact .skip horders h (((hbefore order.number).mp htracked).resolve_right hnew)
  | false =>
      have hfresh : s.queue.isTracked order.number = false := by
        rw [← Bool.not_eq_true] at htracked ⊢
        exact fun hold => htracked ((hbefore order.number).mpr (.inl hold))
      rcases (p.onQueue (·.track order.number)).send_or_release_cases id order with
        ⟨_, e, heq⟩ | ⟨_, _, _, heq⟩ | ⟨_, _, _, heq⟩
      · rw [step_bringing (enqueue_untracked htracked heq)]
        refine .ended done (order :: rest) horders rfl ⟨h.passed, h.waiting, fun number => ?_⟩
        rw [← h.tracked number, tracked_release, tracked_track]
        constructor
        · rintro ⟨hnumber | hold, hother⟩
          · exact absurd hnumber hother
          · exact hold
        · intro hold
          refine ⟨.inr hold, ?_⟩
          rintro rfl
          rw [htracked] at hold
          cases hold
      · rw [step_bringing (enqueue_untracked htracked heq)]
        refine .push horders h hfresh rfl (h.waiting.trans (List.append_nil _)) fun number => ?_
        refine (tracked_track p order.number number).trans ?_
        rw [hbefore, or_comm, or_assoc]
      · rw [step_bringing (enqueue_untracked htracked heq)]
        refine .inLine done rest order horders hfresh rfl ⟨h.passed, ?_, fun number => ?_⟩
        · show p.queue.waiting ++ [⟨id, order⟩] = _
          rw [h.waiting, List.append_nil]
        · refine (tracked_track p order.number number).trans ?_
          rw [hbefore, or_comm, or_assoc, List.map_singleton, List.mem_singleton]

/-- A sweep that is in line gives up at a shutdown, gets its order into the buffer, or stays in
line. -/
theorem Queued.resume_cases (h : Queued s done [⟨id, order⟩] p received)
    (hid : ∀ sender ∈ s.queue.waiting, sender.id ≠ id) :
    (p.isCancelled = true ∧ p.resumeSender id =
      ((p.onQueue (·.leave id)).onQueue (·.release order.number), .refused .cancelled)) ∨
    (p.isCancelled = false ∧ p.resumeSender id =
      ((p.onQueue (·.leave id)).onQueue (·.push order), .sent)) ∨
    (p.isCancelled = false ∧ p.resumeSender id = (p, .waits)) := by
  have hfound : p.queue.waiting.find? (·.id == id) = some ⟨id, order⟩ := by
    rw [h.waiting, List.find?_append, List.find?_eq_none.mpr]
    · simp
    · exact fun sender hsender => by simp [hid sender hsender]
  unfold State.resumeSender
  rw [hfound]
  cases hcancelled : p.isCancelled with
  | true => exact .inl ⟨rfl, rfl⟩
  | false =>
      cases hgranted : p.queue.granted.contains ⟨id, order⟩ with
      | true =>
          refine .inr (.inl ⟨rfl, ?_⟩)
          simp only [hgranted]
          rfl
      | false =>
          refine .inr (.inr ⟨rfl, ?_⟩)
          simp only [hgranted]
          rfl

/-- A sweep that is in line has covered its order afterwards, stays in line, or is over. -/
theorem covers_in_line (hid : ∀ sender ∈ s.queue.waiting, sender.id ≠ id)
    (horders : orders = done ++ order :: rest) (hnumbers : (orders.map (·.number)).Nodup)
    (hfresh : s.queue.isTracked order.number = false)
    (h : Queued s done [⟨id, order⟩] p received) :
    Covers s id orders (step id ⟨p, .inLine rest (s.untracked done).length, received⟩ .go) := by
  have hnew : order.number ∉ (s.untracked done).map (·.number) := number_not_done horders hnumbers
  have hleave : p.queue.waiting.filter (·.id != id) = s.queue.waiting := by
    rw [h.waiting, List.filter_append, List.filter_eq_self.mpr]
    · simp
    · exact fun sender hsender => by simp [hid sender hsender]
  rcases h.resume_cases hid with ⟨_, hresume⟩ | ⟨_, hresume⟩ | ⟨_, hresume⟩
  · rw [step_in_line hresume]
    refine .ended done (order :: rest) horders rfl ⟨h.passed, ?_, fun number => ?_⟩
    · exact hleave.trans (List.append_nil _).symm
    · rw [tracked_release]
      show (p.queue.isTracked number = true ∧ _) ↔ _
      rw [h.tracked number]
      by_cases hnumber : number = order.number
      · subst hnumber
        simp [hfresh, hnew]
      · simp [hnumber]
  · rw [step_in_line hresume]
    refine .push horders h hfresh rfl hleave fun number => ?_
    refine (h.tracked number).trans ?_
    rw [List.map_singleton, List.mem_singleton]
  · rw [step_in_line hresume]
    exact .inLine done rest order horders hfresh rfl h

/-- What keeps the queued orders, the line and the tracked numbers is no matter to the sweep. -/
theorem Covers.elsewhere {sweep : Sweep} {later : List Order}
    (h : Covers s id orders ⟨p, sweep, received⟩)
    (hpassed : later ++ q.queue.buffer = received ++ p.queue.buffer)
    (hwaiting : q.queue.waiting = p.queue.waiting) (htracked : q.queue.tracked = p.queue.tracked) :
    Covers s id orders ⟨q, sweep, later⟩ := by
  have hqueued {done : List Order} {inLine : List Sender} (h : Queued s done inLine p received) :
      Queued s done inLine q later := by
    refine ⟨hpassed.trans h.passed, hwaiting.trans h.waiting, fun number => ?_⟩
    rw [← h.tracked number, Queue.isTracked, htracked]
    rfl
  rcases h with ⟨done, rest, order, horders, hsweep, h⟩ |
    ⟨done, rest, order, horders, hfresh, hsweep, h⟩ | ⟨done, rest, horders, hsweep, h⟩
  · exact .bringing done rest order horders hsweep (hqueued h)
  · exact .inLine done rest order horders hfresh hsweep (hqueued h)
  · exact .ended done rest horders hsweep (hqueued h)

/-- Every event keeps what is covered. -/
theorem Covers.step {r : SweepRun} (h : Covers s id orders r)
    (hid : ∀ sender ∈ s.queue.waiting, sender.id ≠ id)
    (hnumbers : (orders.map (·.number)).Nodup) (event : Event) :
    Covers s id orders (r.step id event) := by
  obtain ⟨p, sweep, received⟩ := r
  cases event with
  | go =>
      rcases h with ⟨done, rest, order, horders, rfl, hqueued⟩ |
        ⟨done, rest, order, horders, hfresh, rfl, hqueued⟩ | ⟨done, rest, horders, rfl, hqueued⟩
      · exact covers_bringing horders hnumbers hqueued
      · exact covers_in_line hid horders hnumbers hfresh hqueued
      · exact .ended done rest horders rfl hqueued
  | receive worker =>
      show Covers s id orders ⟨p.receive worker, sweep, received ++ p.queue.buffer.take 1⟩
      unfold State.receive
      cases hbuffer : p.queue.buffer with
      | nil => exact h.elsewhere (by simp) rfl rfl
      | cons order rest =>
          refine h.elsewhere ?_ rfl rfl
          show (received ++ [order]) ++ rest = received ++ p.queue.buffer
          rw [hbuffer, List.append_assoc]
          rfl
  | stop | cancel => exact h.elsewhere rfl rfl rfl

/-- What is covered after any events, from the beginning of a sweep. -/
theorem covers_after (hid : ∀ sender ∈ s.queue.waiting, sender.id ≠ id)
    (hnumbers : (orders.map (·.number)).Nodup) (events : List Event) :
    Covers s id orders (after id ⟨s, .goOn 0 orders, []⟩ events) := by
  induction events using List.reverseRecOn with
  | nil => exact covers_start s id orders
  | append_singleton events event ih =>
      rw [after_append]
      exact ih.step hid hnumbers event

end Steps

/-! ## The end of a sweep -/

/-- A queue that is stopped and a shutdown refuse every order that is not tracked. -/
theorem enqueue_refused {p : State} (id : Nat) {order : Order}
    (hrefuses : p.isCancelled = true ∨ p.queue.isOpen = false)
    (hnew : p.queue.isTracked order.number = false) :
    ∃ q e, p.enqueue id order = (q, some (.refused e)) := by
  rcases (p.onQueue (·.track order.number)).send_or_release_cases id order with
    ⟨_, e, heq⟩ | ⟨hopen, hrunning, _⟩ | ⟨hopen, hrunning, _⟩
  · exact ⟨_, e, enqueue_untracked hnew heq⟩
  all_goals
    change p.queue.isOpen = true at hopen
    change p.isCancelled = false at hrunning
    rw [hopen, hrunning] at hrefuses
    simp at hrefuses

/-- A sweep that brings orders to a queue that takes none comes to its end. -/
theorem ends_when_refused (id : Nat) {p : State}
    (hrefuses : p.isCancelled = true ∨ p.queue.isOpen = false) (orders : List Order)
    (count : Nat) (received : List Order) :
    ∃ steps total, (alone id ⟨p, .goOn count orders, received⟩ steps).sweep = .ended total := by
  induction orders with
  | nil => exact ⟨0, count, rfl⟩
  | cons order rest ih =>
      cases htracked : p.queue.isTracked order.number with
      | true =>
          obtain ⟨steps, total, hended⟩ := ih
          refine ⟨steps + 1, total, ?_⟩
          rw [alone_succ]
          have hstep : step id ⟨p, .goOn count (order :: rest), received⟩ .go =
              ⟨p, .goOn count rest, received⟩ :=
            step_bringing (enqueue_tracked id htracked) rest count received
          rw [hstep]
          exact hended
      | false =>
          obtain ⟨q, e, henqueue⟩ := enqueue_refused id hrefuses htracked
          refine ⟨1, count, ?_⟩
          have hstep : step id ⟨p, .goOn count (order :: rest), received⟩ .go =
              ⟨q, .ended count, received⟩ := step_bringing henqueue rest count received
          rw [alone_succ, hstep]
          rfl

/-- An interrupted sweep comes to its end: after the shutdown signal in any case, and after the end
of the queue unless it is in line. -/
theorem ends_when_interrupted {s : State} {id : Nat} {orders : List Order} {r : SweepRun}
    (h : Covers s id orders r) (hid : ∀ sender ∈ s.queue.waiting, sender.id ≠ id)
    (hinterrupted : r.pipeline.isCancelled = true ∨
      (r.pipeline.queue.isOpen = false ∧ ∀ rest count, r.sweep ≠ .inLine rest count)) :
    ∃ steps total, (r.alone id steps).sweep = .ended total := by
  obtain ⟨p, sweep, received⟩ := r
  rcases h with ⟨done, rest, order, _, rfl, _⟩ | ⟨done, rest, order, _, _, rfl, hqueued⟩ |
    ⟨done, rest, _, rfl, _⟩
  · exact ends_when_refused id (hinterrupted.imp_right And.left) (order :: rest) _ received
  · rcases hinterrupted with hcancelled | ⟨_, hline⟩
    · refine ⟨1, (s.untracked done).length, ?_⟩
      rcases hqueued.resume_cases hid with ⟨_, hresume⟩ | ⟨hrunning, _⟩ | ⟨hrunning, _⟩
      · rw [alone_succ, step_in_line hresume]
        rfl
      all_goals
        rw [hcancelled] at hrunning
        cases hrunning
    · exact absurd rfl (hline _ _)
  · exact ⟨0, _, rfl⟩

/-- A sweep that has come to its end has queued as many orders as it counts, the first ones of those
that were not tracked before. -/
theorem Covers.ended_exactly {s : State} {id : Nat} {orders : List Order} {r : SweepRun}
    {count : Nat} (h : Covers s id orders r) (hended : r.sweep = .ended count) :
    count ≤ (s.untracked orders).length ∧
      r.passed = s.queue.buffer ++ (s.untracked orders).take count ∧
      r.pipeline.queue.waiting = s.queue.waiting ∧
      ∀ number, r.pipeline.queue.isTracked number = true ↔
        s.queue.isTracked number = true ∨
          number ∈ ((s.untracked orders).take count).map (·.number) := by
  rcases h with ⟨_, _, _, _, hsweep, _⟩ | ⟨_, _, _, _, _, hsweep, _⟩ |
    ⟨done, rest, rfl, hsweep, hqueued⟩
  · rw [hended] at hsweep
    cases hsweep
  · rw [hended] at hsweep
    cases hsweep
  · rw [hended] at hsweep
    cases hsweep
    have htake :
        (s.untracked (done ++ rest)).take (s.untracked done).length = s.untracked done := by
      rw [State.untracked_append, List.take_left]
    rw [htake]
    refine ⟨?_, hqueued.passed, hqueued.waiting.trans (List.append_nil _), fun number => ?_⟩
    · rw [State.untracked_append, List.length_append]
      exact Nat.le_add_right _ _
    · simpa using hqueued.tracked number

/-- A sweep over any store, on any pipeline that has no sender of its name in line. It reads the
unfinished orders and changes nothing by it. Those that are to be queued are the stored orders that
are new or being processed and whose numbers are not tracked, each once, by the time of their
upload. If the queue is open and has room for them, a sweep with nobody else at work queues all of
them, and another one after it queues none. Whatever else happens meanwhile, a sweep that is over
has queued just the first ones of them, as many as it counts, and tracks no other number. After an
interruption it comes to its end. -/
theorem sweep_queues_pending {ω : Type} (x : Surroundings ω) (w : ω) (calls : List Store.Call)
    (s : State) (id : Nat) (hid : ∀ sender ∈ s.queue.waiting, sender.id ≠ id) :
    let orders := (Store.after calls).unfinishedOrders
    let pending := s.untracked orders
    let first : SweepRun := ⟨s, .goOn 0 orders, []⟩
    perform (Sweep.start x.service.store) (Store.after calls) w =
      ⟨.ok (.goOn 0 orders), Store.after calls, w⟩ ∧
    (∀ order, order ∈ pending ↔ order ∈ (Store.after calls).orders ∧
      (order.status = .new ∨ order.status = .processing) ∧
      s.queue.isTracked order.number = false) ∧
    (pending.map (·.number)).Nodup ∧
    pending.Pairwise (fun a b => a.uploadedAt.le b.uploadedAt = true) ∧
    (s.queue.isOpen = true → s.isCancelled = false →
      pending.length + s.queue.waiting.length ≤ s.queue.room →
      first.alone id orders.length = ⟨queued s pending, .ended pending.length, []⟩ ∧
      alone id ⟨queued s pending, .goOn 0 orders, []⟩ orders.length =
        ⟨queued s pending, .ended 0, []⟩) ∧
    (∀ events count, (first.after id events).sweep = .ended count →
      count ≤ pending.length ∧
      (first.after id events).passed = s.queue.buffer ++ pending.take count ∧
      (first.after id events).pipeline.queue.waiting = s.queue.waiting ∧
      ∀ number, (first.after id events).pipeline.queue.isTracked number = true ↔
        s.queue.isTracked number = true ∨ number ∈ (pending.take count).map (·.number)) ∧
    (∀ events, (first.after id events).pipeline.isCancelled = true ∨
        ((first.after id events).pipeline.queue.isOpen = false ∧
          ∀ rest count, (first.after id events).sweep ≠ .inLine rest count) →
      ∃ steps count, ((first.after id events).alone id steps).sweep = .ended count) := by
  intro orders pending first
  have hkeyed : (Store.after calls).Keyed :=
    Store.after_keeps List.nodup_nil Store.Write.keyed calls
  have hnumbers : (orders.map (·.number)).Nodup := Store.unfinished_numbers_nodup hkeyed
  have hcovers := covers_after hid hnumbers
  refine ⟨rfl, fun order => ?_, ?_, ?_, ?_, ?_, ?_⟩
  · show order ∈ s.untracked orders ↔ _
    rw [State.mem_untracked, Store.mem_unfinished_orders, and_assoc]
  · exact hnumbers.sublist (List.filter_sublist.map _)
  · exact (Store.unfinished_sorted (Store.after calls)).filter _
  · intro hopen hrunning hroom
    have hnone : (queued s pending).untracked orders = [] := untracked_all_queued s orders
    have hagain : (queued s pending).queue.waiting.length ≤ (queued s pending).queue.room := by
      rw [room_queued]
      show s.queue.waiting.length ≤ s.queue.room - pending.length
      omega
    have hfirst := alone_with_room id orders hnumbers s 0 [] hopen hrunning hroom
    have hsecond := alone_with_room id orders hnumbers (queued s pending) 0 [] hopen hrunning
      (by rwa [hnone, List.length_nil, Nat.zero_add])
    rw [Nat.zero_add] at hfirst
    rw [hnone, queued_nil] at hsecond
    exact ⟨hfirst, hsecond⟩
  · exact fun events count hended => (hcovers events).ended_exactly hended
  · exact fun events hinterrupted => ends_when_interrupted (hcovers events) hid hinterrupted

/-- Two orders are stored, and there is room for one beside a caller who waits: the sweep gets in
line with the second order and gives it up at the shutdown. -/
theorem sweep_queues_pending_interrupted :
    let calls : List Store.Call := [.createOrder ⟨"18", by decide⟩ default default,
      .createOrder ⟨"26", by decide⟩ default default]
    let order : Order := .upload ⟨"18", by decide⟩ default default
    let caller : Sender := ⟨7, .upload ⟨"34", by decide⟩ default default⟩
    let s : State := ⟨⟨2, true, [], [caller], [caller.order.number], .zero⟩, false, [], []⟩
    let r := (⟨s, .goOn 0 (Store.after calls).unfinishedOrders, []⟩ : SweepRun).after 8
      [.go, .go, .cancel, .go]
    (∀ sender ∈ s.queue.waiting, sender.id ≠ 8) ∧ r.sweep = .ended 1 ∧ r.passed = [order] ∧
    ∀ number, r.pipeline.queue.isTracked number = true ↔
      s.queue.isTracked number = true ∨ number ∈ [order.number] := by
  intro calls order caller s r
  have hid : ∀ sender ∈ s.queue.waiting, sender.id ≠ 8 := by decide
  have hsorted : (Store.after calls).unfinishedOrders =
      [order, .upload ⟨"26", by decide⟩ default default] :=
    List.mergeSort_of_pairwise (by decide +kernel)
  have hended : r.sweep = .ended 1 := by
    show ((⟨s, .goOn 0 (Store.after calls).unfinishedOrders, []⟩ : SweepRun).after 8
      [.go, .go, .cancel, .go]).sweep = .ended 1
    rw [hsorted]
    decide +kernel
  have hpending : (s.untracked (Store.after calls).unfinishedOrders).take 1 = [order] := by
    rw [hsorted]
    decide +kernel
  obtain ⟨_, _, _, _, _, hexactly, _⟩ :=
    sweep_queues_pending Surroundings.still 0 calls s 8 hid
  obtain ⟨_, hpassed, _, htracked⟩ := hexactly [.go, .go, .cancel, .go] 1 hended
  rw [hpending] at hpassed htracked
  exact ⟨hid, hended, hpassed, htracked⟩

end SweepRun

end Rewards.Pipeline

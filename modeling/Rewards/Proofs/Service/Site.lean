import Rewards.Proofs.Pipeline.Losses
import Rewards.Proofs.Pipeline.Race
import Rewards.Proofs.Service.Effects

/-!
# The service and the pipeline at work

A `Site` is a store with the pipeline over it. Users upload order numbers and withdraw points, each
call books the order that is to be processed, and brings it to the queue some time later. Workers
attempt the orders that the queue gives them, each attempt by single steps, with any replies of the
accrual system. All of them take their steps in any order. There is no shutdown here, no call is
dropped, and no worker crashes or is aborted. The main statement is `no_order_forgotten`: an order
that is not finished is tracked, or the call that has stored it has not brought it to the queue yet,
or an attempt on it has failed for good.
-/

namespace Rewards

open InMemory (perform)
open Pipeline

/-- An order that a call is going to bring to the queue, and whether the call has stored it. -/
structure Booking where
  order : Order
  isNew : Bool
deriving DecidableEq

/-- The pipeline, the store, the attempts of the workers, the bookings, and the numbers of the
orders on which an attempt has failed for good. -/
structure Site where
  world : World
  store : Store
  runners : Nat → Option Runner
  bookings : List Booking
  failed : List OrderNumber

/-- The step can be taken by itself: it is neither of a call that brings an order nor the end of an
attempt, and it is no shutdown, no loss of a call and no loss of a worker. -/
def Pipeline.Action.isMove : Action → Bool
  | .arrive _ | .turnAway _ | .conclude _ _ => false
  | .dropCall _ | .crash _ | .abort _ | .stop | .cancel => false
  | _ => true

/-- The number of an order on which an attempt has failed for good. -/
def Pipeline.JobResult.failed (number : OrderNumber) : JobResult → List OrderNumber
  | .fatal _ => [number]
  | _ => []

/-- The world after a call has arrived. -/
def Pipeline.World.arrived (s : World) (id : Nat) (order : Order) : World :=
  { s with
    pipeline := s.pipeline.onQueue (·.track order.number),
    arriving := s.arriving ++ [⟨id, order⟩],
    calls := s.calls ++ [id] }

namespace Site

/-- A site before anything happens. -/
def ofCapacity (capacity : Nat) : Site := ⟨.ofCapacity capacity, .empty, fun _ => none, [], []⟩

/-- A call of the service has gone through. Its order is booked if it is to be processed. -/
def answered {ω ε α : Type} (s : Site) (outcome : Outcome ω (Except ε (Scheduling α))) : Site :=
  { s with
    store := outcome.store,
    bookings := s.bookings ++ (Scheduling.job? outcome.result).toList.map fun order =>
      ⟨order, (s.store.order? order.number).isNone⟩ }

/-- The call of a booking has brought its order to the queue. -/
def arrived (s : Site) (booking : Booking) (id : Nat) : Site :=
  { s with world := s.world.arrived id booking.order, bookings := s.bookings.erase booking }

/-- The call of a booking has been turned away. -/
def turnedAway (s : Site) (booking : Booking) : Site :=
  { s with bookings := s.bookings.erase booking }

/-- The pipeline has taken a step. A worker who has begun an attempt in it starts from the
beginning. -/
def moved (s : Site) (t : World) : Site :=
  { s with
    world := t,
    runners := fun id =>
      match t.pipeline.activity? id with
      | some (.attempting order) =>
          if s.world.pipeline.activity? id = some (.attempting order) then s.runners id
          else some (Runner.start order.number)
      | _ => none }

/-- A worker has concluded an attempt. It is noted if the attempt has failed for good. -/
def concluded (s : Site) (t : World) (number : OrderNumber) (result : JobResult) : Site :=
  { s.moved t with failed := s.failed ++ result.failed number }

/-- The attempt of a worker goes on. -/
def acted (s : Site) (id : Nat) (r : Runner) (action : Runner.Action) : Site :=
  let (next, t) := r.act s.store action
  { s with store := t, runners := Function.update s.runners id (next.observe s.store t) }

/-- A step: a user uploads a number or withdraws points, a call brings its order to the queue and is
taken or turned away, the pipeline moves, an attempt goes on, or a worker concludes an attempt that
is done. -/
inductive Step {ω : Type} (x : Surroundings ω) (s : Site) : Site → Prop where
  | submit (user : UserId) (text : String) (w : ω) :
      Step x s (s.answered (perform (x.service.submitOrder user text).run s.store w))
  | withdraw (user : UserId) (text : String) (amount : Decimal) (w : ω) :
      Step x s (s.answered (perform (x.service.withdraw user text amount).run s.store w))
  | arrive (booking : Booking) (id : Nat) :
      booking ∈ s.bookings → s.world.partiesOf id = 0 →
      booking.order.number ∉ s.world.tracked →
      Step x s (s.arrived booking id)
  | turnAway (booking : Booking) :
      booking ∈ s.bookings → booking.order.number ∈ s.world.tracked →
      Step x s (s.turnedAway booking)
  | move (action : Action) (events : List Event) (t : World) :
      action.isMove = true → Pipeline.Step s.world action events t → Step x s (s.moved t)
  | act (id : Nat) (order : Order) (r : Runner) (action : Runner.Action) :
      s.world.pipeline.activity? id = some (.attempting order) → s.runners id = some r →
      action ≠ .abandon → Step x s (s.acted id r action)
  | conclude (id : Nat) (order : Order) (r : Runner) (result : JobResult) (events : List Event)
      (t : World) :
      s.world.pipeline.activity? id = some (.attempting order) → s.runners id = some r →
      r.attempt = .done result → Pipeline.Step s.world (.conclude id result) events t →
      Step x s (s.concluded t order.number result)

/-! ## What steps of the pipeline keep -/

/-- The queue is open and there is no shutdown. -/
structure Running (s : World) : Prop where
  isOpen : s.pipeline.queue.isOpen = true
  notCancelled : s.pipeline.isCancelled = false

variable {s t : World} {action : Action} {events : List Event}

/-- A queue that is open has not run dry for good. -/
theorem Running.not_exhausted (h : Running s) : s.pipeline.queue.isExhausted = false := by
  simp [Queue.isExhausted, Queue.isSealed, h.isOpen]

/-- An order that is brought to a running pipeline stays tracked. -/
theorem send_or_release_running {p : State} (hopen : p.queue.isOpen = true)
    (hrunning : p.isCancelled = false) (id : Nat) (order : Order) :
    (p.sendOrRelease id order).1.queue.isOpen = true ∧
      (p.sendOrRelease id order).1.isCancelled = false ∧
      (p.sendOrRelease id order).1.queue.tracked = p.queue.tracked := by
  rcases State.send_or_release_cases p id order with ⟨hend, _⟩ | ⟨_, _, _, heq⟩ | ⟨_, _, _, heq⟩
  · simp [hopen, hrunning] at hend
  · rw [heq]
    exact ⟨hopen, hrunning, rfl⟩
  · rw [heq]
    exact ⟨hopen, hrunning, rfl⟩

/-- A move of a running pipeline changes neither the flags nor the tracked numbers. -/
theorem Running.move (h : Running s) (hdistinct : s.Distinct) (hmove : action.isMove = true)
    (hstep : Pipeline.Step s action events t) : Running t ∧ t.tracked = s.tracked := by
  obtain ⟨hopen, hrunning⟩ := h
  cases hstep with
  | arrive | turnAway | succeed | fail | retryLater | pause => cases hmove
  | dropArrival | dropCall | crash | abort | stop | cancel => cases hmove
  | addWorker | expire => exact ⟨⟨hopen, hrunning⟩, rfl⟩
  | offer sender pipeline offer _ hsend =>
      have hkept := send_or_release_running hopen hrunning sender.id sender.order
      rw [hsend] at hkept
      exact ⟨⟨hkept.1, hkept.2.1⟩, hkept.2.2⟩
  | resume sender pipeline offer hsender hresume =>
      rcases State.resume_sender_cases hsender (hdistinct.pipeline sender.id) with
        ⟨hend, _⟩ | ⟨_, _, heq⟩ | ⟨_, _, heq⟩
      · rw [hrunning] at hend
        cases hend
      · rw [hresume] at heq
        cases heq
        exact ⟨⟨hopen, hrunning⟩, rfl⟩
      · rw [hresume] at heq
        cases heq
        exact ⟨⟨hopen, hrunning⟩, rfl⟩
  | receive id order rest _ _ hbuffer =>
      rw [World.onPipeline, State.receive_eq hbuffer]
      exact ⟨⟨hopen, hrunning⟩, rfl⟩
  | leave id _ hend =>
      rw [hrunning, Running.not_exhausted ⟨hopen, hrunning⟩] at hend
      simp at hend
  | endPause id order _ _ =>
      rw [World.onPipeline]
      rcases State.resume_pause_cases s.pipeline id order with ⟨hend, _⟩ | ⟨_, _, heq⟩ | ⟨_, _, heq⟩
      · rw [hopen] at hend
        cases hend
      · rw [heq]
        exact ⟨⟨hopen, hrunning⟩, rfl⟩
      · rw [heq]
        exact ⟨⟨hopen, hrunning⟩, rfl⟩
  | interruptPause id order _ hend | cancelRetry id order _ hend =>
      rw [hrunning] at hend
      cases hend
  | wakeRetry id order _ _ =>
      have hkept := send_or_release_running (p := s.pipeline.removeRetry id) hopen hrunning id order
      exact ⟨⟨hkept.1, hkept.2.1⟩, hkept.2.2⟩

/-- The end of an attempt releases no number but that of an order that has succeeded or failed for
good. -/
theorem Running.conclude {id : Nat} {result : JobResult} {order : Order} (h : Running s)
    (hfound : s.pipeline.activity? id = some (.attempting order))
    (hstep : Pipeline.Step s (.conclude id result) events t) :
    Running t ∧ ∀ number ∈ s.tracked, number ∈ t.tracked ∨
      number = order.number ∧ (result = .success ∨ number ∈ result.failed order.number) := by
  obtain ⟨hopen, hrunning⟩ := h
  cases hstep with
  | succeed _ other hother =>
      rw [hfound] at hother
      cases hother
      refine ⟨⟨hopen, hrunning⟩, fun number hnumber => ?_⟩
      by_cases hown : number = order.number
      · exact .inr ⟨hown, .inl rfl⟩
      · exact .inl (List.mem_filter.mpr ⟨hnumber, by simpa using hown⟩)
  | fail _ other reason hother =>
      rw [hfound] at hother
      cases hother
      refine ⟨⟨hopen, hrunning⟩, fun number hnumber => ?_⟩
      by_cases hown : number = order.number
      · exact .inr ⟨hown, .inr (by rw [hown]; exact List.mem_singleton_self _)⟩
      · exact .inl (List.mem_filter.mpr ⟨hnumber, by simpa using hown⟩)
  | retryLater | pause => exact ⟨⟨hopen, hrunning⟩, fun _ hnumber => .inl hnumber⟩

/-! ## The invariant -/

/-- The number is tracked, or the call that has stored the order has not brought it to the queue
yet, or an attempt on the order has failed for good. -/
def Remembers (s : Site) (number : OrderNumber) : Prop :=
  number ∈ s.world.tracked ∨
  (∃ booking ∈ s.bookings, booking.isNew = true ∧ booking.order.number = number) ∨
  number ∈ s.failed

/-- The pipeline runs and has lost no job, ledger and orders agree, every worker who attempts an
order has a sound attempt on it, and every order that is not finished is remembered. -/
structure Sound (s : Site) : Prop where
  running : Running s.world
  traced : s.world.Traced []
  consistent : s.store.Consistent
  unearned : s.store.Unearned
  runners : ∀ id order, s.world.pipeline.activity? id = some (.attempting order) →
    ∃ r, s.runners id = some r ∧ r.number = order.number ∧ r.Sound s.store
  remembers : ∀ number order, s.store.order? number = some order →
    order.status.isTerminal = false → s.Remembers number

/-- Before anything happens there is nothing to remember. -/
theorem sound_of_capacity (capacity : Nat) : (ofCapacity capacity).Sound where
  running := ⟨rfl, rfl⟩
  traced := World.traced_of_capacity capacity
  consistent := Store.consistent_empty
  unearned _ _ h := nomatch h
  runners _ _ h := nomatch h
  remembers _ _ h := nomatch h

variable {s : Site}

/-- An order that is not finished after writes was not finished before, unless it is new. -/
theorem unfinished_before {s t : Store} (h : Store.Writes s t) {number : OrderNumber}
    {order later : Order} (hfound : s.order? number = some order)
    (hlater : t.order? number = some later) (hopen : later.status.isTerminal = false) :
    order.status.isTerminal = false := by
  by_contra hfinished
  have hkept := h.lookup_finished hfound (by simpa using hfinished)
  rw [hlater] at hkept
  cases hkept
  exact hfinished hopen

/-- A call of the service keeps a site sound: the order that it stores is booked. -/
theorem Sound.answered {ω ε α : Type} (h : s.Sound) {outcome : Outcome ω (Except ε (Scheduling α))}
    (hbooked : s.store.Booked (Scheduling.job? outcome.result) outcome.store) :
    (s.answered outcome).Sound where
  running := h.running
  traced := h.traced
  consistent := hbooked.writes.keep Store.Write.consistent h.consistent
  unearned := hbooked.writes.keep Store.Write.unearned h.unearned
  runners id order hattempting := by
    obtain ⟨r, hr, hnumber, hsound⟩ := h.runners id order hattempting
    exact ⟨r, hr, hnumber, hsound.later hbooked.writes⟩
  remembers number order hfound hopen := by
    cases hbefore : s.store.order? number with
    | some earlier =>
        have hearlier := unfinished_before hbooked.writes hbefore hfound hopen
        rcases h.remembers number earlier hbefore hearlier with htracked | ⟨booking, hb, hnew⟩ | hf
        · exact .inl htracked
        · exact .inr (.inl ⟨booking, List.mem_append_left _ hb, hnew⟩)
        · exact .inr (.inr hf)
    | none =>
        have hjob := hbooked.new number order hbefore hfound
        have hnumber := Store.number_of_lookup hfound
        refine .inr (.inl ⟨⟨order, true⟩, List.mem_append_right _ ?_, rfl, hnumber⟩)
        rw [hjob]
        simp [hnumber, hbefore]

/-- A booking whose number is tracked is not needed any more. -/
theorem Remembers.erase {t : World} {booking : Booking} {number : OrderNumber}
    (h : s.Remembers number) (hkept : ∀ number ∈ s.world.tracked, number ∈ t.tracked)
    (htracked : booking.order.number ∈ t.tracked) :
    Remembers { s with world := t, bookings := s.bookings.erase booking } number := by
  rcases h with hold | ⟨other, hother, hnew, hnumber⟩ | hfailed
  · exact .inl (hkept number hold)
  · by_cases hsame : other = booking
    · exact .inl (by rw [← hnumber, hsame]; exact htracked)
    · exact .inr (.inl ⟨other, (List.mem_erase_of_ne hsame).mpr hother, hnew, hnumber⟩)
  · exact .inr (.inr hfailed)

/-- A call that brings its order to the queue keeps a site sound: the number is tracked then. -/
theorem Sound.arrive (h : s.Sound) (booking : Booking) {id : Nat}
    (hfresh : s.world.partiesOf id = 0) (hnew : booking.order.number ∉ s.world.tracked) :
    (s.arrived booking id).Sound where
  running := ⟨h.running.isOpen, h.running.notCancelled⟩
  traced :=
    (step_account h.traced.single.distinct (.arrive id booking.order hfresh hnew)).traced h.traced
  consistent := h.consistent
  unearned := h.unearned
  runners := h.runners
  remembers number order hfound hopen :=
    (h.remembers number order hfound hopen).erase (fun _ => List.mem_cons_of_mem _)
      (List.mem_cons_self ..)

/-- A call that is turned away keeps a site sound: the number is tracked already. -/
theorem Sound.turn_away (h : s.Sound) (booking : Booking)
    (htracked : booking.order.number ∈ s.world.tracked) :
    (s.turnedAway booking).Sound where
  running := h.running
  traced := h.traced
  consistent := h.consistent
  unearned := h.unearned
  runners := h.runners
  remembers number order hfound hopen :=
    (h.remembers number order hfound hopen).erase (fun _ => id) htracked

/-- Whoever attempts an order after a step of the pipeline has a sound attempt on it. -/
theorem Sound.runners_moved (h : s.Sound) (t : World) (id : Nat) (order : Order)
    (hattempting : t.pipeline.activity? id = some (.attempting order)) :
    ∃ r, (s.moved t).runners id = some r ∧ r.number = order.number ∧ r.Sound s.store := by
  simp only [moved, hattempting]
  split
  · rename_i hbefore
    exact h.runners id order hbefore
  · exact ⟨_, rfl, rfl, Runner.sound_start s.store order.number⟩

/-- A move of the pipeline keeps a site sound: no number is released. -/
theorem Sound.move (h : s.Sound) {action : Action} {events : List Event} {t : World}
    (hmove : action.isMove = true) (hstep : Pipeline.Step s.world action events t) :
    (s.moved t).Sound := by
  obtain ⟨hrunning, htracked⟩ := h.running.move h.traced.single.distinct hmove hstep
  have htraced := (step_account h.traced.single.distinct hstep).traced h.traced
  have hnone : s.world.lostBy action = [] := by
    cases action <;> first | rfl | cases hmove
  rw [hnone] at htraced
  refine ⟨hrunning, htraced, h.consistent, h.unearned, h.runners_moved t, ?_⟩
  intro number order hfound hopen
  have hremembers := h.remembers number order hfound hopen
  unfold Remembers at hremembers ⊢
  rw [← htracked] at hremembers
  exact hremembers

/-- The end of an attempt keeps a site sound: a number is released after a success, and then its
order is finished, or after a failure for good. -/
theorem Sound.conclude (h : s.Sound) {id : Nat} {order : Order} {r : Runner} {result : JobResult}
    {events : List Event} {t : World}
    (hattempting : s.world.pipeline.activity? id = some (.attempting order))
    (hr : s.runners id = some r) (hdone : r.attempt = .done result)
    (hstep : Pipeline.Step s.world (.conclude id result) events t) :
    (s.concluded t order.number result).Sound := by
  obtain ⟨hrunning, hkept⟩ := h.running.conclude hattempting hstep
  have htraced := (step_account h.traced.single.distinct hstep).traced h.traced
  refine ⟨hrunning, htraced, h.consistent, h.unearned, h.runners_moved t, ?_⟩
  intro number found hfound hopen
  change s.store.order? number = some found at hfound
  rcases h.remembers number found hfound hopen with htracked | hbooked | hfailed
  · rcases hkept number htracked with hstill | ⟨hown, hsuccess | hfatal⟩
    · exact .inl hstill
    · -- The attempt has succeeded, so its order is finished.
      obtain ⟨runner, hrunner, hnumber, hsound⟩ := h.runners id order hattempting
      obtain rfl : r = runner := Option.some.inj (hr.symm.trans hrunner)
      obtain ⟨finished, hlookup, hterminal⟩ := hsound.success (hdone.trans (by rw [hsuccess]))
      rw [hnumber, ← hown, hfound] at hlookup
      cases hlookup
      rw [hopen] at hterminal
      cases hterminal
    · exact .inr (.inr (List.mem_append_right _ hfatal))
  · exact .inr (.inl hbooked)
  · exact .inr (.inr (List.mem_append_left _ hfailed))

/-- An attempt that goes on keeps a site sound: it stores no new order. -/
theorem Sound.act (h : s.Sound) {id : Nat} {order : Order} {r : Runner} (action : Runner.Action)
    (hattempting : s.world.pipeline.activity? id = some (.attempting order))
    (hr : s.runners id = some r) : (s.acted id r action).Sound := by
  have hwrites := r.act_writes s.store action
  obtain ⟨runner, hrunner, hown, hsound⟩ := h.runners id order hattempting
  obtain rfl : r = runner := Option.some.inj (hr.symm.trans hrunner)
  refine ⟨h.running, h.traced, hwrites.keep Store.Write.consistent h.consistent,
    hwrites.keep Store.Write.unearned h.unearned, ?_, ?_⟩
  · intro other found hother
    by_cases hsame : other = id
    · subst hsame
      change s.world.pipeline.activity? other = _ at hother
      rw [hattempting] at hother
      cases hother
      refine ⟨_, Function.update_self .., ?_, hsound.act h.consistent h.unearned action⟩
      exact (r.act_number s.store action).trans hown
    · obtain ⟨q, hq, hnumber, hqsound⟩ := h.runners other found hother
      exact ⟨q, (Function.update_of_ne hsame ..).trans hq, hnumber, hqsound.later hwrites⟩
  · intro number found hfound hopen
    cases hbefore : s.store.order? number with
    | none =>
        change (r.act s.store action).2.order? number = some found at hfound
        rw [r.act_lookup_none action hbefore] at hfound
        cases hfound
    | some earlier =>
        exact h.remembers number earlier hbefore (unfinished_before hwrites hbefore hfound hopen)

/-- Every step keeps a site sound. -/
theorem Sound.step {ω : Type} {x : Surroundings ω} {t : Site} (h : s.Sound) (hstep : Step x s t) :
    t.Sound := by
  cases hstep with
  | submit user text w => exact h.answered (Service.submit_effect x s.store w user text).booked
  | withdraw user text amount w =>
      exact h.answered (Service.withdraw_effect x s.store w user text amount).booked
  | arrive booking id _ hfresh hnew => exact h.arrive booking hfresh hnew
  | turnAway booking _ htracked => exact h.turn_away booking htracked
  | move action events t hmove hstep => exact h.move hmove hstep
  | act id order r action hattempting hr _ => exact h.act action hattempting hr
  | conclude id order r result events t hattempting hr hdone hstep =>
      exact h.conclude hattempting hr hdone hstep

/-- A site is sound after any steps. -/
theorem sound_of_steps {ω : Type} {x : Surroundings ω} {capacity : Nat}
    (h : Relation.ReflTransGen (Step x) (ofCapacity capacity) s) : s.Sound := by
  induction h with
  | refl => exact sound_of_capacity capacity
  | tail _ hstep ih => exact ih.step hstep

/-- After any steps, whatever the accrual system replies: an order that is new or being processed is
tracked and has one job, or the call that has stored it has not brought it to the queue yet, or an
attempt on it has failed for good. -/
theorem no_order_forgotten {ω : Type} {x : Surroundings ω} {capacity : Nat} {s : Site}
    (h : Relation.ReflTransGen (Step x) (ofCapacity capacity) s) (number : OrderNumber)
    (order : Order) (hfound : s.store.order? number = some order)
    (hopen : order.status = .new ∨ order.status = .processing) :
    (number ∈ s.world.tracked ∧ s.world.jobsOf number = 1) ∨
    (∃ booking ∈ s.bookings, booking.isNew = true ∧ booking.order.number = number) ∨
    number ∈ s.failed := by
  have hsound := sound_of_steps h
  have hunfinished : order.status.isTerminal = false := by
    rcases hopen with hnew | hprocessing
    · rw [hnew]; rfl
    · rw [hprocessing]; rfl
  refine (hsound.remembers number order hfound hunfinished).imp_left fun htracked => ⟨htracked, ?_⟩
  have hone := hsound.traced.single.once number
  have hjob : ¬ s.world.jobsOf number = 0 := fun hnone =>
    List.not_mem_nil ((hsound.traced.stranded number).mp ⟨htracked, hnone⟩)
  omega

/-- An order is uploaded and brought to the queue, a worker attempts it and claims it, and the
accrual system replies with something that the protocol does not allow: the order is being
processed, and all that is left of it is that an attempt has failed. -/
theorem no_order_forgotten_failed :
    ∃ (s : Site) (order : Order),
      Relation.ReflTransGen (Step .still) (ofCapacity 1) s ∧
      s.store.order? newOrder.number = some order ∧ order.status = .processing ∧
      newOrder.number ∉ s.world.tracked ∧ s.bookings = [] ∧ newOrder.number ∈ s.failed := by
  have hstart : Relation.ReflTransGen (Step .still) (ofCapacity 1) (ofCapacity 1) := .refl
  have hsubmitted := hstart.tail (.submit default "18" 0)
  have harrived := hsubmitted.tail
    (.arrive ⟨newOrder, true⟩ 1 (by decide +kernel) (by decide +kernel) (by decide +kernel))
  have hqueued := harrived.tail
    (.move _ _ _ rfl (.offer ⟨1, newOrder⟩ _ _ (by decide +kernel) rfl))
  have hworker := hqueued.tail (.move _ _ _ rfl (.addWorker 7 (by decide +kernel)))
  have hreceived := hworker.tail (.move _ _ _ rfl
    (.receive 7 newOrder [] (by decide +kernel) (by decide +kernel) (by decide +kernel)))
  have hread := hreceived.tail
    (.act 7 newOrder _ (.step default) (by decide +kernel) rfl (by simp))
  have hclaimed := hread.tail
    (.act 7 newOrder _ (.step default) (by decide +kernel) rfl (by simp))
  have hheard := hclaimed.tail
    (.act 7 newOrder _ (.hear (.error (.unexpected "status 500"))) (by decide +kernel) rfl
      (by simp))
  have hfailed := hheard.tail
    (.conclude 7 newOrder _ (.fatal "unexpected accrual response: status 500") _ _
      (by decide +kernel) rfl (by decide +kernel) (.fail 7 newOrder _ (by decide +kernel)))
  refine ⟨_, { newOrder with status := .processing }, hfailed, by decide +kernel, rfl,
    by decide +kernel, by decide +kernel, ?_⟩
  rcases no_order_forgotten hfailed newOrder.number { newOrder with status := .processing }
    (by decide +kernel) (.inr rfl) with ⟨htracked, _⟩ | ⟨booking, hbooking, _⟩ | hnumber
  · exact absurd htracked (by decide +kernel)
  · exact absurd (List.length_pos_of_mem hbooking) (by decide +kernel)
  · exact hnumber

end Site

end Rewards

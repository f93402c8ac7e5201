import Rewards.Proofs.Pipeline.Conservation

/-!
# Shutdown

After the shutdown signal has been given nobody puts an order into the buffer or takes one out of
it, and no attempt begins. Whoever still has an order gives it up sooner or later and releases its
number: a call that brings it returns that it is refused, and a worker or a retry drops it, a worker
perhaps after a pause or after leaving it to a retry. A `Drain` says what becomes of the jobs in a
run after the signal. The main statement is `shutdown_drains`: when nobody but the buffer has an
order any more, the tracked numbers are those of the buffer.
-/

namespace Rewards.Pipeline

/-- A step of a party that sees the shutdown signal as it is. The party may have looked some time
before whether the queue is open. -/
inductive PromptStep (s : World) : Action → List Event → World → Prop where
  | now {action : Action} {events : List Event} {t : World} :
      Step s action events t → PromptStep s action events t
  | late {action : Action} {events : List Event} {t : World} (isOpen : Bool) :
      Step (s.withFlags isOpen s.pipeline.isCancelled) action events t →
      PromptStep s action events (t.withFlags s.pipeline.queue.isOpen s.pipeline.isCancelled)

/-- No call is dropped in the step, and no worker crashes or is aborted. -/
def Action.isGraceful : Action → Bool
  | .dropCall _ | .crash _ | .abort _ => false
  | _ => true

/-- Where a job may be later that is not put into the buffer: an attempt ends in a pause or is left
to a retry. -/
def Place.onward : Place → List Place
  | .attempt => [.attempt, .pause, .retry]
  | place => [place]

/-- What can be seen when a call gives up: its number is released, and the call returns. -/
def refusal (id : Nat) (number : OrderNumber) (e : QueueError) : List Event :=
  [.released number, .returned id number (.error e)]

/-- What becomes of the jobs in a run after the shutdown signal. No job gets into the buffer or out
of it, and no attempt begins. A job outside the buffer stays where it is, passes on to a pause or
to a retry, or has its number released. A call goes on, or is refused and its number is released.
The only other reply that anybody gets is that the number is already tracked. -/
structure Drain (s : World) (log : List Event) (t : World) : Prop where
  signal : t.pipeline.isCancelled = true
  buffer : t.ordersIn .buffer = s.ordersIn .buffer
  processed : t.counters.processed = s.counters.processed
  attempts : ∀ order ∈ t.ordersIn .attempt, order ∈ s.ordersIn .attempt
  jobs : ∀ place, ∀ order ∈ s.ordersIn place,
    (∃ next ∈ place.onward, order ∈ t.ordersIn next) ∨ .released order.number ∈ log
  calls : ∀ x ∈ s.senders, x.id ∈ s.calls →
    (x ∈ t.senders ∧ x.id ∈ t.calls) ∨ ∃ e, refusal x.id x.order.number e <:+: log
  replies : ∀ id number result, .returned id number result ∈ log →
    result = .ok .alreadyTracked ∨ ∃ e, result = .error e ∧ refusal id number e <:+: log

/-- Nobody but the buffer has an order. -/
structure World.AtRest (s : World) : Prop where
  senders : s.senders = []
  attempts : s.ordersIn .attempt = []
  pauses : s.ordersIn .pause = []
  retries : s.ordersIn .retry = []

variable {s t u : World}

/-- Whoever sees the signal as it is takes a step all the same. -/
theorem PromptStep.late_step {action : Action} {events : List Event}
    (h : PromptStep s action events t) : LateStep s action events t := by
  cases h with
  | now hstep => exact .now hstep
  | late isOpen hstep => exact .late isOpen _ hstep

/-! ## Runs without losses -/

/-- What holds as long as no job is lost: the tracked numbers are those with a job, and every call
that goes on is bringing an order. -/
structure World.Intact (s : World) : Prop where
  traced : s.Traced []
  calling : s.Calling

/-- Graceful steps lose no job. -/
theorem World.Intact.step (h : s.Intact) {action : Action} {events : List Event}
    (haction : action.isGraceful = true) (hstep : PromptStep s action events t) : t.Intact where
  traced := by
    have htraced := late_step_traced h.traced hstep.late_step
    have hlost : s.lostBy action = [] := by
      cases action <;> first | rfl | cases haction
    rwa [hlost] at htraced
  calling := (late_step_calls h.traced.single.distinct h.calling hstep.late_step).calling

/-- Graceful runs lose no job. -/
theorem World.Intact.run (h : s.Intact) {actions : List Action} {log : List Event}
    (hrun : Run PromptStep s actions log t)
    (hgraceful : ∀ action ∈ actions, action.isGraceful = true) : t.Intact := by
  induction hrun with
  | nil => exact h
  | concat _ hstep ih =>
      have hbefore := ih fun action hmem => hgraceful action (List.mem_append_left _ hmem)
      exact hbefore.step (hgraceful _ (List.mem_append_right _ (List.mem_singleton_self _))) hstep

/-- Before anything happens no job is lost. -/
theorem World.intact_of_capacity (capacity : Nat) : (World.ofCapacity capacity).Intact :=
  ⟨World.traced_of_capacity capacity, fun _ h => nomatch h⟩

/-- The parties are those who bring an order, the orders in the buffer, the workers and the
retries. -/
theorem World.mem_parties {x : Party} :
    x ∈ s.parties ↔ (∃ sender ∈ s.senders, .ofSender sender = x) ∨
      (∃ order ∈ s.pipeline.queue.buffer, .ofOrder order = x) ∨
      (∃ worker ∈ s.pipeline.workers, .ofWorker worker = x) ∨
      ∃ retry ∈ s.pipeline.retries, .ofRetry retry = x := by
  simp only [parties, State.parties, senders, List.mem_append, List.mem_map, or_and_right,
    exists_or, or_assoc]

/-- The number of every party's order is tracked. -/
theorem World.Single.tracked_of_party (h : s.Single) {x : Party} (hx : x ∈ s.parties)
    {number : OrderNumber} (hnumber : x.number = some number) : number ∈ s.tracked := by
  refine h.tracked number (List.countP_pos_iff.mpr ⟨x, hx, ?_⟩)
  rw [Party.hasOrder, hnumber]
  exact beq_self_eq_true _

/-- Two of those who bring an order have the same identifier only if they are the same. -/
theorem World.Distinct.eq_of_mem_senders (h : s.Distinct) {x y : Sender} (hx : x ∈ s.senders)
    (hy : y ∈ s.senders) (hid : x.id = y.id) : x = y := by
  have hunique : s.senders.countP (·.id == y.id) ≤ 1 := by
    have hsum := s.count_senders_le (Party.isCalled y.id)
    have hone := h y.id
    unfold World.partiesOf at hone
    have hsame : (Party.isCalled y.id ∘ Party.ofSender) = fun z : Sender => z.id == y.id := rfl
    rw [hsame] at hsum
    omega
  have hmem : x ∈ s.senders.filter (·.id == y.id) :=
    List.mem_filter.mpr ⟨hx, beq_iff_eq.mpr hid⟩
  rwa [filter_key_eq Sender.id hy hunique, List.mem_singleton] at hmem

/-! ## Steps after the signal -/

/-- After the signal an order that is brought to the queue is refused. -/
theorem State.send_or_release_cancelled {p : State} (h : p.isCancelled = true) (id : Nat)
    (order : Order) :
    ∃ e, p.sendOrRelease id order = (p.onQueue (·.release order.number), .refused e) := by
  rcases send_or_release_cases p id order with ⟨_, hrefused⟩ | ⟨_, hnot, _⟩ | ⟨_, hnot, _⟩
  · exact hrefused
  · exact absurd (h.symm.trans hnot) Bool.noConfusion
  · exact absurd (h.symm.trans hnot) Bool.noConfusion

/-- After the signal whoever is in line gives up. -/
theorem World.Distinct.resume_sender_cancelled (hs : s.Distinct)
    (h : s.pipeline.isCancelled = true) {sender : Sender}
    (hsender : sender ∈ s.pipeline.queue.waiting) :
    s.pipeline.resumeSender sender.id =
      ((s.pipeline.onQueue (·.leave sender.id)).onQueue (·.release sender.order.number),
        .refused .cancelled) := by
  rcases State.resume_sender_cases hsender (hs.pipeline sender.id) with
    ⟨_, hrefused⟩ | ⟨hnot, _⟩ | ⟨hnot, _⟩
  · exact hrefused
  · exact absurd (h.symm.trans hnot) Bool.noConfusion
  · exact absurd (h.symm.trans hnot) Bool.noConfusion

/-- The number was tracked and is released in the step. -/
structure World.Releases (s t : World) (number : OrderNumber) : Prop where
  before : number ∈ s.tracked
  after : t.tracked = s.tracked.filter (· != number)

/-- What a step after the signal does to the places: nothing, an attempt passes its job on, or a job
that is not a call's has its number released, or a call is refused. -/
inductive Exit (s t : World) : List Event → Prop where
  | stay (events : List Event) :
      (∀ event ∈ events, ∃ id number, event = .returned id number (.ok .alreadyTracked)) →
      (∀ place q, t.count place q = s.count place q) → Exit s t events
  | pass (target : Place) (order : Order) :
      target ∈ Place.attempt.onward →
      (∀ place q, t.count place q + Place.part .attempt place (q order) =
        s.count place q + Place.part target place (q order)) → Exit s t []
  | drop (source : Place) (order : Order) :
      (∀ place q, t.count place q + Place.part source place (q order) = s.count place q) →
      s.Releases t order.number → Exit s t []
  | refuse (id : Nat) (number : OrderNumber) (e : QueueError) :
      (∀ place q, t.count place q = s.count place q) →
      s.Releases t number → Exit s t [.returned id number (.error e)]

/-- A call on its way to the queue is refused. -/
theorem offer_exit (h : s.Intact) (hsignal : s.pipeline.isCancelled = true) {sender : Sender}
    (hsender : sender ∈ s.arriving) {pipeline : State} {offer : Offer}
    (hsend : s.pipeline.sendOrRelease sender.id sender.order = (pipeline, offer)) :
    Exit s
      { s with
        pipeline := pipeline,
        arriving := s.arriving.filter (·.id != sender.id),
        calls := s.callsAfter sender offer }
      (s.returnedBy sender offer) := by
  have hdistinct := h.traced.single.distinct
  obtain ⟨e, heq⟩ := State.send_or_release_cancelled hsignal sender.id sender.order
  rw [hsend] at heq
  cases heq
  have hcounts (place : Place) (q : Order → Bool) :
      (s.pipeline.onQueue (·.release sender.order.number)).count
        (s.calls.filter (· != sender.id)) place q = s.pipeline.count s.calls place q :=
    -- Nobody in line has the identifier of the call that returns.
    State.count_without_call (p := s.pipeline) _ _ _ fun x hx =>
      hdistinct.waiting_ne_arriving hsender hx
  by_cases hcall : sender.id ∈ s.calls
  · have hevents : s.returnedBy sender (.refused e) =
        [.returned sender.id sender.order.number (.error e)] := if_pos hcall
    rw [hevents]
    refine .refuse _ _ _ hcounts
      ⟨h.traced.single.tracked_of_party (x := .ofSender sender) ?_ rfl, rfl⟩
    exact World.mem_parties.mpr (.inl ⟨sender, World.mem_senders.mpr (.inl hsender), rfl⟩)
  · have hevents : s.returnedBy sender (.refused e) = [] := if_neg hcall
    rw [hevents]
    exact .stay _ (fun _ hmem => nomatch hmem) hcounts

/-- Somebody in line gives up: a call is refused, and a retry drops its order. -/
theorem resume_exit (h : s.Intact) (hsignal : s.pipeline.isCancelled = true) {sender : Sender}
    (hsender : sender ∈ s.pipeline.queue.waiting) {pipeline : State} {offer : Offer}
    (hresume : s.pipeline.resumeSender sender.id = (pipeline, offer)) :
    Exit s { s with pipeline := pipeline, calls := s.callsAfter sender offer }
      (s.returnedBy sender offer) := by
  have hdistinct := h.traced.single.distinct
  have heq := hdistinct.resume_sender_cancelled hsignal hsender
  rw [hresume] at heq
  cases heq
  have hcounts (place : Place) (q : Order → Bool) :
      ((s.pipeline.onQueue (·.leave sender.id)).onQueue
          (·.release sender.order.number)).count (s.calls.filter (· != sender.id)) place q +
        Place.part .retry place (q sender.order && decide (sender.id ∉ s.calls)) =
        s.pipeline.count s.calls place q :=
    State.count_leave_call s.calls place q hsender (hdistinct.pipeline sender.id)
  have hreleases : s.Releases
      { s with
        pipeline := (s.pipeline.onQueue (·.leave sender.id)).onQueue
          (·.release sender.order.number),
        calls := s.calls.filter (· != sender.id) } sender.order.number := by
    refine ⟨h.traced.single.tracked_of_party (x := .ofSender sender) ?_ rfl, rfl⟩
    exact World.mem_parties.mpr (.inl ⟨sender, World.mem_senders.mpr (.inr hsender), rfl⟩)
  by_cases hcall : sender.id ∈ s.calls
  · have hevents : s.returnedBy sender (.refused .cancelled) =
        [.returned sender.id sender.order.number (.error .cancelled)] := if_pos hcall
    rw [hevents]
    refine .refuse _ _ _ (fun place q => ?_) hreleases
    have hcount := hcounts place q
    have hnone : Place.part .retry place (q sender.order && decide (sender.id ∉ s.calls)) = 0 := by
      simp [hcall]
    rw [hnone] at hcount
    exact hcount
  · have hevents : s.returnedBy sender (.refused .cancelled) = [] := if_neg hcall
    rw [hevents]
    refine .drop .retry sender.order (fun place q => ?_) hreleases
    have hcount := hcounts place q
    simp only [hcall, not_false_eq_true, decide_true, Bool.and_true] at hcount
    exact hcount

/-- A worker who ends for good with an order drops it. -/
theorem finish_exit (h : s.Intact) {id : Nat} {activity : Activity} {order : Order}
    (hfound : s.pipeline.activity? id = some activity) (source : Place)
    (hsource : ∀ place q, ((activity.orderIn place).any q).toNat =
      Place.part source place (q order))
    (horder : activity.order? = some order) (noted : Counters → Counters) :
    Exit s (s.onPipeline fun p => (p.finish id order).onQueue (·.count noted)) [] := by
  refine .drop source order (fun place q => ?_) ⟨?_, rfl⟩
  · have hfinish := State.count_finish s.calls place q hfound
      (h.traced.single.distinct.pipeline id) order
    rw [hsource] at hfinish
    exact hfinish
  · refine h.traced.single.tracked_of_party (x := .ofWorker (id, activity)) ?_ ?_
    · exact World.mem_parties.mpr (.inr (.inr (.inl ⟨_, State.mem_of_activity hfound, rfl⟩)))
    · simp [Party.ofWorker, horder]

/-- Every graceful step after the signal is such an exit. -/
theorem step_exit (h : s.Intact) (hsignal : s.pipeline.isCancelled = true) {action : Action}
    {events : List Event} (haction : action.isGraceful = true) (hstep : Step s action events t) :
    Exit s t events := by
  have hdistinct := h.traced.single.distinct
  have hquiet : ∀ event ∈ ([] : List Event),
      ∃ id number, event = .returned id number (.ok .alreadyTracked) := fun _ hmem => nomatch hmem
  cases hstep with
  | dropArrival | dropCall | crash | abort => cases haction
  -- Nobody receives an order, ends a pause or wakes up after the signal.
  | receive _ _ _ _ hnot | endPause _ _ _ hnot | wakeRetry _ _ _ hnot =>
      exact absurd (hsignal.symm.trans hnot) Bool.noConfusion
  | addWorker id => exact .stay _ hquiet fun _ _ => State.count_add_worker _ _ _ id
  | arrive id order hfresh =>
      refine .stay _ hquiet fun place q => ?_
      exact State.count_with_call (p := s.pipeline) _ _ _ fun x hx =>
        World.ne_of_mem_senders (World.mem_senders.mpr (.inr hx)) hfresh
  | turnAway id order =>
      refine .stay _ (fun event hmem => ?_) fun _ _ => rfl
      exact ⟨id, order.number, List.mem_singleton.mp hmem⟩
  | offer sender pipeline offer hsender hsend => exact offer_exit h hsignal hsender hsend
  | resume sender pipeline offer hsender hresume => exact resume_exit h hsignal hsender hresume
  | succeed id order hfound =>
      exact finish_exit h hfound .attempt (fun place q => State.any_attempting place q order) rfl _
  | fail id order reason hfound =>
      exact finish_exit h hfound .attempt (fun place q => State.any_attempting place q order) rfl _
  | interruptPause id order hfound =>
      exact finish_exit h hfound .pause (fun place q => State.any_pausing place q order) rfl
        fun c => c
  | retryLater id order retry hfound =>
      exact .pass .retry order (by decide) fun place q =>
        State.count_retry_later s.calls place q hfound (hdistinct.pipeline id) retry
  | expire id order retry hfound =>
      exact .pass .retry order (by decide) fun place q =>
        State.count_retry_later
          (p := s.pipeline.onQueue (·.count fun c => { c with timedOut := c.timedOut + 1 })) s.calls
          place q hfound (hdistinct.pipeline id) retry
  | pause id order milliseconds hfound =>
      refine .pass .pause order (by decide) fun place q => ?_
      have hpause := State.count_set_activity
        (p := s.pipeline.onQueue (·.count fun c => { c with paused := c.paused + 1 })) s.calls place
        q hfound (hdistinct.pipeline id) (.pausing order)
      rw [State.any_attempting, State.any_pausing] at hpause
      exact hpause
  | cancelRetry id order hfound =>
      refine .drop .retry order (fun place q => ?_) ⟨?_, rfl⟩
      · exact State.count_remove_retry s.calls place q hfound (hdistinct.pipeline id)
      · refine h.traced.single.tracked_of_party (x := .ofRetry (id, order)) ?_ rfl
        exact World.mem_parties.mpr (.inr (.inr (.inr ⟨_, State.mem_of_retry_order hfound, rfl⟩)))
  | leave id hfound =>
      refine .stay _ hquiet fun place q => ?_
      have hremove := State.count_remove_worker s.calls place q hfound (hdistinct.pipeline id)
      rw [State.any_idle] at hremove
      exact hremove
  | stop | cancel => exact .stay _ hquiet fun _ _ => rfl

/-! ## From exits to drains -/

/-- An order is in a place if it counts there. -/
theorem World.mem_orders_in {place : Place} {order : Order} :
    order ∈ s.ordersIn place ↔ 0 < s.count place (· == order) := by
  rw [count, List.countP_pos_iff]
  simp

/-- What is counted in another place, or is another order, makes no difference. -/
theorem Place.part_other {source place : Place} {order other : Order}
    (h : ¬ (place = source ∧ other = order)) : source.part place (other == order) = 0 := by
  unfold Place.part
  split
  · rename_i hplace
    have hother : other ≠ order := fun hsame => h ⟨hplace, hsame⟩
    simp [hother]
  · rfl

/-- The release of the number is the last thing that can be seen before the replies. -/
theorem World.Releases.until {number : OrderNumber} (h : s.Releases t number) :
    ∃ front, s.releasedUntil t = front ++ [.released number] := by
  have hafter : number ∉ t.tracked := by simp [h.after]
  have hmem := mem_released_until h.before hafter
  rcases List.eq_nil_or_concat' (s.releasedUntil t) with hnil | ⟨front, last, heq⟩
  · rw [hnil] at hmem
    cases hmem
  · have hlast : last ∈ s.releasedUntil t := by
      rw [heq]
      exact List.mem_append_right _ (List.mem_singleton_self _)
    obtain ⟨other, hother, rfl⟩ := List.mem_map.mp hlast
    obtain ⟨htracked, hgone⟩ := List.mem_filter.mp hother
    have hsame : other = number := by
      by_contra hne
      simp [h.after, htracked, hne] at hgone
    exact ⟨front, by rw [heq, hsame]⟩

variable {events : List Event}

/-- No attempt begins in an exit. -/
theorem Exit.attempts (h : Exit s t events) {order : Order} (hmem : order ∈ t.ordersIn .attempt) :
    order ∈ s.ordersIn .attempt := by
  rw [World.mem_orders_in] at hmem ⊢
  cases h with
  | stay _ _ hcounts | refuse _ _ _ hcounts => exact hcounts _ _ ▸ hmem
  | pass target other htarget hcounts =>
      have hcount := hcounts .attempt (· == order)
      have hpart : target.part .attempt (other == order) ≤
          Place.part .attempt .attempt (other == order) := by
        rw [Place.part_self]
        unfold Place.part
        split <;> omega
      omega
  | drop source other hcounts =>
      have hcount := hcounts .attempt (· == order)
      omega

/-- In an exit a job stays where it is, passes on, or has its number released. -/
theorem Exit.jobs (h : Exit s t events) {place : Place} {order : Order}
    (hmem : order ∈ s.ordersIn place) :
    (∃ next ∈ place.onward, order ∈ t.ordersIn next) ∨
      .released order.number ∈ s.releasedUntil t := by
  have hself : place ∈ place.onward := by cases place <;> decide
  simp only [World.mem_orders_in] at hmem ⊢
  cases h with
  | stay _ _ hcounts | refuse _ _ _ hcounts => exact .inl ⟨place, hself, hcounts _ _ ▸ hmem⟩
  | pass target other htarget hcounts =>
      by_cases hmoved : place = .attempt ∧ other = order
      · obtain ⟨rfl, rfl⟩ := hmoved
        refine .inl ⟨target, htarget, ?_⟩
        have hcount := hcounts target (· == other)
        rw [Place.part_self, beq_self_eq_true, Bool.toNat_true] at hcount
        have hpart : Place.part .attempt target true ≤ 1 := by
          unfold Place.part
          split <;> decide
        by_cases hsame : target = .attempt
        · rw [hsame] at hcount ⊢
          rw [Place.part_self, Bool.toNat_true] at hcount
          omega
        · have hnone : Place.part .attempt target true = 0 := if_neg hsame
          omega
      · have hcount := hcounts place (· == order)
        rw [Place.part_other hmoved] at hcount
        exact .inl ⟨place, hself, by omega⟩
  | drop source other hcounts hreleases =>
      by_cases hdropped : place = source ∧ other = order
      · obtain ⟨rfl, rfl⟩ := hdropped
        obtain ⟨front, heq⟩ := hreleases.until
        rw [heq]
        exact .inr (List.mem_append_right _ (List.mem_singleton_self _))
      · have hcount := hcounts place (· == order)
        rw [Place.part_other hdropped] at hcount
        exact .inl ⟨place, hself, by omega⟩

/-- What a call returns in an exit. -/
theorem Exit.replies (h : Exit s t events) {id : Nat} {number : OrderNumber}
    {result : Except QueueError Enqueued} (hmem : .returned id number result ∈ events) :
    result = .ok .alreadyTracked ∨
      ∃ e, result = .error e ∧ refusal id number e <:+: s.releasedUntil t ++ events := by
  cases h with
  | stay _ hquiet =>
      obtain ⟨other, number, heq⟩ := hquiet _ hmem
      cases heq
      exact .inl rfl
  | pass | drop => cases hmem
  | refuse other number e _ hreleases =>
      cases List.mem_singleton.mp hmem
      obtain ⟨front, heq⟩ := hreleases.until
      refine .inr ⟨e, rfl, front, [], ?_⟩
      rw [heq, refusal]
      simp

/-- In a step after the signal a call that brings an order goes on or is refused. -/
theorem step_refuses (h : s.Distinct) (hsignal : s.pipeline.isCancelled = true) {action : Action}
    (haction : action.isGraceful = true) (hstep : Step s action events t) {x : Sender}
    (hx : x ∈ s.senders) (hcall : x.id ∈ s.calls) :
    (x ∈ t.senders ∧ x.id ∈ t.calls) ∨
      ∃ e, events = [.returned x.id x.order.number (.error e)] := by
  cases hstep with
  | dropArrival | dropCall | crash | abort => cases haction
  | receive _ _ _ _ hnot | endPause _ _ _ hnot | wakeRetry _ _ _ hnot =>
      exact absurd (hsignal.symm.trans hnot) Bool.noConfusion
  | arrive id order =>
      refine .inl ⟨?_, List.mem_append_left _ hcall⟩
      rcases World.mem_senders.mp hx with hx | hx
      · exact World.mem_senders.mpr (.inl (List.mem_append_left _ hx))
      · exact World.mem_senders.mpr (.inr hx)
  | offer sender pipeline offer hsender hsend =>
      obtain ⟨e, heq⟩ := State.send_or_release_cancelled hsignal sender.id sender.order
      rw [hsend] at heq
      cases heq
      by_cases hid : x.id = sender.id
      · obtain rfl := h.eq_of_mem_senders hx (World.mem_senders.mpr (.inl hsender)) hid
        exact .inr ⟨e, if_pos hcall⟩
      · refine .inl ⟨?_, List.mem_filter.mpr ⟨hcall, by simpa using hid⟩⟩
        rcases World.mem_senders.mp hx with hx | hx
        · exact World.mem_senders.mpr (.inl (List.mem_filter.mpr ⟨hx, by simpa using hid⟩))
        · exact World.mem_senders.mpr (.inr hx)
  | resume sender pipeline offer hsender hresume =>
      have heq := h.resume_sender_cancelled hsignal hsender
      rw [hresume] at heq
      cases heq
      by_cases hid : x.id = sender.id
      · obtain rfl := h.eq_of_mem_senders hx (World.mem_senders.mpr (.inr hsender)) hid
        exact .inr ⟨.cancelled, if_pos hcall⟩
      · refine .inl ⟨?_, List.mem_filter.mpr ⟨hcall, by simpa using hid⟩⟩
        rcases World.mem_senders.mp hx with hx | hx
        · exact World.mem_senders.mpr (.inl hx)
        · exact World.mem_senders.mpr (.inr (List.mem_filter.mpr ⟨hx, by simpa using hid⟩))
  | _ => exact .inl ⟨hx, hcall⟩

/-- After the signal no step takes it back, changes the buffer or counts an attempt. -/
theorem step_still (h : s.Distinct) (hsignal : s.pipeline.isCancelled = true) {action : Action}
    (hstep : Step s action events t) :
    t.pipeline.isCancelled = true ∧ t.ordersIn .buffer = s.ordersIn .buffer ∧
      t.counters.processed = s.counters.processed := by
  cases hstep with
  | receive _ _ _ _ hnot | endPause _ _ _ hnot | wakeRetry _ _ _ hnot =>
      exact absurd (hsignal.symm.trans hnot) Bool.noConfusion
  | offer sender pipeline offer _ hsend =>
      obtain ⟨e, heq⟩ := State.send_or_release_cancelled hsignal sender.id sender.order
      rw [hsend] at heq
      cases heq
      exact ⟨hsignal, rfl, rfl⟩
  | resume sender pipeline offer hsender hresume =>
      have heq := h.resume_sender_cancelled hsignal hsender
      rw [hresume] at heq
      cases heq
      exact ⟨hsignal, rfl, rfl⟩
  | cancel => exact ⟨rfl, rfl, rfl⟩
  | _ => exact ⟨hsignal, rfl, rfl⟩

/-- Every graceful step after the signal drains. -/
theorem step_drain (h : s.Intact) (hsignal : s.pipeline.isCancelled = true) {action : Action}
    (haction : action.isGraceful = true) (hstep : Step s action events t) :
    Drain s (s.releasedUntil t ++ events) t := by
  have hdistinct := h.traced.single.distinct
  have hexit := step_exit h hsignal haction hstep
  obtain ⟨hcancelled, hbuffer, hprocessed⟩ := step_still hdistinct hsignal hstep
  refine ⟨hcancelled, hbuffer, hprocessed, fun _ => hexit.attempts, fun place order hmem => ?_,
    fun x hx hcall => ?_, fun id number result hmem => ?_⟩
  · exact (hexit.jobs hmem).imp_right (List.mem_append_left _)
  · refine (step_refuses hdistinct hsignal haction hstep hx hcall).imp_right ?_
    rintro ⟨e, rfl⟩
    rcases hexit.replies (List.mem_singleton_self _) with hturned | ⟨_, heq, hrefusal⟩
    · cases hturned
    · cases heq
      exact ⟨e, hrefusal⟩
  · rcases List.mem_append.mp hmem with hmem | hmem
    · obtain ⟨_, _, heq⟩ := List.mem_map.mp hmem
      cases heq
    · exact hexit.replies hmem

/-- It makes no difference whether the queue is open. -/
theorem prompt_step_drain (h : s.Intact) (hsignal : s.pipeline.isCancelled = true)
    {action : Action} (haction : action.isGraceful = true) (hstep : PromptStep s action events t) :
    Drain s (s.releasedUntil t ++ events) t := by
  cases hstep with
  | now hstep => exact step_drain h hsignal haction hstep
  | late isOpen hstep =>
      have hflags : (s.withFlags isOpen s.pipeline.isCancelled).Intact :=
        ⟨⟨⟨h.traced.single.distinct, h.traced.single.once, h.traced.single.tracked⟩,
          h.traced.stranded⟩, h.calling⟩
      have hdrain := step_drain hflags hsignal haction hstep
      exact ⟨hsignal, hdrain.buffer, hdrain.processed, hdrain.attempts, hdrain.jobs, hdrain.calls,
        hdrain.replies⟩

/-! ## From steps to runs -/

/-- Where a job may be later it may be later still. -/
theorem Place.onward_trans {place next last : Place} (hnext : next ∈ place.onward)
    (hlast : last ∈ next.onward) : last ∈ place.onward := by
  cases place <;> cases next <;> cases last <;> revert hnext hlast <;> decide

/-- Without steps nothing becomes of the jobs. -/
theorem Drain.refl (hsignal : s.pipeline.isCancelled = true) : Drain s [] s where
  signal := hsignal
  buffer := rfl
  processed := rfl
  attempts _ h := h
  jobs place order h := .inl ⟨place, by cases place <;> decide, h⟩
  calls _ hx hcall := .inl ⟨hx, hcall⟩
  replies _ _ _ h := nomatch h

/-- What becomes of the jobs first and what becomes of them then. -/
theorem Drain.trans {log later : List Event} (h : Drain s log t) (hnext : Drain t later u) :
    Drain s (log ++ later) u where
  signal := hnext.signal
  buffer := hnext.buffer.trans h.buffer
  processed := hnext.processed.trans h.processed
  attempts order hmem := h.attempts order (hnext.attempts order hmem)
  jobs place order hmem := by
    rcases h.jobs place order hmem with ⟨next, hplace, hmem⟩ | hreleased
    · rcases hnext.jobs next order hmem with ⟨last, hlater, hmem⟩ | hreleased
      · exact .inl ⟨last, Place.onward_trans hplace hlater, hmem⟩
      · exact .inr (List.mem_append_right _ hreleased)
    · exact .inr (List.mem_append_left _ hreleased)
  calls x hx hcall := by
    rcases h.calls x hx hcall with ⟨hx, hcall⟩ | ⟨e, hrefusal⟩
    · refine (hnext.calls x hx hcall).imp_right ?_
      rintro ⟨e, hrefusal⟩
      exact ⟨e, hrefusal.trans (List.suffix_append _ _).isInfix⟩
    · exact .inr ⟨e, hrefusal.trans (List.prefix_append _ _).isInfix⟩
  replies id number result hmem := by
    rcases List.mem_append.mp hmem with hmem | hmem
    · refine (h.replies id number result hmem).imp_right ?_
      rintro ⟨e, heq, hrefusal⟩
      exact ⟨e, heq, hrefusal.trans (List.prefix_append _ _).isInfix⟩
    · refine (hnext.replies id number result hmem).imp_right ?_
      rintro ⟨e, heq, hrefusal⟩
      exact ⟨e, heq, hrefusal.trans (List.suffix_append _ _).isInfix⟩

/-- Every graceful run after the signal drains. -/
theorem Run.drain {actions : List Action} {log : List Event} (hrun : Run PromptStep s actions log t)
    (h : s.Intact) (hsignal : s.pipeline.isCancelled = true)
    (hgraceful : ∀ action ∈ actions, action.isGraceful = true) : Drain s log t := by
  induction hrun with
  | nil => exact .refl hsignal
  | concat hbefore hstep ih =>
      have hearlier := fun action hmem => hgraceful action (List.mem_append_left _ hmem)
      have hdrain := ih hearlier
      refine hdrain.trans (prompt_step_drain (h.run hbefore hearlier) hdrain.signal ?_ hstep)
      exact hgraceful _ (List.mem_append_right _ (List.mem_singleton_self _))

/-! ## The end -/

/-- When nobody but the buffer has an order, the tracked numbers are those of the buffer. -/
theorem World.AtRest.tracked (hrest : s.AtRest) (h : s.Intact) (number : OrderNumber) :
    number ∈ s.tracked ↔ number ∈ (s.ordersIn .buffer).map (·.number) := by
  have hjobs : s.jobsOf number = (s.ordersIn .buffer).countP (·.number == number) := by
    obtain ⟨harriving, hwaiting⟩ := List.append_eq_nil_iff.mp hrest.senders
    rw [jobs_eq, accepted, hrest.attempts, hrest.pauses, hrest.retries, broughtOf, harriving,
      hwaiting]
    simp
  have hmem : number ∈ (s.ordersIn .buffer).map (·.number) ↔ 0 < s.jobsOf number := by
    rw [hjobs, List.countP_pos_iff, List.mem_map]
    simp
  rw [hmem]
  constructor
  · intro htracked
    refine Nat.pos_of_ne_zero fun hnone => ?_
    cases (h.traced.stranded number).mp ⟨htracked, hnone⟩
  · exact h.traced.single.tracked number

/-- The party has an order and is not the buffer. -/
def Party.isBusy (x : Party) : Bool := x.id.isSome && x.number.isSome

/-- When no party is busy, nobody but the buffer has an order. -/
theorem World.at_rest_of_tally (h : s.tally Party.isBusy = 0) : s.AtRest := by
  have hidle (x : Party) (hx : x ∈ s.parties) : x.isBusy = false := by
    simpa using List.countP_eq_zero.mp h x hx
  have hsenders : s.senders = [] := by
    refine List.eq_nil_iff_forall_not_mem.mpr fun sender hsender => ?_
    cases hidle _ (mem_parties.mpr (.inl ⟨sender, hsender, rfl⟩))
  have hworkers (place : Place) :
      s.pipeline.workers.filterMap (·.2.orderIn place) = [] := by
    refine List.eq_nil_iff_forall_not_mem.mpr fun order hmem => ?_
    obtain ⟨⟨id, activity⟩, hworker, horder⟩ := List.mem_filterMap.mp hmem
    have hnone := hidle _ (mem_parties.mpr (.inr (.inr (.inl ⟨_, hworker, rfl⟩))))
    cases activity with
    | idle => cases place <;> cases horder
    | attempting | pausing => cases hnone
  refine ⟨hsenders, hworkers .attempt, hworkers .pause, ?_⟩
  have hwaiting : s.pipeline.queue.waiting = [] := (List.append_eq_nil_iff.mp hsenders).2
  have hretries : s.pipeline.retries = [] := by
    refine List.eq_nil_iff_forall_not_mem.mpr fun retry hretry => ?_
    cases hidle _ (mem_parties.mpr (.inr (.inr (.inr ⟨retry, hretry, rfl⟩))))
  show s.pipeline.retries.map _ ++ (s.pipeline.queue.waiting.filter _).map _ = []
  rw [hretries, hwaiting]
  rfl

/-- After the signal every busy party can take a step after which it is not busy any more. -/
theorem World.Intact.exists_step (h : s.Intact) (hsignal : s.pipeline.isCancelled = true)
    {x : Party} (hx : x ∈ s.parties) (hbusy : x.isBusy = true) :
    ∃ action events t, action.isGraceful = true ∧ Step s action events t ∧
      t.tally Party.isBusy + 1 = s.tally Party.isBusy := by
  have hdistinct := h.traced.single.distinct
  rcases World.mem_parties.mp hx with ⟨sender, hsender, rfl⟩ | ⟨order, _, rfl⟩ |
    ⟨⟨id, activity⟩, hworker, rfl⟩ | ⟨⟨id, order⟩, hretry, rfl⟩
  · rcases World.mem_senders.mp hsender with hsender | hsender
    · obtain ⟨e, heq⟩ := State.send_or_release_cancelled hsignal sender.id sender.order
      refine ⟨_, _, _, rfl, .offer sender _ _ hsender heq, ?_⟩
      have harrived := hdistinct.tally_arrived hsender Party.isBusy
      rw [hbusy, Bool.toNat_true] at harrived
      rw [tally_eq, tally_eq s, ← harrived]
      exact Nat.add_right_comm _ _ _
    · have heq := hdistinct.resume_sender_cancelled hsignal hsender
      refine ⟨_, _, _, rfl, .resume sender _ _ hsender heq, ?_⟩
      have hleave := State.tally_leave hsender (hdistinct.pipeline sender.id) Party.isBusy
      rw [hbusy, Bool.toNat_true] at hleave
      rw [tally_eq, tally_eq s, ← hleave]
      rfl
  · cases hbusy
  · have hfound : s.pipeline.activity? id = some activity :=
      lookup_of_mem hworker (State.workers_unique (hdistinct.pipeline id))
    have hfinish (order : Order) :=
      State.tally_finish hfound (hdistinct.pipeline id) order Party.isBusy
    rw [hbusy] at hfinish
    cases activity with
    | idle => cases hbusy
    | attempting order =>
        refine ⟨_, _, _, rfl, .succeed id order hfound, ?_⟩
        rw [tally_on_pipeline, tally_eq, Nat.add_assoc]
        exact congrArg _ (hfinish order)
    | pausing order =>
        refine ⟨_, _, _, rfl, .interruptPause id order hfound hsignal, ?_⟩
        rw [tally_on_pipeline, tally_eq, Nat.add_assoc]
        exact congrArg _ (hfinish order)
  · have hfound : s.pipeline.retryOrder? id = some order :=
      lookup_of_mem hretry (State.retries_unique (hdistinct.pipeline id))
    refine ⟨_, _, _, rfl, .cancelRetry id order hfound hsignal, ?_⟩
    have hremove := State.tally_remove_retry hfound (hdistinct.pipeline id) Party.isBusy
    rw [hbusy, Bool.toNat_true] at hremove
    rw [tally_on_pipeline, tally_eq, ← hremove]
    rfl

/-- A graceful run after the signal can go on until nobody but the buffer has an order. -/
theorem World.Intact.exists_rest (h : s.Intact) (hsignal : s.pipeline.isCancelled = true)
    {actions : List Action} {log : List Event} (hrun : Run PromptStep s actions log t)
    (hgraceful : ∀ action ∈ actions, action.isGraceful = true) :
    ∃ actions log u, Run PromptStep s actions log u ∧
      (∀ action ∈ actions, action.isGraceful = true) ∧ u.AtRest := by
  -- Each step leaves one busy party less.
  induction hbusy : t.tally Party.isBusy generalizing actions log t with
  | zero => exact ⟨actions, log, t, hrun, hgraceful, at_rest_of_tally hbusy⟩
  | succ n ih =>
      have hpos : 0 < t.tally Party.isBusy := by omega
      obtain ⟨x, hx, hxbusy⟩ := List.countP_pos_iff.mp hpos
      obtain ⟨action, events, u, haction, hstep, hless⟩ :=
        (h.run hrun hgraceful).exists_step (hrun.drain h hsignal hgraceful).signal hx hxbusy
      refine ih (hrun.concat (.now hstep)) (fun other hmem => ?_) (by omega)
      rcases List.mem_append.mp hmem with hmem | hmem
      · exact hgraceful other hmem
      · rw [List.mem_singleton.mp hmem]
        exact haction

/-- After the shutdown signal, in every run in which no call is dropped and no worker crashes or is
aborted, however late the parties see whether the queue is open: the jobs drain. The world `s` is
any one after the signal, so this covers a call that arrives later as well. When nobody but the
buffer has an order any more, the tracked numbers are those of the orders that were in the buffer
when the signal was given, and every run can go on until then. -/
theorem shutdown_drains {capacity : Nat} {earlier later : List Action} {before after : List Event}
    {s t : World} (hbefore : Run PromptStep (.ofCapacity capacity) earlier before s)
    (hsignal : s.pipeline.isCancelled = true) (hafter : Run PromptStep s later after t)
    (hgraceful : ∀ action ∈ earlier ++ later, action.isGraceful = true) :
    Drain s after t ∧
    (t.AtRest → ∀ number, number ∈ t.tracked ↔ number ∈ (s.ordersIn .buffer).map (·.number)) ∧
    ∃ rest log u, Run PromptStep t rest log u ∧
      (∀ action ∈ rest, action.isGraceful = true) ∧ u.AtRest := by
  have hintact := (World.intact_of_capacity capacity).run hbefore fun action hmem =>
    hgraceful action (List.mem_append_left _ hmem)
  have hlater := fun action hmem => hgraceful action (List.mem_append_right _ hmem)
  have hdrain := hafter.drain hintact hsignal hlater
  have hend := hintact.run hafter hlater
  refine ⟨hdrain, fun hrest number => ?_, ?_⟩
  · rw [hrest.tracked hend, hdrain.buffer]
  · exact hend.exists_rest hdrain.signal .nil fun _ hmem => nomatch hmem

/-- A run can go on from where another one has ended. -/
theorem Run.onward {R : World → Action → List Event → World → Prop} {actions : List Action}
    {log : List Event} (_ : Run R s actions log t) : Run R t [] [] t := .nil

/-- A third new order. -/
def thirdOrder : Order := Order.upload ⟨"34", by decide⟩ default default

/-- When the signal is given, a worker attempts one order, a second one is in the buffer, and a call
waits in line with a third one. The attempt ends in a pause, which is broken off, and the call is
refused: of the three numbers only that of the buffer is tracked. -/
theorem shutdown_drains_in_line :
    ∃ (earlier later : List Action) (before after : List Event) (s t : World),
      Run PromptStep (.ofCapacity 1) earlier before s ∧ s.pipeline.isCancelled = true ∧
      Run PromptStep s later after t ∧
      (∀ action ∈ earlier ++ later, action.isGraceful = true) ∧ t.AtRest ∧
      (∃ e, refusal 3 thirdOrder.number e <:+: after) ∧
      .released newOrder.number ∈ after ∧
      newOrder.number ∉ t.tracked ∧ secondOrder.number ∈ t.tracked ∧
      thirdOrder.number ∉ t.tracked := by
  have hstart : Run PromptStep (.ofCapacity 1) [] [] (.ofCapacity 1) := .nil
  have hworker := hstart.concat (.now (.addWorker 7 rfl))
  have hfirst := hworker.concat (.now (.arrive 1 newOrder rfl (by decide +kernel)))
  have hqueued := hfirst.concat (.now (.offer ⟨1, newOrder⟩ _ _ (by decide +kernel) rfl))
  have hreceived := hqueued.concat (.now (.receive 7 newOrder [] rfl rfl rfl))
  have hsecond := hreceived.concat (.now (.arrive 2 secondOrder rfl (by decide +kernel)))
  have hfull := hsecond.concat (.now (.offer ⟨2, secondOrder⟩ _ _ (by decide +kernel) rfl))
  have hthird := hfull.concat (.now (.arrive 3 thirdOrder rfl (by decide +kernel)))
  have hwaiting := hthird.concat (.now (.offer ⟨3, thirdOrder⟩ _ _ (by decide +kernel) rfl))
  have hcancelled := hwaiting.concat (.now .cancel)
  have hpaused := hcancelled.onward.concat (.now (.pause 7 newOrder 60000 rfl))
  have hbroken := hpaused.concat (.now (.interruptPause 7 newOrder rfl rfl))
  have hrefused := hbroken.concat (.now (.resume ⟨3, thirdOrder⟩ _ _ (by decide +kernel) rfl))
  have hgraceful : ∀ action ∈ [Action.addWorker 7, .arrive 1, .offer 1, .receive 7, .arrive 2,
      .offer 2, .arrive 3, .offer 3, .cancel] ++
      [.conclude 7 (.pauseWorkerFor 60000), .interruptPause 7, .resume 3],
      action.isGraceful = true := by
    decide
  obtain ⟨hdrain, htracked, _⟩ := shutdown_drains hcancelled rfl hrefused hgraceful
  have hnumbers := htracked (World.at_rest_of_tally (by decide +kernel))
  refine ⟨_, _, _, _, _, _, hcancelled, rfl, hrefused, hgraceful,
    World.at_rest_of_tally (by decide +kernel), ?_, ?_, ?_, ?_, ?_⟩
  · exact (hdrain.calls ⟨3, thirdOrder⟩ (by decide +kernel) (by decide +kernel)).resolve_left
      (by decide +kernel)
  · exact (hdrain.jobs .attempt newOrder (by decide +kernel)).resolve_left (by decide +kernel)
  · rw [hnumbers]
    decide +kernel
  · rw [hnumbers]
    decide +kernel
  · rw [hnumbers]
    decide +kernel

end Rewards.Pipeline

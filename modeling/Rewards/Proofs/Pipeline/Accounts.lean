import Rewards.Proofs.Pipeline.Offers

/-!
# Accounts of steps

An `Account` says what a step does to the parties and to the tracked numbers: a job begins, passes
from one party to another, ends with its number released, or is lost. The main statement,
`step_account`, says that every step has one, as long as different parties have different
identifiers, and that no jobs are lost but those of `World.lostBy`. Invariants of the jobs look at
the accounts and not at the steps.
-/

namespace Rewards.Pipeline

namespace State

variable {p : State} {id : Nat} {order : Order}

/-- A worker who gives an order up becomes idle. -/
theorem tally_finish {activity : Activity} (hfound : p.activity? id = some activity)
    (hunique : p.tally (Party.isCalled id) ≤ 1) (order : Order) (q : Party → Bool) :
    (p.finish id order).tally q + (q (.ofWorker (id, activity))).toNat =
      p.tally q + (q ⟨some id, none⟩).toNat :=
  tally_set_activity (p := p.onQueue (·.release order.number)) hfound hunique .idle q

/-- A worker who starts an attempt has the order. -/
theorem tally_start_attempt {activity : Activity} (hfound : p.activity? id = some activity)
    (hunique : p.tally (Party.isCalled id) ≤ 1) (order : Order) (q : Party → Bool) :
    (p.startAttempt id order).tally q + (q (.ofWorker (id, activity))).toNat =
      p.tally q + (q ⟨some id, some order.number⟩).toNat :=
  tally_set_activity (p := p.onQueue (·.count fun c => { c with processed := c.processed + 1 }))
    hfound hunique (.attempting order) q

/-- A worker who pauses keeps the order. -/
theorem tally_pause {activity : Activity} (hfound : p.activity? id = some activity)
    (hunique : p.tally (Party.isCalled id) ≤ 1) (order : Order) (q : Party → Bool) :
    (p.pause id order).tally q + (q (.ofWorker (id, activity))).toNat =
      p.tally q + (q ⟨some id, some order.number⟩).toNat :=
  tally_set_activity (p := p.onQueue (·.count fun c => { c with paused := c.paused + 1 }))
    hfound hunique (.pausing order) q

/-- A worker who receives an order takes it from the buffer. -/
theorem tally_receive {rest : List Order} (hfound : p.activity? id = some .idle)
    (hunique : p.tally (Party.isCalled id) ≤ 1) (hbuffer : p.queue.buffer = order :: rest)
    (q : Party → Bool) :
    (p.receive id).tally q + (q ⟨none, some order.number⟩).toNat + (q ⟨some id, none⟩).toNat =
      p.tally q + (q ⟨some id, some order.number⟩).toNat := by
  have htake := tally_take hbuffer q
  have hstart := tally_start_attempt (p := p.onQueue fun queue => { queue with buffer := rest })
    hfound (unique_take hbuffer hunique) order q
  rw [receive_eq hbuffer]
  simp only [Party.ofOrder, Party.ofWorker, Activity.order?, Option.map_none] at htake hstart
  omega

/-- A worker whose order is to be retried becomes idle, and the retry has the order. -/
theorem tally_retry_later {activity : Activity} (hfound : p.activity? id = some activity)
    (hunique : p.tally (Party.isCalled id) ≤ 1) (order : Order) (retry : Nat) (q : Party → Bool) :
    (p.retryLater id order retry).tally q + (q (.ofWorker (id, activity))).toNat =
      p.tally q + (q ⟨some id, none⟩).toNat + (q ⟨some retry, some order.number⟩).toNat := by
  have hidle := tally_set_activity hfound hunique .idle q
  have hone : [(retry, order)].countP (q ∘ Party.ofRetry) =
      (q ⟨some retry, some order.number⟩).toNat := by
    cases hq : q ⟨some retry, some order.number⟩ <;> simp [Party.ofRetry, hq]
  simp only [tally_eq, retryLater, onQueue, Queue.count, List.countP_append, hone] at hidle ⊢
  simp only [Party.ofWorker, Activity.order?, Option.map_none] at hidle ⊢
  omega

end State

namespace World

/-- The parties are those on their way to the queue and those of the pipeline. -/
theorem tally_eq (s : World) (q : Party → Bool) :
    s.tally q = s.arriving.countP (q ∘ .ofSender) + s.pipeline.tally q := by
  simp only [tally, parties, List.countP_append, List.countP_map, State.tally]

/-- A change of the pipeline leaves those on their way to the queue alone. -/
theorem tally_on_pipeline (s : World) (f : State → State) (q : Party → Bool) :
    (s.onPipeline f).tally q = s.arriving.countP (q ∘ .ofSender) + (f s.pipeline).tally q :=
  tally_eq _ q

/-- Different parties have different identifiers. -/
def Distinct (s : World) : Prop := ∀ id, s.partiesOf id ≤ 1

variable {s : World}

/-- In the pipeline, too, different parties have different identifiers. -/
theorem Distinct.pipeline (h : s.Distinct) (id : Nat) :
    s.pipeline.tally (Party.isCalled id) ≤ 1 := by
  have hone := h id
  rw [partiesOf, tally_eq] at hone
  omega

/-- A call that is no longer on its way goes. -/
theorem Distinct.tally_arrived (h : s.Distinct) {sender : Sender} (hsender : sender ∈ s.arriving)
    (q : Party → Bool) :
    (s.arriving.filter (·.id != sender.id)).countP (q ∘ .ofSender) +
      (q (.ofSender sender)).toNat = s.arriving.countP (q ∘ .ofSender) := by
  have hone := h sender.id
  rw [partiesOf, tally_eq] at hone
  have hsame : (Party.isCalled sender.id ∘ Party.ofSender) = fun z : Sender => z.id == sender.id :=
    rfl
  rw [hsame] at hone
  exact count_remove Sender.id hsender (by omega) (q ∘ .ofSender)

end World

/-- The numbers whose jobs are lost in a step: of a call that is dropped, and of the order that a
worker has who crashes or is aborted. -/
def World.lostBy (s : World) : Action → List OrderNumber
  | .dropCall id =>
      ((s.arriving ++ s.pipeline.queue.waiting).filter (·.id == id)).map (·.order.number)
  | .crash id | .abort id => ((s.pipeline.activity? id).bind (·.order?)).toList.map (·.number)
  | _ => []

/-- What a step does to the parties and to the tracked numbers. In `same` nothing happens to them,
`join` and `depart` are of workers without an order, in `begin` a call tracks a number, and in
`deliver`, `take`, `put` and `hand` a job passes from one party to another. In `finish` and `give`
a job ends, with and without a worker who remains, and in `lose` it goes with the party that has
it; the account lists the numbers that are lost in this way. -/
inductive Account (s t : World) : List OrderNumber → Prop where
  | same : t.tracked = s.tracked → (∀ q, t.tally q = s.tally q) → Account s t []
  | join (id : Nat) :
      s.partiesOf id = 0 → t.tracked = s.tracked →
      (∀ q, t.tally q = s.tally q + (q ⟨some id, none⟩).toNat) → Account s t []
  | depart (id : Nat) :
      t.tracked = s.tracked →
      (∀ q, t.tally q + (q ⟨some id, none⟩).toNat = s.tally q) → Account s t []
  | begin (id : Nat) (number : OrderNumber) :
      s.partiesOf id = 0 → number ∉ s.tracked → t.tracked = number :: s.tracked →
      (∀ q, t.tally q = s.tally q + (q ⟨some id, some number⟩).toNat) → Account s t []
  | deliver (id : Nat) (number : OrderNumber) :
      t.tracked = s.tracked →
      (∀ q, t.tally q + (q ⟨some id, some number⟩).toNat =
        s.tally q + (q ⟨none, some number⟩).toNat) → Account s t []
  | take (id : Nat) (number : OrderNumber) :
      t.tracked = s.tracked →
      (∀ q, t.tally q + (q ⟨none, some number⟩).toNat + (q ⟨some id, none⟩).toNat =
        s.tally q + (q ⟨some id, some number⟩).toNat) → Account s t []
  | put (id : Nat) (number : OrderNumber) :
      t.tracked = s.tracked →
      (∀ q, t.tally q + (q ⟨some id, some number⟩).toNat =
        s.tally q + (q ⟨none, some number⟩).toNat + (q ⟨some id, none⟩).toNat) → Account s t []
  | hand (id retry : Nat) (number : OrderNumber) :
      s.partiesOf retry = 0 → t.tracked = s.tracked →
      (∀ q, t.tally q + (q ⟨some id, some number⟩).toNat =
        s.tally q + (q ⟨some id, none⟩).toNat + (q ⟨some retry, some number⟩).toNat) →
      Account s t []
  | finish (id : Nat) (number : OrderNumber) :
      t.tracked = s.tracked.filter (· != number) →
      (∀ q, t.tally q + (q ⟨some id, some number⟩).toNat =
        s.tally q + (q ⟨some id, none⟩).toNat) → Account s t []
  | give (id : Nat) (number : OrderNumber) :
      t.tracked = s.tracked.filter (· != number) →
      (∀ q, t.tally q + (q ⟨some id, some number⟩).toNat = s.tally q) → Account s t []
  | lose (id : Nat) (number : OrderNumber) :
      t.tracked = s.tracked →
      (∀ q, t.tally q + (q ⟨some id, some number⟩).toNat = s.tally q) → Account s t [number]

variable {s t : World}

/-- A party that brings its order to the queue hands the job over, waits with it, or ends it. The
pipeline `p` is without this party. -/
theorem bring_account {p : State} {arriving : List Sender} {id : Nat} {order : Order}
    (htracked : p.queue.tracked = s.tracked)
    (hgone : ∀ q, arriving.countP (q ∘ .ofSender) + p.tally q +
      (q ⟨some id, some order.number⟩).toNat = s.tally q) (calls : List Nat) :
    Account s ⟨(p.sendOrRelease id order).1, arriving, calls⟩ [] := by
  rcases State.send_or_release_cases p id order with ⟨_, e, heq⟩ | ⟨_, _, _, heq⟩ | ⟨_, _, _, heq⟩
  · rw [heq]
    refine .give id order.number (by rw [← htracked]; rfl) fun q => ?_
    rw [← hgone q, World.tally_eq]
    rfl
  · rw [heq]
    refine .deliver id order.number htracked fun q => ?_
    have hq := hgone q
    have hpush := State.tally_push p order q
    rw [World.tally_eq ⟨_, arriving, calls⟩]
    simp only [Party.ofOrder] at hpush ⊢
    omega
  · rw [heq]
    refine .same htracked fun q => ?_
    have hq := hgone q
    have hawait := State.tally_await p ⟨id, order⟩ q
    rw [World.tally_eq ⟨_, arriving, calls⟩]
    simp only [Party.ofSender] at hawait ⊢
    omega

/-- Going on in line hands the job over or ends it. -/
theorem resume_account (h : s.Distinct) {sender : Sender}
    (hsender : sender ∈ s.pipeline.queue.waiting) {pipeline : State} {offer : Offer}
    (hresume : s.pipeline.resumeSender sender.id = (pipeline, offer)) (calls : List Nat) :
    Account s ⟨pipeline, s.arriving, calls⟩ [] := by
  have hleave := State.tally_leave hsender (h.pipeline sender.id)
  simp only [Party.ofSender] at hleave
  rcases State.resume_sender_cases hsender (h.pipeline sender.id) with
    ⟨_, heq⟩ | ⟨_, _, heq⟩ | ⟨_, _, heq⟩
  · rw [hresume] at heq
    cases heq
    refine .give sender.id sender.order.number rfl fun q => ?_
    have hq := hleave q
    have hpipeline : ((s.pipeline.onQueue (·.leave sender.id)).onQueue
      (·.release sender.order.number)).tally q = (s.pipeline.onQueue (·.leave sender.id)).tally q :=
        rfl
    rw [World.tally_eq, World.tally_eq, hpipeline]
    simp only
    omega
  · rw [hresume] at heq
    cases heq
    refine .deliver sender.id sender.order.number rfl fun q => ?_
    have hq := hleave q
    have hpush := State.tally_push (s.pipeline.onQueue (·.leave sender.id)) sender.order q
    rw [World.tally_eq, World.tally_eq]
    simp only [Party.ofOrder] at hpush ⊢
    omega
  · rw [hresume] at heq
    cases heq
    exact .same rfl fun q => by rw [World.tally_eq, World.tally_eq]

/-- The end of a pause ends the job, passes it on, or has the worker attempt it again. -/
theorem resume_pause_account (h : s.Distinct) {id : Nat} {order : Order}
    (hfound : s.pipeline.activity? id = some (.pausing order)) :
    Account s (s.onPipeline (·.resumePause id order)) [] := by
  have hunique := h.pipeline id
  show Account s { s with pipeline := s.pipeline.resumePause id order } []
  rcases State.resume_pause_cases s.pipeline id order with ⟨_, heq⟩ | ⟨_, _, heq⟩ | ⟨_, _, heq⟩
  · rw [heq]
    refine .finish id order.number rfl fun q => ?_
    have hfinish := State.tally_finish hfound hunique order q
    simp only [World.tally_eq, Party.ofWorker, Activity.order?, Option.map_some] at hfinish ⊢
    omega
  · rw [heq]
    refine .put id order.number rfl fun q => ?_
    have hpush := State.tally_push s.pipeline order q
    have hpushed := State.tally_push s.pipeline order (Party.isCalled id)
    have hidle := State.tally_set_activity (p := s.pipeline.onQueue (·.push order)) hfound
      (by rw [hpushed]; exact hunique) .idle q
    simp only [World.tally_eq, Party.ofOrder, Party.ofWorker, Activity.order?, Option.map_some,
      Option.map_none] at hpush hidle ⊢
    omega
  · rw [heq]
    refine .same rfl fun q => ?_
    have hstart := State.tally_start_attempt hfound hunique order q
    simp only [World.tally_eq, Party.ofWorker, Activity.order?, Option.map_some] at hstart ⊢
    omega

/-- A worker without an order who is taken away departs, and one with an order takes it along. -/
theorem remove_account (h : s.Distinct) {id : Nat} {activity : Activity}
    (hfound : s.pipeline.activity? id = some activity) :
    Account s (s.onPipeline (·.removeWorker id)) (activity.order?.toList.map (·.number)) := by
  have hremove := State.tally_remove_worker hfound (h.pipeline id)
  cases hheld : activity.order? with
  | none =>
      refine .depart id rfl fun q => ?_
      have hq := hremove q
      rw [World.tally_on_pipeline, World.tally_eq]
      simp only [Party.ofWorker, hheld, Option.map_none] at hq
      omega
  | some order =>
      refine .lose id order.number rfl fun q => ?_
      have hq := hremove q
      rw [World.tally_on_pipeline, World.tally_eq]
      simp only [Party.ofWorker, hheld, Option.map_some] at hq
      omega

/-- A call that is dropped loses the job for its order and no other. -/
theorem World.Distinct.lost_by_drop (h : s.Distinct) {sender : Sender}
    (hsender : sender ∈ s.arriving ++ s.pipeline.queue.waiting) :
    s.lostBy (.dropCall sender.id) = [sender.order.number] := by
  have hunique : (s.arriving ++ s.pipeline.queue.waiting).countP (·.id == sender.id) ≤ 1 := by
    have hone := h sender.id
    rw [World.partiesOf, World.tally_eq, State.tally_eq] at hone
    have hsame : (Party.isCalled sender.id ∘ Party.ofSender) =
      fun z : Sender => z.id == sender.id := rfl
    rw [hsame] at hone
    rw [List.countP_append]
    omega
  rw [World.lostBy, filter_key_eq Sender.id hsender hunique]
  rfl

/-- A worker who is taken away loses the job for the order that he has. -/
theorem World.lost_by_worker {id : Nat} {activity : Activity}
    (hfound : s.pipeline.activity? id = some activity) :
    s.lostBy (.crash id) = activity.order?.toList.map (·.number) ∧
      s.lostBy (.abort id) = activity.order?.toList.map (·.number) := by
  simp only [World.lostBy, hfound, Option.bind_some, and_self]

/-- Every step has an account. -/
theorem step_account (h : s.Distinct) {action : Action} {events : List Event}
    (hstep : Step s action events t) : Account s t (s.lostBy action) := by
  cases hstep with
  | addWorker id hfresh =>
      refine .join id hfresh rfl fun q => ?_
      have hadd := State.tally_add_worker s.pipeline id q
      rw [World.tally_on_pipeline, World.tally_eq]
      omega
  | arrive id order hfresh hnew =>
      refine .begin id order.number hfresh hnew rfl fun q => ?_
      have hone : [(⟨id, order⟩ : Sender)].countP (q ∘ Party.ofSender) =
          (q ⟨some id, some order.number⟩).toNat := by
        cases hq : q ⟨some id, some order.number⟩ <;> simp [Party.ofSender, hq]
      have htrack : (s.pipeline.onQueue (·.track order.number)).tally q = s.pipeline.tally q := rfl
      rw [World.tally_eq, World.tally_eq, List.countP_append, hone, htrack]
      omega
  | turnAway => exact .same rfl fun _ => rfl
  | offer sender pipeline offer hsender hsend =>
      have hpipeline : pipeline = (s.pipeline.sendOrRelease sender.id sender.order).1 := by
        rw [hsend]
      subst hpipeline
      refine bring_account rfl (fun q => ?_) _
      have harrived := h.tally_arrived hsender q
      rw [World.tally_eq]
      simp only [Party.ofSender] at harrived
      omega
  | resume sender pipeline offer hsender hresume => exact resume_account h hsender hresume _
  | dropArrival sender hsender =>
      rw [h.lost_by_drop (List.mem_append_left _ hsender)]
      refine .lose sender.id sender.order.number rfl fun q => ?_
      have harrived := h.tally_arrived hsender q
      rw [World.tally_eq, World.tally_eq s]
      simp only [Party.ofSender] at harrived ⊢
      omega
  | dropCall sender hsender hcall =>
      rw [h.lost_by_drop (List.mem_append_right _ hsender)]
      refine .lose sender.id sender.order.number rfl fun q => ?_
      have hleave := State.tally_leave hsender (h.pipeline sender.id) q
      rw [World.tally_eq, World.tally_eq s]
      simp only [Party.ofSender, State.dropSender] at hleave ⊢
      omega
  | receive id order rest hfound hopen hbuffer =>
      refine .take id order.number ?_ fun q => ?_
      · show (s.pipeline.receive id).queue.tracked = _
        rw [State.receive_eq hbuffer]
        rfl
      · have hreceive := State.tally_receive hfound (h.pipeline id) hbuffer q
        rw [World.tally_on_pipeline, World.tally_eq]
        omega
  | succeed id order hfound | fail id order _ hfound | interruptPause id order hfound _ =>
      refine .finish id order.number rfl fun q => ?_
      have hfinish := State.tally_finish hfound (h.pipeline id) order q
      rw [World.tally_on_pipeline, World.tally_eq]
      show _ + (s.pipeline.finish id order).tally q + _ = _
      simp only [Party.ofWorker, Activity.order?, Option.map_some] at hfinish
      omega
  | retryLater id order retry hfound hfresh | expire id order retry hfound hfresh =>
      refine .hand id retry order.number hfresh rfl fun q => ?_
      have hretry := State.tally_retry_later hfound (h.pipeline id) order retry q
      rw [World.tally_on_pipeline, World.tally_eq]
      show _ + (s.pipeline.retryLater id order retry).tally q + _ = _
      simp only [Party.ofWorker, Activity.order?, Option.map_some] at hretry
      omega
  | pause id order milliseconds hfound =>
      refine .same rfl fun q => ?_
      have hpause := State.tally_pause hfound (h.pipeline id) order q
      rw [World.tally_on_pipeline, World.tally_eq]
      simp only [Party.ofWorker, Activity.order?, Option.map_some] at hpause
      omega
  | crash id order hfound =>
      rw [(World.lost_by_worker hfound).1]
      exact remove_account h hfound
  | abort id activity hfound =>
      rw [(World.lost_by_worker hfound).2]
      exact remove_account h hfound
  | leave id hfound hend => exact remove_account h hfound
  | endPause id order hfound hopen => exact resume_pause_account h hfound
  | wakeRetry id order hfound hopen =>
      refine bring_account (p := s.pipeline.removeRetry id) rfl (fun q => ?_) s.calls
      have hremove := State.tally_remove_retry hfound (h.pipeline id) q
      rw [World.tally_eq]
      simp only [Party.ofRetry] at hremove
      omega
  | cancelRetry id order hfound hend =>
      refine .give id order.number rfl fun q => ?_
      have hremove := State.tally_remove_retry hfound (h.pipeline id) q
      have hsame : (s.pipeline.cancelRetry id order).tally q =
        (s.pipeline.removeRetry id).tally q := rfl
      rw [World.tally_on_pipeline, World.tally_eq, hsame]
      simp only [Party.ofRetry] at hremove
      omega
  | stop | cancel => exact .same rfl fun _ => rfl

end Rewards.Pipeline

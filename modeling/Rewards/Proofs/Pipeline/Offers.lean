import Rewards.Proofs.Pipeline.Parties

/-!
# What comes of an offer

When an order that is brought to the queue is refused, has to wait, or is put into the buffer, and
what the pipeline is then.
-/

namespace Rewards.Pipeline.State

/-- A stopped queue and a shutdown refuse an order, in this order; otherwise the order gets into the
buffer or in line. -/
theorem send_cases (p : State) (id : Nat) (order : Order) :
    (p.queue.isOpen = false ∧ p.send id order = (p, .refused .closed)) ∨
    (p.queue.isOpen = true ∧ p.isCancelled = true ∧
      p.send id order = (p, .refused .cancelled)) ∨
    (p.queue.isOpen = true ∧ p.isCancelled = false ∧ p.queue.hasFreeRoom = true ∧
      p.send id order = (p.onQueue (·.push order), .sent)) ∨
    (p.queue.isOpen = true ∧ p.isCancelled = false ∧ p.queue.hasFreeRoom = false ∧
      p.send id order = (p.onQueue (·.await ⟨id, order⟩), .waits)) := by
  unfold send
  cases hopen : p.queue.isOpen with
  | false => exact .inl ⟨rfl, rfl⟩
  | true =>
      cases hcancelled : p.isCancelled with
      | true => exact .inr (.inl ⟨rfl, rfl, rfl⟩)
      | false =>
          cases hroom : p.queue.hasFreeRoom with
          | true => exact .inr (.inr (.inl ⟨rfl, rfl, rfl, rfl⟩))
          | false => exact .inr (.inr (.inr ⟨rfl, rfl, rfl, rfl⟩))

/-- An order that is refused is no longer tracked. -/
theorem send_or_release_cases (p : State) (id : Nat) (order : Order) :
    ((p.queue.isOpen = false ∨ p.isCancelled = true) ∧
      ∃ e, p.sendOrRelease id order =
        (p.onQueue (·.release order.number), .refused e)) ∨
    (p.queue.isOpen = true ∧ p.isCancelled = false ∧ p.queue.hasFreeRoom = true ∧
      p.sendOrRelease id order = (p.onQueue (·.push order), .sent)) ∨
    (p.queue.isOpen = true ∧ p.isCancelled = false ∧ p.queue.hasFreeRoom = false ∧
      p.sendOrRelease id order = (p.onQueue (·.await ⟨id, order⟩), .waits)) := by
  unfold sendOrRelease
  rcases send_cases p id order with
    ⟨hopen, heq⟩ | ⟨_, hcancelled, heq⟩ | ⟨hopen, hcancelled, hroom, heq⟩ |
    ⟨hopen, hcancelled, hroom, heq⟩
  · rw [heq]; exact .inl ⟨.inl hopen, _, rfl⟩
  · rw [heq]; exact .inl ⟨.inr hcancelled, _, rfl⟩
  · rw [heq]; exact .inr (.inl ⟨hopen, hcancelled, hroom, rfl⟩)
  · rw [heq]; exact .inr (.inr ⟨hopen, hcancelled, hroom, rfl⟩)

/-- Somebody in line gives up at a shutdown, puts the order into the buffer if there is room for it,
or goes on waiting. -/
theorem resume_sender_cases {p : State} {sender : Sender} (hsender : sender ∈ p.queue.waiting)
    (hunique : p.tally (Party.isCalled sender.id) ≤ 1) :
    (p.isCancelled = true ∧ p.resumeSender sender.id =
      ((p.onQueue (·.leave sender.id)).onQueue (·.release sender.order.number),
        .refused .cancelled)) ∨
    (p.isCancelled = false ∧ sender ∈ p.queue.granted ∧ p.resumeSender sender.id =
      ((p.onQueue (·.leave sender.id)).onQueue (·.push sender.order), .sent)) ∨
    (p.isCancelled = false ∧ sender ∉ p.queue.granted ∧
      p.resumeSender sender.id = (p, .waits)) := by
  have hfound : p.queue.waiting.find? (·.id == sender.id) = some sender := by
    rw [← List.head?_filter,
      filter_key_eq Sender.id hsender (waiting_unique hunique)]
    rfl
  unfold resumeSender
  rw [hfound]
  cases hcancelled : p.isCancelled with
  | true => exact .inl ⟨rfl, rfl⟩
  | false =>
      refine .inr ?_
      by_cases hgranted : sender ∈ p.queue.granted
      · exact .inl ⟨rfl, hgranted, by simp [hcancelled, hgranted, onQueue]⟩
      · exact .inr ⟨rfl, hgranted, by simp [hgranted]⟩

/-- A worker whose pause ends gives the order up if the queue is stopped, puts it into the buffer if
there is room that belongs to nobody, and otherwise attempts it again. -/
theorem resume_pause_cases (p : State) (id : Nat) (order : Order) :
    (p.queue.isOpen = false ∧ p.resumePause id order = p.finish id order) ∨
    (p.queue.isOpen = true ∧ p.queue.hasFreeRoom = true ∧
      p.resumePause id order = (p.onQueue (·.push order)).setActivity id .idle) ∨
    (p.queue.isOpen = true ∧ p.queue.hasFreeRoom = false ∧
      p.resumePause id order = p.startAttempt id order) := by
  unfold resumePause
  cases hopen : p.queue.isOpen with
  | false => exact .inl ⟨rfl, rfl⟩
  | true =>
      cases hroom : p.queue.hasFreeRoom with
      | true => exact .inr (.inl ⟨rfl, rfl, rfl⟩)
      | false => exact .inr (.inr ⟨rfl, rfl, rfl⟩)

end Rewards.Pipeline.State

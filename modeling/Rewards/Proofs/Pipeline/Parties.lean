import Rewards.Proofs.Pipeline.Runs

/-!
# Counting parties

How the functions of the pipeline change the number of parties that satisfy some condition `q`. A
condition on the number of an order counts jobs, one on the identifier counts those who have it.
The lemmas say which parties come in place of which, so that nothing else has to look into the
lists that the parties are kept in.
-/

namespace Rewards.Pipeline

section Keys

variable {α : Type} (key : α → Nat) {l : List α} {x : α}

/-- A single element is counted or not. -/
theorem count_singleton (x : α) (q : α → Bool) : [x].countP q = (q x).toNat := by
  cases hq : q x <;> simp [hq]

/-- If a key belongs to one element at most, it selects this element. -/
theorem filter_key_eq (hx : x ∈ l) (hunique : l.countP (key · == key x) ≤ 1) :
    l.filter (key · == key x) = [x] := by
  rw [List.countP_eq_length_filter] at hunique
  have hmem : x ∈ l.filter (key · == key x) := List.mem_filter.mpr ⟨hx, beq_self_eq_true _⟩
  obtain ⟨y, hy⟩ := List.length_eq_one_iff.mp
    (Nat.le_antisymm hunique (List.length_pos_of_mem hmem))
  rw [hy, List.mem_singleton] at hmem
  rw [hy, hmem]

/-- Removing a key that belongs to one element at most removes this element. -/
theorem count_remove (hx : x ∈ l) (hunique : l.countP (key · == key x) ≤ 1) (q : α → Bool) :
    (l.filter (key · != key x)).countP q + (q x).toNat = l.countP q := by
  -- The list is counted in two parts: what has the key, which is `x` alone, and the rest.
  have hsplit := List.countP_eq_countP_filter_add l q (key · == key x)
  rw [filter_key_eq key hx hunique] at hsplit
  have hrest : l.filter (fun y => !(key y == key x)) = l.filter (key · != key x) := rfl
  rw [count_singleton, hrest] at hsplit
  omega

/-- Replacing what has a key that belongs to one element at most replaces this element. -/
theorem count_replace (hx : x ∈ l) (hunique : l.countP (key · == key x) ≤ 1) (y : α)
    (q : α → Bool) :
    (l.map fun z => if key z = key x then y else z).countP q + (q x).toNat =
      l.countP q + (q y).toNat := by
  have hremove := count_remove key hx hunique q
  have hsplit := List.countP_eq_countP_filter_add l
    (q ∘ fun z => if key z = key x then y else z) (key · == key x)
  have hone : [x].countP (q ∘ fun z => if key z = key x then y else z) = (q y).toNat := by
    rw [count_singleton, Function.comp_apply, if_pos rfl]
  have hrest : (l.filter fun z => !(key z == key x)).countP
      (q ∘ fun z => if key z = key x then y else z) = (l.filter (key · != key x)).countP q := by
    refine List.countP_congr fun z hz => ?_
    have hother : key z ≠ key x := by simpa using (List.mem_filter.mp hz).2
    simp [hother]
  rw [List.countP_map, hsplit, filter_key_eq key hx hunique, hone, hrest]
  omega

/-- What belongs to a key that belongs to nothing else is what is found for it. -/
theorem lookup_of_mem {β : Type} {l : List (Nat × β)} {k : Nat} {v : β} (hmem : (k, v) ∈ l)
    (hunique : l.countP (·.1 == k) ≤ 1) : l.lookup k = some v := by
  obtain ⟨before, later, rfl⟩ := List.append_of_mem hmem
  refine List.lookup_eq_some_iff.mpr ⟨before, later, rfl, fun entry hentry => ?_⟩
  have hself : (((k, v) :: later).countP (·.1 == k)) = later.countP (·.1 == k) + 1 :=
    List.countP_cons_of_pos (beq_self_eq_true k)
  rw [List.countP_append, hself] at hunique
  have hnone : before.countP (·.1 == k) = 0 := by omega
  have hother := List.countP_eq_zero.mp hnone entry hentry
  exact bne_iff_ne.mpr fun hsame => hother (beq_iff_eq.mpr hsame.symm)

end Keys

namespace State

/-- How many parties of the pipeline there are. -/
def tally (p : State) (q : Party → Bool) : Nat := p.parties.countP q

/-- The parties are counted place by place. -/
theorem tally_eq (p : State) (q : Party → Bool) :
    p.tally q = p.queue.waiting.countP (q ∘ .ofSender) + p.queue.buffer.countP (q ∘ .ofOrder) +
      p.workers.countP (q ∘ .ofWorker) + p.retries.countP (q ∘ .ofRetry) := by
  simp only [tally, parties, List.countP_append, List.countP_map]

variable {p : State}

/-! ## The queue -/

/-- An order that is put into the buffer comes on top. -/
theorem tally_push (p : State) (order : Order) (q : Party → Bool) :
    (p.onQueue (·.push order)).tally q = p.tally q + (q (.ofOrder order)).toNat := by
  simp only [tally_eq, onQueue, Queue.push, List.countP_append, count_singleton,
    Function.comp_apply]
  omega

/-- Somebody who gets in line comes on top. -/
theorem tally_await (p : State) (sender : Sender) (q : Party → Bool) :
    (p.onQueue (·.await sender)).tally q = p.tally q + (q (.ofSender sender)).toNat := by
  simp only [tally_eq, onQueue, Queue.await, List.countP_append, count_singleton,
    Function.comp_apply]
  omega

/-- Nobody else in line has the same identifier. -/
theorem waiting_unique {id : Nat} (hunique : p.tally (Party.isCalled id) ≤ 1) :
    p.queue.waiting.countP (·.id == id) ≤ 1 := by
  rw [tally_eq] at hunique
  have hsame : (Party.isCalled id ∘ Party.ofSender) = fun z : Sender => z.id == id := rfl
  rw [hsame] at hunique
  omega

/-- Somebody who leaves the line goes. -/
theorem tally_leave {sender : Sender} (hsender : sender ∈ p.queue.waiting)
    (hunique : p.tally (Party.isCalled sender.id) ≤ 1) (q : Party → Bool) :
    (p.onQueue (·.leave sender.id)).tally q + (q (.ofSender sender)).toNat = p.tally q := by
  have hremove := count_remove Sender.id hsender (waiting_unique hunique) (q ∘ .ofSender)
  simp only [tally_eq, onQueue, Queue.leave, Function.comp_apply] at hremove ⊢
  omega

/-- Taking the first order from the buffer leaves the others. -/
theorem tally_take {order : Order} {rest : List Order} (hbuffer : p.queue.buffer = order :: rest)
    (q : Party → Bool) :
    (p.onQueue fun queue => { queue with buffer := rest }).tally q + (q (.ofOrder order)).toNat =
      p.tally q := by
  have hsplit : (order :: rest).countP (q ∘ Party.ofOrder) =
      (q (.ofOrder order)).toNat + rest.countP (q ∘ Party.ofOrder) := by
    rw [← List.singleton_append, List.countP_append, count_singleton, Function.comp_apply]
  simp only [tally_eq, onQueue, hbuffer, hsplit]
  omega

/-- Whoever is called so is the only one also when an order is out of the buffer. -/
theorem unique_take {order : Order} {rest : List Order} (hbuffer : p.queue.buffer = order :: rest)
    {id : Nat} (hunique : p.tally (Party.isCalled id) ≤ 1) :
    (p.onQueue fun queue => { queue with buffer := rest }).tally (Party.isCalled id) ≤ 1 := by
  have htake := tally_take hbuffer (Party.isCalled id)
  omega

/-! ## Workers -/

/-- Whoever receives starts an attempt on the first order of the buffer. -/
theorem receive_eq {order : Order} {rest : List Order} (hbuffer : p.queue.buffer = order :: rest)
    (id : Nat) : p.receive id =
      (p.onQueue fun queue => { queue with buffer := rest }).startAttempt id order := by
  unfold receive
  rw [hbuffer]

/-- A worker who is found is one of the workers. -/
theorem mem_of_activity {id : Nat} {activity : Activity} (h : p.activity? id = some activity) :
    (id, activity) ∈ p.workers := by
  obtain ⟨before, later, heq, _⟩ := List.lookup_eq_some_iff.mp h
  rw [heq]
  exact List.mem_append_right _ (List.mem_cons_self ..)

/-- Nobody else is a worker of the same identifier. -/
theorem workers_unique {id : Nat} (hunique : p.tally (Party.isCalled id) ≤ 1) :
    p.workers.countP (·.1 == id) ≤ 1 := by
  rw [tally_eq] at hunique
  have hsame : (Party.isCalled id ∘ Party.ofWorker) = fun z : Nat × Activity => z.1 == id := rfl
  rw [hsame] at hunique
  omega

/-- A new worker comes on top. -/
theorem tally_add_worker (p : State) (id : Nat) (q : Party → Bool) :
    (p.addWorker id).tally q = p.tally q + (q ⟨some id, none⟩).toNat := by
  have hone : [(id, Activity.idle)].countP (q ∘ Party.ofWorker) = (q ⟨some id, none⟩).toNat :=
    count_singleton _ _
  simp only [tally_eq, addWorker, List.countP_append, hone]
  omega

/-- A worker who does something else changes places with himself. -/
theorem tally_set_activity {id : Nat} {activity : Activity}
    (hfound : p.activity? id = some activity) (hunique : p.tally (Party.isCalled id) ≤ 1)
    (next : Activity) (q : Party → Bool) :
    (p.setActivity id next).tally q + (q (.ofWorker (id, activity))).toNat =
      p.tally q + (q (.ofWorker (id, next))).toNat := by
  have hreplace := count_replace Prod.fst (mem_of_activity hfound) (workers_unique hunique)
    (id, next) (q ∘ .ofWorker)
  simp only [tally_eq, setActivity, Function.comp_apply] at hreplace ⊢
  omega

/-- A worker who is taken away goes, with the order that he has. -/
theorem tally_remove_worker {id : Nat} {activity : Activity}
    (hfound : p.activity? id = some activity) (hunique : p.tally (Party.isCalled id) ≤ 1)
    (q : Party → Bool) :
    (p.removeWorker id).tally q + (q (.ofWorker (id, activity))).toNat = p.tally q := by
  have hremove := count_remove Prod.fst (mem_of_activity hfound) (workers_unique hunique)
    (q ∘ .ofWorker)
  simp only [tally_eq, removeWorker, Function.comp_apply] at hremove ⊢
  omega

/-! ## Retries -/

/-- A retry that is found is one of the retries. -/
theorem mem_of_retry_order {id : Nat} {order : Order} (h : p.retryOrder? id = some order) :
    (id, order) ∈ p.retries := by
  obtain ⟨before, later, heq, _⟩ := List.lookup_eq_some_iff.mp h
  rw [heq]
  exact List.mem_append_right _ (List.mem_cons_self ..)

/-- Nobody else is a retry of the same identifier. -/
theorem retries_unique {id : Nat} (hunique : p.tally (Party.isCalled id) ≤ 1) :
    p.retries.countP (·.1 == id) ≤ 1 := by
  rw [tally_eq] at hunique
  have hsame : (Party.isCalled id ∘ Party.ofRetry) = fun z : Nat × Order => z.1 == id := rfl
  rw [hsame] at hunique
  omega

/-- A retry that is taken away goes. -/
theorem tally_remove_retry {id : Nat} {order : Order} (hfound : p.retryOrder? id = some order)
    (hunique : p.tally (Party.isCalled id) ≤ 1) (q : Party → Bool) :
    (p.removeRetry id).tally q + (q (.ofRetry (id, order))).toNat = p.tally q := by
  have hremove := count_remove Prod.fst (mem_of_retry_order hfound) (retries_unique hunique)
    (q ∘ .ofRetry)
  simp only [tally_eq, removeRetry, Function.comp_apply] at hremove ⊢
  omega

end State

end Rewards.Pipeline

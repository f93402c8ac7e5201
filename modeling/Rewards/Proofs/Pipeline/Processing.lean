import Rewards.Proofs.Accrual.Answers
import Rewards.Proofs.Ledger.Agreement
import Rewards.Proofs.Pipeline.Attempts
import Rewards.Proofs.Service.Effects
import Rewards.Simulation.Processing

/-!
# One attempt from its beginning to its end

An attempt on a stored order, with nobody else at work, is decided by the answer of the accrual
system. `Attempt.process` puts the steps up to the question, the question and the steps after it
together, as a run of the simulation does.
-/

namespace Rewards

/-! ## Replacing an order -/

namespace Store

/-- The store with an order in the place of the one with its number, and with further entries. -/
def replaced (s : Store) (order : Order) (added : List LedgerEntry) : Store :=
  { s.putOrder order with entries := s.entries ++ added }

variable {s : Store} {order later : Order}

/-- An order that takes the place of another one is found instead. -/
theorem lookup_replaced (hfound : s.order? later.number = some order)
    (added : List LedgerEntry) : (s.replaced later added).order? later.number = some later := by
  refine (lookup_put s later later.number).trans ?_
  rw [hfound, Option.map_some, if_pos rfl]

/-- An order may be put in its own place. -/
theorem put_self (hkeyed : s.Keyed) (hfound : s.order? order.number = some order) :
    s.putOrder order = s := by
  have hsame :
      s.orders.map (fun o => if o.number == order.number then order else o) = s.orders := by
    refine (List.map_congr_left fun o ho => ?_).trans (List.map_id s.orders)
    split
    · rename_i hnumber
      have hlookup := hkeyed.lookup_of_mem ho
      rw [eq_of_beq hnumber, hfound] at hlookup
      exact Option.some.inj hlookup
    · rfl
  rw [putOrder, hsame]

/-- The last order that is put in a place counts. -/
theorem put_put (s : Store) (hnumber : later.number = order.number) :
    (s.putOrder order).putOrder later = s.putOrder later := by
  simp only [putOrder, List.map_map]
  congr 1
  refine List.map_congr_left fun o _ => ?_
  by_cases h : o.number = order.number <;> simp [h, hnumber]

/-- Settling an order replaces it and adds its credit. -/
theorem settle_put (s : Store) (order later : Order) (now : Instant)
    (hnumber : later.number = order.number) :
    (s.putOrder order).settle later now = s.replaced later (creditFor later now) := by
  rw [settle, put_put s hnumber]
  rfl

end Store

namespace Pipeline.Attempt

open InMemory (perform perform_bind perform_pure)

/-! ## The whole attempt -/

/-- One attempt on an order: it makes steps until it asks, asks, and makes steps until it ends. -/
def process {m : Type → Type} [Monad m] (store : StoreAccess m)
    (ask : OrderNumber → m (Except AccrualError AccrualOutcome)) (number : OrderNumber) :
    m Attempt := do
  match ← advance store number maxSteps .reading with
  | .asking order => advance store order.number maxSteps (answer order (← ask order.number))
  | a => return a

/-- A run of the simulation where every question is answered at once is such an attempt. -/
theorem start_run_eq (id : Nat) (number : OrderNumber) (s : Simulation)
    (replies : Simulation.Agenda Simulation.ScriptedReply)
    (hprocessor : s.processor = .asking replies)
    (reply : OrderNumber → Except AccrualError AccrualOutcome)
    (hgives : ∀ number, Simulation.Processor.nextReply replies number = .gives (reply number)) :
    (Simulation.startRun id number).run s =
      (do
        modify fun s => { s with attempts := s.attempts ++ [(s.now, number)] }
        let a ← process Simulation.store (fun number => do
          modify fun s => { s with
            asked := s.asked ++ [number]
            processor := .asking (replies.dropUnlessLast number) }
          return reply number) number
        return Simulation.progressOf a : StateM Simulation Simulation.Progress).run s := by
  unfold Simulation.startRun process
  simp only [StateT.run_bind, StateT.run_modify, StateT.run_get, pure_bind, bind_assoc, hprocessor]
  refine bind_congr fun found => ?_
  obtain ⟨a, t⟩ := found
  cases a with
  | asking order =>
      have hear : Simulation.hear id order (.gives (reply order.number)) =
          (do return Simulation.progressOf (← Simulation.proceed order.number
            (answer order (reply order.number)))) := by
        rw [Simulation.hear]
      simp only [Simulation.ask, hgives, hear]
      rfl
  | reading | claiming | rereading | finishing | done => rfl

/-! ## The steps of an attempt over a store in memory -/

section Steps

variable {ω : Type} (x : Surroundings ω) {s t : Store} (w : ω) {number : OrderNumber}
  {order : Order} {a b : Attempt}

/-- A change of status goes through as at a time that the clock tells. -/
theorem perform_access (s : Store) (number : OrderNumber) (source target : OrderStatus)
    (accrual : Option Decimal) :
    perform (x.service.store.transition number source target accrual) s w =
      ⟨(((access (x.clock.run w).1).transition number source target accrual).run s).1,
        (((access (x.clock.run w).1).transition number source target accrual).run s).2,
        (x.clock.run w).2⟩ := by
  rw [Service.perform_transition, access_transition]
  cases s.transition number source target accrual (x.clock.run w).1 <;> rfl

/-- A step has one of its effects, at a time that the clock tells. -/
theorem perform_step (s : Store) (number : OrderNumber) (a : Attempt) :
    ∃ now b t v, perform (a.step x.service.store number) s w = ⟨b, t, v⟩ ∧
      Effect s number now a b t := by
  have heffect := step_effect s number (x.clock.run w).1 a
  cases a with
  | reading | rereading | asking | done => exact ⟨_, _, _, w, rfl, heffect⟩
  | claiming seen =>
      refine ⟨_, _, _, (x.clock.run w).2, ?_, heffect⟩
      rw [step, perform_bind, perform_access]
      rfl
  | finishing seen =>
      refine ⟨_, _, _, (x.clock.run w).2, ?_, heffect⟩
      rw [step, perform_bind, perform_access]
      rfl

/-- An attempt that waits has nothing to do. -/
theorem advance_of_waiting (h : a.isWaiting = true) (steps : Nat) :
    advance x.service.store number steps a = pure a := by
  cases steps with
  | zero => rfl
  | succ steps => simp only [advance, h, if_true]

/-- An attempt that does not wait makes a step and goes on. -/
theorem perform_advance (h : a.isWaiting = false) (steps : Nat) {v : ω}
    (hstep : perform (a.step x.service.store number) s w = ⟨b, t, v⟩) :
    perform (advance x.service.store number (steps + 1) a) s w =
      perform (advance x.service.store number steps b) t v := by
  have hadvance : advance x.service.store number (steps + 1) a =
      a.step x.service.store number >>= advance x.service.store number steps := by
    simp [advance, h]
  rw [hadvance, perform_bind, hstep]

/-- An attempt looks its order up. -/
theorem perform_read (hfound : s.order? number = some order) :
    perform (Attempt.reading.step x.service.store number) s w = ⟨begin order, s, w⟩ := by
  show (⟨useStored number begin (.ok (s.order? number)), s, w⟩ : Outcome ω Attempt) = _
  rw [hfound]
  rfl

/-- A new order is claimed, and then asked about. -/
theorem perform_claim (hfound : s.order? number = some order) (hnew : order.status = .new) :
    ∃ v, perform (advance x.service.store number maxSteps .reading) s w =
      ⟨.asking { order with status := .processing },
        s.putOrder { order with status := .processing }, v⟩ := by
  have hread := perform_read x w hfound
  have hbegin : begin order = .claiming order := if_pos hnew
  obtain ⟨now, b, t, v, hclaim, heffect⟩ := perform_step x w s number (.claiming order)
  rw [maxSteps, perform_advance x w rfl _ hread, hbegin, perform_advance x w rfl _ hclaim]
  refine ⟨v, ?_⟩
  cases heffect with
  | wait _ hwaiting => cases hwaiting
  | missing _ _ _ hnone =>
      rw [hfound] at hnone
      cases hnone
  | late _ found hlookup hstarted =>
      obtain rfl : order = found := Option.some.inj (hfound.symm.trans hlookup)
      exact absurd hnew hstarted
  | claim _ found hlookup _ =>
      obtain rfl : order = found := Option.some.inj (hfound.symm.trans hlookup)
      have hnone : Store.creditFor (Store.moved order .processing none) now = [] :=
        if_neg fun h => nomatch h.1
      have hsettle : s.settle (Store.moved order .processing none) now =
          s.putOrder { order with status := .processing } := by
        rw [Store.settle, hnone, List.append_nil]
        rfl
      rcases after_claim_cases order with ⟨_, hasking⟩ | ⟨hstarted, _⟩
      · rw [hasking, hsettle, advance_of_waiting x rfl, perform_pure]
      · exact absurd hnew hstarted

/-- Whether an order is new or being processed already, it is asked about, and is stored as being
processed. -/
theorem perform_question (hkeyed : s.Keyed) (hfound : s.order? number = some order)
    (hopen : order.status = .new ∨ order.status = .processing) :
    ∃ v, perform (advance x.service.store number maxSteps .reading) s w =
      ⟨.asking { order with status := .processing },
        s.putOrder { order with status := .processing }, v⟩ := by
  rcases hopen with hnew | hprocessing
  · exact perform_claim x w hfound hnew
  · have hread := perform_read x w hfound
    have hbegin : begin order = .asking order := by
      simp [begin, proceed, hprocessing]
    have hsame : { order with status := .processing } = order := by rw [← hprocessing]
    obtain rfl := Store.number_of_lookup hfound
    refine ⟨w, ?_⟩
    rw [maxSteps, perform_advance x w rfl _ hread, hbegin, advance_of_waiting x rfl, perform_pure,
      hsame, Store.put_self hkeyed hfound]

/-- The answer to an order that is being processed is stored. -/
theorem perform_finish {seen : Order} (hfound : s.order? number = some order)
    (hprocessing : order.status = .processing)
    (hallowed : Store.Allowed .processing seen.status (storedAccrual seen)) :
    ∃ now v, perform (advance x.service.store number maxSteps (.finishing seen)) s w =
      ⟨.done .success, s.settle (Store.moved order seen.status (storedAccrual seen)) now, v⟩ := by
  obtain ⟨now, b, t, v, hfinish, heffect⟩ := perform_step x w s number (.finishing seen)
  rw [maxSteps, perform_advance x w rfl _ hfinish]
  refine ⟨now, v, ?_⟩
  cases heffect with
  | wait _ hwaiting => cases hwaiting
  | missing _ _ _ hnone =>
      rw [hfound] at hnone
      cases hnone
  | refused _ _ hrefused => exact absurd hallowed hrefused
  | beaten _ found hlookup hbeaten =>
      obtain rfl : order = found := Option.some.inj (hfound.symm.trans hlookup)
      exact absurd hprocessing hbeaten
  | finish _ found hlookup _ _ =>
      obtain rfl : order = found := Option.some.inj (hfound.symm.trans hlookup)
      rw [advance_of_waiting x rfl, perform_pure]

/-- Up to its question every attempt on an unfinished order is the same. -/
theorem perform_process (hkeyed : s.Keyed) (hfound : s.order? number = some order)
    (hopen : order.status = .new ∨ order.status = .processing)
    (reply : OrderNumber → Except AccrualError AccrualOutcome) :
    ∃ v, perform (process x.service.store (fun number => pure (reply number)) number) s w =
      perform (advance x.service.store number maxSteps
        (answer { order with status := .processing } (reply number)))
        (s.putOrder { order with status := .processing }) v := by
  obtain ⟨v, hquestion⟩ := perform_question x w hkeyed hfound hopen
  obtain rfl := Store.number_of_lookup hfound
  refine ⟨v, ?_⟩
  rw [process, perform_bind, hquestion]
  rfl

/-! ## What an attempt comes to -/

/-- The attempt has ended with a result. It has left the order as it is given here, has added
entries to the ledger, and has changed nothing else. -/
def EndsWith (s : Store) (o : Outcome ω Attempt) (result : JobResult) (later : Order)
    (added : List LedgerEntry) : Prop :=
  o.result = .done result ∧ o.store.order? later.number = some later ∧
    o.store = s.replaced later added

/-- The order that has been put in the place of a stored one is the one that is left. -/
theorem ends_with_replaced {o : Outcome ω Attempt} {result : JobResult} {later : Order}
    {added : List LedgerEntry} (hresult : o.result = .done result)
    (hstore : o.store = s.replaced later added) (hfound : s.order? later.number = some order) :
    EndsWith s o result later added :=
  ⟨hresult, hstore ▸ Store.lookup_replaced hfound added, hstore⟩

/-- An attempt that is told to come later does so. -/
theorem answer_of_tells_later {reply : Except AccrualError AccrualOutcome}
    (h : Accrual.TellsLater reply) : answer order reply = .done .retryAfterDelay := by
  cases h <;> rfl

/-- An unfinished order has earned nothing. -/
theorem accrual_of_open (hunearned : s.Unearned) (hfound : s.order? number = some order)
    (hopen : order.status = .new ∨ order.status = .processing) : order.accrual = .zero := by
  refine hunearned number order hfound ?_
  rcases hopen with h | h <;> simp [h]

/-- An answer that ends the attempt leaves the order as being processed. -/
theorem ends_with_done (hkeyed : s.Keyed) (hunearned : s.Unearned)
    (hfound : s.order? number = some order)
    (hopen : order.status = .new ∨ order.status = .processing)
    (reply : OrderNumber → Except AccrualError AccrualOutcome) (result : JobResult)
    (hresult : answer { order with status := .processing } (reply number) = .done result) :
    EndsWith s (perform (process x.service.store (fun number => pure (reply number)) number) s w)
      result { order with status := .processing, accrual := .zero } [] := by
  obtain ⟨v, hprocess⟩ := perform_process x w hkeyed hfound hopen reply
  obtain rfl := Store.number_of_lookup hfound
  rw [hprocess, hresult, advance_of_waiting x rfl, perform_pure]
  have hzero := accrual_of_open hunearned hfound hopen
  have hsame : s.putOrder { order with status := .processing } =
      s.replaced { order with status := .processing, accrual := .zero } [] := by
    rw [← hzero, Store.replaced, List.append_nil]
    rfl
  rw [hsame]
  exact ends_with_replaced rfl rfl hfound

/-- An answer that finishes the order is stored. -/
theorem ends_with_success (hkeyed : s.Keyed) (hfound : s.order? number = some order)
    (hopen : order.status = .new ∨ order.status = .processing)
    (reply : OrderNumber → Except AccrualError AccrualOutcome) (seen : Order)
    (hseen : answer { order with status := .processing } (reply number) = .finishing seen)
    (hallowed : Store.Allowed .processing seen.status (storedAccrual seen)) :
    ∃ now, EndsWith s
      (perform (process x.service.store (fun number => pure (reply number)) number) s w)
      .success (Store.moved order seen.status (storedAccrual seen))
      (Store.creditFor (Store.moved order seen.status (storedAccrual seen)) now) := by
  obtain ⟨v, hprocess⟩ := perform_process x w hkeyed hfound hopen reply
  obtain rfl := Store.number_of_lookup hfound
  have hclaimed : (s.putOrder { order with status := .processing }).order? order.number =
      some { order with status := .processing } := by
    rw [Store.lookup_put, hfound, Option.map_some, if_pos rfl]
  obtain ⟨now, u, hfinish⟩ := perform_finish x v hclaimed rfl hallowed
  refine ⟨now, ?_⟩
  rw [hprocess, hseen, hfinish]
  have hsettle := Store.settle_put s { order with status := .processing }
    (Store.moved order seen.status (storedAccrual seen)) now rfl
  exact ends_with_replaced rfl hsettle hfound

/-- An amount that is not negative is stored, and credited if it is positive. -/
theorem ends_with_earned (hkeyed : s.Keyed) (hfound : s.order? number = some order)
    (hopen : order.status = .new ∨ order.status = .processing)
    (reply : OrderNumber → Except AccrualError AccrualOutcome) {amount : Decimal}
    (hreply : reply number = .ok (.resolved amount)) (hnonneg : amount.isNegative = false) :
    ∃ now, EndsWith s
      (perform (process x.service.store (fun number => pure (reply number)) number) s w)
      .success { order with status := .processed, accrual := amount }
      (if 0 < amount.value then [⟨order.number, order.owner, amount, now⟩] else []) := by
  have hresolve : Order.resolve { order with status := .processing } amount = .ok _ :=
    Order.resolve_ok_iff.mpr ⟨rfl, hnonneg, rfl⟩
  obtain ⟨now, hends⟩ := ends_with_success x w hkeyed hfound hopen reply
    { order with status := .processed, accrual := amount }
    (by simp only [hreply, answer, hresolve, settle]) ⟨rfl, fun _ => rfl⟩
  have hcredit : Store.creditFor { order with status := .processed, accrual := amount } now =
      if 0 < amount.value then [⟨order.number, order.owner, amount, now⟩] else [] := by
    simp only [Store.credit_for_processed, Decimal.is_positive_iff]
    rfl
  refine ⟨now, ?_⟩
  rw [← hcredit]
  exact hends

/-- A rejection is stored, and nothing is credited. -/
theorem ends_with_rejected (hkeyed : s.Keyed) (hunearned : s.Unearned)
    (hfound : s.order? number = some order)
    (hopen : order.status = .new ∨ order.status = .processing)
    (reply : OrderNumber → Except AccrualError AccrualOutcome)
    (hreply : reply number = .ok .invalid) :
    EndsWith s (perform (process x.service.store (fun number => pure (reply number)) number) s w)
      .success { order with status := .invalid, accrual := .zero } [] := by
  have hreject : Order.reject { order with status := .processing } = .ok _ :=
    Order.reject_ok_iff.mpr ⟨rfl, rfl⟩
  have hunpaid : (storedAccrual { order with status := .invalid }).isSome = false := rfl
  obtain ⟨now, hends⟩ := ends_with_success x w hkeyed hfound hopen reply
    { order with status := .invalid } (by simp only [hreply, answer, hreject, settle])
    ⟨rfl, by simp [hunpaid]⟩
  rw [← accrual_of_open hunearned hfound hopen]
  exact hends

end Steps

/-- One attempt on an order that is stored as new or as being processed, whatever calls have been
made before, whatever the clock tells and whatever the accrual system answers. -/
theorem process_by_answer {ω : Type} (x : Surroundings ω) (w : ω) (calls : List Store.Call)
    (upstream : OrderNumber → Option Accrual.Answer) (order : Order)
    (hfound : (Store.after calls).order? order.number = some order)
    (hopen : order.status = .new ∨ order.status = .processing) :
    let o := perform (process x.service.store
      (fun number => pure (Accrual.outcomeOf (upstream number))) order.number) (Store.after calls) w
    (∀ amount, Accrual.Earns (upstream order.number) amount →
      ∃ now, EndsWith (Store.after calls) o .success
        { order with status := .processed, accrual := amount }
        (if 0 < amount.value then [⟨order.number, order.owner, amount, now⟩] else [])) ∧
    (Accrual.Rejects (upstream order.number) →
      EndsWith (Store.after calls) o .success
        { order with status := .invalid, accrual := .zero } []) ∧
    (Accrual.Postpones (upstream order.number) →
      EndsWith (Store.after calls) o .retryAfterDelay
        { order with status := .processing, accrual := .zero } []) ∧
    (∀ seconds, Accrual.Pauses (upstream order.number) seconds →
      EndsWith (Store.after calls) o (.pauseWorkerFor (seconds * 1000))
        { order with status := .processing, accrual := .zero } []) ∧
    (Accrual.IsFault (upstream order.number) →
      ∃ reason, EndsWith (Store.after calls) o (.fatal reason)
        { order with status := .processing, accrual := .zero } []) := by
  have hkeyed : (Store.after calls).Keyed :=
    Store.after_keeps List.nodup_nil Store.Write.keyed calls
  have hunearned : (Store.after calls).Unearned :=
    Store.after_keeps (fun _ _ h => nomatch h) Store.Write.unearned calls
  have hdone (result : JobResult) := ends_with_done x w hkeyed hunearned hfound hopen
    (fun number => Accrual.outcomeOf (upstream number)) result
  intro o
  refine ⟨?_, ?_, ?_, ?_, ?_⟩
  · intro amount hearns
    exact ends_with_earned x w hkeyed hfound hopen _ hearns.outcome hearns.nonneg
  · intro hrejects
    exact ends_with_rejected x w hkeyed hunearned hfound hopen _ hrejects.outcome
  · intro hpostpones
    exact hdone _ (answer_of_tells_later hpostpones.outcome)
  · intro seconds hpauses
    exact hdone _ (by simp only [hpauses.outcome, answer])
  · intro hfault
    obtain ⟨reason, houtcome⟩ := hfault.outcome
    refine ⟨(AccrualError.unexpected reason).message, hdone _ ?_⟩
    simp [houtcome, answer, fail, AccrualError.isTransient]

/-- A new order is asked about: it earns five, or the accrual system is busy for a minute. -/
theorem process_by_answer_of_upload :
    let order := Order.upload ⟨"18", by decide⟩ default default
    let s := Store.after [.createOrder order.number default default]
    let five : Decimal := ⟨5, 0, by decide, by decide⟩
    let earned : Accrual.Answer := ⟨200, [],
      some (Text.utf8 "\x7b\"order\":\"18\",\"status\":\"PROCESSED\",\"accrual\":5\x7d")⟩
    let busy : Accrual.Answer := ⟨503, [("date", []), ("retry-after", [32, 54, 48])], none⟩
    let attempt (answer : Accrual.Answer) := perform (process Surroundings.still.service.store
      (fun _ => pure (Accrual.outcomeOf (some answer))) order.number) s 0
    s.order? order.number = some order ∧ order.status = .new ∧
    (∃ now, EndsWith s (attempt earned) .success
      { order with status := .processed, accrual := five }
      [⟨order.number, order.owner, five, now⟩]) ∧
    EndsWith s (attempt busy) (.pauseWorkerFor 60000)
      { order with status := .processing, accrual := .zero } [] := by
  intro order s five earned busy attempt
  have hfound : s.order? order.number = some order := rfl
  have hearns : Accrual.Earns (some earned) five := by
    refine .amount [] _ ⟨"18", "PROCESSED", some (.natural 5)⟩ (.natural 5) five ?_ rfl rfl ?_ ?_
    · unfold Accrual.Documents
      decide +kernel
    · decide +kernel
    · exact Decimal.nonneg_iff.mp rfl
  have hpauses : Accrual.Pauses (some busy) 60 := by
    refine .busy 503 _ none 60 (.inr (by decide)) ?_
    refine .intro [("date", [])] [] [32, 54, 48] 60 (by simp) ?_ (by decide) (by decide)
    exact .intro [32] [] [54, 48] [] (by simp) (.inl rfl) (by simp) (by simp) (by simp)
  have hearned := process_by_answer Surroundings.still 0 [.createOrder order.number default default]
    (fun _ => some earned) order hfound (.inl rfl)
  have hbusy := process_by_answer Surroundings.still 0 [.createOrder order.number default default]
    (fun _ => some busy) order hfound (.inl rfl)
  obtain ⟨now, hends⟩ := hearned.1 five hearns
  rw [if_pos ((Decimal.is_positive_iff five).mp rfl)] at hends
  exact ⟨hfound, rfl, ⟨now, hends⟩, hbusy.2.2.2.1 60 hpauses⟩

end Pipeline.Attempt
end Rewards

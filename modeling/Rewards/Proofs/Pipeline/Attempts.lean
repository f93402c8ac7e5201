import Rewards.Pipeline.Attempt
import Rewards.Proofs.Order.Operations
import Rewards.Proofs.Store.Calls
import Rewards.Proofs.Store.LifeCycle

/-!
# Steps of an attempt

`Attempt.Effect` lists what a step of an attempt can find in the store, what it does to the store,
and where the attempt stands afterwards. A step that changes the store is one of the two
compare-and-set steps: the claim of a new order and the end of its processing.
-/

namespace Rewards.Pipeline.Attempt

open Store (Allowed moved transition_cases Write Writes)

/-- Access to the store at an instant. An attempt registers nobody, so it takes no identifier. -/
def access (now : Instant) : StoreAccess (StateM Store) := .inMemory (pure now) (pure default)

/-! ## Where an attempt goes -/

/-- An order that is not to be claimed is asked about, is done, or is a failure because it is
new. -/
theorem proceed_cases (order : Order) :
    (order.status = .processing ∧ proceed order = .asking order) ∨
    (order.status.isTerminal = true ∧ proceed order = .done .success) ∨
    (order.status = .new ∧ ∃ reason, proceed order = fail reason) := by
  unfold proceed
  cases hstatus : order.status with
  | new => exact .inr (.inr ⟨rfl, _, rfl⟩)
  | processing => exact .inl ⟨rfl, rfl⟩
  | invalid | processed => exact .inr (.inl ⟨rfl, rfl⟩)

/-- The first look at an order claims a new one and goes on with any other. -/
theorem begin_cases (order : Order) :
    (order.status = .new ∧ begin order = .claiming order) ∨
    (order.status ≠ .new ∧ begin order = proceed order) := by
  by_cases hnew : order.status = .new
  · exact .inl ⟨hnew, if_pos hnew⟩
  · exact .inr ⟨hnew, if_neg hnew⟩

/-- A claim that went through is followed by the question, unless the order that was read was not
new. -/
theorem after_claim_cases (seen : Order) :
    (seen.status = .new ∧
      afterClaim seen (.ok true) = .asking { seen with status := .processing }) ∨
    (seen.status ≠ .new ∧ ∃ reason, afterClaim seen (.ok true) = fail reason) := by
  unfold afterClaim
  cases hstart : seen.start with
  | ok claimed =>
      obtain ⟨hnew, rfl⟩ := Order.start_ok_iff.mp hstart
      exact .inl ⟨hnew, rfl⟩
  | error e =>
      refine .inr ⟨?_, _, rfl⟩
      intro hnew
      rw [Order.start_ok_iff.mpr ⟨hnew, rfl⟩] at hstart
      cases hstart

/-- An amount or a rejection finishes the order; any other answer ends the attempt without a
success. -/
theorem answer_cases (order : Order) (reply : Except AccrualError AccrualOutcome) :
    (∃ amount, reply = .ok (.resolved amount) ∧ amount.isNegative = false ∧
      answer order reply = .finishing { order with status := .processed, accrual := amount }) ∨
    (reply = .ok .invalid ∧ answer order reply = .finishing { order with status := .invalid }) ∨
    (∃ result, result ≠ .success ∧ answer order reply = .done result) := by
  cases reply with
  | error e =>
      refine .inr (.inr ?_)
      cases e with
      | transport reason => exact ⟨.retryAfterDelay, by simp, rfl⟩
      | unexpected reason => exact ⟨.fatal _, by simp, rfl⟩
  | ok outcome =>
      cases outcome with
      | resolved amount =>
          cases hresolve : order.resolve amount with
          | ok resolved =>
              obtain ⟨_, hnegative, rfl⟩ := Order.resolve_ok_iff.mp hresolve
              refine .inl ⟨amount, rfl, hnegative, ?_⟩
              simp only [answer, hresolve, settle]
          | error e =>
              refine .inr (.inr ⟨.fatal e.message, by simp, ?_⟩)
              simp only [answer, hresolve, settle, fail]
      | invalid =>
          cases hreject : order.reject with
          | ok rejected =>
              obtain ⟨_, rfl⟩ := Order.reject_ok_iff.mp hreject
              refine .inr (.inl ⟨rfl, ?_⟩)
              simp only [answer, hreject, settle]
          | error e =>
              refine .inr (.inr ⟨.fatal e.message, by simp, ?_⟩)
              simp only [answer, hreject, settle, fail]
      | notReady | notFound => exact .inr (.inr ⟨.retryAfterDelay, by simp, rfl⟩)
      | throttled wait =>
          cases wait with
          | none => exact .inr (.inr ⟨.retryAfterDelay, by simp, rfl⟩)
          | some wait => exact .inr (.inr ⟨.pauseWorkerFor wait, by simp, rfl⟩)

/-- A reply is no success yet, and nobody asks again because of it. -/
theorem answer_ne (order : Order) (reply : Except AccrualError AccrualOutcome) :
    answer order reply ≠ .done .success ∧ ∀ other, answer order reply ≠ .asking other := by
  rcases answer_cases order reply with ⟨_, _, _, heq⟩ | ⟨_, heq⟩ | ⟨result, hresult, heq⟩
  · simp [heq]
  · simp [heq]
  · simp [heq, hresult]

/-! ## What a step does -/

/-- What a step of an attempt finds, where the attempt stands afterwards, and the store that it
leaves. -/
inductive Effect (s : Store) (number : OrderNumber) (now : Instant) :
    Attempt → Attempt → Store → Prop where
  | wait (a : Attempt) : a.isWaiting = true → Effect s number now a a s
  | missing (a : Attempt) (reason : String) :
      a.isWaiting = false → s.order? number = none → Effect s number now a (fail reason) s
  | read (order : Order) :
      s.order? number = some order → Effect s number now .reading (begin order) s
  | claim (seen order : Order) :
      s.order? number = some order → order.status = .new →
      Effect s number now (.claiming seen) (afterClaim seen (.ok true))
        (s.settle (moved order .processing none) now)
  | late (seen order : Order) :
      s.order? number = some order → order.status ≠ .new →
      Effect s number now (.claiming seen) .rereading s
  | reread (order : Order) :
      s.order? number = some order → Effect s number now .rereading (proceed order) s
  | refused (seen : Order) (reason : String) :
      ¬ Allowed .processing seen.status (storedAccrual seen) →
      Effect s number now (.finishing seen) (fail reason) s
  | finish (seen order : Order) :
      s.order? number = some order → order.status = .processing →
      Allowed .processing seen.status (storedAccrual seen) →
      Effect s number now (.finishing seen) (.done .success)
        (s.settle (moved order seen.status (storedAccrual seen)) now)
  | beaten (seen order : Order) :
      s.order? number = some order → order.status ≠ .processing →
      Effect s number now (.finishing seen) (.done .success) s

/-- A change of status in a store that is part of the state. -/
theorem access_transition (s : Store) (number : OrderNumber) (source target : OrderStatus)
    (accrual : Option Decimal) (now : Instant) :
    ((access now).transition number source target accrual).run s =
      match s.transition number source target accrual now with
      | .ok (result, t) => (.ok result, t)
      | .error e => (.error e, s) := by
  refine (s.apply_transition number source target accrual now).trans ?_
  cases s.transition number source target accrual now <;> rfl

/-- The step of an attempt that looks an order up. -/
theorem use_stored_effect (s : Store) (number : OrderNumber) (now : Instant) (a : Attempt)
    (next : Order → Attempt) (hwaiting : a.isWaiting = false)
    (hnext : ∀ order, s.order? number = some order → Effect s number now a (next order) s) :
    Effect s number now a (useStored number next (.ok (s.order? number))) s := by
  cases hfound : s.order? number with
  | none => exact .missing a _ hwaiting hfound
  | some order => exact hnext order hfound

/-- Every step of an attempt has one of the effects. -/
theorem step_effect (s : Store) (number : OrderNumber) (now : Instant) (a : Attempt) :
    Effect s number now a ((a.step (access now) number).run s).1
      ((a.step (access now) number).run s).2 := by
  cases a with
  | reading => exact use_stored_effect s number now .reading begin rfl fun order => .read order
  | rereading =>
      exact use_stored_effect s number now .rereading proceed rfl fun order => .reread order
  | claiming seen =>
      show Effect s number now _
        (afterClaim seen (((access now).transition number .new .processing none).run s).1)
        (((access now).transition number .new .processing none).run s).2
      rw [access_transition]
      rcases transition_cases s number .new .processing none now with
        ⟨hrefused, _, _⟩ | ⟨_, hnone, heq⟩ | ⟨order, _, hfound, hstatus, heq⟩ |
        ⟨order, _, hfound, hstatus, heq⟩
      · -- A claim is always allowed.
        exact absurd ⟨rfl, fun h => nomatch h⟩ hrefused
      · rw [heq]; exact .missing _ _ rfl hnone
      · rw [heq]; exact .late seen order hfound hstatus
      · rw [heq]; exact .claim seen order hfound hstatus
  | finishing seen =>
      show Effect s number now _
        (afterFinish (((access now).transition number .processing seen.status
          (storedAccrual seen)).run s).1)
        (((access now).transition number .processing seen.status (storedAccrual seen)).run s).2
      rw [access_transition]
      rcases transition_cases s number .processing seen.status (storedAccrual seen) now with
        ⟨hrefused, _, heq⟩ | ⟨_, hnone, heq⟩ | ⟨order, _, hfound, hstatus, heq⟩ |
        ⟨order, hallowed, hfound, hstatus, heq⟩
      · rw [heq]; exact .refused seen _ hrefused
      · rw [heq]; exact .missing _ _ rfl hnone
      · rw [heq]; exact .beaten seen order hfound hstatus
      · rw [heq]; exact .finish seen order hfound hstatus hallowed
  | asking order => exact .wait _ rfl
  | done result => exact .wait _ rfl

/-- A step of an attempt makes writes and nothing else. -/
theorem Effect.writes {s t : Store} {number : OrderNumber} {now : Instant} {a b : Attempt}
    (h : Effect s number now a b t) : Writes s t := by
  cases h with
  | claim seen order hfound hstatus =>
      obtain rfl := Store.number_of_lookup hfound
      exact .single (.advance order .processing none now hfound
        ⟨by rw [hstatus]; rfl, fun h => nomatch h⟩)
  | finish seen order hfound hstatus hallowed =>
      obtain rfl := Store.number_of_lookup hfound
      exact .single (.advance order _ _ now hfound (by rw [hstatus]; exact hallowed))
  | _ => exact .refl

/-- A step of an attempt stores no new order. -/
theorem Effect.lookup_none {s t : Store} {number : OrderNumber} {now : Instant} {a b : Attempt}
    (h : Effect s number now a b t) {other : OrderNumber} (hnone : s.order? other = none) :
    t.order? other = none := by
  cases h with
  | claim | finish =>
      rw [Store.lookup_settle, hnone]
      rfl
  | _ => exact hnone

end Rewards.Pipeline.Attempt

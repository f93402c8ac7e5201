import Mathlib.Data.List.Induction
import Rewards.Proofs.Service.Sessions
import Rewards.Proofs.Store.LifeCycle

/-!
# Visits

Users call the operations of the service in any order, and the pipeline changes the status of orders
in between. An operation touches the store once, so each of them is one visit of the store. What an
operation takes from its surroundings may be anything in each visit, as if others had stepped in
before it. A `History` is the store that visits leave behind, with what was asked and what was
replied. Visits make the writes of the store and no other, `visit_writes`.
-/

namespace Rewards.Service

open InMemory (perform perform_map)

variable {ω α β : Type}

/-- An operation that may change the store, or opens a session, and who asks for it. -/
inductive Request where
  | register (c : Credentials)
  | login (c : Credentials)
  | submit (user : UserId) (text : String)
  | withdraw (user : UserId) (text : String) (amount : Decimal)
  | transition (number : OrderNumber) (source target : OrderStatus) (accrual : Option Decimal)
deriving DecidableEq

/-- What a request comes to. -/
inductive Reply where
  | session (result : Except (Failure ServiceError) String)
  | submission (result : Except (Failure ServiceError) (Scheduling Submission))
  | withdrawal (result : Except (Failure ServiceError) (Scheduling LedgerEntry))
  | moved (result : Except StoreError Bool)

/-- Answer a request. -/
def answer (x : Surroundings ω) : Request → InMemory ω Reply
  | .register c => .session <$> (x.service.register c).run
  | .login c => .session <$> (x.service.login c).run
  | .submit user text => .submission <$> (x.service.submitOrder user text).run
  | .withdraw user text amount => .withdrawal <$> (x.service.withdraw user text amount).run
  | .transition number source target accrual =>
      .moved <$> x.service.store.transition number source target accrual

/-- What a request comes to in a store and surroundings. -/
def visit (x : Surroundings ω) (request : Request) (s : Store) (w : ω) : Outcome ω Reply :=
  perform (answer x request) s w

/-! ## Visits one after the other -/

/-- The store after visits, and what was asked and replied in them. -/
structure History where
  store : Store
  log : List (Request × Reply)

/-- The history with one more visit. -/
def History.continue (h : History) (x : Surroundings ω) (request : Request) (w : ω) : History :=
  ⟨(visit x request h.store w).store, h.log ++ [(request, (visit x request h.store w).result)]⟩

/-- What is picked out of the log comes from the visits before and from the last one. -/
theorem History.filter_log_continue (h : History) (x : Surroundings ω) (request : Request) (w : ω)
    (f : Request × Reply → Option β) :
    (h.continue x request w).log.filterMap f =
      h.log.filterMap f ++ (f (request, (visit x request h.store w).result)).toList := by
  rw [History.continue, List.filterMap_append, List.filterMap_cons]
  cases f (request, (visit x request h.store w).result) <;> rfl

/-- The history of visits in their order, starting from the empty store. -/
def history (x : Surroundings ω) (visits : List (Request × ω)) : History :=
  visits.foldl (fun h v => h.continue x v.1 v.2) ⟨.empty, []⟩

theorem history_concat (x : Surroundings ω) (visits : List (Request × ω)) (request : Request)
    (w : ω) :
    history x (visits ++ [(request, w)]) = (history x visits).continue x request w := by
  rw [history, List.foldl_append]
  rfl

/-! ## What single requests come to -/

section

variable (x : Surroundings ω) (s : Store) (w : ω)

theorem visit_register (c : Credentials) :
    visit x (.register c) s w = (perform (x.service.register c).run s w).map .session :=
  perform_map _ _ s w

theorem visit_login (c : Credentials) :
    visit x (.login c) s w = (perform (x.service.login c).run s w).map .session :=
  perform_map _ _ s w

theorem visit_submit (user : UserId) (text : String) :
    visit x (.submit user text) s w =
      (perform (x.service.submitOrder user text).run s w).map .submission :=
  perform_map _ _ s w

theorem visit_withdraw (user : UserId) (text : String) (amount : Decimal) :
    visit x (.withdraw user text amount) s w =
      (perform (x.service.withdraw user text amount).run s w).map .withdrawal :=
  perform_map _ _ s w

theorem visit_transition (number : OrderNumber) (source target : OrderStatus)
    (accrual : Option Decimal) :
    visit x (.transition number source target accrual) s w =
      (Outcome.committed s (x.clock.run w).2
        (s.transition number source target accrual (x.clock.run w).1)).map .moved := by
  rw [← perform_transition]
  exact perform_map _ _ s w

/-! ## Visits as writes -/

/-- A registration registers a user or writes nothing. -/
theorem Enrolled.writes {x : Surroundings ω} {s t : Store} {w : ω} {c : Credentials}
    {result : Except (Failure ServiceError) String} (h : Enrolled x s w c result t) :
    Store.Writes s t := by
  cases h with
  | refused => exact .refl
  | enrolled hash v _ _ _ => exact .single (.register _ _ _)

/-- A visit makes writes of the store and no other. -/
theorem visit_writes (request : Request) : Store.Writes s (visit x request s w).store := by
  cases request with
  | register c =>
      rw [visit_register, Outcome.map_store]
      exact (enrol_effect x s w c).writes
  | login c => rw [visit_login, Outcome.map_store, reads_login x c s w]
  | submit user text =>
      rw [visit_submit, Outcome.map_store]
      exact (submit_effect x s w user text).booked.writes
  | withdraw user text amount =>
      rw [visit_withdraw, Outcome.map_store]
      exact (withdraw_effect x s w user text amount).booked.writes
  | transition number source target accrual =>
      rw [visit_transition]
      rcases Store.transition_cases s number source target accrual (x.clock.run w).1 with
        ⟨_, _, heq⟩ | ⟨_, _, heq⟩ | ⟨_, _, _, _, heq⟩ | ⟨order, hallowed, hfound, rfl, heq⟩
      · rw [heq]; exact .refl
      · rw [heq]; exact .refl
      · rw [heq]; exact .refl
      · rw [heq]
        obtain rfl := Store.number_of_lookup hfound
        exact .single (.advance order target accrual _ hfound hallowed)

/-- Further visits make writes of the store and no other. -/
theorem history_writes (visits further : List (Request × ω)) :
    Store.Writes (history x visits).store (history x (visits ++ further)).store := by
  induction further using List.reverseRecOn with
  | nil =>
      simp only [List.append_nil]
      exact .refl
  | append_singleton further last ih =>
      rw [← List.append_assoc, history_concat]
      exact ih.trans (visit_writes x _ last.2 last.1)

end

end Rewards.Service

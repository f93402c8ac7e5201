import Rewards.Proofs.Ledger.Agreement
import Rewards.Proofs.Pipeline.Attempts
import Rewards.Proofs.Store.Finished

/-!
# Attempts that race

Any number of attempts run over one store, each by single steps, in any order and mixed with any
uploads and withdrawals. An attempt may hear any reply of the accrual system and may be abandoned
between any two of its steps. A `Runner` is such an attempt together with what an observer of the
store has seen during its own steps: the orders that became finished and the ledger entries that
were added. `Runner.Sound` ties what an attempt believes to what is stored, and the main statement,
`attempts_safe`, follows from it.
-/

namespace Rewards.Pipeline

open Store (Allowed moved credit Started Finished Writes)

/-- What the accrual system replies to an attempt. -/
abbrev AccrualReply := Except AccrualError AccrualOutcome

/-- An attempt on an order, the reply that it has heard, and what has been seen to happen in the
store during its steps. -/
structure Runner where
  number : OrderNumber
  attempt : Attempt
  isAbandoned : Bool
  heard : Option AccrualReply
  finished : List OrderNumber
  added : List LedgerEntry

/-- What happens to a runner. -/
inductive Runner.Action where
  | step (now : Instant)
  | hear (reply : AccrualReply)
  | abandon

namespace Runner

/-- An attempt that is about to look its order up. -/
def start (number : OrderNumber) : Runner := ⟨number, .reading, false, none, [], []⟩

/-- Go on with a reply. Only an attempt that asks hears it. -/
def hear (r : Runner) (reply : AccrualReply) : Runner :=
  match r.attempt with
  | .asking order => { r with attempt := .answer order reply, heard := some reply }
  | _ => r

/-- What an action makes of a runner and of the store. -/
def act (r : Runner) (s : Store) : Action → Runner × Store
  | .step now =>
      let (attempt, t) := (r.attempt.step (Attempt.access now) r.number).run s
      ({ r with attempt := attempt }, t)
  | .hear reply => (r.hear reply, s)
  | .abandon => ({ r with isAbandoned := true }, s)

/-- Note what is new in the store. -/
def observe (r : Runner) (s t : Store) : Runner :=
  { r with
    finished := r.finished ++ s.newlyFinished t,
    added := r.added ++ t.entries.drop s.entries.length }

end Runner

/-- A store and the attempts over it. An attempt that has been abandoned remains in the list. -/
structure Race where
  store : Store
  runners : List Runner

/-- What happens in a race: an attempt starts, a runner acts, or somebody else calls the store. -/
inductive Race.Event where
  | start (number : OrderNumber)
  | act (id : Nat) (action : Runner.Action)
  | call (call : Store.Call)

namespace Race

/-- Start an attempt. -/
def start (w : Race) (number : OrderNumber) : Race :=
  { w with runners := w.runners ++ [Runner.start number] }

/-- Let a runner act. An attempt that has been abandoned does nothing any more. -/
def act (w : Race) (id : Nat) (action : Runner.Action) : Race :=
  match w.runners[id]? with
  | none => w
  | some r =>
      if r.isAbandoned then w
      else
        let (next, t) := r.act w.store action
        ⟨t, w.runners.set id (next.observe w.store t)⟩

/-- Call the store. Nobody but the attempts changes the status of an order. -/
def call (w : Race) (call : Store.Call) : Race :=
  if call.isTransition then w
  else { w with store := ((Store.perform call).run w.store).2 }

/-- The race after one event. -/
def step (w : Race) : Event → Race
  | .start number => w.start number
  | .act id action => w.act id action
  | .call call => w.call call

/-- The race after events in their order, from an empty store without attempts. -/
def after (events : List Event) : Race := events.foldl step ⟨.empty, []⟩

end Race

/-! ## What an attempt knows -/

/-- The order is finished as a reply says, and has the credits that are listed. -/
inductive Settled (s : Store) (number : OrderNumber) : AccrualReply → List LedgerEntry → Prop where
  | processed (order : Order) (now : Instant) (credits : List LedgerEntry) :
      s.order? number = some order → order.status = .processed →
      s.creditsOf number = credits →
      credits = (if order.accrual.isPositive = true then [credit order now] else []) →
      Settled s number (.ok (.resolved order.accrual)) credits
  | rejected (order : Order) :
      s.order? number = some order → order.status = .invalid → order.accrual = .zero →
      s.creditsOf number = [] →
      Settled s number (.ok .invalid) []

/-- What an attempt believes is borne out by the store. Whoever asks or finishes has seen the order
started, whoever succeeds has seen it finished. Only the winner of the last step has changed
anything that an observer sees, and then by the reply that it has heard. -/
structure Runner.Sound (s : Store) (r : Runner) : Prop where
  asking : ∀ order, r.attempt = .asking order → s.Started r.number
  finishing : ∀ seen, r.attempt = .finishing seen → s.Started r.number ∧
    ∃ order reply, r.heard = some reply ∧ Attempt.answer order reply = .finishing seen
  success : r.attempt = .done .success → s.Finished r.number
  effect : (r.finished = [] ∧ r.added = []) ∨
    (r.attempt = .done .success ∧ r.finished = [r.number] ∧
      ∃ reply, r.heard = some reply ∧ Settled s r.number reply r.added)

variable {s t : Store} {r : Runner}

/-- A settled order stays settled. -/
theorem Settled.later {number : OrderNumber} {reply : AccrualReply} {credits : List LedgerEntry}
    (h : Settled s number reply credits) (hwrites : Writes s t) :
    Settled t number reply credits := by
  cases h with
  | processed order now credits hfound hstatus hcredits heq =>
      have hterminal : order.status.isTerminal = true := by rw [hstatus]; rfl
      refine .processed order now credits (hwrites.lookup_finished hfound hterminal) hstatus ?_ heq
      rw [hwrites.credits_of_finished ⟨order, hfound, hterminal⟩, hcredits]
  | rejected order hfound hstatus haccrual hcredits =>
      have hterminal : order.status.isTerminal = true := by rw [hstatus]; rfl
      refine .rejected order (hwrites.lookup_finished hfound hterminal) hstatus haccrual ?_
      rw [hwrites.credits_of_finished ⟨order, hfound, hterminal⟩, hcredits]

/-- A settled order is finished. -/
theorem Settled.finished {number : OrderNumber} {reply : AccrualReply}
    {credits : List LedgerEntry} (h : Settled s number reply credits) : s.Finished number := by
  cases h with
  | processed order now credits hfound hstatus => exact ⟨order, hfound, by rw [hstatus]; rfl⟩
  | rejected order hfound hstatus => exact ⟨order, hfound, by rw [hstatus]; rfl⟩

namespace Runner

/-- What others write does not prove an attempt wrong. -/
theorem Sound.later (h : r.Sound s) (hwrites : Writes s t) : r.Sound t where
  asking order heq := hwrites.started (h.asking order heq)
  finishing seen heq := ⟨hwrites.started (h.finishing seen heq).1, (h.finishing seen heq).2⟩
  success heq := hwrites.finished (h.success heq)
  effect := by
    rcases h.effect with hnone | ⟨hdone, hfinished, reply, hheard, hsettled⟩
    · exact .inl hnone
    · exact .inr ⟨hdone, hfinished, reply, hheard, hsettled.later hwrites⟩

/-- An attempt that has not succeeded has changed nothing that an observer sees. -/
theorem Sound.idle (h : r.Sound s) (hattempt : r.attempt ≠ .done .success) :
    r.finished = [] ∧ r.added = [] := by
  rcases h.effect with hnone | ⟨hdone, _⟩
  · exact hnone
  · exact absurd hdone hattempt

/-- An attempt that has only been started believes nothing. -/
theorem sound_start (s : Store) (number : OrderNumber) : (start number).Sound s where
  asking _ h := nomatch h
  finishing _ h := nomatch h
  success h := nomatch h
  effect := .inl ⟨rfl, rfl⟩

/-- There is nothing to note if nothing has changed. -/
theorem observe_self (r : Runner) (hkeyed : s.Keyed) : r.observe s s = r := by
  simp [observe, Store.newly_finished_self hkeyed]

/-- An attempt that has changed nothing is sound if it believes what is so and does not finish. -/
theorem sound_idle {a : Attempt} (hidle : r.finished = [] ∧ r.added = [])
    (hasking : ∀ order, a = .asking order → s.Started r.number)
    (hfinishing : ∀ seen, a ≠ .finishing seen)
    (hsuccess : a = .done .success → s.Finished r.number) :
    ({ r with attempt := a } : Runner).Sound s where
  asking := hasking
  finishing seen heq := absurd heq (hfinishing seen)
  success := hsuccess
  effect := .inl hidle

/-- An attempt that has failed is sound. -/
theorem sound_fail (hidle : r.finished = [] ∧ r.added = []) (reason : String) :
    ({ r with attempt := Attempt.fail reason } : Runner).Sound s :=
  sound_idle hidle (fun _ h => nomatch h) (fun _ h => nomatch h) (fun h => nomatch h)

/-- An attempt that goes on with the stored order is sound. -/
theorem sound_proceed (hidle : r.finished = [] ∧ r.added = []) {order : Order}
    (hfound : s.order? r.number = some order) :
    ({ r with attempt := Attempt.proceed order } : Runner).Sound s := by
  rcases Attempt.proceed_cases order with ⟨hstatus, heq⟩ | ⟨hterminal, heq⟩ | ⟨_, reason, heq⟩
  · rw [heq]
    have hstarted : s.Started r.number := ⟨order, hfound, by rw [hstatus]; simp⟩
    exact sound_idle hidle (fun _ _ => hstarted) (fun _ h => nomatch h) (fun h => nomatch h)
  · rw [heq]
    have hfinished : s.Finished r.number := ⟨order, hfound, hterminal⟩
    exact sound_idle hidle (fun _ h => nomatch h) (fun _ h => nomatch h) (fun _ => hfinished)
  · rw [heq]
    exact sound_fail hidle reason

/-- An observer sees that a claim goes through neither finishes an order nor adds an entry. -/
theorem observe_claim (r : Runner) (hs : s.Consistent) {order : Order} {now : Instant}
    (hfound : s.order? order.number = some order) (hnew : order.status = .new) :
    r.observe s (s.settle (moved order .processing none) now) = r := by
  have hallowed : Allowed order.status .processing none := by
    rw [hnew]
    exact ⟨rfl, fun h => nomatch h⟩
  have hfinished := Store.newly_finished_settle hs.keyed hfound hallowed now
  rw [if_neg (show ¬ OrderStatus.processing.isTerminal = true by decide)] at hfinished
  have hadded : Store.creditFor (moved order .processing none) now = [] :=
    if_neg fun h => nomatch h.1
  rw [observe, hfinished, Store.added_settle, hadded, List.append_nil, List.append_nil]

/-- What the winner of the last step finds in the store is what it has heard. -/
theorem settled_finish (now : Instant) (hs : s.Consistent) (hunearned : s.Unearned)
    {order seen asked : Order} {reply : AccrualReply} (hfound : s.order? order.number = some order)
    (hstatus : order.status = .processing)
    (hanswer : Attempt.answer asked reply = .finishing seen) :
    seen.status.isTerminal = true ∧
      Settled (s.settle (moved order seen.status (Attempt.storedAccrual seen)) now) order.number
        reply (Store.creditFor (moved order seen.status (Attempt.storedAccrual seen)) now) := by
  -- The order was still being processed, so it has earned nothing before.
  have hnone : s.creditsOf order.number = [] := by
    refine hs.credits_of_eq_nil fun found hlookup => ?_
    obtain rfl : order = found := Option.some.inj (hfound.symm.trans hlookup)
    rw [hstatus]
    simp
  have hlater (target : OrderStatus) (accrual : Option Decimal) :
      (s.settle (moved order target accrual) now).order? order.number =
        some (moved order target accrual) := by
    rw [Store.lookup_settle, hfound]
    simp [moved]
  have hcredits (target : OrderStatus) (accrual : Option Decimal) :
      (s.settle (moved order target accrual) now).creditsOf order.number =
        Store.creditFor (moved order target accrual) now := by
    rw [Store.credits_of_settle, hnone, List.nil_append]
    exact if_pos rfl
  rcases Attempt.answer_cases asked reply with ⟨amount, rfl, _, heq⟩ | ⟨rfl, heq⟩ | ⟨result, _, heq⟩
  · rw [hanswer] at heq
    cases heq
    exact ⟨rfl, .processed (moved order .processed (some amount)) now _ (hlater _ _) rfl
      (hcredits _ _) (Store.credit_for_processed rfl now)⟩
  · rw [hanswer] at heq
    cases heq
    have hearns : Store.creditFor (moved order .invalid none) now = [] :=
      if_neg (by simp [moved])
    show _ ∧ Settled (s.settle (moved order .invalid none) now) order.number _
      (Store.creditFor (moved order .invalid none) now)
    rw [hearns]
    refine ⟨rfl, .rejected (moved order .invalid none) (hlater _ _) rfl ?_
      ((hcredits _ _).trans hearns)⟩
    exact hunearned order.number order hfound (by rw [hstatus]; simp)
  · rw [hanswer] at heq
    cases heq

/-- An attempt that makes a step stays sound. -/
theorem Sound.step (h : r.Sound s) (hs : s.Consistent) (hunearned : s.Unearned) {now : Instant}
    {a : Attempt} (heffect : Attempt.Effect s r.number now r.attempt a t) :
    (({ r with attempt := a } : Runner).observe s t).Sound t := by
  generalize hattempt : r.attempt = b at heffect
  cases heffect with
  | wait =>
      subst hattempt
      rw [observe_self _ hs.keyed]
      exact h
  | missing _ reason hwaiting =>
      rw [observe_self _ hs.keyed]
      refine sound_fail (h.idle ?_) reason
      rintro heq
      rw [← hattempt, heq] at hwaiting
      cases hwaiting
  | read order hfound =>
      rw [observe_self _ hs.keyed]
      have hidle := h.idle (by rw [hattempt]; simp)
      rcases Attempt.begin_cases order with ⟨_, heq⟩ | ⟨_, heq⟩
      · rw [heq]
        exact sound_idle hidle (by simp) (by simp) (by simp)
      · rw [heq]
        exact sound_proceed hidle hfound
  | claim seen order hfound hnew =>
      have hnumber := Store.number_of_lookup hfound
      have hidle := h.idle (by rw [hattempt]; simp)
      rw [observe_claim _ hs (hnumber ▸ hfound) hnew]
      rcases Attempt.after_claim_cases seen with ⟨_, heq⟩ | ⟨_, reason, heq⟩
      · rw [heq]
        refine sound_idle hidle (fun _ _ => ?_) (by simp) (by simp)
        refine ⟨moved order .processing none, ?_, by simp [moved]⟩
        rw [Store.lookup_settle, hfound]
        simp [moved, hnumber]
      · rw [heq]
        exact sound_fail hidle reason
  | late seen order hfound hstarted =>
      rw [observe_self _ hs.keyed]
      exact sound_idle (h.idle (by rw [hattempt]; simp)) (by simp)
        (by simp) (by simp)
  | reread order hfound =>
      rw [observe_self _ hs.keyed]
      exact sound_proceed (h.idle (by rw [hattempt]; simp)) hfound
  | refused seen reason =>
      rw [observe_self _ hs.keyed]
      exact sound_fail (h.idle (by rw [hattempt]; simp)) reason
  | beaten seen order hfound hbeaten =>
      rw [observe_self _ hs.keyed]
      -- The order has been started and is no longer being processed, so it has been finished.
      obtain ⟨⟨found, hlookup, hstarted⟩, _⟩ := h.finishing seen hattempt
      obtain rfl : order = found := Option.some.inj (hfound.symm.trans hlookup)
      have hfinished : s.Finished r.number := by
        refine ⟨order, hfound, ?_⟩
        cases hstatus : order.status with
        | new => exact absurd hstatus hstarted
        | processing => exact absurd hstatus hbeaten
        | invalid | processed => rfl
      exact sound_idle (h.idle (by rw [hattempt]; simp)) (by simp)
        (by simp) (fun _ => hfinished)
  | finish seen order hfound hstatus hallowed =>
      -- The winner has been idle so far, so all that it is seen to have done is done here.
      obtain ⟨_, asked, reply, hheard, hanswer⟩ := h.finishing seen hattempt
      obtain ⟨hnofinished, hnoadded⟩ := h.idle (by rw [hattempt]; simp)
      have hnumber := Store.number_of_lookup hfound
      have hsame : s.order? order.number = some order := hnumber ▸ hfound
      obtain ⟨hterminal, hsettled⟩ := settled_finish now hs hunearned hsame hstatus hanswer
      have hfinished := Store.newly_finished_settle hs.keyed hsame (hstatus ▸ hallowed) now
      rw [if_pos hterminal, hnumber] at hfinished
      rw [hnumber] at hsettled
      refine ⟨fun _ h => ?_, fun _ h => ?_, fun _ => hsettled.finished,
        .inr ⟨rfl, ?_, reply, hheard, ?_⟩⟩
      · cases h
      · cases h
      · simp only [observe, hnofinished, hfinished, List.nil_append]
      · simpa only [observe, hnoadded, Store.added_settle, List.nil_append] using hsettled

/-- An attempt that hears a reply stays sound. -/
theorem Sound.hear (h : r.Sound s) (reply : AccrualReply) : (r.hear reply).Sound s := by
  unfold Runner.hear
  split
  · rename_i order hattempt
    have hidle := h.idle (by rw [hattempt]; simp)
    obtain ⟨hsuccess, hasking⟩ := Attempt.answer_ne order reply
    exact ⟨fun other heq => absurd heq (hasking other),
      fun seen heq => ⟨h.asking order hattempt, order, reply, rfl, heq⟩,
      fun heq => absurd heq hsuccess, .inl hidle⟩
  · exact h

/-- Whatever a runner does, it makes writes and nothing else. -/
theorem act_writes (r : Runner) (s : Store) (action : Runner.Action) :
    Writes s (r.act s action).2 := by
  cases action with
  | step now => exact (Attempt.step_effect s r.number now r.attempt).writes
  | hear | abandon => exact .refl

/-- Whatever a runner does, it stores no new order. -/
theorem act_lookup_none (r : Runner) (action : Runner.Action) {number : OrderNumber}
    (hnone : s.order? number = none) : (r.act s action).2.order? number = none := by
  cases action with
  | step now => exact (Attempt.step_effect s r.number now r.attempt).lookup_none hnone
  | hear | abandon => exact hnone

/-- A runner stays with its order. -/
theorem act_number (r : Runner) (s : Store) (action : Runner.Action) :
    (r.act s action).1.number = r.number := by
  cases action with
  | step | abandon => rfl
  | hear reply =>
      show (r.hear reply).number = r.number
      unfold hear
      split <;> rfl

/-- Whatever a runner does, it stays sound. -/
theorem Sound.act (h : r.Sound s) (hs : s.Consistent) (hunearned : s.Unearned)
    (action : Runner.Action) :
    ((r.act s action).1.observe s (r.act s action).2).Sound (r.act s action).2 := by
  cases action with
  | step now => exact h.step hs hunearned (Attempt.step_effect s r.number now r.attempt)
  | hear reply =>
      show ((r.hear reply).observe s s).Sound s
      rw [observe_self _ hs.keyed]
      exact h.hear reply
  | abandon =>
      show (observe { r with isAbandoned := true } s s).Sound s
      rw [observe_self _ hs.keyed]
      exact ⟨h.asking, h.finishing, h.success, h.effect⟩

/-- An action does not take back what has been noted. -/
theorem act_finished (r : Runner) (s : Store) (action : Runner.Action) :
    (r.act s action).1.finished = r.finished := by
  cases action with
  | step | abandon => rfl
  | hear reply =>
      show (r.hear reply).finished = r.finished
      unfold hear
      split
      · rfl
      · rfl

/-- A runner that has finished an order has finished its own, which is finished in the store. -/
theorem Sound.finished_own (h : r.Sound s) {number : OrderNumber} (hmem : number ∈ r.finished) :
    number = r.number ∧ s.Finished number := by
  rcases h.effect with ⟨hnone, _⟩ | ⟨_, hfinished, _, _, hsettled⟩
  · rw [hnone] at hmem
    cases hmem
  · rw [hfinished, List.mem_singleton] at hmem
    subst hmem
    exact ⟨rfl, hsettled.finished⟩

end Runner

/-! ## Races -/

namespace Race

/-- Ledger and orders agree, every runner is sound, no two runners have finished the same order, and
every finished order has been finished by a runner. -/
structure Sound (w : Race) : Prop where
  consistent : w.store.Consistent
  unearned : w.store.Unearned
  runners : ∀ r ∈ w.runners, r.Sound w.store
  unique : ∀ (i j : Nat) (r q : Runner) (number : OrderNumber),
    w.runners[i]? = some r → w.runners[j]? = some q →
    number ∈ r.finished → number ∈ q.finished → i = j
  complete : ∀ number, w.store.Finished number → ∃ r ∈ w.runners, number ∈ r.finished

/-- A race without attempts is sound. -/
theorem sound_empty : (⟨.empty, []⟩ : Race).Sound where
  consistent := Store.consistent_empty
  unearned _ _ h := nomatch h
  runners _ h := nomatch h
  unique _ _ _ _ _ h := nomatch h
  complete _ h := by
    obtain ⟨_, h, _⟩ := h
    cases h

variable {w : Race}

/-- A new attempt keeps a race sound. -/
theorem Sound.start (h : w.Sound) (number : OrderNumber) : (w.start number).Sound where
  consistent := h.consistent
  unearned := h.unearned
  runners r hr := by
    rcases List.mem_append.mp hr with hr | hr
    · exact h.runners r hr
    · rw [List.mem_singleton.mp hr]
      exact Runner.sound_start w.store number
  unique i j r q other hi hj hr hq := by
    -- The new runner has finished nothing.
    have hold (k : Nat) (x : Runner) (hk : (w.runners ++ [Runner.start number])[k]? = some x)
        (hx : other ∈ x.finished) : w.runners[k]? = some x := by
      rw [List.getElem?_append] at hk
      split at hk
      · exact hk
      · obtain rfl := List.mem_singleton.mp (List.mem_of_getElem? hk)
        cases hx
    exact h.unique i j r q other (hold i r hi hr) (hold j q hj hq) hr hq
  complete other hother := by
    obtain ⟨r, hr, hfinished⟩ := h.complete other hother
    exact ⟨r, List.mem_append_left _ hr, hfinished⟩

/-- A call that is no change of status keeps a race sound. -/
theorem Sound.call (h : w.Sound) (call : Store.Call) : (w.call call).Sound := by
  unfold Race.call
  split
  · exact h
  · rename_i hcall
    have heffect := Store.perform_effect call w.store
    refine ⟨heffect.writes.keep Store.Write.consistent h.consistent,
      heffect.writes.keep Store.Write.unearned h.unearned,
      fun r hr => (h.runners r hr).later heffect.writes, h.unique, fun number hfinished => ?_⟩
    exact h.complete number (heffect.finished_before (Bool.eq_false_iff.mpr hcall) hfinished)

/-- A runner that has made writes, with what an observer has noted of them, keeps a race sound. -/
theorem Sound.replace (h : w.Sound) {id : Nat} {r next : Runner} {t : Store}
    (hr : w.runners[id]? = some r) (hwrites : Writes w.store t) (hnext : next.Sound t)
    (hfinished : next.finished = r.finished ++ w.store.newlyFinished t) :
    Sound ⟨t, w.runners.set id next⟩ := by
  have hconsistent : t.Consistent := hwrites.keep Store.Write.consistent h.consistent
  have hmem (number : OrderNumber) : number ∈ next.finished ↔
      number ∈ r.finished ∨ t.Finished number ∧ ¬ w.store.Finished number := by
    rw [hfinished, List.mem_append, Store.mem_newly_finished hconsistent.keyed]
  have hlength : id < w.runners.length := (List.getElem?_eq_some_iff.mp hr).1
  -- What another runner has finished was finished before, so it is not noted again.
  have hother (j : Nat) (q : Runner) (number : OrderNumber) (hj : w.runners[j]? = some q)
      (hq : number ∈ q.finished) (hnow : number ∈ next.finished) : id = j := by
    have hbefore := ((h.runners q (List.mem_of_getElem? hj)).finished_own hq).2
    rcases (hmem number).mp hnow with hold | ⟨_, hopen⟩
    · exact h.unique id j r q number hr hj hold hq
    · exact absurd hbefore hopen
  refine ⟨hconsistent, hwrites.keep Store.Write.unearned h.unearned, ?_, ?_, ?_⟩
  · intro q hq
    rcases List.mem_or_eq_of_mem_set hq with hq | rfl
    · exact (h.runners q hq).later hwrites
    · exact hnext
  · intro i j p q number hi hj hp hq
    change (w.runners.set id next)[i]? = some p at hi
    change (w.runners.set id next)[j]? = some q at hj
    rw [List.getElem?_set] at hi hj
    split at hi <;> split at hj
    · rename_i hidi hidj
      rw [← hidi, ← hidj]
    · rename_i hidi _
      cases hi
      exact hidi.symm.trans (hother j q number hj hq hp)
    · rename_i _ hidj
      cases hj
      exact (hother i p number hi hp hq).symm.trans hidj
    · exact h.unique i j p q number hi hj hp hq
  · intro number hnow
    by_cases hbefore : w.store.Finished number
    · obtain ⟨q, hq, hnumber⟩ := h.complete number hbefore
      obtain ⟨j, hj⟩ := List.mem_iff_getElem?.mp hq
      by_cases hsame : id = j
      · subst hsame
        obtain rfl : r = q := Option.some.inj (hr.symm.trans hj)
        exact ⟨next, List.mem_set hlength next, (hmem number).mpr (.inl hnumber)⟩
      · refine ⟨q, List.mem_of_getElem? (i := j) ?_, hnumber⟩
        rw [List.getElem?_set_ne hsame]
        exact hj
    · exact ⟨next, List.mem_set hlength next, (hmem number).mpr (.inr ⟨hnow, hbefore⟩)⟩

/-- An action of a runner keeps a race sound. -/
theorem Sound.act (h : w.Sound) (id : Nat) (action : Runner.Action) : (w.act id action).Sound := by
  unfold Race.act
  split
  · exact h
  · rename_i r hr
    split
    · exact h
    · have hsound := (h.runners r (List.mem_of_getElem? hr)).act h.consistent h.unearned action
      exact h.replace hr (r.act_writes w.store action) hsound
        (congrArg (· ++ _) (r.act_finished w.store action))

/-- Every event keeps a race sound. -/
theorem Sound.step (h : w.Sound) (event : Event) : (w.step event).Sound := by
  cases event with
  | start number => exact h.start number
  | act id action => exact h.act id action
  | call call => exact h.call call

/-- A race is sound after any events. -/
theorem sound_after (events : List Event) : (after events).Sound := by
  induction events using List.reverseRecOn with
  | nil => exact sound_empty
  | append_singleton events event ih =>
      rw [after, List.foldl_append]
      exact ih.step event

/-- Every event makes writes and nothing else. -/
theorem step_writes (w : Race) (event : Event) : Writes w.store (w.step event).store := by
  cases event with
  | start number => exact .refl
  | act id action =>
      show Writes w.store (w.act id action).store
      unfold Race.act
      split
      · exact .refl
      · rename_i r _
        split
        · exact .refl
        · exact r.act_writes w.store action
  | call call =>
      show Writes w.store (w.call call).store
      unfold Race.call
      split
      · exact .refl
      · exact Store.perform_writes call w.store

/-- What every write keeps holds of the store of every race. -/
theorem after_keeps {P : Store → Prop} (hempty : P .empty)
    (hstep : ∀ {s t : Store}, Store.Write s t → P s → P t) (events : List Event) :
    P (after events).store := by
  induction events using List.reverseRecOn with
  | nil => exact hempty
  | append_singleton events event ih =>
      rw [after, List.foldl_append]
      exact ((after events).step_writes event).keep hstep ih

/-- After any events: an attempt that has succeeded leaves its order finished. No two attempts have
finished the same order, and every finished order has been finished by one of them. An attempt that
has finished an order or added an entry has succeeded and has finished just the order that it is
about; the status, the accrual and all credits of this order are as the reply says that the attempt
has heard, and the credits are what it has added. So an attempt that has ended otherwise, or has
been abandoned before, has added nothing. -/
theorem attempts_safe (events : List Event) :
    (∀ r ∈ (after events).runners, r.attempt = .done .success →
      (after events).store.Finished r.number) ∧
    (∀ (i j : Nat) (r q : Runner) (number : OrderNumber),
      (after events).runners[i]? = some r → (after events).runners[j]? = some q →
      number ∈ r.finished → number ∈ q.finished → i = j) ∧
    (∀ number, (after events).store.Finished number →
      ∃ r ∈ (after events).runners, number ∈ r.finished) ∧
    (∀ r ∈ (after events).runners, r.finished ≠ [] ∨ r.added ≠ [] →
      r.attempt = .done .success ∧ r.finished = [r.number] ∧
        ∃ reply, r.heard = some reply ∧ Settled (after events).store r.number reply r.added) ∧
    (∀ r ∈ (after events).runners, r.attempt ≠ .done .success → r.added = []) := by
  have h := sound_after events
  refine ⟨fun r hr => (h.runners r hr).success, h.unique, h.complete, ?_, ?_⟩
  · intro r hr hchange
    rcases (h.runners r hr).effect with ⟨hfinished, hadded⟩ | hwon
    · rcases hchange with hchange | hchange
      · exact absurd hfinished hchange
      · exact absurd hadded hchange
    · exact hwon
  · intro r hr hattempt
    exact ((h.runners r hr).idle hattempt).2

/-- Two attempts on one order hear different amounts, and the one that has claimed the order comes
too late. -/
example :
    let number : OrderNumber := ⟨"18", by decide⟩
    let first : Decimal := ⟨5, 0, by decide, by decide⟩
    let second : Decimal := ⟨7, 0, by decide, by decide⟩
    let w := after [.call (.createOrder number default default), .start number, .start number,
      .act 0 (.step default), .act 1 (.step default), .act 0 (.step default),
      .act 1 (.step default), .act 1 (.step default), .act 0 (.hear (.ok (.resolved first))),
      .act 1 (.hear (.ok (.resolved second))), .act 1 (.step default), .act 0 (.step default)]
    w.runners.map (·.attempt) = [.done .success, .done .success] ∧
      w.runners.map (·.finished) = [[], [number]] ∧
      w.store.orders.map (·.accrual) = [second] ∧ w.store.entries.map (·.amount) = [second] := by
  cbv

end Race

end Rewards.Pipeline

import Rewards.Proofs.Store.Operations
import Rewards.Service.Basic

/-!
# The service over a store in memory

The operations of the service, run on a store. What else they need comes from surroundings: a clock,
identifiers for new users, and hashes of passwords. The surroundings have a state of their own, so
each answer of theirs may differ from the one before. The lemmas here run an operation part by part,
and say of which parts it follows that it does not change the store, or not unless it succeeds.
-/

namespace Rewards

/-- What the service takes from outside, and how it issues sessions. -/
structure Surroundings (ω : Type) where
  clock : StateM ω Instant
  newId : StateM ω UserId
  hash : String → StateM ω (Except Crypto.PasswordHashError String)
  verify : String → String → Except Crypto.PasswordHashError Bool
  issuer : Session.Issuer

/-- What runs on a store in some surroundings. -/
abbrev InMemory (ω : Type) := StateT Store (StateM ω)

/-- The service over a store in memory. -/
def Surroundings.service {ω : Type} (x : Surroundings ω) : Service (InMemory ω) where
  store := .inMemory (liftM x.clock) (liftM x.newId)
  clock := liftM x.clock
  passwords := ⟨fun password => liftM (x.hash password), x.verify⟩
  issuer := x.issuer

@[simp] theorem Surroundings.service_issuer {ω : Type} (x : Surroundings ω) :
    x.service.issuer = x.issuer := rfl

/-- Surroundings where it is always the same time and passwords are kept as they are. -/
def Surroundings.still : Surroundings Nat where
  clock := return default
  newId := modifyGet fun count => (⟨.ofNat count⟩, count + 1)
  hash password := return .ok password
  verify password hash := .ok (password == hash)
  issuer := .ofSecret "secret"

/-! ## Outcomes -/

/-- What a run comes to: its result, and the store and the surroundings that it leaves. -/
structure Outcome (ω α : Type) where
  result : α
  store : Store
  surroundings : ω

variable {ω α β ε δ : Type}

/-- Run on a store. -/
def InMemory.perform (x : InMemory ω α) (s : Store) (w : ω) : Outcome ω α :=
  let ((result, store), surroundings) := (x.run s).run w
  ⟨result, store, surroundings⟩

namespace Outcome

/-- Go on with a result. A failure is final. -/
def andThen (f : α → InMemory ω (Except ε β)) :
    Outcome ω (Except ε α) → Outcome ω (Except ε β)
  | ⟨.ok a, t, v⟩ => (f a).perform t v
  | ⟨.error e, t, v⟩ => ⟨.error e, t, v⟩

/-- The same outcome with another result. -/
def map (f : α → β) (o : Outcome ω α) : Outcome ω β := ⟨f o.result, o.store, o.surroundings⟩

@[simp] theorem map_result (f : α → β) (o : Outcome ω α) : (o.map f).result = f o.result := rfl

@[simp] theorem map_store (f : α → β) (o : Outcome ω α) : (o.map f).store = o.store := rfl

/-- The same outcome with another failure. -/
def mapError (f : ε → δ) : Outcome ω (Except ε α) → Outcome ω (Except δ α)
  | ⟨.ok a, t, v⟩ => ⟨.ok a, t, v⟩
  | ⟨.error e, t, v⟩ => ⟨.error (f e), t, v⟩

theorem map_error_store (f : ε → δ) (o : Outcome ω (Except ε α)) :
    (o.mapError f).store = o.store := by
  cases o with
  | mk result t v => cases result <;> rfl

/-- Another failure comes from a failure. -/
theorem result_of_map_error {f : ε → δ} {o : Outcome ω (Except ε α)} {d : δ}
    (h : (o.mapError f).result = .error d) : ∃ e, o.result = .error e := by
  cases o with
  | mk result t v =>
      cases result with
      | ok a => cases h
      | error e => exact ⟨e, rfl⟩

/-- What an operation of the store comes to. It leaves the store as it was if it is refused. -/
def committed (s : Store) (w : ω) : Except ε (α × Store) → Outcome ω (Except ε α)
  | .ok (result, t) => ⟨.ok result, t, w⟩
  | .error e => ⟨.error e, s, w⟩

end Outcome

namespace InMemory

theorem perform_pure (a : α) (s : Store) (w : ω) :
    perform (pure a : InMemory ω α) s w = ⟨a, s, w⟩ := rfl

theorem perform_bind (x : InMemory ω α) (f : α → InMemory ω β) (s : Store) (w : ω) :
    perform (x >>= f) s w =
      (f (x.perform s w).result).perform (x.perform s w).store (x.perform s w).surroundings := rfl

theorem perform_map (f : α → β) (x : InMemory ω α) (s : Store) (w : ω) :
    perform (f <$> x) s w = (x.perform s w).map f := rfl

/-- A part of an operation is followed by the next one unless it fails. -/
theorem perform_run_bind (x : ExceptT ε (InMemory ω) α) (f : α → ExceptT ε (InMemory ω) β)
    (s : Store) (w : ω) :
    perform (x >>= f).run s w = (perform x.run s w).andThen fun a => (f a).run := by
  rw [ExceptT.run_bind, perform_bind]
  cases perform x.run s w with
  | mk result t v => cases result <;> rfl

/-- A part of an operation goes through and is followed by the next one, or it fails. -/
theorem run_bind_cases (x : ExceptT ε (InMemory ω) α) (f : α → ExceptT ε (InMemory ω) β)
    (s : Store) (w : ω) :
    (∃ a, (perform x.run s w).result = .ok a ∧ perform (x >>= f).run s w =
      perform (f a).run (perform x.run s w).store (perform x.run s w).surroundings) ∨
    (∃ e, (perform x.run s w).result = .error e ∧ perform (x >>= f).run s w =
      ⟨.error e, (perform x.run s w).store, (perform x.run s w).surroundings⟩) := by
  rw [perform_run_bind]
  cases perform x.run s w with
  | mk result t v =>
      cases result with
      | ok a => exact .inl ⟨a, rfl, rfl⟩
      | error e => exact .inr ⟨e, rfl, rfl⟩

/-- What cannot fail is not the end of an operation. -/
theorem perform_run_lift (x : InMemory ω α) (s : Store) (w : ω) :
    perform (liftM x : ExceptT ε (InMemory ω) α).run s w =
      ⟨.ok (x.perform s w).result, (x.perform s w).store, (x.perform s w).surroundings⟩ := rfl

/-- An operation of the store takes nothing from the surroundings. -/
theorem perform_in_place (change : Storage.Change Store ε α) (s : Store) (w : ω) :
    perform (StoreAccess.inPlace change) s w =
      ⟨(change.apply s).1, (change.apply s).2, w⟩ := rfl

/-- An operation of the store that comes to one step. -/
theorem perform_one_step {change : Storage.Change Store ε α} {s : Store}
    {result : Except ε (α × Store)} (happly : change.apply s = s.inPlace result) (w : ω) :
    perform (StoreAccess.inPlace change) s w = .committed s w result := by
  rw [perform_in_place, happly]
  cases result <;> rfl

/-- Changing the failure changes nothing else. -/
theorem perform_adapt (f : ε → δ) (x : ExceptT ε (InMemory ω) α) (s : Store) (w : ω) :
    perform (ExceptT.adapt f x).run s w = (perform x.run s w).mapError f := by
  have hadapt : perform (ExceptT.adapt f x).run s w =
      ⟨(perform x.run s w).result.mapError f, (perform x.run s w).store,
        (perform x.run s w).surroundings⟩ := rfl
  rw [hadapt]
  cases perform x.run s w with
  | mk result t v => cases result <;> rfl

/-! ## What leaves the store alone -/

/-- The store is the same afterwards. -/
def Reads (x : InMemory ω α) : Prop := ∀ s w, (x.perform s w).store = s

/-- The store is the same after a failure. -/
def Spares (x : ExceptT ε (InMemory ω) α) : Prop :=
  ∀ s w e, (perform x.run s w).result = .error e → (perform x.run s w).store = s

theorem reads_pure (a : α) : Reads (pure a : InMemory ω α) := fun _ _ => rfl

theorem reads_lift (x : StateM ω α) : Reads (liftM x : InMemory ω α) := fun _ _ => rfl

theorem reads_get : Reads (get : InMemory ω Store) := fun _ _ => rfl

theorem Reads.bind {x : InMemory ω α} {f : α → InMemory ω β} (hx : Reads x)
    (hf : ∀ a, Reads (f a)) : Reads (x >>= f) := by
  intro s w
  rw [perform_bind, hf]
  exact hx s w

theorem Reads.run_bind {x : ExceptT ε (InMemory ω) α} {f : α → ExceptT ε (InMemory ω) β}
    (hx : Reads x.run) (hf : ∀ a, Reads (f a).run) : Reads (x >>= f).run := by
  rw [ExceptT.run_bind]
  refine hx.bind fun result => ?_
  cases result with
  | ok a => exact hf a
  | error e => exact reads_pure _

theorem Reads.run_lift {x : InMemory ω α} (hx : Reads x) :
    Reads (liftM x : ExceptT ε (InMemory ω) α).run := hx

theorem Reads.spares {x : ExceptT ε (InMemory ω) α} (hx : Reads x.run) : Spares x :=
  fun s w _ _ => hx s w

/-- If all that an operation can come to is known, only its failures have to be looked at. -/
theorem Spares.of_effect {x : ExceptT ε (InMemory ω) α} {Effect : Store → Except ε α → Store → Prop}
    (hx : ∀ s w, Effect s (perform x.run s w).result (perform x.run s w).store)
    (hfailed : ∀ s e t, Effect s (.error e) t → t = s) : Spares x := by
  intro s w e h
  have heffect := hx s w
  rw [h] at heffect
  exact hfailed s e _ heffect

/-- Nothing has changed yet when what comes first has only read. -/
theorem Spares.after_reads {x : ExceptT ε (InMemory ω) α} {f : α → ExceptT ε (InMemory ω) β}
    (hx : Reads x.run) (hf : ∀ a, Spares (f a)) : Spares (x >>= f) := by
  intro s w e h
  rcases run_bind_cases x f s w with ⟨a, _, heq⟩ | ⟨_, _, heq⟩
  · rw [heq] at h ⊢
    rw [hf a _ _ e h]
    exact hx s w
  · rw [heq]
    exact hx s w

end InMemory

end Rewards

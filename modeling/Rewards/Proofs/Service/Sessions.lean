import Rewards.Proofs.Service.Effects

/-!
# Registering and logging in

All that a registration and a login can come to, whatever the clock shows. A registration that is
not refused stores the user first and opens the session then; if the session would end beyond the
time line, the user is stored all the same.
-/

namespace Rewards

open InMemory (perform perform_run_bind perform_run_lift perform_pure Spares)
open Service (perform_ask perform_check_credentials perform_hash perform_create_user
  perform_open_session)

variable {ω : Type}

/-- The store with one more user. -/
def Store.enrol (s : Store) (user : User) : Store :=
  { s with users := s.users ++ [user], logins := s.logins ++ [(user.login, user.id)] }

namespace Surroundings

/-- What comes of opening a session of a user. -/
def session (x : Surroundings ω) (user : UserId) (w : ω) : Except (Failure ServiceError) String :=
  match x.issuer.issue? user (x.clock.run w).1 with
  | some token => .ok token
  | none => .error .overflow

/-- The hash that a registration stores, if there is one. -/
def hashed (x : Surroundings ω) (c : Credentials) (w : ω) :
    Except Crypto.PasswordHashError String :=
  ((x.hash c.password).run w).1

/-- The identifier that a registration takes for its user. It is taken after the password has been
hashed. -/
def drawn (x : Surroundings ω) (c : Credentials) (w : ω) : UserId :=
  (x.newId.run ((x.hash c.password).run w).2).1

/-- In good time every session is opened: its token says whose it is. -/
theorem Timely.session {x : Surroundings ω} (h : x.Timely) (user : UserId) (w : ω) :
    ∃ issuedAt expiresAt,
      x.session user w = .ok (Session.sign x.issuer.secret ⟨user, issuedAt, expiresAt⟩) := by
  obtain ⟨later, hlater⟩ := Option.isSome_iff_exists.mp (h w)
  refine ⟨(x.clock.run w).1, later, ?_⟩
  rw [Instant.addSeconds?] at hlater
  rw [Surroundings.session, Session.Issuer.issue?, Session.Issuer.issueFor?, hlater]
  rfl

end Surroundings

namespace Service

variable (x : Surroundings ω) (s : Store) (w : ω)

/-- What a registration comes to. It is refused for bad credentials, for a password that cannot be
hashed, and for a login that is taken. -/
inductive Enrolled (c : Credentials) : Except (Failure ServiceError) String → Store → Prop where
  | refused (e : ServiceError) :
      c.faults ≠ [] ∨ (∃ e, x.hashed c w = .error e) ∨ (s.idOfLogin? c.login).isSome = true →
      Enrolled c (.error (.refused e)) s
  | enrolled (hash : String) (v : ω) :
      c.faults = [] → x.hashed c w = .ok hash → s.idOfLogin? c.login = none →
      Enrolled c (x.session (x.drawn c w) v) (s.enrol ⟨x.drawn c w, c.login, hash⟩)

/-- A registration is refused or stores its user. -/
theorem enrol_effect (c : Credentials) :
    Enrolled x s w c (perform (x.service.register c).run s w).result
      (perform (x.service.register c).run s w).store := by
  simp only [register, perform_run_bind, perform_check_credentials]
  by_cases hfaults : c.faults = []
  · rw [if_pos (List.isEmpty_iff.mpr hfaults)]
    simp only [Outcome.andThen, perform_run_bind, perform_run_lift, perform_hash]
    cases hhash : ((x.hash c.password).run w).1 with
    | error e => exact .refused _ (.inr (.inl ⟨e, hhash⟩))
    | ok hash =>
        simp only [askPassword, ExceptT.run_pure, perform_pure, perform_ask, perform_create_user,
          Store.createUser]
        by_cases htaken : (s.idOfLogin? c.login).isSome = true
        · rw [if_pos htaken]
          exact .refused _ (.inr (.inr htaken))
        · rw [if_neg htaken]
          simp only [Outcome.committed, Outcome.mapError]
          rw [perform_open_session]
          exact .enrolled hash _ hfaults hhash (by simpa using htaken)
  · rw [if_neg (mt List.isEmpty_iff.mp hfaults)]
    exact .refused _ (.inl hfaults)

variable {x s w} in
/-- A registration leaves the orders as they are. -/
theorem Enrolled.orders {c : Credentials} {result : Except (Failure ServiceError) String}
    {t : Store} (h : Enrolled x s w c result t) : t.orders = s.orders := by
  cases h <;> rfl

variable {x s w} in
/-- In good time a registration that fails leaves the store as it was. -/
theorem Enrolled.failed {c : Credentials} {e : Failure ServiceError} {t : Store}
    (h : Enrolled x s w c (.error e) t) (htimely : x.Timely) : t = s := by
  generalize hresult : Except.error e = result at h
  cases h with
  | refused => rfl
  | enrolled hash v =>
      obtain ⟨_, _, htoken⟩ := htimely.session (x.drawn c w) v
      rw [htoken] at hresult
      cases hresult

variable {x} in
/-- A registration that fails leaves the store as it was. -/
theorem spares_register (htimely : x.Timely) (c : Credentials) : Spares (x.service.register c) := by
  intro s w e hfailed
  have henrolled := enrol_effect x s w c
  rw [hfailed] at henrolled
  exact henrolled.failed htimely

/-- What a login comes to. It is refused for bad credentials, for a login that nobody has, and for a
password that is not the user's. -/
inductive Entered (c : Credentials) : Except (Failure ServiceError) String → Prop where
  | refused (e : ServiceError) :
      c.faults ≠ [] ∨ (∀ user, s.userByLogin? c.login = some user →
        x.verify c.password user.passwordHash ≠ .ok true) →
      Entered c (.error (.refused e))
  | entered (user : User) :
      c.faults = [] → s.userByLogin? c.login = some user →
      x.verify c.password user.passwordHash = .ok true →
      Entered c (x.session user.id w)

theorem perform_user_by_login (login : String) :
    perform (x.service.store.userByLogin login) s w = ⟨.ok (s.userByLogin? login), s, w⟩ := rfl

/-- A login is refused or opens a session. -/
theorem enter_effect (c : Credentials) :
    Entered x s w c (perform (x.service.login c).run s w).result := by
  simp only [login, perform_run_bind, perform_check_credentials]
  by_cases hfaults : c.faults = []
  · rw [if_pos (List.isEmpty_iff.mpr hfaults)]
    simp only [Outcome.andThen, perform_run_bind, perform_ask, perform_user_by_login,
      Outcome.mapError]
    cases hfound : s.userByLogin? c.login with
    | none => exact .refused _ (.inr fun user huser => by simp [hfound] at huser)
    | some user =>
        have hother (hverify : x.verify c.password user.passwordHash ≠ .ok true) :
            ∀ found, s.userByLogin? c.login = some found →
              x.verify c.password found.passwordHash ≠ .ok true := by
          intro found hsame
          rw [hfound] at hsame
          cases hsame
          exact hverify
        have hscheme : x.service.passwords.verify = x.verify := rfl
        simp only [perform_run_bind, hscheme]
        cases hverify : x.verify c.password user.passwordHash with
        | error e => exact .refused _ (.inr (hother (by simp [hverify])))
        | ok fits =>
            simp only [askPassword, ExceptT.run_pure, perform_pure]
            cases fits with
            | false => exact .refused _ (.inr (hother (by simp [hverify])))
            | true =>
                simp only [Outcome.andThen, if_true]
                rw [perform_open_session]
                exact .entered user hfaults hfound hverify
  · rw [if_neg (mt List.isEmpty_iff.mp hfaults)]
    exact .refused _ (.inl hfaults)

end Service

end Rewards

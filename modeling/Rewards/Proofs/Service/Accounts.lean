import Mathlib.Data.List.Forall2
import Rewards.Proofs.Account.Passwords
import Rewards.Proofs.Service.Visits

/-!
# Accounts

Users register and log in, in any order and with anything else in between. A login then belongs to
one user, the first one who has registered it, and opens for the password of that registration and
for no other. A password is checked by its key, so this rests on the policy, under which different
passwords have different keys. The main statement is `accounts_consistent`.
-/

namespace Rewards

open InMemory (perform)

/-! ## Logins and users -/

namespace Store

/-- Logins and users lead to each other: a login has the identifier of the user who has the login,
and the user with a login is the one with its identifier. -/
structure Paired (s : Store) : Prop where
  login : ∀ login id, s.idOfLogin? login = some id ↔
    ∃ user, s.userById? id = some user ∧ user.login = login
  user : ∀ login user, s.userByLogin? login = some user ↔
    s.userById? user.id = some user ∧ user.login = login

/-- Every user has entered the login with the identifier, no two users share a login, and their
identifiers are some of those that have been issued, in their order. -/
structure Rostered (s : Store) (issued : List UserId) : Prop where
  logins : s.logins = s.users.map fun user => (user.login, user.id)
  distinct : (s.users.map (·.login)).Nodup
  issued : (s.users.map (·.id)).Sublist issued

variable {s : Store} {issued : List UserId}

namespace Rostered

/-- The identifier of a login is that of the user who has the login. -/
theorem id_of_login_iff (h : s.Rostered issued) {login : String} {id : UserId} :
    s.idOfLogin? login = some id ↔ ∃ user ∈ s.users, user.login = login ∧ user.id = id := by
  have hkeys : (s.logins.map (·.1)).Nodup := by
    rw [h.logins, List.map_map]
    exact h.distinct
  rw [idOfLogin?, Option.map_eq_some_iff]
  constructor
  · rintro ⟨entry, hfound, rfl⟩
    obtain ⟨hmem, rfl⟩ := (find_unique_iff hkeys).mp hfound
    rw [h.logins, List.mem_map] at hmem
    obtain ⟨user, huser, rfl⟩ := hmem
    exact ⟨user, huser, rfl, rfl⟩
  · rintro ⟨user, huser, rfl, rfl⟩
    refine ⟨(user.login, user.id), (find_unique_iff hkeys).mpr ⟨?_, rfl⟩, rfl⟩
    rw [h.logins]
    exact List.mem_map_of_mem huser

/-- With different identifiers, the user with an identifier is the one who has it. -/
theorem user_by_id_iff (h : s.Rostered issued) (hfresh : issued.Nodup) {id : UserId} {user : User} :
    s.userById? id = some user ↔ user ∈ s.users ∧ user.id = id :=
  find_unique_iff (h.issued.nodup hfresh)

/-- With different identifiers, the user with a login is the one who has it. -/
theorem user_by_login_iff (h : s.Rostered issued) (hfresh : issued.Nodup) {login : String}
    {user : User} : s.userByLogin? login = some user ↔ user ∈ s.users ∧ user.login = login := by
  simp only [userByLogin?, bind, Option.bind_eq_some_iff, h.id_of_login_iff,
    h.user_by_id_iff hfresh]
  constructor
  · rintro ⟨id, ⟨other, hother, rfl, rfl⟩, huser, hsame⟩
    obtain rfl := List.inj_on_of_nodup_map (h.issued.nodup hfresh) huser hother hsame
    exact ⟨huser, rfl⟩
  · rintro ⟨huser, rfl⟩
    exact ⟨user.id, ⟨user, huser, rfl, rfl⟩, huser, rfl⟩

/-- With different identifiers, logins and users lead to each other. -/
theorem paired (h : s.Rostered issued) (hfresh : issued.Nodup) : s.Paired where
  login login id := by
    rw [h.id_of_login_iff]
    simp only [h.user_by_id_iff hfresh]
    constructor
    · rintro ⟨user, huser, hlogin, hid⟩
      exact ⟨user, ⟨huser, hid⟩, hlogin⟩
    · rintro ⟨user, ⟨huser, hid⟩, hlogin⟩
      exact ⟨user, huser, hlogin, hid⟩
  user login user := by
    rw [h.user_by_login_iff hfresh, h.user_by_id_iff hfresh]
    simp only [and_true]

/-- A user whose login is free joins. -/
theorem enrol (h : s.Rostered issued) {user : User} (hfree : s.idOfLogin? user.login = none) :
    (s.enrol user).Rostered (issued ++ [user.id]) where
  logins := by
    show s.logins ++ [(user.login, user.id)] = (s.users ++ [user]).map _
    rw [h.logins, List.map_append]
    rfl
  distinct := by
    show ((s.users ++ [user]).map (·.login)).Nodup
    rw [List.map_append, List.nodup_append]
    refine ⟨h.distinct, List.nodup_singleton _, ?_⟩
    rintro login hlogin other hother rfl
    rw [List.map_singleton, List.mem_singleton] at hother
    obtain ⟨owner, howner, rfl⟩ := List.mem_map.mp hlogin
    rw [h.id_of_login_iff.mpr ⟨owner, howner, hother, rfl⟩] at hfree
    cases hfree
  issued := by
    show ((s.users ++ [user]).map (·.id)).Sublist _
    rw [List.map_append]
    exact h.issued.append (.refl _)

/-- It makes no difference if further identifiers are issued. -/
theorem more (h : s.Rostered issued) (ids : List UserId) : s.Rostered (issued ++ ids) :=
  ⟨h.logins, h.distinct, h.issued.trans (List.sublist_append_left _ _)⟩

/-- Only users and logins count. -/
theorem of_same {t : Store} (h : s.Rostered issued) (husers : t.users = s.users)
    (hlogins : t.logins = s.logins) : t.Rostered issued :=
  ⟨by rw [hlogins, husers, h.logins], by rw [husers]; exact h.distinct,
    by rw [husers]; exact h.issued⟩

end Rostered

/-- A write removes and replaces no user. -/
theorem Writes.users {t : Store} (h : Writes s t) : s.users <+: t.users :=
  h.keep (P := fun u => s.users <+: u.users) (fun hwrite hs => by
    cases hwrite with
    | register user => exact hs.trans (List.prefix_append _ _)
    | upload | advance | debit => exact hs) (List.prefix_refl _)

end Store

/-! ## What registrations take from outside -/

namespace Surroundings

variable {ω : Type}

/-- The token is of a session of the user. -/
def IsTokenOf (x : Surroundings ω) (user : UserId) (token : String) : Prop :=
  ∃ issuedAt expiresAt, token = Session.sign x.issuer.secret ⟨user, issuedAt, expiresAt⟩

/-- A password is checked by its key: it fits a hash if it has the same key as the password that has
been hashed. -/
def ComparesKeys (x : Surroundings ω) : Prop :=
  ∀ hashed w hash, ((x.hash hashed).run w).1 = .ok hash → ∀ password,
    x.verify password hash =
      .ok (Crypto.PasswordHash.key password == Crypto.PasswordHash.key hashed)

/-- The identifier that a visit takes for a new user: a registration takes one when it has hashed a
password of credentials that break no rule. -/
def issued? (x : Surroundings ω) : Service.Request × ω → Option UserId
  | (.register c, w) =>
      match c.faults, x.hashed c w with
      | [], .ok _ => some (x.drawn c w)
      | _, _ => none
  | _ => none

/-- The identifiers that visits take for new users, in their order. -/
def issued (x : Surroundings ω) (visits : List (Service.Request × ω)) : List UserId :=
  visits.filterMap x.issued?

theorem issued_concat (x : Surroundings ω) (visits : List (Service.Request × ω))
    (visit : Service.Request × ω) :
    x.issued (visits ++ [visit]) = x.issued visits ++ (x.issued? visit).toList := by
  rw [issued, issued, List.filterMap_append, List.filterMap_cons]
  cases x.issued? visit <;> rfl

end Surroundings

namespace Service

variable {ω : Type} {x : Surroundings ω} {s : Store} {w : ω}

/-! ## Visits and users -/

/-- In good time a registration fails and leaves the store as it was, or it stores its user under
the identifier that it has taken, and gives out a session of that user. -/
theorem Enrolled.timely {c : Credentials} {result : Except (Failure ServiceError) String}
    {t : Store} (h : Enrolled x s w c result t) (htimely : x.Timely) :
    (∃ e, result = .error e ∧ t = s) ∨
    ∃ hash token, c.faults = [] ∧ x.hashed c w = .ok hash ∧ s.idOfLogin? c.login = none ∧
      x.IsTokenOf (x.drawn c w) token ∧ result = .ok token ∧
      t = s.enrol ⟨x.drawn c w, c.login, hash⟩ := by
  cases h with
  | refused e _ => exact .inl ⟨_, rfl, rfl⟩
  | enrolled hash later haccepted hhashed hfree =>
      obtain ⟨issuedAt, expiresAt, htoken⟩ := htimely.session (x.drawn c w) later
      exact .inr ⟨hash, _, haccepted, hhashed, hfree, ⟨issuedAt, expiresAt, rfl⟩, htoken, rfl⟩

/-- An upload leaves the users as they are. -/
theorem Submitted.users {user : UserId} {text : String} {t : Store}
    {result : Except (Failure ServiceError) (Scheduling Submission)}
    (h : Submitted s user text result t) : t.users = s.users ∧ t.logins = s.logins := by
  cases h <;> exact ⟨rfl, rfl⟩

/-- A withdrawal leaves the users as they are. -/
theorem Withdrawn.users {user : UserId} {t : Store}
    {result : Except (Failure ServiceError) (Scheduling LedgerEntry)}
    (h : Withdrawn s user result t) : t.users = s.users ∧ t.logins = s.logins := by
  cases h with
  | failed => exact ⟨rfl, rfl⟩
  | debited withdrawal now receipt t _ heffect => cases heffect <;> exact ⟨rfl, rfl⟩

/-- Whatever else is asked for, the users stay as they are. -/
theorem visit_users (request : Request) (hother : ∀ c, request ≠ .register c) :
    (visit x request s w).store.users = s.users ∧
      (visit x request s w).store.logins = s.logins := by
  cases request with
  | register c => exact absurd rfl (hother c)
  | login c =>
      rw [visit_login, Outcome.map_store, reads_login x c s w]
      exact ⟨rfl, rfl⟩
  | submit user text =>
      rw [visit_submit, Outcome.map_store]
      exact (submit_effect x s w user text).users
  | withdraw user text amount =>
      rw [visit_withdraw, Outcome.map_store]
      exact (withdraw_effect x s w user text amount).users
  | transition number source target accrual =>
      rw [visit_transition, Outcome.map_store]
      rcases Store.transition_cases s number source target accrual (x.clock.run w).1 with
        ⟨_, _, heq⟩ | ⟨_, _, heq⟩ | ⟨_, _, _, _, heq⟩ | ⟨order, _, _, _, heq⟩ <;>
      · rw [heq]
        exact ⟨rfl, rfl⟩

/-! ## Registrations over a history -/

/-- The credentials of a registration that has gone through, and the token that it has given out. -/
def registration? : Request × Reply → Option (Credentials × String)
  | (.register c, .session (.ok token)) => some (c, token)
  | _ => none

/-- The registrations that have gone through, in their order. -/
def History.registrations (h : History) : List (Credentials × String) :=
  h.log.filterMap registration?

/-- The user comes from the registration: it has given the login and the hash of the password, and
has been given a session. -/
structure Enlisted (x : Surroundings ω) (registration : Credentials × String) (user : User) :
    Prop where
  login : user.login = registration.1.login
  accepted : registration.1.faults = []
  hash : ∃ w, ((x.hash registration.1.password).run w).1 = .ok user.passwordHash
  token : x.IsTokenOf user.id registration.2

/-- The users are those of the registrations, in their order. -/
structure History.Registers (h : History) (x : Surroundings ω) (issued : List UserId) : Prop where
  rostered : h.store.Rostered issued
  enlisted : List.Forall₂ (Enlisted x) h.registrations h.store.users

namespace History

variable {h : History} {issued : List UserId}

theorem registrations_continue (h : History) (x : Surroundings ω) (request : Request) (w : ω) :
    (h.continue x request w).registrations =
      h.registrations ++ (registration? (request, (visit x request h.store w).result)).toList := by
  rw [registrations, registrations, filter_log_continue]

/-- A visit that registers nobody keeps the registrations. -/
theorem Registers.kept (hregisters : h.Registers x issued) {request : Request} {w : ω}
    (hnone : registration? (request, (visit x request h.store w).result) = none)
    (husers : (visit x request h.store w).store.users = h.store.users ∧
      (visit x request h.store w).store.logins = h.store.logins) (ids : List UserId) :
    (h.continue x request w).Registers x (issued ++ ids) where
  rostered := (hregisters.rostered.of_same husers.1 husers.2).more ids
  enlisted := by
    rw [registrations_continue, hnone, Option.toList_none, List.append_nil]
    show List.Forall₂ _ _ (visit x request h.store w).store.users
    rw [husers.1]
    exact hregisters.enlisted

/-- A visit keeps the users those of the registrations. -/
theorem Registers.continue (hregisters : h.Registers x issued) (htimely : x.Timely)
    (request : Request) (w : ω) :
    (h.continue x request w).Registers x (issued ++ (x.issued? (request, w)).toList) := by
  by_cases hregister : ∃ c, request = .register c
  · obtain ⟨c, rfl⟩ := hregister
    have hvisit := visit_register x h.store w c
    rcases (enrol_effect x h.store w c).timely htimely with
      ⟨e, hresult, hstore⟩ | ⟨hash, token, haccepted, hhashed, hfree, htoken, hresult, hstore⟩
    · refine hregisters.kept ?_ ?_ _
      · rw [hvisit, Outcome.map_result, hresult]
        rfl
      · rw [hvisit, Outcome.map_store, hstore]
        exact ⟨rfl, rfl⟩
    · -- The new user has the identifier that has been issued last.
      have hissued : x.issued? (.register c, w) = some (x.drawn c w) := by
        simp only [Surroundings.issued?, haccepted, hhashed]
      rw [hissued, Option.toList_some]
      constructor
      · show (visit x (.register c) h.store w).store.Rostered _
        rw [hvisit, Outcome.map_store, hstore]
        exact hregisters.rostered.enrol hfree
      · rw [registrations_continue, hvisit, Outcome.map_result, hresult]
        show List.Forall₂ _ _ (visit x (.register c) h.store w).store.users
        rw [hvisit, Outcome.map_store, hstore]
        exact List.rel_append hregisters.enlisted
          (.cons ⟨rfl, haccepted, ⟨w, hhashed⟩, htoken⟩ .nil)
  · have hother : ∀ c, request ≠ .register c := fun c heq => hregister ⟨c, heq⟩
    refine hregisters.kept ?_ (visit_users request hother) _
    cases request with
    | register c => exact absurd rfl (hother c)
    | login | submit | withdraw | transition => rfl

end History

/-- After any visits the users are those of the registrations. -/
theorem registers_history (htimely : x.Timely) (visits : List (Request × ω)) :
    (history x visits).Registers x (x.issued visits) := by
  induction visits using List.reverseRecOn with
  | nil => exact ⟨⟨rfl, List.nodup_nil, .refl _⟩, .nil⟩
  | append_singleton visits last ih =>
      rw [history_concat, Surroundings.issued_concat]
      exact ih.continue htimely last.1 last.2

namespace History.Registers

variable {h : History} {issued : List UserId} (hregisters : h.Registers x issued)
include hregisters

/-- Every registration has its user. -/
theorem user_of_registration {registration : Credentials × String}
    (hmem : registration ∈ h.registrations) :
    ∃ user ∈ h.store.users, Enlisted x registration user := by
  have henlisted := hregisters.enlisted
  generalize h.store.users = users at henlisted ⊢
  generalize h.registrations = registrations at henlisted hmem
  induction henlisted with
  | nil => cases hmem
  | cons hfirst _ ih =>
      rcases List.mem_cons.mp hmem with rfl | hmem
      · exact ⟨_, List.mem_cons_self, hfirst⟩
      · obtain ⟨user, huser, hown⟩ := ih hmem
        exact ⟨user, List.mem_cons_of_mem _ huser, hown⟩

/-- Every user has a registration. -/
theorem registration_of_user {user : User} (hmem : user ∈ h.store.users) :
    ∃ registration ∈ h.registrations, Enlisted x registration user := by
  have henlisted := hregisters.enlisted
  generalize h.store.users = users at henlisted hmem
  generalize h.registrations = registrations at henlisted ⊢
  induction henlisted with
  | nil => cases hmem
  | cons hfirst _ ih =>
      rcases List.mem_cons.mp hmem with rfl | hmem
      · exact ⟨_, List.mem_cons_self, hfirst⟩
      · obtain ⟨registration, hregistration, hown⟩ := ih hmem
        exact ⟨registration, List.mem_cons_of_mem _ hregistration, hown⟩

/-- The logins of the registrations are those of the users. -/
theorem logins_eq : h.registrations.map (·.1.login) = h.store.users.map (·.login) := by
  have henlisted := hregisters.enlisted
  generalize h.store.users = users at henlisted ⊢
  generalize h.registrations = registrations at henlisted ⊢
  induction henlisted with
  | nil => rfl
  | cons hfirst _ ih => rw [List.map_cons, List.map_cons, ih, hfirst.login]

/-- The user with a login is the one of the registration of the login. -/
theorem user_by_login_of_registration (hfresh : issued.Nodup)
    {registration : Credentials × String} (hmem : registration ∈ h.registrations) :
    ∃ user, h.store.userByLogin? registration.1.login = some user ∧
      Enlisted x registration user := by
  obtain ⟨user, huser, hown⟩ := hregisters.user_of_registration hmem
  exact ⟨user, (hregisters.rostered.user_by_login_iff hfresh).mpr ⟨huser, hown.login⟩, hown⟩

end History.Registers

/-! ## Logging in -/

/-- In good time a login goes through if the password fits the hash of the user, and gives out a
session of that user. -/
theorem Entered.timely {c : Credentials} {result : Except (Failure ServiceError) String}
    (h : Entered x s w c result) (htimely : x.Timely) :
    ((∃ e, result = .error e) ∧ (c.faults ≠ [] ∨ ∀ user, s.userByLogin? c.login = some user →
      x.verify c.password user.passwordHash ≠ .ok true)) ∨
    ∃ user token, c.faults = [] ∧ s.userByLogin? c.login = some user ∧
      x.verify c.password user.passwordHash = .ok true ∧ result = .ok token ∧
      x.IsTokenOf user.id token := by
  cases h with
  | refused e hreason => exact .inl ⟨⟨_, rfl⟩, hreason⟩
  | entered user haccepted hfound hverify =>
      obtain ⟨issuedAt, expiresAt, htoken⟩ := htimely.session user.id w
      exact .inr ⟨user, _, haccepted, hfound, hverify, htoken, issuedAt, expiresAt, rfl⟩

/-- The credentials of a login that goes through are those of the registration, since passwords with
the same key are the same. -/
theorem Enlisted.same_credentials {registration : Credentials × String} {user : User}
    {c : Credentials} (hown : Enlisted x registration user) (hscheme : x.ComparesKeys)
    (haccepted : c.faults = []) (hlogin : user.login = c.login)
    (hverify : x.verify c.password user.passwordHash = .ok true) : registration.1 = c := by
  obtain ⟨w, hhash⟩ := hown.hash
  rw [hscheme _ w _ hhash, Except.ok.injEq, beq_iff_eq] at hverify
  have hpassword := Credentials.password_of_key haccepted hown.accepted hverify
  have hsame := hown.login.symm.trans hlogin
  generalize registration.1 = d at hpassword hsame
  cases c
  cases d
  cases hpassword
  cases hsame
  rfl

/-- A login goes through for the credentials of the registrations and for no others. -/
theorem login_iff {h : History} {issued : List UserId} (hregisters : h.Registers x issued)
    (htimely : x.Timely) (hscheme : x.ComparesKeys) (hfresh : issued.Nodup) (c : Credentials) :
    (∃ token, (visit x (.login c) h.store w).result = .session (.ok token)) ↔
      ∃ token, (c, token) ∈ h.registrations := by
  rw [visit_login, Outcome.map_result]
  rcases (enter_effect x h.store w c).timely htimely with
    ⟨⟨e, hresult⟩, hreason⟩ | ⟨user, token, haccepted, hfound, hverify, hresult, _⟩
  · rw [hresult]
    refine ⟨fun ⟨_, hcontra⟩ => (nomatch hcontra), fun ⟨token, hmem⟩ => ?_⟩
    obtain ⟨user, hfound, hown⟩ := hregisters.user_by_login_of_registration hfresh hmem
    obtain ⟨v, hhash⟩ := hown.hash
    rcases hreason with hfaults | hother
    · exact absurd hown.accepted hfaults
    · exact absurd (by rw [hscheme _ v _ hhash, beq_self_eq_true]) (hother user hfound)
  · rw [hresult]
    refine ⟨fun _ => ?_, fun _ => ⟨token, rfl⟩⟩
    obtain ⟨huser, hlogin⟩ := (hregisters.rostered.user_by_login_iff hfresh).mp hfound
    obtain ⟨registration, hmem, hown⟩ := hregisters.registration_of_user huser
    obtain rfl := hown.same_credentials hscheme haccepted hlogin hverify
    exact ⟨registration.2, hmem⟩

/-- If the session is of the registration of a login, or of a login, its token is of the user with
the login. -/
theorem token_of_session {h : History} {issued : List UserId} (hregisters : h.Registers x issued)
    (htimely : x.Timely) (hfresh : issued.Nodup) {c : Credentials} {token : String}
    (hgiven : (c, token) ∈ h.registrations ∨
      ∃ w, (visit x (.login c) h.store w).result = .session (.ok token)) :
    ∃ user, h.store.userByLogin? c.login = some user ∧ x.IsTokenOf user.id token := by
  rcases hgiven with hmem | ⟨w, hresult⟩
  · obtain ⟨user, hfound, hown⟩ := hregisters.user_by_login_of_registration hfresh hmem
    exact ⟨user, hfound, hown.token⟩
  · rw [visit_login, Outcome.map_result] at hresult
    rcases (enter_effect x h.store w c).timely htimely with
      ⟨⟨e, hrefused⟩, _⟩ | ⟨user, given, _, hfound, _, hentered, htoken⟩
    · rw [hrefused] at hresult
      cases hresult
    · rw [hentered] at hresult
      cases hresult
      exact ⟨user, hfound, htoken⟩

/-- A registration of a login that has been registered fails. -/
theorem register_taken {h : History} {issued : List UserId} (hregisters : h.Registers x issued)
    (htimely : x.Timely) {registration : Credentials × String}
    (hmem : registration ∈ h.registrations) {c : Credentials}
    (hlogin : registration.1.login = c.login) :
    ∃ e, (visit x (.register c) h.store w).result = .session (.error e) := by
  rw [visit_register, Outcome.map_result]
  rcases (enrol_effect x h.store w c).timely htimely with
    ⟨e, hresult, _⟩ | ⟨_, _, _, _, hfree, _⟩
  · exact ⟨e, by rw [hresult]⟩
  · obtain ⟨user, huser, hown⟩ := hregisters.user_of_registration hmem
    have htaken := hregisters.rostered.id_of_login_iff.mpr
      ⟨user, huser, hown.login.trans hlogin, rfl⟩
    rw [htaken] at hfree
    cases hfree

/-- A registration that fails leaves the store as it was. -/
theorem register_failed (htimely : x.Timely) {c : Credentials} {e : Failure ServiceError}
    (hfailed : (visit x (.register c) s w).result = .session (.error e)) :
    (visit x (.register c) s w).store = s := by
  rw [visit_register, Outcome.map_result, Reply.session.injEq] at hfailed
  rw [visit_register, Outcome.map_store]
  exact spares_register htimely c s w e hfailed

/-- Whatever visits there have been: logins and users lead to each other, a login has been
registered once at most, other registrations of it fail, and one that fails changes nothing. A user
stays under the login whatever follows. A login goes through for the credentials of the
registrations only, and its token is of the user with the login, as that of the registration. This
rests on the policy: a key holds the whole of a password that is accepted, and different ones have
different keys. -/
theorem accounts_consistent (htimely : x.Timely) (hscheme : x.ComparesKeys)
    (visits : List (Request × ω)) (hfresh : (x.issued visits).Nodup) :
    (history x visits).store.Paired ∧
    ((history x visits).registrations.map (·.1.login)).Nodup ∧
    (∀ registration ∈ (history x visits).registrations, ∀ c w, registration.1.login = c.login →
      ∃ e, (visit x (.register c) (history x visits).store w).result = .session (.error e)) ∧
    (∀ c w e, (visit x (.register c) (history x visits).store w).result = .session (.error e) →
      (visit x (.register c) (history x visits).store w).store = (history x visits).store) ∧
    (∀ further login user, (x.issued (visits ++ further)).Nodup →
      (history x visits).store.userByLogin? login = some user →
      (history x (visits ++ further)).store.userByLogin? login = some user) ∧
    (∀ c w, (∃ token, (visit x (.login c) (history x visits).store w).result =
        .session (.ok token)) ↔
      ∃ token, (c, token) ∈ (history x visits).registrations) ∧
    (∀ c token, ((c, token) ∈ (history x visits).registrations ∨
        ∃ w, (visit x (.login c) (history x visits).store w).result = .session (.ok token)) →
      ∃ user, (history x visits).store.userByLogin? c.login = some user ∧
        x.IsTokenOf user.id token) ∧
    ∀ c d : Credentials, c.faults = [] → d.faults = [] →
      Text.utf8 c.password ++ [0] <+: Crypto.PasswordHash.key c.password ∧
        (Crypto.PasswordHash.key c.password = Crypto.PasswordHash.key d.password →
          c.password = d.password) := by
  have hregisters := registers_history htimely visits
  refine ⟨hregisters.rostered.paired hfresh, ?_, ?_, ?_, ?_, ?_, ?_, ?_⟩
  · rw [hregisters.logins_eq]
    exact hregisters.rostered.distinct
  · exact fun registration hmem c w hlogin => register_taken hregisters htimely hmem hlogin
  · exact fun c w e hfailed => register_failed htimely hfailed
  · intro further login user hlater hfound
    -- Users only join, so the one with the login is still there, and no other one has it.
    have hrostered := (registers_history htimely (visits ++ further)).rostered
    rw [hregisters.rostered.user_by_login_iff hfresh] at hfound
    rw [hrostered.user_by_login_iff hlater]
    exact ⟨(history_writes x visits further).users.subset hfound.1, hfound.2⟩
  · exact fun c w => login_iff hregisters htimely hscheme hfresh c
  · exact fun c token hgiven => token_of_session hregisters htimely hfresh hgiven
  · intro c d hc hd
    exact ⟨Crypto.PasswordHash.password_prefix (Credentials.password_fits hc).1,
      Credentials.password_of_key hc hd⟩

/-- The text that has a character for each byte of a key. -/
def keyText (password : String) : String :=
  String.ofList ((Crypto.PasswordHash.key password).map fun b => Char.ofNat b.toNat)

/-- Surroundings where it is always the same time and a password is kept as its key. -/
def keyedSurroundings : Surroundings Nat where
  clock := return default
  newId := modifyGet fun count => (⟨.ofNat count⟩, count + 1)
  hash password := return .ok (keyText password)
  verify password hash := .ok (keyText password == hash)
  issuer := .ofSecret "secret"

/-- Keys have the same text if they are the same. -/
theorem key_text_iff {first second : String} :
    keyText first = keyText second ↔
      Crypto.PasswordHash.key first = Crypto.PasswordHash.key second := by
  have hbytes : Function.Injective fun b : UInt8 => Char.ofNat b.toNat := by
    intro a b hab
    have hvalue (b : UInt8) : (Char.ofNat b.toNat).toNat = b.toNat := by
      have hvalid : b.toNat.isValidChar := .inl (by have := b.toNat_lt; omega)
      rw [Char.ofNat, dif_pos hvalid]
      rfl
    apply UInt8.toNat_inj.mp
    rw [← hvalue a, ← hvalue b]
    exact congrArg Char.toNat hab
  rw [keyText, keyText, String.ofList_inj]
  exact (List.map_injective_iff.mpr hbytes).eq_iff

theorem keyed_compares_keys : keyedSurroundings.ComparesKeys := by
  intro hashed w hash hhash password
  cases hhash
  show Except.ok (keyText password == keyText hashed) = _
  rw [Except.ok.injEq, Bool.eq_iff_iff, beq_iff_eq, beq_iff_eq]
  exact key_text_iff

/-- Of two registrations of a login the first one goes through. Its password opens the login and the
other one does not. -/
theorem accounts_consistent_twice :
    let first : Credentials := ⟨"alice", "secret1"⟩
    let second : Credentials := ⟨"alice", "secret2"⟩
    let h := history keyedSurroundings [(.register first, 0), (.register second, 1)]
    (∃ token, (visit keyedSurroundings (.login first) h.store 2).result =
        .session (.ok token)) ∧
      ¬ ∃ token, (visit keyedSurroundings (.login second) h.store 2).result =
        .session (.ok token) := by
  intro first second h
  have htimely : keyedSurroundings.Timely := fun _ =>
    (by decide +kernel : ((default : Instant).addSeconds? Session.defaultLifetime).isSome = true)
  have hfresh :
      (keyedSurroundings.issued [(.register first, 0), (.register second, 1)]).Nodup := by
    decide +kernel
  obtain ⟨_, _, _, _, _, hlogin, _⟩ :=
    accounts_consistent htimely keyed_compares_keys _ hfresh
  have hregistered : h.registrations.map (·.1) = [first] := by decide +kernel
  have hmem (c : Credentials) : (∃ token, (c, token) ∈ h.registrations) ↔ c = first := by
    rw [← List.mem_singleton, ← hregistered]
    simp only [List.mem_map, Prod.exists, exists_and_right, exists_eq_right]
  rw [hlogin, hlogin, hmem, hmem]
  exact ⟨rfl, by decide⟩

end Service

end Rewards

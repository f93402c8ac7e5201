import Rewards.Http.Router
import Rewards.Pipeline.State
import Rewards.Proofs.Service.Sessions

/-!
# Requests that fail

A request that is answered with an error, or not answered because a sum does not fit a decimal,
leaves the store and the pipeline as they were. Whatever handles a request is `Careful`: it writes
last, and once it has written it answers with a success. On a protected path nothing but the check
of the session is done for a request without a session. The main statement is
`failed_requests_leave_no_trace`.
-/

namespace Rewards.Http

open InMemory (perform perform_pure perform_bind perform_run_bind run_bind_cases perform_run_lift
  perform_adapt Reads Spares reads_pure reads_lift reads_get)
open Service (perform_clock perform_user_by_id reads_ask reads_ask_amount)

variable {ω α β : Type}

/-! ## Careful handling -/

/-- A failure leaves the store as it was, and a reply is a success. -/
structure Careful (x : Handling (InMemory ω) Reply) : Prop where
  spares : Spares x
  succeeds : ∀ s w reply, (perform x.run s w).result = .ok reply → reply.response.status < 400

theorem careful_refuse (response : Response) :
    Careful (Handling.refuse response : Handling (InMemory ω) Reply) where
  spares _ _ _ _ := rfl
  succeeds _ _ _ h := nomatch h

/-- Careful handling may begin with reading. -/
theorem Careful.after_reads {x : Handling (InMemory ω) α} {f : α → Handling (InMemory ω) Reply}
    (hx : Reads x.run) (hf : ∀ a, Careful (f a)) : Careful (x >>= f) where
  spares := .after_reads hx fun a => (hf a).spares
  succeeds s w reply h := by
    rcases run_bind_cases x f s w with ⟨a, _, heq⟩ | ⟨_, _, heq⟩
    · rw [heq] at h
      exact (hf a).succeeds _ _ reply h
    · rw [heq] at h
      cases h

/-- Careful handling may be refused before it begins. -/
theorem Careful.refuse_when {p : Prop} [Decidable p] {refusal : Handling (InMemory ω) Unit}
    {x : Handling (InMemory ω) Reply} (hrefusal : Reads refusal.run) (hx : Careful x) :
    Careful (if p then refusal >>= fun _ => x else x) := by
  split
  · exact .after_reads hrefusal fun _ => hx
  · exact hx

/-- What may write is followed by nothing but a success. -/
theorem Careful.of_answer {x : Handling (InMemory ω) α} {f : α → Handling (InMemory ω) Reply}
    (hx : Spares x) (hf : ∀ a, ∃ reply, f a = pure reply ∧ reply.response.status < 400) :
    Careful (x >>= f) where
  spares s w e h := by
    rcases run_bind_cases x f s w with ⟨a, _, heq⟩ | ⟨_, hfailed, heq⟩
    · obtain ⟨reply, hreply, _⟩ := hf a
      rw [heq, hreply] at h
      cases h
    · rw [heq]
      exact hx s w _ hfailed
  succeeds s w reply h := by
    rcases run_bind_cases x f s w with ⟨a, _, heq⟩ | ⟨_, _, heq⟩
    · obtain ⟨other, hother, hstatus⟩ := hf a
      rw [heq, hother] at h
      cases h
      exact hstatus
    · rw [heq] at h
      cases h

theorem reads_of_operation {operation : Operation (InMemory ω) α} (h : Reads operation.run) :
    Reads (Handling.ofOperation operation).run := by
  intro s w
  rw [Handling.ofOperation, perform_adapt, Outcome.map_error_store]
  exact h s w

theorem spares_of_operation {operation : Operation (InMemory ω) α} (h : Spares operation) :
    Spares (Handling.ofOperation operation) := by
  intro s w failure hfailure
  rw [Handling.ofOperation, perform_adapt] at hfailure ⊢
  obtain ⟨e, he⟩ := Outcome.result_of_map_error hfailure
  rw [Outcome.map_error_store]
  exact h s w e he

/-! ## The endpoints -/

theorem reads_read_body (request : Request) :
    Reads (Endpoint.readBody request : Handling (InMemory ω) (List UInt8)).run := by
  unfold Endpoint.readBody
  split <;> exact reads_pure _

theorem reads_read_text (request : Request) :
    Reads (Endpoint.readText request : Handling (InMemory ω) String).run := by
  refine (reads_read_body request).run_bind fun body => ?_
  split <;> exact reads_pure _

theorem reads_read_document (reader : Json.Reader α) (request : Request) :
    Reads (Endpoint.readDocument reader request : Handling (InMemory ω) α).run := by
  refine (reads_read_body request).run_bind fun body => ?_
  split <;> exact reads_pure _

theorem careful_credentials {operation : Credentials → Operation (InMemory ω) String}
    (h : ∀ c, Spares (operation c)) (request : Request) :
    Careful (Endpoint.credentials operation request) :=
  .after_reads (reads_read_document _ request) fun c =>
    .of_answer (spares_of_operation (h c)) fun _ => ⟨_, rfl, (by decide : 200 < 400)⟩

/-- A list of documents is a success, also if it is empty. -/
theorem list_response_status (documents : List Json.Value) :
    (Endpoint.listResponse documents).status < 400 := by
  unfold Endpoint.listResponse
  split
  · exact (by decide : 204 < 400)
  · exact (by decide : 200 < 400)

variable {x : Surroundings ω}

theorem careful_submit (user : UserId) (request : Request) :
    Careful (Endpoint.submit x.service user request) := by
  refine .after_reads (reads_read_text request) fun text => ?_
  dsimp only
  refine .refuse_when (reads_pure _)
    (.of_answer (spares_of_operation (Service.spares_submit_order x user text)) ?_)
  rintro ⟨result, job⟩
  cases result with
  | accepted => exact ⟨_, rfl, (by decide : 202 < 400)⟩
  | alreadySubmitted => exact ⟨_, rfl, (by decide : 200 < 400)⟩

theorem careful_withdraw_points (user : UserId) (request : Request) :
    Careful (Endpoint.withdrawPoints x.service user request) := by
  refine .after_reads (reads_read_document _ request) fun wanted => ?_
  cases Decimal.ofNumber wanted.sum with
  | error e => exact careful_refuse _
  | ok amount =>
      refine .of_answer (spares_of_operation (Service.spares_withdraw x user _ amount)) fun _ => ?_
      exact ⟨_, rfl, (by decide : 200 < 400)⟩

/-- The handling of a request that only looks at the store. -/
theorem careful_look {operation : Operation (InMemory ω) α} {f : α → Handling (InMemory ω) Reply}
    (h : Reads operation.run) (hf : ∀ a, ∃ reply, f a = pure reply ∧ reply.response.status < 400) :
    Careful (Handling.ofOperation operation >>= f) :=
  .of_answer (reads_of_operation h).spares hf

theorem careful_handle_open (htimely : x.Timely) (e : Endpoint) (request : Request) :
    Careful (e.handleOpen x.service request) := by
  have hping : Careful (do
      Handling.ofOperation x.service.ping
      Handling.reply (.empty 200)) :=
    careful_look (reads_ask (reads_pure _)) fun _ => ⟨_, rfl, (by decide : 200 < 400)⟩
  cases e with
  | register => exact careful_credentials (Service.spares_register htimely) request
  | login => exact careful_credentials (fun c => (Service.reads_login x c).spares) request
  | ping | submitOrder | listOrders | balance | withdraw | listWithdrawals => exact hping

theorem careful_handle (htimely : x.Timely) (e : Endpoint) (user : UserId) (request : Request) :
    Careful (e.handle x.service user request) := by
  cases e with
  | submitOrder => exact careful_submit user request
  | withdraw => exact careful_withdraw_points user request
  | listOrders =>
      exact careful_look (reads_ask (reads_get.bind fun _ => reads_pure _)) fun _ =>
        ⟨_, rfl, list_response_status _⟩
  | listWithdrawals =>
      exact careful_look (reads_ask (reads_get.bind fun _ => reads_pure _)) fun _ =>
        ⟨_, rfl, list_response_status _⟩
  | balance =>
      refine careful_look (reads_ask_amount (reads_get.bind fun s => ?_)) fun _ =>
        ⟨_, rfl, (by decide : 200 < 400)⟩
      split <;> exact reads_pure _
  | ping => exact careful_handle_open htimely .ping request
  | register => exact careful_handle_open htimely .register request
  | login => exact careful_handle_open htimely .login request

/-! ## The check of the session -/

/-- A request comes with a session that holds at an instant and whose user is registered. -/
def HasSession (x : Surroundings ω) (request : Request) (s : Store) (now : Instant) : Prop :=
  ∃ token claims user, token? request.headers = some token ∧
    x.issuer.validate token now = .ok claims ∧ s.userById? claims.subject = some user

theorem reads_authenticate (request : Request) : Reads (authenticate x.service request).run := by
  unfold authenticate
  split
  · exact reads_pure _
  · refine (reads_lift x.clock).run_lift.run_bind fun now => ?_
    split
    · exact reads_pure _
    · refine (reads_get.bind fun _ => reads_pure _).run_lift.run_bind fun found => ?_
      split <;> exact reads_pure _

/-- The surroundings after the check of a session. The clock is read if there is a token. -/
def checked (x : Surroundings ω) (request : Request) (w : ω) : ω :=
  if (token? request.headers).isSome then (x.clock.run w).2 else w

/-- Whoever has no session is refused. -/
theorem authenticate_refuses {request : Request} {s : Store} {w : ω}
    (h : ¬ HasSession x request s (x.clock.run w).1) :
    perform (authenticate x.service request).run s w =
      ⟨.error (.refused (.empty 401)), s, checked x request w⟩ := by
  unfold authenticate checked
  cases htoken : token? request.headers with
  | none => rfl
  | some token =>
      simp only [perform_run_bind, perform_run_lift, perform_clock, Outcome.andThen,
        Surroundings.service_issuer]
      cases hclaims : x.issuer.validate token (x.clock.run w).1 with
      | error e => rfl
      | ok claims =>
          have hnobody : s.userById? claims.subject = none := by
            cases huser : s.userById? claims.subject with
            | none => rfl
            | some user => exact absurd ⟨token, claims, user, htoken, hclaims, huser⟩ h
          simp only [perform_run_bind, perform_run_lift, perform_user_by_id, Outcome.andThen,
            hnobody]
          rfl

/-! ## Serving -/

/-- A route handles its requests carefully. -/
theorem careful_route (htimely : x.Timely) (route : Route) (request : Request) :
    Careful (route.handle x.service request) := by
  unfold Route.handle
  split
  · refine .after_reads (reads_authenticate request) fun user => ?_
    cases route.endpoint? request.method with
    | some e => exact careful_handle htimely e user request
    | none => exact careful_refuse _
  · cases route.endpoint? request.method with
    | some e => exact careful_handle_open htimely e request
    | none => exact careful_refuse _

/-- The reply of a route to what its handling came to. -/
def Route.reply? (route : Route) (request : Request) :
    Except (Failure Response) Reply → Option Reply
  | .ok reply => some (route.finish request reply)
  | .error (.refused response) => some (route.finish request ⟨response, none⟩)
  | .error .overflow => none

/-- Serving a request is the handling by its route, if there is one. -/
theorem perform_serve (x : Surroundings ω) (request : Request) (s : Store) (w : ω) :
    perform (serve x.service request) s w =
      match routes.find? (·.path == request.path) with
      | none => ⟨some ⟨.empty 404, none⟩, s, w⟩
      | some route =>
          (perform (route.handle x.service request).run s w).map (route.reply? request) := by
  unfold serve
  cases routes.find? (·.path == request.path) with
  | none => rfl
  | some route =>
      show perform ((route.handle x.service request).run >>= _) s w = Outcome.map _ _
      rw [perform_bind]
      generalize perform (route.handle x.service request).run s w = handled
      obtain ⟨result, t, v⟩ := handled
      cases result with
      | ok reply => rfl
      | error failure => cases failure <;> rfl

/-- Naming the allowed methods changes neither the status nor the job. -/
theorem finish_status (route : Route) (request : Request) (reply : Reply) :
    (route.finish request reply).response.status = reply.response.status ∧
      (route.finish request reply).job = reply.job := by
  unfold Route.finish
  split <;> exact ⟨rfl, rfl⟩

/-- What an exchange with a client comes to: the response, unless there is none, the store, the
pipeline and the surroundings. -/
structure Exchange (ω : Type) where
  response : Option Response
  store : Store
  pipeline : Pipeline.State
  surroundings : ω

/-- Serve a request, and bring the order that is to be processed to the queue. -/
def exchange (x : Surroundings ω) (request : Request) (id : Nat) (s : Store) (p : Pipeline.State)
    (w : ω) : Exchange ω :=
  let served := perform (serve x.service request) s w
  let pipeline := match served.result.bind (·.job) with
    | some order => (p.enqueue id order).1
    | none => p
  ⟨served.result.map (·.response), served.store, pipeline, served.surroundings⟩

/-- A reply that is no success comes without a job and leaves the store as it was, and so does the
lack of a reply. -/
theorem serve_cases (htimely : x.Timely) (request : Request) (s : Store) (w : ω) :
    (∃ reply, (perform (serve x.service request) s w).result = some reply ∧
      reply.response.status < 400) ∨
    (((perform (serve x.service request) s w).result.bind (·.job)) = none ∧
      (perform (serve x.service request) s w).store = s) := by
  rw [perform_serve]
  cases routes.find? (·.path == request.path) with
  | none => exact .inr ⟨rfl, rfl⟩
  | some route =>
      have hspares := (careful_route htimely route request).spares s w
      have hsucceeds := (careful_route htimely route request).succeeds s w
      dsimp only
      generalize perform (route.handle x.service request).run s w = handled at hspares hsucceeds ⊢
      obtain ⟨result, t, v⟩ := handled
      cases result with
      | ok reply =>
          refine .inl ⟨route.finish request reply, rfl, ?_⟩
          rw [(finish_status route request reply).1]
          exact hsucceeds reply rfl
      | error failure =>
          refine .inr ⟨?_, hspares failure rfl⟩
          cases failure with
          | refused response => exact (finish_status route request ⟨response, none⟩).2
          | overflow => rfl

/-- Without a session a request is refused, whatever would be done with it. -/
theorem refused_without_session {request : Request} {s : Store} {w : ω}
    (h : ¬ HasSession x request s (x.clock.run w).1)
    (handler : UserId → Handling (InMemory ω) Reply) :
    perform (authenticate x.service request >>= handler).run s w =
      ⟨.error (.refused (.empty 401)), s, checked x request w⟩ := by
  rw [perform_run_bind, authenticate_refuses h]
  rfl

/-- In every state of the store and the pipeline, for every request: if the response is an error, or
there is no response because a sum does not fit a decimal, the store and the pipeline are what they
were. A request to a protected path that comes without a session is answered with status 401; all
that is done for it is the check of the session, and so it would be with any other handler. -/
theorem failed_requests_leave_no_trace (htimely : x.Timely) (request : Request) (id : Nat)
    (s : Store) (p : Pipeline.State) (w : ω) :
    (∀ response, (exchange x request id s p w).response = some response →
      400 ≤ response.status →
      (exchange x request id s p w).store = s ∧ (exchange x request id s p w).pipeline = p) ∧
    ((exchange x request id s p w).response = none →
      (exchange x request id s p w).store = s ∧ (exchange x request id s p w).pipeline = p) ∧
    (∀ route, routes.find? (·.path == request.path) = some route → route.isProtected = true →
      ¬ HasSession x request s (x.clock.run w).1 →
      (∃ response, response.status = 401 ∧
        exchange x request id s p w = ⟨some response, s, p, checked x request w⟩) ∧
      ∀ handler : UserId → Handling (InMemory ω) Reply,
        perform (authenticate x.service request >>= handler).run s w =
          ⟨.error (.refused (.empty 401)), s, checked x request w⟩) := by
  have hserve := serve_cases htimely request s w
  refine ⟨?_, ?_, ?_⟩
  · intro response hresponse hstatus
    rcases hserve with ⟨reply, hreply, hsuccess⟩ | ⟨hjob, hstore⟩
    · simp only [exchange, hreply, Option.map_some, Option.some.injEq] at hresponse
      subst hresponse
      omega
    · simp only [exchange, hjob, hstore, and_self]
  · intro hresponse
    rcases hserve with ⟨reply, hreply, _⟩ | ⟨hjob, hstore⟩
    · simp only [exchange, hreply, Option.map_some] at hresponse
      cases hresponse
    · simp only [exchange, hjob, hstore, and_self]
  · intro route hroute hprotected hsession
    refine ⟨⟨(route.finish request ⟨.empty 401, none⟩).response,
      (finish_status route request ⟨.empty 401, none⟩).1, ?_⟩, refused_without_session hsession⟩
    have hserved : perform (serve x.service request) s w =
        ⟨some (route.finish request ⟨.empty 401, none⟩), s, checked x request w⟩ := by
      rw [perform_serve, hroute]
      dsimp only
      rw [Route.handle, if_pos hprotected, refused_without_session hsession]
      rfl
    have hjob := (finish_status route request ⟨.empty 401, none⟩).2
    simp only [exchange, hserved, Option.bind_some, hjob, Option.map_some]

/-- A registration under a login that is taken is answered with status 409 after the password has
been hashed, and a request for a balance without a session with status 401. -/
theorem failed_requests_leave_no_trace_taken_login :
    let user : User := ⟨⟨.ofNat 7⟩, "somebody", "password"⟩
    let s : Store := ⟨[user], [(user.login, user.id)], [], []⟩
    let p := Pipeline.State.ofCapacity 1
    let body := Text.utf8 "[\"somebody\",\"secret1\"]"
    let registration := exchange .still ⟨"POST", "/api/user/register", [], body⟩ 1 s p 0
    (∃ response, registration.response = some response ∧ response.status = 409) ∧
      registration.store = s ∧ registration.pipeline = p ∧
      ∃ response, response.status = 401 ∧
        exchange .still ⟨"GET", "/api/user/balance", [], []⟩ 2 s p 0 =
          ⟨some response, s, p, 0⟩ := by
  intro user s p body registration
  have htimely : Surroundings.still.Timely := fun _ =>
    (by decide +kernel : ((default : Instant).addSeconds? Session.defaultLifetime).isSome = true)
  have hstatus : registration.response.map (·.status) = some 409 := by decide +kernel
  obtain ⟨response, hresponse, h409⟩ := Option.map_eq_some_iff.mp hstatus
  obtain ⟨hstore, hpipeline⟩ :=
    (failed_requests_leave_no_trace htimely _ 1 s p 0).1 response hresponse (by omega)
  refine ⟨⟨response, hresponse, h409⟩, hstore, hpipeline, ?_⟩
  refine ((failed_requests_leave_no_trace htimely _ 2 s p 0).2.2
    ⟨"/api/user/balance", [("GET", .balance)], true⟩ ?_ rfl ?_).1
  · cbv
  · rintro ⟨token, _, _, htoken, _⟩
    cases htoken

end Rewards.Http

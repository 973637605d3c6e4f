import RoomRelay.Proofs.Gateway.Sending

/-!
# Requests that prove no identity

Every endpoint but two looks at the identity of the caller before anything else, so for a stranger
it comes to nothing: it looks at the clock and refuses, whatever else the request says. The two
others tell whether the service is there and grant sockets. A socket is granted for a token in the
query as well, and that is looked at no less.

## Main definitions

* `App.Unproven` — a request proves no identity at the time the clock shows
* `Endpoint.Refuses`, `Endpoint.Asks` — an endpoint refuses; it asks who calls before anything else
* `HttpResponse.TurnsAway` — a response tells a stranger why nothing is done

## Main results

* `App.asks_endpoint` — which endpoints ask first
* `App.refuses_connect` — no socket is granted to a stranger
* `stranger_gets_nothing` — for a stranger nothing changes, and only two questions are answered
-/

namespace RoomRelay

open Routine

variable {α β : Type} {app : App} {g : Gateway} {r : HttpRequest}

/-- A request proves no identity at the time the clock shows: no bearer token vouches for one, nor,
when a socket is asked for, does a token in the query. -/
structure App.Unproven (app : App) (g : Gateway) (r : HttpRequest) : Prop where
  bearer : ∀ userId, ¬ app.Vouches g r userId
  query : r.method = "GET" → r.path = "/ws" → ∀ token, tokenOfQuery r.query = .ok (some token) →
    ∀ userId, app.tokens.verify token g.supply.now.seconds ≠ .ok userId

/-! ### Tokens that prove nothing -/

/-- A token is refused for itself or for its age. -/
theorem TokenConfig.error_of_decode {config : TokenConfig} {token : String} {now : Int}
    {failure : AppFailure} (h : config.decode token now = .error failure) :
    failure = .invalidToken ∨ failure = .tokenExpired := by
  unfold decode at h
  split at h
  · exact .inl (Except.error.inj h).symm
  · split_ifs at h
    · exact .inl (Except.error.inj h).symm
    · exact .inr (Except.error.inj h).symm
    · exact .inl (Except.error.inj h).symm

theorem TokenConfig.error_of_verify {config : TokenConfig} {token : String} {now : Int}
    {failure : AppFailure} (h : config.verify token now = .error failure) :
    failure = .invalidToken ∨ failure = .tokenExpired := by
  unfold verify at h
  cases hdecode : config.decode token now with
  | error reason =>
    rw [hdecode] at h
    obtain rfl : reason = failure := Except.error.inj h
    exact error_of_decode hdecode
  | ok claims =>
    rw [hdecode] at h
    change (if _ then _ else _) = _ at h
    split_ifs at h
    · cases h
    · exact .inl (Except.error.inj h).symm

/-- The codes that tell a stranger so. -/
def strangerCodes : List String := ["MISSING_AUTHORIZATION", "INVALID_TOKEN", "TOKEN_EXPIRED"]

/-- The failure tells a stranger so. -/
structure RequestFailure.TurnsAway (failure : RequestFailure) : Prop where
  status : failure.status = 401
  code : failure.code ∈ strangerCodes

theorem RequestFailure.turnsAway_noCredentials : noCredentials.TurnsAway :=
  ⟨rfl, by simp [code, strangerCodes]⟩

/-- What a token that proves nothing is answered turns a stranger away. -/
theorem TokenConfig.turnsAway_of_verify {config : TokenConfig} {token : String} {now : Int}
    {failure : AppFailure} (h : config.verify token now = .error failure) :
    (RequestFailure.app failure).TurnsAway := by
  obtain rfl | rfl := error_of_verify h
  · exact ⟨rfl, by simp [RequestFailure.code, AppFailure.code, strangerCodes]⟩
  · exact ⟨rfl, by simp [RequestFailure.code, AppFailure.code, strangerCodes]⟩

/-! ### Endpoints that refuse -/

namespace Endpoint

/-- The endpoint refuses for a reason of some kind, and leaves the gateway as it was. -/
def Refuses (endpoint : Endpoint α) (g : Gateway) (kind : Rejection → Prop) : Prop :=
  ∃ rejection, kind rejection ∧ endpoint.run.run g = (.error rejection, g) ∧
    endpoint.run.envelopes g = []

/-- The reason turns a stranger away. -/
def TurnsAway : Rejection → Prop
  | .failure failure => failure.TurnsAway
  | .plain _ _ => False

theorem Refuses.bind {kind : Rejection → Prop} {endpoint : Endpoint α}
    (h : endpoint.Refuses g kind) (f : α → Endpoint β) : (endpoint >>= f).Refuses g kind := by
  obtain ⟨rejection, hkind, hrun, henvelopes⟩ := h
  refine ⟨rejection, hkind, ?_, ?_⟩
  · rw [ExceptT.run_bind, run_bind, hrun]
    rfl
  · rw [ExceptT.run_bind, envelopes_bind, hrun, henvelopes]
    rfl

theorem Refuses.mono {kind kind' : Rejection → Prop} {endpoint : Endpoint α}
    (h : endpoint.Refuses g kind) (himp : ∀ rejection, kind rejection → kind' rejection) :
    endpoint.Refuses g kind' := by
  obtain ⟨rejection, hkind, hrest⟩ := h
  exact ⟨rejection, himp rejection hkind, hrest⟩

theorem refuses_verify {tokens : TokenConfig} {token : String}
    (h : ∀ userId, tokens.verify token g.supply.now.seconds ≠ .ok userId) :
    (verify tokens token).Refuses g TurnsAway := by
  cases hverify : tokens.verify token g.supply.now.seconds with
  | ok userId => exact absurd hverify (h userId)
  | error failure =>
    refine ⟨.failure (.app failure), TokenConfig.turnsAway_of_verify hverify, ?_, ?_⟩
    · rw [run_verify, run_call, TokenConfig.identity]
      exact congrArg (fun result => (Except.mapError _ result, g)) hverify
    · rw [run_verify]
      rfl

/-- A stranger is turned away by whoever asks for the identity. -/
theorem refuses_authenticate (h : ∀ userId, ¬ app.Vouches g r userId) :
    (authenticate app.tokens r).Refuses g TurnsAway := by
  unfold authenticate
  cases hbearer : r.bearer? with
  | none => exact ⟨.failure .noCredentials, RequestFailure.turnsAway_noCredentials, rfl, rfl⟩
  | some token => exact refuses_verify fun userId hverify => h userId ⟨token, hbearer, hverify⟩

/-- The endpoint asks who calls before it does anything else. -/
def Asks (tokens : TokenConfig) (r : HttpRequest) (endpoint : Endpoint α) : Prop :=
  ∃ rest, endpoint = authenticate tokens r >>= rest

theorem asks_bind (tokens : TokenConfig) (r : HttpRequest) (rest : String → Endpoint α) :
    Asks tokens r (authenticate tokens r >>= rest) := ⟨rest, rfl⟩

/-- So does an endpoint that does not care who it is. -/
theorem asks_discard (tokens : TokenConfig) (r : HttpRequest) (rest : Unit → Endpoint α) :
    Asks tokens r (discard (authenticate tokens r) >>= rest) :=
  ⟨fun _ => rest (), by rw [Functor.discard, map_const, Function.comp, bind_map_left]⟩

end Endpoint

namespace App

/-- Every endpoint asks who calls, but for those that tell whether the service is there and that
grant sockets. -/
theorem asks_endpoint (app : App) (r : HttpRequest) {action : Action} (hhealth : action ≠ .health)
    (hconnect : action ≠ .connect) : (app.endpoint r action).Asks app.tokens r := by
  cases action with
  | health => exact absurd rfl hhealth
  | connect => exact absurd rfl hconnect
  | listRooms | createRoom | sendMessage => exact Endpoint.asks_bind _ _ _
  | getRoom | listMessages | listTyping | getPresence => exact Endpoint.asks_discard _ _ _

/-- The reason is told as no success. -/
def Declines (rejection : Rejection) : Prop := 400 ≤ rejection.response.status

theorem declines_failure {failure : RequestFailure} (h : failure.TurnsAway) :
    Declines (.failure failure) := by
  change 400 ≤ failure.status
  rw [h.status]
  decide

theorem declines_of_turnsAway {rejection : Rejection} (h : Endpoint.TurnsAway rejection) :
    Declines rejection := by
  cases rejection with
  | failure failure => exact declines_failure h
  | plain status text => exact h.elim

theorem declines_plain {status : Nat} (text : String) (h : 400 ≤ status) :
    Declines (.plain status text) := h

theorem le_status_upgradeFault (fault : UpgradeFault) : 400 ≤ fault.status := by
  cases fault <;> decide

/-- Only a request for the whole answer can have the key of a socket. -/
theorem method_of_upgradeKey {key : String} (h : r.upgradeKey = .ok key) : r.method = "GET" := by
  unfold HttpRequest.upgradeKey at h
  by_contra hmethod
  rw [if_pos hmethod] at h
  cases h

/-- No socket is granted to a stranger. -/
theorem refuses_connect (stranger : app.Unproven g r) (hpath : r.path = "/ws") :
    (app.connect r).Refuses g Declines := by
  unfold connect
  cases hquery : tokenOfQuery r.query with
  | error fault => exact ⟨_, declines_plain fault.message (le_refl 400), rfl, rfl⟩
  | ok token =>
    cases hkey : r.upgradeKey with
    | error fault =>
      exact ⟨_, declines_plain fault.message (le_status_upgradeFault fault), rfl, rfl⟩
    | ok key =>
      cases hknown : (token.filter (· ≠ "") <|> r.bearer?) with
      | none =>
        simp only [hknown]
        exact ⟨_, declines_failure RequestFailure.turnsAway_noCredentials, rfl, rfl⟩
      | some known =>
        have hverify : ∀ userId, app.tokens.verify known g.supply.now.seconds ≠ .ok userId := by
          intro userId
          cases hfilter : token.filter (· ≠ "") with
          | none =>
            rw [hfilter] at hknown
            exact fun hok => stranger.bearer userId ⟨known, hknown, hok⟩
          | some given =>
            rw [hfilter] at hknown
            obtain rfl : given = known := Option.some.inj hknown
            obtain ⟨rfl, -⟩ := Option.filter_eq_some_iff.mp hfilter
            exact stranger.query (method_of_upgradeKey hkey) hpath given hquery userId
        simp only [hknown]
        exact ((Endpoint.refuses_verify hverify).mono fun _ => declines_of_turnsAway).bind _

end App

/-! ### Paths -/

namespace Resource

/-- A path is no more than its parts. -/
theorem parts_injective : Function.Injective parts := by
  intro path path' h
  have hsplit : path.toList.splitOn '/' = path'.toList.splitOn '/' :=
    List.map_injective_iff.mpr (fun _ _ => String.ofList_inj.mp) h
  apply String.toList_inj.mp
  have hjoin (text : String) : ['/'].intercalate (text.toList.splitOn '/') = text.toList :=
    List.intercalate_splitOn '/'
  rw [← hjoin path, hsplit, hjoin]

/-- The parts that name a resource. -/
def naming : Resource → List String
  | health => ["", "health"]
  | rooms => ["", "rooms"]
  | room part => ["", "rooms", part]
  | history part => ["", "rooms", part, "messages"]
  | typing part => ["", "rooms", part, "typing"]
  | messages => ["", "messages"]
  | presence part => ["", "users", part, "presence"]
  | socket => ["", "ws"]

theorem eq_naming {parts : List String} {resource : Resource} (h : ofParts? parts = some resource) :
    parts = resource.naming := by
  unfold ofParts? at h
  split at h
  case h_3 =>
    split at h
    · cases h
    · cases h
      rfl
  all_goals cases h
  all_goals rfl

/-- A resource is named by one path. -/
theorem eq_of_ofPath? {path path' : String} {resource : Resource}
    (h : ofPath? path = some resource) (h' : ofPath? path' = some resource) : path = path' :=
  parts_injective ((eq_naming h).trans (eq_naming h').symm)

end Resource

namespace App

/-- Whether the service is there is asked in one way. -/
theorem of_action?_eq_health (h : action? r = some .health) :
    r.path = "/health" ∧ (r.method = "GET" ∨ r.method = "HEAD") := by
  obtain ⟨resource, hpath, haction⟩ := Option.bind_eq_some_iff.mp h
  unfold Resource.action? at haction
  split at haction
  · rename_i hmethod
    cases resource <;> cases haction
    exact ⟨Resource.eq_of_ofPath? hpath (by decide), hmethod⟩
  · split at haction
    · cases resource <;> cases haction
    · cases haction

theorem path_of_connect (h : action? r = some .connect) : r.path = "/ws" := by
  obtain ⟨resource, hpath, haction⟩ := Option.bind_eq_some_iff.mp h
  unfold Resource.action? at haction
  split at haction
  · cases resource <;> cases haction
    exact Resource.eq_of_ofPath? hpath (by decide)
  · split at haction
    · cases resource <;> cases haction
    · cases haction

/-- No resource knows the method that asks in advance. -/
theorem method_ne_options {action : Action} (h : action? r = some action) :
    r.method ≠ "OPTIONS" := by
  rintro hmethod
  obtain ⟨resource, -, haction⟩ := Option.bind_eq_some_iff.mp h
  rw [hmethod] at haction
  cases haction

/-! ### Answers -/

/-- What names no action is answered with a status only. -/
theorem answer_of_none (app : App) (h : action? r = none) :
    ∃ status, 400 ≤ status ∧ app.answer r = done { status } := by
  unfold answer
  rw [h]
  exact ⟨_, by split <;> decide, rfl⟩

/-- An endpoint that refuses is answered with its reason, and nothing happens. -/
theorem run_answer_of_refuses {action : Action} {kind : Rejection → Prop}
    (haction : action? r = some action) (h : (app.endpoint r action).Refuses g kind) :
    ∃ rejection, kind rejection ∧
      (app.answer r).run g = (shown r rejection.response, g) ∧ (app.answer r).envelopes g = [] := by
  obtain ⟨rejection, hkind, hrun, henvelopes⟩ := h
  refine ⟨rejection, hkind, ?_⟩
  rw [answer_eq app haction, run_bind, envelopes_bind, hrun, henvelopes]
  exact ⟨rfl, rfl⟩

theorem withHeader_eq (response : HttpResponse) (name value : String) :
    ∃ headers, response.withHeader name value = { response with headers } := by
  unfold HttpResponse.withHeader
  split
  · exact ⟨_, rfl⟩
  · exact ⟨_, rfl⟩

/-- What tells about the methods and the request is headers only. -/
theorem tagged_eq (r : HttpRequest) (freshId : Uuid) (told : HttpResponse) :
    ∃ headers, (match allowHeader? r with
      | some methods => told.withHeader "allow" methods
      | none => told).withHeader requestIdHeader
        ((r.header? requestIdHeader).getD freshId.toString) = { told with headers } := by
  cases allowHeader? r with
  | none => exact withHeader_eq _ _ _
  | some methods =>
    obtain ⟨headers, hknown⟩ := withHeader_eq told "allow" methods
    simp only [hknown]
    exact withHeader_eq _ _ _

/-- What is put around an answer is headers only. -/
theorem dress_eq (app : App) (freshId : Uuid) (hmethod : r.method ≠ "OPTIONS")
    (response : HttpResponse) :
    ∃ headers, app.dress freshId r response = { response with headers } := by
  simp only [dress, if_neg hmethod]
  exact tagged_eq r freshId _

/-- A page that asks in advance is answered whatever an endpoint would say. -/
theorem dress_of_options (app : App) (freshId : Uuid) (hmethod : r.method = "OPTIONS") :
    ∃ headers, ∀ response, app.dress freshId r response = { status := 200, headers } := by
  simp only [dress, if_pos hmethod]
  obtain ⟨headers, h⟩ := tagged_eq r freshId (app.origins.preflight (r.header? "origin"))
  exact ⟨headers, fun _ => h⟩

end App

/-- The response turns away whoever has sent a request: it tells why with one of the codes, or
nothing but the status if only the head of the answer is asked for. -/
def HttpResponse.TurnsAway (response : HttpResponse) (r : HttpRequest) : Prop :=
  response.status = 401 ∧ ∃ document code, code ∈ strangerCodes ∧ response.body = .json document ∧
    (document.field? "error").bind (·.field? "code") = some (.string code) ∧
    response.bodyText = if r.method = "HEAD" then "" else document.render

theorem HttpResponse.turnsAway_of_failure {failure : RequestFailure} (h : failure.TurnsAway)
    (r : HttpRequest) (headers : Headers) :
    { App.shown r failure.response with headers }.TurnsAway r := by
  refine ⟨h.status, failure.document, failure.code, h.code, rfl, rfl, ?_⟩
  simp only [bodyText, App.shown, decide_eq_true_eq]
  rfl

/-- **No effect and no data for strangers.** Take any gateway and any request that proves no
identity, whatever its method, path, query, headers and body. The answer leaves the whole gateway as
it was: its stores, its registry and all its queues, and nothing is broadcast. No connection becomes
a socket, and the answer is a success only if a page asks in advance, which is answered apart from
all endpoints, or if the question is whether the service is there. Any other endpoint but the one
for sockets turns the stranger away, with a code that says why. -/
theorem stranger_gets_nothing (stranger : app.Unproven g r) (freshId : Uuid) :
    ∃ response, (app.answer r).run g = (response, g) ∧ (app.answer r).envelopes g = [] ∧
      (app.dress freshId r response).upgraded = none ∧
      ((app.dress freshId r response).status < 400 →
        r.method = "OPTIONS" ∨ r.path = "/health" ∧ (r.method = "GET" ∨ r.method = "HEAD")) ∧
      (r.method = "OPTIONS" → ∀ other, app.dress freshId r other = app.dress freshId r response) ∧
      ((App.action? r).isSome → r.path ≠ "/health" → r.path ≠ "/ws" →
        (app.dress freshId r response).TurnsAway r) := by
  cases haction : App.action? r with
  | none =>
    obtain ⟨status, hstatus, hanswer⟩ := App.answer_of_none app haction
    refine ⟨{ status }, by rw [hanswer]; rfl, by rw [hanswer]; rfl, ?_⟩
    by_cases hmethod : r.method = "OPTIONS"
    · obtain ⟨headers, hdress⟩ := app.dress_of_options freshId hmethod
      simp [hdress, hmethod]
    · obtain ⟨headers, hdress⟩ := app.dress_eq freshId hmethod { status }
      rw [hdress]
      exact ⟨rfl, fun h => absurd h (not_lt.mpr hstatus), fun h => absurd h hmethod, by simp⟩
  | some action =>
    have hmethod := App.method_ne_options haction
    by_cases hhealth : action = .health
    · subst hhealth
      obtain ⟨hpath, hasks⟩ := App.of_action?_eq_health haction
      refine ⟨App.shown r (.json 200 (healthDocument app.name)), ?_⟩
      obtain ⟨headers, hdress⟩ := app.dress_eq freshId hmethod
        (App.shown r (.json 200 (healthDocument app.name)))
      rw [App.answer_eq app haction, hdress]
      exact ⟨rfl, rfl, rfl, fun _ => .inr ⟨hpath, hasks⟩, fun h => absurd h hmethod,
        fun _ h => absurd hpath h⟩
    -- All other endpoints decline; only the one for sockets may do so without a document.
    have hrefuses : (app.endpoint r action).Refuses g fun rejection =>
        App.Declines rejection ∧ (r.path ≠ "/ws" → Endpoint.TurnsAway rejection) := by
      by_cases hconnect : action = .connect
      · subst hconnect
        have hpath := App.path_of_connect haction
        exact (App.refuses_connect stranger hpath).mono fun _ h => ⟨h, fun hne => absurd hpath hne⟩
      · obtain ⟨rest, hasks⟩ := app.asks_endpoint r hhealth hconnect
        rw [hasks]
        exact ((Endpoint.refuses_authenticate stranger.bearer).bind rest).mono fun _ h =>
          ⟨App.declines_of_turnsAway h, fun _ => h⟩
    obtain ⟨rejection, ⟨hdeclines, hturns⟩, hanswer, henvelopes⟩ :=
      App.run_answer_of_refuses haction hrefuses
    refine ⟨_, hanswer, henvelopes, ?_⟩
    obtain ⟨headers, hdress⟩ := app.dress_eq freshId hmethod (App.shown r rejection.response)
    rw [hdress]
    refine ⟨?_, fun h => absurd h (not_lt.mpr hdeclines), fun h => absurd h hmethod,
      fun _ _ hpath => ?_⟩
    · cases rejection <;> rfl
    · have hturn := hturns hpath
      cases rejection with
      | failure failure => exact HttpResponse.turnsAway_of_failure hturn r headers
      | plain status text => exact hturn.elim

/-- A letter with a token of nobody's. -/
def forgedLetter : HttpRequest := { letter with headers := [("authorization", "Bearer a.b.c")] }

theorem unproven_forgedLetter : doorkeeper.Unproven parlour forgedLetter where
  bearer := by
    rintro userId ⟨token, htoken, hverify⟩
    obtain rfl : token = "a.b.c" := by
      have hbearer : forgedLetter.bearer? = some "a.b.c" := by decide
      exact (Option.some.inj (hbearer.symm.trans htoken)).symm
    have hforged : doorkeeper.tokens.verify "a.b.c" parlour.supply.now.seconds =
        .error .invalidToken := by decide
    exact absurd (hforged.symm.trans hverify) (by simp)
  query := by
    intro hmethod
    exact absurd hmethod (by decide)

/-- A letter with a token of nobody's stores nothing and is turned away. -/
theorem stranger_gets_nothing_of_forgedLetter :
    doorkeeper.Unproven parlour forgedLetter ∧
    ∃ response, (doorkeeper.answer forgedLetter).run parlour = (response, parlour) ∧
      (doorkeeper.dress parlourId forgedLetter response).TurnsAway forgedLetter := by
  obtain ⟨response, hrun, -, -, -, -, hturns⟩ :=
    stranger_gets_nothing unproven_forgedLetter parlourId
  refine ⟨unproven_forgedLetter, response, hrun, ?_⟩
  exact hturns (by decide) (by decide) (by decide)

end RoomRelay

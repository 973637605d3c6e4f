import RoomRelay.Proofs.Config.Acceptance
import RoomRelay.Proofs.Gateway.Prospect
import RoomRelay.Proofs.Text.Pieces
import RoomRelay.Timeline

/-!
# Which origins are told that they are allowed

The list of origins is a variable, so that nearly any text can be given for it. Its entries are the
pieces between commas without the blanks around them. Whatever is asked for, and whatever comes of
it, the answer tells a page that its origin is allowed exactly if the origin is an entry that can
stand in a header; if there is no entry, everybody is told so, or nobody in production. A server
with the entry `*` does not come up.

## Main definitions

* `Lookup.Lists` — the entries of the list
* `HttpResponse.allowedOrigins` — what an answer tells about origins
* `Endpoint.Returns` — what an endpoint returns
* `HttpResponse.AllowedOriginsFollow` — the origins that an answer allows follow the variables

## Main results

* `OriginPolicy.ofEntries_eq_none_iff` — which lists the server refuses to start with
* `App.returns_endpoint`, `App.allowedOrigins_dress` — only what is put around an answer tells about
  origins
* `App.allowedOrigins_follow_unless_star` — in all answers the allowed origins follow the variables,
  unless `*` is listed
-/

namespace RoomRelay

open Routine

/-! ## The entries of the list -/

/-- A piece between commas, without the blanks around it, if there is anything else in it. -/
def Text.HasEntry (text entry : String) : Prop :=
  entry ≠ "" ∧ ∃ piece : String, IsPiece ',' text.toList piece.toList ∧ trim piece = entry

/-- The variable for the allowed origins lists this one. -/
def Lookup.Lists (lookup : Lookup) (entry : String) : Prop :=
  ∃ text, lookup "CORS_ALLOWED_ORIGINS" = some text ∧ Text.HasEntry text entry

theorem mem_originEntries_iff {text entry : String} :
    entry ∈ originEntries text ↔ Text.HasEntry text entry := by
  simp only [originEntries, List.mem_map, List.mem_filter, decide_eq_true_eq, Text.HasEntry]
  constructor
  · rintro ⟨_, ⟨⟨piece, hpiece, rfl⟩, hne⟩, rfl⟩
    refine ⟨fun hempty => hne (String.ofList_eq_empty_iff.mp hempty), String.ofList piece, ?_, ?_⟩
    · simpa using mem_splitOn_iff.mp hpiece
    · simp [Text.trim]
  · rintro ⟨hne, piece, hpiece, rfl⟩
    refine ⟨Text.trimChars piece.toList, ⟨⟨_, mem_splitOn_iff.mpr hpiece, rfl⟩, ?_⟩, rfl⟩
    exact fun hnil => hne (by simp [Text.trim, hnil])

/-- The entries of an accepted configuration are those of the list. -/
theorem Config.mem_allowedOrigins_iff {lookup : Lookup} {config : Config}
    (accepted : ofLookup lookup = .ok config) {entry : String} :
    entry ∈ config.allowedOrigins ↔ lookup.Lists entry := by
  rw [(follows_of_ofLookup accepted).allowedOrigins, Lookup.Lists]
  cases lookup "CORS_ALLOWED_ORIGINS" <;> simp [mem_originEntries_iff]

/-! ## The policy that entries give -/

namespace OriginPolicy

variable {entries : List String} {isProduction : Bool} {policy : OriginPolicy}
  {origin : Option String}

/-- Just the lists with the entry `*` are refused. -/
theorem ofEntries_eq_none_iff : ofEntries entries isProduction = none ↔ "*" ∈ entries := by
  have hstar : isHeaderValue "*" = true := by decide +kernel
  rw [ofEntries]
  by_cases hempty : entries = []
  · simp [hempty]
  · simp [hempty, List.mem_filter, hstar]

/-- Without entries nobody is allowed in production, and everybody elsewhere. -/
theorem allowance?_of_nil (h : ofEntries [] isProduction = some policy) :
    policy.allowance? origin = if isProduction then none else some "*" := by
  obtain rfl := Option.some.inj h
  cases isProduction with
  | false => rfl
  | true => cases origin <;> simp [allowance?, Option.filter]

/-- With entries an origin is told that it is allowed if it is one of them and can stand in a
header. -/
theorem allowance?_eq_some_iff (given : entries ≠ [])
    (h : ofEntries entries isProduction = some policy) {told : String} :
    policy.allowance? origin = some told ↔
      origin = some told ∧ told ∈ entries ∧ isHeaderValue told = true := by
  rw [ofEntries, if_neg given] at h
  dsimp only at h
  split at h
  · cases h
  · obtain rfl := Option.some.inj h
    simp [allowance?, Option.filter_eq_some_iff, List.mem_filter]

end OriginPolicy

/-! ## What an answer tells about origins -/

namespace HttpResponse

/-- The origins that a page is told to be allowed. -/
def allowedOrigins (response : HttpResponse) : List String :=
  (response.allHeaders.filter (·.1 = "access-control-allow-origin")).map (·.2)

variable {response : HttpResponse} {name value : String}

theorem filter_kind (body : Body) :
    body.kind.filter (·.1 = "access-control-allow-origin") = [] := by
  cases body <;> simp [Body.kind]

theorem allowedOrigins_eq (response : HttpResponse) :
    response.allowedOrigins =
      (response.headers.filter (·.1 = "access-control-allow-origin")).map (·.2) := by
  rw [allowedOrigins, allHeaders, List.filter_append, filter_kind, List.nil_append]

/-- A response without headers of its own. -/
theorem allowedOrigins_of_nil (h : response.headers = []) : response.allowedOrigins = [] := by
  rw [allowedOrigins_eq, h]
  rfl

/-- A response that grants a socket. -/
theorem allowedOrigins_upgradeResponse (key userId : String) :
    (upgradeResponse key userId).allowedOrigins = [] := by
  rw [allowedOrigins_eq, upgradeResponse]
  simp

/-- A header of another name makes no difference. -/
theorem allowedOrigins_withHeader (other : name ≠ "access-control-allow-origin") :
    (response.withHeader name value).allowedOrigins = response.allowedOrigins := by
  rw [allowedOrigins_eq, allowedOrigins_eq, withHeader]
  split
  · rfl
  · simp [other]

end HttpResponse

namespace OriginPolicy

variable (policy : OriginPolicy) (origin : Option String)

theorem filter_commonHeaders :
    ((policy.commonHeaders origin).filter (·.1 = "access-control-allow-origin")).map (·.2) =
      (policy.allowance? origin).toList := by
  cases hallowed : policy.allowance? origin <;> simp [commonHeaders, vary, hallowed]

theorem allowedOrigins_preflight :
    (policy.preflight origin).allowedOrigins = (policy.allowance? origin).toList := by
  rw [HttpResponse.allowedOrigins_eq, preflight, List.filter_append, List.map_append,
    filter_commonHeaders]
  simp

theorem allowedOrigins_dress {response : HttpResponse} (plain : response.allowedOrigins = []) :
    (policy.dress origin response).allowedOrigins = (policy.allowance? origin).toList := by
  rw [HttpResponse.allowedOrigins_eq] at plain ⊢
  rw [dress, List.filter_append, List.filter_append, List.map_append, List.map_append, plain,
    filter_commonHeaders]
  simp

end OriginPolicy

/-- What is put around an answer tells about origins what the policy allows. -/
theorem App.allowedOrigins_dress (app : App) (freshId : Uuid) (r : HttpRequest)
    {response : HttpResponse} (plain : response.allowedOrigins = []) :
    (app.dress freshId r response).allowedOrigins =
      (app.origins.allowance? (r.header? "origin")).toList := by
  rw [dress, HttpResponse.allowedOrigins_withHeader (by decide)]
  cases allowHeader? r with
  | none =>
    dsimp only
    split
    · exact app.origins.allowedOrigins_preflight _
    · exact app.origins.allowedOrigins_dress _ plain
  | some methods =>
    rw [HttpResponse.allowedOrigins_withHeader (by decide)]
    split
    · exact app.origins.allowedOrigins_preflight _
    · exact app.origins.allowedOrigins_dress _ plain

/-! ## What endpoints return -/

/-- Any routine makes calls of some kind, and ends with something. -/
theorem Routine.within_true {α : Type} (r : Routine α) :
    r.Within (fun _ => True) fun _ => True := by
  induction r with
  | done a => exact trivial
  | call request next ih => exact ⟨trivial, ih⟩

namespace Endpoint

variable {α β : Type} {kind : α → Prop}

/-- Whatever is replied to its calls, the endpoint fails or returns something of a kind. -/
def Returns (kind : α → Prop) (endpoint : Endpoint α) : Prop :=
  endpoint.run.Within (fun _ => True) fun result => ∀ a, result = .ok a → kind a

theorem returns_pure {a : α} (h : kind a) : Returns kind (pure a) := by
  rintro _ ⟨⟩
  exact h

theorem returns_throw (rejection : Rejection) : Returns kind (throw rejection) := by
  rintro _ ⟨⟩

/-- It is up to the last part what is returned. -/
theorem returns_bind (endpoint : Endpoint β) {f : β → Endpoint α} (h : ∀ b, (f b).Returns kind) :
    (endpoint >>= f).Returns kind := by
  unfold Returns
  rw [ExceptT.run_bind]
  refine Within.bind (within_true _) fun result _ => ?_
  cases result with
  | ok b => exact h b
  | error rejection => exact returns_throw rejection

end Endpoint

open Endpoint

/-- The answer says nothing about origins. -/
def HttpResponse.Plain (response : HttpResponse) : Prop := response.allowedOrigins = []

/-- An endpoint that ends with a document says nothing about origins. -/
theorem Endpoint.returns_json (status : Nat) (document : Json.Value) :
    Returns HttpResponse.Plain (pure (.json status document)) :=
  returns_pure (HttpResponse.allowedOrigins_of_nil rfl)

theorem Rejection.plain_response (rejection : Rejection) : rejection.response.Plain := by
  cases rejection <;> exact HttpResponse.allowedOrigins_of_nil rfl

namespace App

variable (app : App) (r : HttpRequest)

theorem returns_connect : (app.connect r).Returns HttpResponse.Plain := by
  unfold connect
  split
  · exact returns_throw _
  · split
    · exact returns_throw _
    · split
      · exact returns_throw _
      · refine returns_bind _ fun userId => returns_pure ?_
        exact HttpResponse.allowedOrigins_upgradeResponse _ userId

/-- No endpoint tells anything about origins. -/
theorem returns_endpoint (action : Action) :
    (app.endpoint r action).Returns HttpResponse.Plain := by
  cases action with
  | health => exact returns_json _ _
  | listRooms =>
    exact returns_bind _ fun _ => returns_bind _ fun _ => returns_json _ _
  | createRoom =>
    exact returns_bind _ fun _ => returns_bind _ fun _ => returns_bind _ fun _ => returns_json _ _
  | getRoom raw =>
    exact returns_bind _ fun _ => returns_bind _ fun _ => returns_bind _ fun _ =>
      returns_bind _ fun _ => returns_json _ _
  | listMessages raw =>
    exact returns_bind _ fun _ => returns_bind _ fun _ => returns_bind _ fun _ =>
      returns_bind _ fun _ => returns_bind _ fun _ => returns_json _ _
  | listTyping raw =>
    refine returns_bind _ fun _ => returns_bind _ fun text => ?_
    split
    · exact returns_throw _
    · exact returns_bind _ fun _ => returns_json _ _
  | sendMessage =>
    exact returns_bind _ fun _ => returns_bind _ fun _ => returns_bind _ fun _ =>
      returns_bind _ fun _ => returns_json _ _
  | getPresence raw =>
    exact returns_bind _ fun _ => returns_bind _ fun _ => returns_bind _ fun _ => returns_json _ _
  | connect => exact returns_connect app r

/-- Nor does an answer before anything is put around it. -/
theorem within_answer : (app.answer r).Within (fun _ => True) HttpResponse.Plain := by
  unfold answer
  cases action? r with
  | none => exact HttpResponse.allowedOrigins_of_nil rfl
  | some action =>
    have hrun : (run (app.endpoint r action)).Within (fun _ => True) HttpResponse.Plain := by
      refine Within.bind (returns_endpoint app r action) fun result hresult => ?_
      cases result with
      | ok response => exact hresult response rfl
      | error rejection => exact rejection.plain_response
    exact Within.bind hrun fun response hresponse => hresponse

/-- An answer that takes too long is given up for one that says nothing either. -/
theorem plain_getD {answer : Option HttpResponse}
    (h : ∀ response, answer = some response → response.Plain) : (answer.getD overdue).Plain := by
  cases answer with
  | none => exact HttpResponse.allowedOrigins_of_nil rfl
  | some response => exact h response rfl

end App

namespace Timeline

variable {α : Type} {results : α → Prop} {r : Routine α}

/-- What a routine ends with is of the kind that it may end with, even if it may be given up. -/
theorem of_run_carryOut {answer : (c : Call) → OptionT (StateM Timeline) c.Reply} {a : α}
    (h : r.Within (fun _ => True) results) {t : Timeline}
    (ends : ((r.carryOut answer).run.run t).1 = some a) : results a := by
  induction r generalizing t with
  | done b =>
    obtain rfl : b = a := Option.some.inj ends
    exact h
  | call request next ih =>
    rw [carryOut, OptionT.run_bind, Option.elimM, StateT.run_bind] at ends
    rcases hreply : (answer request).run.run t with ⟨_ | reply, later⟩
    · rw [hreply] at ends
      exact absurd (show (none : Option α) = some a from ends) (by simp)
    · rw [hreply] at ends
      exact ih reply (h.2 reply) ends

/-- Whether the connection is handed over makes no difference to what is answered. -/
theorem response_of_run (response : HttpResponse) (t : Timeline) :
    (StateT.run (m := Id) (match response.upgraded with
      | none => pure (response, none)
      | some userId => return (response, some (← connect userId {} true))) t).1.1 = response := by
  cases response.upgraded <;> rfl

/-- The answer to a request is a plain one with what is put around it. -/
theorem exists_dress (app : App) (r : HttpRequest) (t : Timeline) :
    ∃ freshId, ∃ plain : HttpResponse, plain.Plain ∧
      ((exchange app r).run t).1.1 = app.dress freshId r plain := by
  simp only [exchange, StateT.run_bind]
  refine ⟨_, _, ?_, response_of_run _ _⟩
  exact App.plain_getD fun response answered => of_run_carryOut (App.within_answer app r) answered

end Timeline

/-! ## All answers -/

/-- The origins that an answer allows follow the variables: if an origin is listed, the answer
allows the origin of the page exactly if it is a listed one that can stand in a header, and nothing
else; otherwise it allows all origins, or none in production. -/
structure HttpResponse.AllowedOriginsFollow (response : HttpResponse) (lookup : Lookup)
    (isProduction : Bool) (origin : Option String) : Prop where
  listed : (∃ entry, lookup.Lists entry) → ∀ told, response.allowedOrigins = [told] ↔
    origin = some told ∧ lookup.Lists told ∧ isHeaderValue told = true
  unlisted : (∃ entry, lookup.Lists entry) →
    (∀ told, origin = some told → lookup.Lists told → isHeaderValue told = false) →
      response.allowedOrigins = []
  inProduction : (∀ entry, ¬ lookup.Lists entry) → isProduction = true →
    response.allowedOrigins = []
  elsewhere : (∀ entry, ¬ lookup.Lists entry) → isProduction = false →
    response.allowedOrigins = ["*"]

namespace App

variable {lookup : Lookup} {config : Config} {app : App} {r : HttpRequest}
  {response : HttpResponse}

/-- What the policy of a configuration allows follows the variables. -/
theorem allowedOriginsFollow_of_allowance? (accepted : Config.ofLookup lookup = .ok config)
    (hpolicy : OriginPolicy.ofConfig config = some app.origins)
    (h : response.allowedOrigins = (app.origins.allowance? (r.header? "origin")).toList) :
    response.AllowedOriginsFollow lookup config.environment.isProduction (r.header? "origin") := by
  have hentries (entry : String) : entry ∈ config.allowedOrigins ↔ lookup.Lists entry :=
    Config.mem_allowedOrigins_iff accepted
  have htold (hlists : ∃ entry, lookup.Lists entry) (told : String) :
      app.origins.allowance? (r.header? "origin") = some told ↔
        r.header? "origin" = some told ∧ lookup.Lists told ∧ isHeaderValue told = true := by
    obtain ⟨entry, hentry⟩ := hlists
    rw [← hentries]
    exact OriginPolicy.allowance?_eq_some_iff (List.ne_nil_of_mem ((hentries entry).mpr hentry))
      hpolicy
  -- Without an entry the policy does not look at the origin of the page.
  have huntold (hnone : ∀ entry, ¬ lookup.Lists entry) :
      app.origins.allowance? (r.header? "origin") =
        if config.environment.isProduction then none else some "*" := by
    have hnil : config.allowedOrigins = [] :=
      List.eq_nil_iff_forall_not_mem.mpr fun entry => mt (hentries entry).mp (hnone entry)
    rw [OriginPolicy.ofConfig, hnil] at hpolicy
    exact OriginPolicy.allowance?_of_nil hpolicy
  constructor
  case listed =>
    intro hlists told
    rw [h, ← htold hlists]
    cases app.origins.allowance? (r.header? "origin") <;> simp
  case unlisted =>
    intro hlists hinvalid
    rw [h, Option.toList_eq_nil_iff, Option.eq_none_iff_forall_ne_some]
    intro told hallowed
    obtain ⟨horigin, hlisted, hvalid⟩ := (htold hlists told).mp hallowed
    exact absurd ((hinvalid told horigin hlisted).symm.trans hvalid) (by simp)
  case inProduction =>
    intro hnone hproduction
    rw [h, huntold hnone, hproduction]
    rfl
  case elsewhere =>
    intro hnone hproduction
    rw [h, huntold hnone, hproduction]
    rfl

/-- Just the configurations that list `*` keep the server from coming up. With any other one, the
origins that are allowed follow the variables in all answers to all requests, at any time and
whatever comes of the requests. -/
theorem allowedOrigins_follow_unless_star (accepted : Config.ofLookup lookup = .ok config) :
    (ofConfig? config = none ↔ lookup.Lists "*") ∧
      ∀ app, ofConfig? config = some app → ∀ (r : HttpRequest) (t : Timeline),
        ((Timeline.exchange app r).run t).1.1.AllowedOriginsFollow lookup
          config.environment.isProduction (r.header? "origin") := by
  constructor
  · rw [ofConfig?, Option.map_eq_none_iff, OriginPolicy.ofConfig,
      OriginPolicy.ofEntries_eq_none_iff, Config.mem_allowedOrigins_iff accepted]
  · intro app built r t
    have hpolicy : OriginPolicy.ofConfig config = some app.origins := by
      obtain ⟨policy, hpolicy, rfl⟩ := Option.map_eq_some_iff.mp built
      exact hpolicy
    obtain ⟨freshId, plain, hplain, hresponse⟩ := Timeline.exists_dress app r t
    rw [hresponse]
    exact allowedOriginsFollow_of_allowance? accepted hpolicy
      (app.allowedOrigins_dress freshId r hplain)

/-- A public server with two origins, and an entry that cannot stand in a header. -/
def twoOrigins : Lookup
  | "APP_ENV" => some "production"
  | "JWT_SECRET" => some "secret"
  | "CORS_ALLOWED_ORIGINS" => some " https://a.test ,,bad\x01entry, https://b.test"
  | _ => none

/-- A page of the first origin asks whether the server is there. -/
def fromFirst : HttpRequest where
  path := "/health"
  headers := [("origin", "https://a.test")]

/-- The server comes up, and the page is told that its origin is allowed. -/
theorem allowedOrigins_follow_unless_star_of_twoOrigins :
    ∃ config app, Config.ofLookup twoOrigins = .ok config ∧ ofConfig? config = some app ∧
      ∀ t : Timeline,
        ((Timeline.exchange app fromFirst).run t).1.1.allowedOrigins = ["https://a.test"] := by
  obtain ⟨config, hconfig⟩ : ∃ config, Config.ofLookup twoOrigins = .ok config := ⟨_, rfl⟩
  have hlists : twoOrigins.Lists "https://a.test" :=
    ⟨_, rfl, mem_originEntries_iff.mp (by decide +kernel)⟩
  have hstarless : ¬ twoOrigins.Lists "*" := by
    rintro ⟨text, htext, hentry⟩
    obtain rfl := Option.some.inj htext
    exact absurd (mem_originEntries_iff.mpr hentry) (by decide +kernel)
  obtain ⟨app, happ⟩ : ∃ app, ofConfig? config = some app :=
    Option.ne_none_iff_exists'.mp
      (mt (allowedOrigins_follow_unless_star hconfig).1.mp hstarless)
  refine ⟨config, app, hconfig, happ, fun t => ?_⟩
  have hfollow := (allowedOrigins_follow_unless_star hconfig).2 app happ fromFirst t
  exact (hfollow.listed ⟨_, hlists⟩ _).mpr ⟨rfl, hlists, by decide +kernel⟩

/-- All origins, in the way in which one would first think of it. -/
def everybody : Lookup
  | "JWT_SECRET" => some "secret"
  | "CORS_ALLOWED_ORIGINS" => some "*"
  | _ => none

/-- The configuration is accepted, but the server does not come up. -/
theorem unbuilt_of_star :
    ∃ config, Config.ofLookup everybody = .ok config ∧ ofConfig? config = none :=
  ⟨_, rfl, by decide +kernel⟩

end App

end RoomRelay

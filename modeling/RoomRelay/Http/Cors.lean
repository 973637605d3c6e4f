import RoomRelay.Config
import RoomRelay.Http.Exchange

/-!
# Pages of other origins

A browser asks whether pages of another origin may use the server. The configuration lists the
origins that may; an entry that cannot stand in a header is left out. Without any entry all origins
may, or none in production. The entry `*` cannot be combined with a list, and the server refuses to
start with it.

## Main definitions

* `OriginPolicy`, `OriginPolicy.ofEntries` — which origins may use the server
* `OriginPolicy.allowance?` — the header that tells a page so
* `OriginPolicy.preflight`, `OriginPolicy.dress` — the answer to a question in advance, and what is
  put into all other answers
-/

namespace RoomRelay

/-- Which origins may use the server. -/
inductive OriginPolicy
  /-- All of them. -/
  | any
  /-- Those in the list. -/
  | listed (origins : List String)
  deriving DecidableEq

namespace OriginPolicy

/-- The policy that entries give; `none` if the server refuses to start with them. -/
def ofEntries (entries : List String) (isProduction : Bool) : Option OriginPolicy :=
  if entries = [] then some (if isProduction then .listed [] else .any)
  else
    let valid := entries.filter isHeaderValue
    if "*" ∈ valid then none else some (.listed valid)

/-- The policy of a configuration. -/
def ofConfig (config : Config) : Option OriginPolicy :=
  ofEntries config.allowedOrigins config.environment.isProduction

/-- Which origin a page is told that it may come from. -/
def allowance? (policy : OriginPolicy) (origin : Option String) : Option String :=
  match policy with
  | any => some "*"
  | listed origins => origin.filter (· ∈ origins)

/-- What the answer depends on. -/
def vary : String × String :=
  ("vary", "origin, access-control-request-method, access-control-request-headers")

/-- The headers about origins that every answer has. -/
def commonHeaders (policy : OriginPolicy) (origin : Option String) : Headers :=
  vary :: ((policy.allowance? origin).map fun o => ("access-control-allow-origin", o)).toList

/-- The answer to a page that asks in advance. -/
def preflight (policy : OriginPolicy) (origin : Option String) : HttpResponse where
  status := 200
  headers := policy.commonHeaders origin ++
    [("access-control-allow-methods", "GET,POST,OPTIONS"),
      ("access-control-allow-headers", "authorization,content-type,accept,x-request-id")]

/-- An answer with what a page is told about origins. -/
def dress (policy : OriginPolicy) (origin : Option String) (r : HttpResponse) : HttpResponse :=
  { r with headers := r.headers ++ policy.commonHeaders origin ++
      [("access-control-expose-headers", "x-request-id")] }

end OriginPolicy

end RoomRelay

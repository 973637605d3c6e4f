import RoomRelay.Config
import RoomRelay.Proofs.Text.Numerals

/-!
# Which configurations are accepted

Seven requirements are looked at one after the other, and the first that is violated is reported.
Whatever else the variables say, a configuration comes of it: what cannot be read counts as not
given.

## Main definitions

* `Lookup.Gives`, `Lookup.Settles` — what a variable says, strictly and with indulgence
* `Config.Requirement`, `Config.Violates` — the requirements, and how they are violated
* `Config.Complains`, `Config.Checks` — the first violation, and what reports it
* `Config.Sound` — all requirements in other words
* `Config.Follows` — a configuration follows from what the variables say

## Main results

* `Config.checks_ofLookup` — the first violation is reported
* `Config.sound_iff` — nothing is violated if the variables are sound
* `Config.follows_of_ofLookup` — whatever is accepted follows from the variables
* `Config.accepted_iff_sound` — which configurations are accepted, and why the others are not
-/

namespace RoomRelay

/-- A numeral of a number of so many bits. -/
def Numeral.Fits (bits : Nat) (text : String) (n : Nat) : Prop := Denotes text n ∧ n < 2 ^ bits

/-- A numeral of an integer of 64 bits. -/
def Numeral.FitsSigned (text : String) (z : Int) : Prop :=
  DenotesInt text z ∧ -9223372036854775808 ≤ z ∧ z ≤ 9223372036854775807

/-- A word names an environment in any case. -/
def Environment.Named (word : String) (env : Environment) : Prop :=
  word.toLower = env.name.toLower

namespace Lookup

variable {α : Type}

/-- A setting has its default value if its variable is not given, and the value that can be read
from the variable otherwise. -/
def Gives (lookup : Lookup) (key : String) (reads : String → α → Prop) (default value : α) : Prop :=
  lookup key = none ∧ value = default ∨ ∃ text, lookup key = some text ∧ reads text value

/-- A setting has the value that can be read from its variable, and its default value if there is
none. -/
def Settles (lookup : Lookup) (key : String) (reads : String → α → Prop) (default value : α) :
    Prop :=
  (∃ text, lookup key = some text ∧ reads text value) ∨
    (∀ text, lookup key = some text → ∀ v, ¬ reads text v) ∧ value = default

/-- A variable is given that is no numeral of so many bits. -/
def Unreadable (lookup : Lookup) (key : String) (bits : Nat) (fault : ConfigFault) : Prop :=
  ∃ text, lookup key = some text ∧ (∀ n, ¬ Numeral.Fits bits text n) ∧ fault = .invalid key text

end Lookup

namespace Config

/-- What is required of the variables. -/
inductive Requirement
  | queueCapacity
  | pingInterval
  | idleTimeout
  | port
  | shutdownGrace
  | secret
  | writeTimeout
  deriving DecidableEq

/-- All requirements, in the order in which they are looked at. -/
def Requirement.all : List Requirement :=
  [.queueCapacity, .pingInterval, .idleTimeout, .port, .shutdownGrace, .secret, .writeTimeout]

/-- The variables that requirements are about. -/
def decisive : List String :=
  ["HUB_OUTBOUND_QUEUE_CAPACITY", "HUB_PING_INTERVAL_SECS", "HUB_IDLE_TIMEOUT_SECS", "PORT",
    "SHUTDOWN_GRACE_SECS", "JWT_SECRET", "HUB_WRITE_TIMEOUT_SECS"]

/-- A requirement is violated, and this is the fault. -/
def Violates (lookup : Lookup) : Requirement → ConfigFault → Prop
  | .queueCapacity, fault =>
    lookup.Unreadable "HUB_OUTBOUND_QUEUE_CAPACITY" 64 fault ∨
      lookup.Gives "HUB_OUTBOUND_QUEUE_CAPACITY" (Numeral.Fits 64) 256 0 ∧
        fault = .invalid "HUB_OUTBOUND_QUEUE_CAPACITY" "0"
  | .pingInterval, fault =>
    lookup.Unreadable "HUB_PING_INTERVAL_SECS" 64 fault ∨
      lookup.Gives "HUB_PING_INTERVAL_SECS" (Numeral.Fits 64) 45 0 ∧
        fault = .invalid "HUB_PING_INTERVAL_SECS" "0"
  | .idleTimeout, fault =>
    lookup.Unreadable "HUB_IDLE_TIMEOUT_SECS" 64 fault ∨
      ∃ idle ping, lookup.Gives "HUB_IDLE_TIMEOUT_SECS" (Numeral.Fits 64) 90 idle ∧
        lookup.Gives "HUB_PING_INTERVAL_SECS" (Numeral.Fits 64) 45 ping ∧ idle ≤ ping ∧
        fault = .invalid "HUB_IDLE_TIMEOUT_SECS" (toString idle)
  | .port, fault => lookup.Unreadable "PORT" 16 fault
  | .shutdownGrace, fault => lookup.Unreadable "SHUTDOWN_GRACE_SECS" 64 fault
  | .secret, fault => lookup "JWT_SECRET" = none ∧ fault = .missing "JWT_SECRET"
  | .writeTimeout, fault => lookup.Unreadable "HUB_WRITE_TIMEOUT_SECS" 64 fault

/-- The first requirement of a list that is violated has this fault. -/
inductive Complains (lookup : Lookup) : List Requirement → ConfigFault → Prop
  | here {r : Requirement} {rs : List Requirement} {fault : ConfigFault}
    (violates : Violates lookup r fault) : Complains lookup (r :: rs) fault
  | later {r : Requirement} {rs : List Requirement} {fault : ConfigFault}
    (passes : ∀ other, ¬ Violates lookup r other) (rest : Complains lookup rs fault) :
    Complains lookup (r :: rs) fault

/-- The variables fulfil all requirements. -/
structure Sound (lookup : Lookup) : Prop where
  numerals : ∀ key ∈ ["HUB_OUTBOUND_QUEUE_CAPACITY", "HUB_PING_INTERVAL_SECS",
    "HUB_IDLE_TIMEOUT_SECS", "SHUTDOWN_GRACE_SECS", "HUB_WRITE_TIMEOUT_SECS"],
    ∀ text, lookup key = some text → ∃ n, Numeral.Fits 64 text n
  port : ∀ text, lookup "PORT" = some text → ∃ n, Numeral.Fits 16 text n
  queueCapacity : ¬ lookup.Gives "HUB_OUTBOUND_QUEUE_CAPACITY" (Numeral.Fits 64) 256 0
  pingInterval : ¬ lookup.Gives "HUB_PING_INTERVAL_SECS" (Numeral.Fits 64) 45 0
  idleTimeout : ∀ idle ping, lookup.Gives "HUB_IDLE_TIMEOUT_SECS" (Numeral.Fits 64) 90 idle →
    lookup.Gives "HUB_PING_INTERVAL_SECS" (Numeral.Fits 64) 45 ping → ping < idle
  secret : lookup "JWT_SECRET" ≠ none

/-- A configuration is what the variables say, and what they do not say, or not in a readable way,
has its default. -/
structure Follows (lookup : Lookup) (config : Config) : Prop where
  name : config.name = (lookup "APP_NAME").getD "chat-server"
  environment : lookup.Settles "APP_ENV" Environment.Named .development config.environment
  host : config.server.host = (lookup "HOST").getD "0.0.0.0"
  port : lookup.Gives "PORT" (Numeral.Fits 16) 8080 config.server.port
  shutdownGrace :
    lookup.Gives "SHUTDOWN_GRACE_SECS" (Numeral.Fits 64) 10 config.server.shutdownGrace
  databaseUrl : config.database.map (·.url) = (lookup "DATABASE_URL").or (lookup "POSTGRES_URL")
  database : ∀ database ∈ config.database,
    lookup.Settles "DATABASE_MAX_CONNECTIONS" (Numeral.Fits 32) 20 database.maxConnections ∧
    lookup.Settles "DATABASE_MIN_CONNECTIONS" (Numeral.Fits 32) 5 database.minConnections
  cacheUrl : config.cache.map (·.url) = lookup "REDIS_URL"
  cache : ∀ cache ∈ config.cache,
    lookup.Settles "REDIS_MAX_CONNECTIONS" (Numeral.Fits 32) 10 cache.maxConnections
  secret : lookup "JWT_SECRET" = some config.token.secret
  lifetime : lookup.Settles "JWT_ACCESS_TOKEN_EXPIRY" Numeral.FitsSigned 900 config.token.lifetime
  queueCapacity :
    lookup.Gives "HUB_OUTBOUND_QUEUE_CAPACITY" (Numeral.Fits 64) 256 config.hub.queueCapacity
  writeTimeout : lookup.Gives "HUB_WRITE_TIMEOUT_SECS" (Numeral.Fits 64) 10 config.hub.writeTimeout
  pingInterval : lookup.Gives "HUB_PING_INTERVAL_SECS" (Numeral.Fits 64) 45 config.hub.pingInterval
  idleTimeout : lookup.Gives "HUB_IDLE_TIMEOUT_SECS" (Numeral.Fits 64) 90 config.hub.idleTimeout
  allowedOrigins :
    config.allowedOrigins = ((lookup "CORS_ALLOWED_ORIGINS").map originEntries).getD []

end Config

/-! ## What is read from one variable -/

namespace Numeral

variable {greatest bits n : Nat} {text : String}

theorem natural_eq_ok_iff_fits (range : greatest + 1 = 2 ^ bits) :
    natural greatest text = .ok n ↔ Fits bits text n := by
  rw [natural_eq_ok_iff, Fits]
  refine and_congr_right fun _ => ?_
  omega

/-- A text denotes at most one number. -/
theorem Fits.unique {m : Nat} (h : Fits bits text n) (h' : Fits bits text m) : m = n :=
  h.1.unique h'.1

end Numeral

/-- An environment is read from the words that name it. -/
theorem Environment.parse?_eq_some_iff {word : String} {env : Environment} :
    parse? word = some env ↔ Named word env := by
  unfold parse? Named
  generalize word.toLower = lower
  have hdevelopment : (name development).toLower = "development" := by decide +kernel
  have hstaging : (name staging).toLower = "staging" := by decide +kernel
  have hproduction : (name production).toLower = "production" := by decide +kernel
  split <;> cases env <;> simp_all

/-- What comes of two computations, one after the other. -/
theorem bind_eq_ok_iff {ε α β : Type} {x : Except ε α} {f : α → Except ε β} {b : β} :
    x >>= f = .ok b ↔ ∃ a, x = .ok a ∧ f a = .ok b := by
  cases x <;> simp [bind, Except.bind]

namespace Lookup

variable {lookup : Lookup} {key : String} {greatest bits default n : Nat} {fault : ConfigFault}

theorem strict_eq_ok_iff (range : greatest + 1 = 2 ^ bits) :
    lookup.strict key greatest default = .ok n ↔
      lookup.Gives key (Numeral.Fits bits) default n := by
  unfold strict Gives
  cases hgiven : lookup key with
  | none => simp [eq_comm]
  | some text =>
    simp only [reduceCtorEq, false_and, false_or, Option.some.injEq, exists_eq_left',
      ← Numeral.natural_eq_ok_iff_fits range]
    cases Numeral.natural greatest text <;> simp

theorem strict_eq_error_iff (range : greatest + 1 = 2 ^ bits) :
    lookup.strict key greatest default = .error fault ↔ lookup.Unreadable key bits fault := by
  unfold strict Unreadable
  cases hgiven : lookup key with
  | none => simp
  | some text =>
    simp only [Option.some.injEq, exists_eq_left', ← Numeral.natural_eq_ok_iff_fits range]
    cases Numeral.natural greatest text <;> simp [eq_comm]

theorem word_eq_ok_iff :
    lookup.word key default = .ok n ↔ lookup.Gives key (Numeral.Fits 64) default n :=
  strict_eq_ok_iff (by decide)

theorem word_eq_error_iff :
    lookup.word key default = .error fault ↔ lookup.Unreadable key 64 fault :=
  strict_eq_error_iff (by decide)

/-- A number that must not be zero. -/
theorem positive_eq_ok_iff :
    lookup.positive key default = .ok n ↔ lookup.Gives key (Numeral.Fits 64) default n ∧ n ≠ 0 := by
  rw [positive, bind_eq_ok_iff, ← word_eq_ok_iff]
  constructor
  · rintro ⟨m, hm, hn⟩
    split at hn
    · simp at hn
    · next hne =>
      obtain rfl : m = n := Except.ok.inj hn
      exact ⟨hm, hne⟩
  · rintro ⟨hn, hne⟩
    exact ⟨n, hn, by simp [hne, pure, Except.pure]⟩

theorem positive_eq_error_iff :
    lookup.positive key default = .error fault ↔
      lookup.Unreadable key 64 fault ∨
        lookup.Gives key (Numeral.Fits 64) default 0 ∧ fault = .invalid key "0" := by
  rw [positive, ← word_eq_error_iff, ← word_eq_ok_iff]
  cases lookup.word key default with
  | error e => simp [bind, Except.bind]
  | ok n =>
    by_cases hzero : n = 0 <;> simp [bind, Except.bind, pure, Except.pure, hzero, eq_comm]

/-- A variable gives at most one number. -/
theorem Gives.unique {m : Nat} (h : lookup.Gives key (Numeral.Fits bits) default n)
    (h' : lookup.Gives key (Numeral.Fits bits) default m) : m = n := by
  rcases h with ⟨hnone, rfl⟩ | ⟨text, htext, hn⟩ <;>
    rcases h' with ⟨hnone', rfl⟩ | ⟨text', htext', hm⟩
  · rfl
  · simp [hnone] at htext'
  · simp [hnone'] at htext
  · obtain rfl : text = text' := Option.some.inj (htext.symm.trans htext')
    exact hn.unique hm

/-- What an indulgent reading makes of a variable. -/
theorem settles_getD {α : Type} {reads : String → α → Prop} {read? : String → Option α}
    {default : α} (hread : ∀ text value, read? text = some value ↔ reads text value) :
    lookup.Settles key reads default (((lookup key).bind read?).getD default) := by
  cases hgiven : lookup key with
  | none => exact Or.inr ⟨by simp [hgiven], by simp⟩
  | some text =>
    cases hvalue : read? text with
    | none =>
      refine Or.inr ⟨?_, by simp [hvalue]⟩
      rintro text' htext' value hreads
      obtain rfl : text = text' := Option.some.inj (hgiven.symm.trans htext')
      exact absurd (hvalue.symm.trans ((hread text value).mpr hreads)) (by simp)
    | some value =>
      exact Or.inl ⟨text, hgiven, (hread text _).mp (by simp [hvalue])⟩

theorem settles_lenient :
    lookup.Settles key (Numeral.Fits 32) default (lookup.lenient key default) := by
  have hlenient : lookup.lenient key default =
      ((lookup key).bind fun text => (Numeral.natural Bits.greatest32 text).toOption).getD
        default := by
    unfold lenient
    cases lookup key with
    | none => rfl
    | some text => cases hn : Numeral.natural Bits.greatest32 text <;> simp [hn, Except.toOption]
  rw [hlenient]
  refine settles_getD fun text n => ?_
  rw [← Numeral.natural_eq_ok_iff_fits (by decide : Bits.greatest32 + 1 = 2 ^ 32)]
  cases Numeral.natural Bits.greatest32 text <;> simp [Except.toOption]

end Lookup

namespace Config

variable {lookup : Lookup} {α β : Type} {rs rs' : List Requirement} {x : Except ConfigFault α}
  {f : α → Except ConfigFault β}

/-! ## Violations are reported in order -/

/-- A computation reports the first requirement that is violated, and nothing else. -/
def Checks (lookup : Lookup) (rs : List Requirement) (x : Except ConfigFault α) : Prop :=
  ∀ fault, x = .error fault ↔ Complains lookup rs fault

theorem not_complains_nil {fault : ConfigFault} : ¬ Complains lookup [] fault := nofun

/-- There is no complaint if and only if nothing is violated. -/
theorem forall_not_complains_iff :
    (∀ fault, ¬ Complains lookup rs fault) ↔ ∀ r ∈ rs, ∀ fault, ¬ Violates lookup r fault := by
  induction rs with
  | nil => simp [not_complains_nil]
  | cons r rs ih =>
    rw [List.forall_mem_cons, ← ih]
    constructor
    · intro h
      have hpasses : ∀ fault, ¬ Violates lookup r fault := fun fault hr => h fault (.here hr)
      exact ⟨hpasses, fun fault hrs => h fault (.later hpasses hrs)⟩
    · rintro ⟨hr, hrs⟩ fault (hhere | ⟨-, hlater⟩)
      · exact hr fault hhere
      · exact hrs fault hlater

/-- The complaint about two lists is the one about the first, and the one about the second if there
is none. -/
theorem complains_append {fault : ConfigFault} :
    Complains lookup (rs ++ rs') fault ↔
      Complains lookup rs fault ∨
        (∀ other, ¬ Complains lookup rs other) ∧ Complains lookup rs' fault := by
  induction rs with
  | nil => simp [not_complains_nil]
  | cons r rs ih =>
    rw [forall_not_complains_iff, List.forall_mem_cons, ← forall_not_complains_iff,
      List.cons_append]
    constructor
    · rintro (hhere | ⟨hr, hlater⟩)
      · exact Or.inl (.here hhere)
      · exact (ih.mp hlater).imp (.later hr) fun h => ⟨⟨hr, h.1⟩, h.2⟩
    · rintro ((hhere | ⟨hr, hlater⟩) | ⟨⟨hr, hrs⟩, hlater⟩)
      · exact .here hhere
      · exact .later hr (ih.mpr (Or.inl hlater))
      · exact .later hr (ih.mpr (Or.inr ⟨hrs, hlater⟩))

theorem checks_ok (a : α) : Checks lookup [] (.ok a : Except ConfigFault α) :=
  fun _ => iff_of_false (by simp) not_complains_nil

theorem checks_single {r : Requirement} (h : ∀ fault, x = .error fault ↔ Violates lookup r fault) :
    Checks lookup [r] x := by
  refine fun fault => (h fault).trans ⟨.here, ?_⟩
  rintro (hhere | ⟨-, hlater⟩)
  · exact hhere
  · exact absurd hlater not_complains_nil

/-- One computation after the other looks at one list after the other. -/
theorem Checks.bind (hx : Checks lookup rs x) (hf : ∀ a, x = .ok a → Checks lookup rs' (f a)) :
    Checks lookup (rs ++ rs') (x >>= f) := by
  intro fault
  rw [complains_append]
  cases x with
  | error e =>
    have he : Complains lookup rs e := (hx e).mp rfl
    have hraised : (Except.error e >>= f) = .error fault ↔
        (Except.error e : Except ConfigFault α) = .error fault := by
      simp [Bind.bind, Except.bind]
    rw [hraised, ← hx fault]
    refine ⟨Or.inl, ?_⟩
    rintro (h | ⟨hpasses, -⟩)
    · exact h
    · exact absurd he (hpasses e)
  | ok a =>
    have hpasses : ∀ other, ¬ Complains lookup rs other :=
      fun other h => absurd ((hx other).mpr h) (by simp)
    refine (hf a rfl fault).trans ⟨fun h => Or.inr ⟨hpasses, h⟩, ?_⟩
    rintro (h | ⟨-, h⟩)
    · exact absurd h (hpasses fault)
    · exact h

/-- The limits of connections are checked. -/
theorem checks_hubOfLookup :
    Checks lookup [.queueCapacity, .pingInterval, .idleTimeout] (hubOfLookup lookup) := by
  rw [hubOfLookup]
  refine (checks_single fun _ => Lookup.positive_eq_error_iff).bind fun _ _ => ?_
  refine (checks_single fun _ => Lookup.positive_eq_error_iff).bind fun ping hping => ?_
  have hgives := (Lookup.positive_eq_ok_iff.mp hping).1
  refine checks_single fun fault => ?_
  rw [Violates, ← Lookup.word_eq_error_iff]
  have hping' : ∀ ping', lookup.Gives "HUB_PING_INTERVAL_SECS" (Numeral.Fits 64) 45 ping' ↔
      ping' = ping := fun ping' => ⟨hgives.unique, fun h => h ▸ hgives⟩
  simp only [hping', ← Lookup.word_eq_ok_iff]
  cases lookup.word "HUB_IDLE_TIMEOUT_SECS" 90 with
  | error e => simp [bind, Except.bind]
  | ok idle =>
    by_cases hle : idle ≤ ping <;> simp [bind, Except.bind, pure, Except.pure, hle, eq_comm]

theorem checks_serverOfLookup :
    Checks lookup [.port, .shutdownGrace] (serverOfLookup lookup) := by
  rw [serverOfLookup]
  refine (checks_single fun _ => Lookup.strict_eq_error_iff (by decide)).bind fun _ _ => ?_
  exact (checks_single fun _ => Lookup.word_eq_error_iff).bind fun _ _ => checks_ok _

theorem checks_tokenOfLookup : Checks lookup [.secret] (tokenOfLookup lookup) := by
  refine checks_single fun fault => ?_
  rw [tokenOfLookup, Violates]
  cases lookup "JWT_SECRET" with
  | none => simp [eq_comm]
  | some secret =>
    refine iff_of_false ?_ (by simp)
    dsimp only
    split <;> simp

/-- All requirements are looked at in order, and the first violation is the fault. -/
theorem checks_ofLookup : Checks lookup Requirement.all (ofLookup lookup) := by
  rw [ofLookup]
  refine checks_hubOfLookup.bind fun _ _ => ?_
  refine checks_serverOfLookup.bind fun _ _ => ?_
  refine checks_tokenOfLookup.bind fun _ _ => ?_
  exact (checks_single fun _ => Lookup.word_eq_error_iff).bind fun _ _ => checks_ok _

/-! ## What is accepted -/

theorem not_unreadable_iff {key : String} {bits : Nat} :
    (∀ fault, ¬ lookup.Unreadable key bits fault) ↔
      ∀ text, lookup key = some text → ∃ n, Numeral.Fits bits text n := by
  constructor
  · intro h text htext
    by_contra hnone
    exact h _ ⟨text, htext, not_exists.mp hnone, rfl⟩
  · rintro h fault ⟨text, htext, hnone, -⟩
    obtain ⟨n, hn⟩ := h text htext
    exact hnone n hn

/-- Nothing is violated if and only if the variables are sound. -/
theorem sound_iff : Sound lookup ↔ ∀ r ∈ Requirement.all, ∀ fault, ¬ Violates lookup r fault := by
  simp only [Requirement.all, List.forall_mem_cons, Violates, not_or, forall_and, not_exists,
    not_and, not_unreadable_iff]
  constructor
  · rintro ⟨hnumerals, hport, hcapacity, hping, hidle, hsecret⟩
    simp only [List.forall_mem_cons] at hnumerals
    obtain ⟨ncapacity, nping, nidle, ngrace, nwrite, -⟩ := hnumerals
    exact ⟨⟨ncapacity, fun _ h => absurd h hcapacity⟩, ⟨nping, fun _ h => absurd h hping⟩,
      ⟨nidle, fun _ idle ping hi hp hle => absurd (hidle idle ping hi hp) (by omega)⟩, hport,
      ngrace, fun _ h => absurd h hsecret, nwrite, by simp⟩
  · rintro ⟨⟨ncapacity, hcapacity⟩, ⟨nping, hping⟩, ⟨nidle, hidle⟩, hport, ngrace, hsecret, nwrite,
      -⟩
    refine ⟨?_, hport, fun h => hcapacity _ h rfl, fun h => hping _ h rfl, ?_, ?_⟩
    · simp only [List.forall_mem_cons]
      exact ⟨ncapacity, nping, nidle, ngrace, nwrite, by simp⟩
    · intro idle ping hi hp
      by_contra hlt
      exact hidle _ idle ping hi hp (by omega) rfl
    · exact fun h => hsecret _ h rfl

/-- Whatever is not refused is accepted. -/
theorem exists_ok_iff :
    (∃ config, ofLookup lookup = .ok config) ↔ ∀ fault, ofLookup lookup ≠ .error fault := by
  cases ofLookup lookup <;> simp

/-- The limits follow from the variables; the write timeout is still the default. -/
theorem gives_of_hubOfLookup {hub : HubConfig} (h : hubOfLookup lookup = .ok hub) :
    lookup.Gives "HUB_OUTBOUND_QUEUE_CAPACITY" (Numeral.Fits 64) 256 hub.queueCapacity ∧
      lookup.Gives "HUB_PING_INTERVAL_SECS" (Numeral.Fits 64) 45 hub.pingInterval ∧
      lookup.Gives "HUB_IDLE_TIMEOUT_SECS" (Numeral.Fits 64) 90 hub.idleTimeout := by
  rw [hubOfLookup] at h
  obtain ⟨capacity, hcapacity, h⟩ := bind_eq_ok_iff.mp h
  obtain ⟨ping, hping, h⟩ := bind_eq_ok_iff.mp h
  obtain ⟨idle, hidle, h⟩ := bind_eq_ok_iff.mp h
  split at h
  · simp at h
  · obtain rfl := Except.ok.inj h
    exact ⟨(Lookup.positive_eq_ok_iff.mp hcapacity).1, (Lookup.positive_eq_ok_iff.mp hping).1,
      Lookup.word_eq_ok_iff.mp hidle⟩

theorem gives_of_serverOfLookup {server : ServerConfig} (h : serverOfLookup lookup = .ok server) :
    server.host = (lookup "HOST").getD "0.0.0.0" ∧
      lookup.Gives "PORT" (Numeral.Fits 16) 8080 server.port ∧
      lookup.Gives "SHUTDOWN_GRACE_SECS" (Numeral.Fits 64) 10 server.shutdownGrace := by
  rw [serverOfLookup] at h
  obtain ⟨port, hport, h⟩ := bind_eq_ok_iff.mp h
  obtain ⟨grace, hgrace, h⟩ := bind_eq_ok_iff.mp h
  obtain rfl := Except.ok.inj h
  exact ⟨rfl, (Lookup.strict_eq_ok_iff (by decide)).mp hport, Lookup.word_eq_ok_iff.mp hgrace⟩

/-- A lifetime that cannot be read counts as not given. -/
theorem tokenOfLookup_of_eq_some {secret : String} (h : lookup "JWT_SECRET" = some secret) :
    tokenOfLookup lookup = .ok {
      secret
      lifetime := ((lookup "JWT_ACCESS_TOKEN_EXPIRY").bind
        fun text => (Numeral.signed text).toOption).getD 900 } := by
  simp only [tokenOfLookup, h]
  cases lookup "JWT_ACCESS_TOKEN_EXPIRY" with
  | none => rfl
  | some text => cases hz : Numeral.signed text <;> simp [hz, Except.toOption]

theorem settles_of_tokenOfLookup {token : TokenConfig} (h : tokenOfLookup lookup = .ok token) :
    lookup "JWT_SECRET" = some token.secret ∧
      lookup.Settles "JWT_ACCESS_TOKEN_EXPIRY" Numeral.FitsSigned 900 token.lifetime := by
  cases hsecret : lookup "JWT_SECRET" with
  | none => simp [tokenOfLookup, hsecret] at h
  | some secret =>
    rw [tokenOfLookup_of_eq_some hsecret] at h
    obtain rfl := Except.ok.inj h
    refine ⟨rfl, Lookup.settles_getD fun text z => ?_⟩
    rw [Numeral.FitsSigned, ← Numeral.signed_eq_ok_iff]
    cases Numeral.signed text <;> simp [Except.toOption]

/-- What is accepted follows from the variables. -/
theorem follows_of_ofLookup {config : Config} (h : ofLookup lookup = .ok config) :
    Follows lookup config := by
  rw [ofLookup] at h
  obtain ⟨hub, hhub, h⟩ := bind_eq_ok_iff.mp h
  obtain ⟨server, hserver, h⟩ := bind_eq_ok_iff.mp h
  obtain ⟨token, htoken, h⟩ := bind_eq_ok_iff.mp h
  obtain ⟨writeTimeout, hwrite, h⟩ := bind_eq_ok_iff.mp h
  obtain rfl := Except.ok.inj h
  -- The groups that are read strictly come first; all other entries are read leniently.
  obtain ⟨hcapacity, hping, hidle⟩ := gives_of_hubOfLookup hhub
  obtain ⟨hhost, hport, hgrace⟩ := gives_of_serverOfLookup hserver
  obtain ⟨hsecret, hlifetime⟩ := settles_of_tokenOfLookup htoken
  exact {
    name := rfl
    environment := Lookup.settles_getD fun _ _ => Environment.parse?_eq_some_iff
    host := hhost
    port := hport
    shutdownGrace := hgrace
    databaseUrl := by
      simp only [databaseOfLookup, Option.map_map, Function.comp_def, Option.map_id']
      cases lookup "DATABASE_URL" <;> rfl
    database := by
      simp only [databaseOfLookup, Option.mem_map]
      rintro _ ⟨url, -, rfl⟩
      exact ⟨Lookup.settles_lenient, Lookup.settles_lenient⟩
    cacheUrl := by
      simp only [cacheOfLookup, Option.map_map]
      cases lookup "REDIS_URL" <;> simp
    cache := by
      simp only [cacheOfLookup, Option.mem_map]
      rintro _ ⟨url, -, rfl⟩
      exact Lookup.settles_lenient
    secret := hsecret
    lifetime := hlifetime
    queueCapacity := hcapacity
    writeTimeout := Lookup.word_eq_ok_iff.mp hwrite
    pingInterval := hping
    idleTimeout := hidle
    allowedOrigins := rfl }

/-- Violations are about the decisive variables alone. -/
theorem violates_congr {lookup' : Lookup} (h : ∀ key ∈ decisive, lookup' key = lookup key)
    (r : Requirement) (fault : ConfigFault) :
    Violates lookup' r fault ↔ Violates lookup r fault := by
  simp only [decisive, List.forall_mem_cons] at h
  obtain ⟨hcapacity, hping, hidle, hport, hgrace, hsecret, hwrite, -⟩ := h
  cases r <;>
    simp only [Violates, Lookup.Unreadable, Lookup.Gives, hcapacity, hping, hidle, hport, hgrace,
      hsecret, hwrite]

theorem complains_congr {lookup' : Lookup} (h : ∀ key ∈ decisive, lookup' key = lookup key)
    {fault : ConfigFault} : Complains lookup' rs fault ↔ Complains lookup rs fault := by
  induction rs with
  | nil => exact iff_of_false not_complains_nil not_complains_nil
  | cons r rs ih =>
    constructor
    · rintro (hhere | ⟨hr, hlater⟩)
      · exact .here ((violates_congr h r fault).mp hhere)
      · exact .later (fun other => mt (violates_congr h r other).mpr (hr other)) (ih.mp hlater)
    · rintro (hhere | ⟨hr, hlater⟩)
      · exact .here ((violates_congr h r fault).mpr hhere)
      · exact .later (fun other => mt (violates_congr h r other).mp (hr other)) (ih.mpr hlater)

/-- A configuration is accepted if and only if the variables are sound. The first violation is
reported otherwise, and no other variable has a part in it; what is accepted follows from the
variables, with defaults in place of what cannot be read. -/
theorem accepted_iff_sound (lookup : Lookup) :
    ((∃ config, ofLookup lookup = .ok config) ↔ Sound lookup) ∧
      (∀ fault, ofLookup lookup = .error fault ↔ Complains lookup Requirement.all fault) ∧
      (∀ config, ofLookup lookup = .ok config → Follows lookup config) ∧
      ∀ lookup' : Lookup, (∀ key ∈ decisive, lookup' key = lookup key) →
        ∀ fault, ofLookup lookup' = .error fault ↔ ofLookup lookup = .error fault := by
  refine ⟨?_, checks_ofLookup, fun _ => follows_of_ofLookup, fun lookup' h fault => ?_⟩
  · rw [exists_ok_iff, sound_iff, ← forall_not_complains_iff]
    exact forall_congr' fun fault => not_congr (checks_ofLookup fault)
  · exact (checks_ofLookup fault).trans ((complains_congr h).trans (checks_ofLookup fault).symm)

/-- A port with a sign and leading zeros, and some values that cannot be read. -/
def careless : Lookup
  | "PORT" => some "+0080"
  | "APP_ENV" => some "PRODUCTION"
  | "REDIS_URL" => some "redis://cache"
  | "REDIS_MAX_CONNECTIONS" => some "4294967296"
  | "JWT_SECRET" => some ""
  | "JWT_ACCESS_TOKEN_EXPIRY" => some "soon"
  | "HUB_OUTBOUND_QUEUE_CAPACITY" => some "8"
  | _ => none

/-- The same without a secret, and with two limits that do not fit. -/
def mistaken : Lookup
  | "JWT_SECRET" => none
  | "PORT" => some "70000"
  | "HUB_WRITE_TIMEOUT_SECS" => some "1e3"
  | key => careless key

/-- The careless variables are accepted, and of three violations the port is reported. -/
theorem accepted_iff_sound_careless :
    (∃ config, ofLookup careless = .ok config ∧ Follows careless config ∧
      config.server.port = 80 ∧ config.environment = .production ∧ config.token.lifetime = 900 ∧
      config.cache = some { url := "redis://cache", maxConnections := 10 }) ∧
    Complains mistaken Requirement.all (.invalid "PORT" "70000") ∧
    ofLookup (fun key => if key = "APP_NAME" then some "" else mistaken key) =
      .error (.invalid "PORT" "70000") := by
  have hmistaken : ofLookup mistaken = .error (.invalid "PORT" "70000") := by decide +kernel
  obtain ⟨config, hconfig, hport, henvironment, hlifetime, hcache⟩ :
      ∃ config, ofLookup careless = .ok config ∧ config.server.port = 80 ∧
        config.environment = .production ∧ config.token.lifetime = 900 ∧
        config.cache = some { url := "redis://cache", maxConnections := 10 } :=
    ⟨_, rfl, by decide +kernel⟩
  refine ⟨⟨config, hconfig, ?_, hport, henvironment, hlifetime, hcache⟩, ?_, ?_⟩
  · exact (accepted_iff_sound careless).2.2.1 config hconfig
  · exact ((accepted_iff_sound mistaken).2.1 _).mp hmistaken
  · refine ((accepted_iff_sound mistaken).2.2.2 _ ?_ _).mpr hmistaken
    decide +kernel

end Config

end RoomRelay

import ResourceClient.Address
import ResourceClient.Duration
import ResourceClient.Fault
import ResourceClient.Json.Reader

namespace ResourceClient

structure Config where
  restUrl : String := "http://localhost:6541"
  requestTimeoutMs : Nat := 30000
  cacheCapacity : Nat := 10000
  cacheMaxAgeMs : Nat := 300000
  noForkMaxAttempts : Nat := 5
  noForkBackoffMs : Nat := 250
  noForkJitter : Binary64 := ⟨0x3FD0000000000000⟩
  maxAncestorDepth : Nat := 32
  nonResourcePaths : List String :=
    ["login_username", "login_email", "activate_account", "meta_api", "message_user",
      "create_password_reset", "password_reset", "report_abuse", "batch"]
  deriving DecidableEq, Inhabited, Repr

namespace Config

def ofDraft? (d : Draft) : Option Config := do
  let [restUrl, requestTimeout, capacity, maxAge, maxAttempts, backoff, jitter, depth, paths] ←
    d.fields? ["rest_url", "request_timeout_ms", "cache_capacity", "cache_max_age_ms",
      "no_fork_max_attempts", "no_fork_backoff_ms", "no_fork_jitter", "max_ancestor_depth",
      "non_resource_paths"] | none
  let fallback : Config := {}
  let word (n : Nat) := Draft.orDefault n (Draft.nat? UInt64.size)
  return {
    restUrl := ← Draft.orDefault fallback.restUrl Draft.text? restUrl
    requestTimeoutMs := ← word fallback.requestTimeoutMs requestTimeout
    cacheCapacity := ← word fallback.cacheCapacity capacity
    cacheMaxAgeMs := ← word fallback.cacheMaxAgeMs maxAge
    noForkMaxAttempts :=
      ← Draft.orDefault fallback.noForkMaxAttempts (Draft.nat? UInt32.size) maxAttempts
    noForkBackoffMs := ← word fallback.noForkBackoffMs backoff
    noForkJitter := ← Draft.orDefault fallback.noForkJitter Draft.float? jitter
    maxAncestorDepth := ← word fallback.maxAncestorDepth depth
    nonResourcePaths := ← Draft.orDefault fallback.nonResourcePaths Draft.texts? paths }

def validate (c : Config) : Except Fault Unit :=
  if c.noForkMaxAttempts = 0 then .error (.config .noAttempts)
  else if c.noForkJitter.isProperFraction then .ok ()
  else .error (.config (.badJitter c.noForkJitter))

def read (text : String) : Except Fault Config :=
  match (Json.draft? (Json.bytesOf text)).bind ofDraft? with
  | some c => do
    c.validate
    return c
  | none => .error .unreadable

def requestTimeout (c : Config) : Duration := .ofMillis c.requestTimeoutMs

def cacheMaxAge (c : Config) : Duration := .ofMillis c.cacheMaxAgeMs

def url (c : Config) (address : String) : String := Address.resolve c.restUrl address

def nonResourceUrls (c : Config) : List String :=
  c.nonResourcePaths.map (Address.underBase c.restUrl)

end Config

end ResourceClient

/-
# Settings

What the environment says about the backend, the database, the limits and the retries. A
variable that is set but cannot be used is an error that names it; it never falls back to
a default in silence. Variables are looked at in a fixed order, and the first offending
one is reported.
-/

import EventLog.Config.Number
import EventLog.Retry
import EventLog.Text.Quoted

namespace EventLog

inductive StorageKind where
  | memory
  | postgres
deriving DecidableEq

structure Config where
  storage : StorageKind
  databaseUrl : Option String
  maxConnections : Nat
  /-- Milliseconds until a backend call is given up. -/
  operationTimeout : Option Nat
  retry : RetryPolicy

inductive ConfigError where
  | invalid (name value reason : String)
  | missing (name : String)
deriving DecidableEq

def ConfigError.message : ConfigError → String
  | invalid name value reason =>
    name ++ " has invalid value " ++ Text.quoted value ++ ": " ++ reason
  | missing name => name ++ " must be set"

namespace Config

/-- What holds when no variable is set. -/
def standard : Config := ⟨.memory, none, 5, none, .standard⟩

/-- Where the variables come from. -/
abbrev Lookup := String → Option String

/-- The number a variable is set to; `none` if it is not set. -/
def numberOf (lookup : Lookup) (name : String) (limit : Nat) :
    Except ConfigError (Option Nat) :=
  match lookup name with
  | none => .ok none
  | some raw =>
    match number limit raw with
    | .ok n => .ok (some n)
    | .error e => .error (.invalid name raw e.message)

def storageOf (lookup : Lookup) : Except ConfigError StorageKind :=
  match lookup "ES_BACKEND" with
  | none => .ok .memory
  | some raw =>
    if raw = "memory" then .ok .memory
    else if raw = "postgres" then .ok .postgres
    else .error (.invalid "ES_BACKEND" raw "expected \"memory\" or \"postgres\"")

/-- The database; an empty setting counts as none. -/
def databaseUrlOf (lookup : Lookup) (storage : StorageKind) :
    Except ConfigError (Option String) :=
  let url := (lookup "DATABASE_URL").filter fun url => url ≠ ""
  if storage = .postgres ∧ url.isNone then .error (.missing "DATABASE_URL") else .ok url

def maxConnectionsOf (lookup : Lookup) : Except ConfigError Nat := do
  let count := (← numberOf lookup "ES_MAX_CONNECTIONS" (UInt32.size - 1)).getD standard.maxConnections
  if count = 0 then .error (.invalid "ES_MAX_CONNECTIONS" "0" "must be at least 1")
  else .ok count

def retryOf (lookup : Lookup) : Except ConfigError RetryPolicy := do
  let attempts ← numberOf lookup "ES_RETRY_MAX_ATTEMPTS" (UInt32.size - 1)
  let delay ← numberOf lookup "ES_RETRY_INITIAL_DELAY_MS" (UInt64.size - 1)
  return { standard.retry with
    maxAttempts := match attempts with
      | some n => UInt32.ofNat (max 1 n)
      | none => standard.retry.maxAttempts
    initialDelay := delay.getD standard.retry.initialDelay }

/-- The settings these variables give. -/
def ofLookup (lookup : Lookup) : Except ConfigError Config := do
  let storage ← storageOf lookup
  let databaseUrl ← databaseUrlOf lookup storage
  let maxConnections ← maxConnectionsOf lookup
  let operationTimeout ← numberOf lookup "ES_OPERATION_TIMEOUT_MS" (UInt64.size - 1)
  let retry ← retryOf lookup
  return ⟨storage, databaseUrl, maxConnections, operationTimeout, retry⟩

end Config

end EventLog

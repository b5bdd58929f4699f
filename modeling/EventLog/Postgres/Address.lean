/-
# Database addresses

An address has a scheme and may name a host, with the number of a service there. It is
looked at before anything is sent: one that cannot be read is a mistake of the caller,
while a server that does not answer at a good address may answer later.
-/

import EventLog.Error
import EventLog.Text.Numeral

namespace EventLog.Postgres.Address

open Text

/-- The characters that may follow the first letter of a scheme. -/
def isSchemeChar (c : Char) : Bool := c.isAlphanum || c = '+' || c = '-' || c = '.'

/-- What follows the scheme and its colon; `none` if there is no scheme. -/
def afterScheme? : List Char → Option (List Char)
  | c :: rest =>
    match rest.dropWhile isSchemeChar with
    | ':' :: tail => if c.isAlpha then some tail else none
    | _ => none
  | [] => none

/-- User, host and service: what stands between two slashes and the path. -/
def authority : List Char → List Char
  | '/' :: '/' :: rest => rest.takeWhile fun c => c ≠ '/' && c ≠ '?' && c ≠ '#'
  | _ => []

/-- What follows the last colon of the authority, unless that colon belongs to the user or
to a bracketed host. -/
def service? (authority : List Char) : Option (List Char) :=
  let reversed := authority.reverse
  let last := reversed.takeWhile fun c => c ≠ ':' && c ≠ '@' && c ≠ ']'
  if (reversed.drop last.length).head? = some ':' then some last.reverse else none

/-- A service is left out or a number of sixteen bits. -/
def isService (digits : List Char) : Bool :=
  match Numeral.value? 10 digits with
  | some n => n < UInt16.size
  | none => digits.isEmpty

/-- The address can be read. -/
def isWellFormed (url : String) : Bool :=
  match afterScheme? url.toList with
  | some rest => ((service? (authority rest)).map isService).getD true
  | none => false

end EventLog.Postgres.Address

namespace EventLog.Postgres

/-- Why no connection comes about: the address cannot be read, or nobody answers there. -/
def connectError (url : String) : Error :=
  if Address.isWellFormed url then .unavailable "no server answers"
  else .unexpected "the address cannot be read"

end EventLog.Postgres

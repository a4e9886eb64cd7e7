/-
# Configuration

Seven values that the ATM, the Bank and the relay share. A configuration file sets some
of them, each at most once; the others keep their defaults. A `Setting` is one of them
with its value, so that a file's content is a list of settings.
-/

import Cashpoint.Error
import Cashpoint.Files.Path
import Cashpoint.Network.Address

namespace Cashpoint

/-- The settings of the programs. -/
structure Config where
  /-- Where the ATM binds. -/
  atmAddress : SocketAddress := .loopback 32000
  /-- Where the relay binds. The ATM and the Bank both send here. -/
  relayAddress : SocketAddress := .loopback 32001
  /-- Where the Bank binds. -/
  bankAddress : SocketAddress := .loopback 32002
  /-- The directory of the cards. -/
  cardDirectory : Path := ⟨"."⟩
  /-- How long the ATM waits for each reply, in milliseconds. -/
  requestTimeout : UInt64 := 2000
  /-- How often a request is sent again before it is given up. -/
  maxRetries : UInt32 := 2
  /-- The number of failed logins that lock a name. -/
  maxAttempts : UInt32 := 3
  deriving DecidableEq

namespace Config

/-- What a member of a configuration file sets. -/
inductive Field
  | atmAddress
  | relayAddress
  | bankAddress
  | cardDirectory
  | requestTimeout
  | maxRetries
  | maxAttempts
  deriving DecidableEq, Repr

/-- The fields in the order in which a list of values gives them. -/
def Field.all : List Field :=
  [.atmAddress, .relayAddress, .bankAddress, .cardDirectory, .requestTimeout, .maxRetries, .maxAttempts]

/-- Every field is listed. -/
theorem Field.mem_all (field : Field) : field ∈ Field.all := by
  cases field <;> decide

/-- The name of the member. -/
def Field.name : Field → String
  | .atmAddress => "atm_addr"
  | .relayAddress => "router_addr"
  | .bankAddress => "bank_addr"
  | .cardDirectory => "card_dir"
  | .requestTimeout => "request_timeout_ms"
  | .maxRetries => "max_retries"
  | .maxAttempts => "max_attempts"

/-- Different fields have different names. -/
theorem Field.name_inj {a b : Field} (h : a.name = b.name) : a = b := by
  cases a <;> cases b <;> first | rfl | simp [Field.name] at h

/-- A field and its value. -/
inductive Setting
  | atmAddress (address : SocketAddress)
  | relayAddress (address : SocketAddress)
  | bankAddress (address : SocketAddress)
  | cardDirectory (directory : Path)
  | requestTimeout (milliseconds : UInt64)
  | maxRetries (count : UInt32)
  | maxAttempts (count : UInt32)
  deriving DecidableEq

namespace Setting

/-- The field of a setting. -/
def field : Setting → Field
  | .atmAddress _ => .atmAddress
  | .relayAddress _ => .relayAddress
  | .bankAddress _ => .bankAddress
  | .cardDirectory _ => .cardDirectory
  | .requestTimeout _ => .requestTimeout
  | .maxRetries _ => .maxRetries
  | .maxAttempts _ => .maxAttempts

/-- The configuration with one field replaced. -/
def apply (c : Config) : Setting → Config
  | .atmAddress address => { c with atmAddress := address }
  | .relayAddress address => { c with relayAddress := address }
  | .bankAddress address => { c with bankAddress := address }
  | .cardDirectory directory => { c with cardDirectory := directory }
  | .requestTimeout milliseconds => { c with requestTimeout := milliseconds }
  | .maxRetries count => { c with maxRetries := count }
  | .maxAttempts count => { c with maxAttempts := count }

/-- **Settings of different fields can be applied in either order.** -/
theorem apply_apply_comm (c : Config) {a b : Setting} (h : a.field ≠ b.field) :
    apply (apply c a) b = apply (apply c b) a := by
  cases a <;> cases b <;> first | rfl | exact absurd rfl h

end Setting

/-- All fields with their values. -/
def settings (c : Config) : List Setting :=
  [.atmAddress c.atmAddress, .relayAddress c.relayAddress, .bankAddress c.bankAddress,
    .cardDirectory c.cardDirectory, .requestTimeout c.requestTimeout, .maxRetries c.maxRetries,
    .maxAttempts c.maxAttempts]

/-- All settings of a configuration, applied to any other, give that configuration. -/
theorem foldl_apply_settings (c start : Config) : c.settings.foldl Setting.apply start = c := rfl

/-- A configuration that can be worked with: there is time to wait, and a login to fail. -/
def validate (c : Config) : Except Error Config :=
  if c.requestTimeout = 0 then .error (.configuration "request_timeout_ms must be positive")
  else if c.maxAttempts = 0 then .error (.configuration "max_attempts must be at least 1")
  else .ok c

end Config
end Cashpoint

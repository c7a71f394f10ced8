import RustTrader.InstrumentFiles
import RustTrader.Fix.Codec

/-!
# Session settings

`FixConfig::load`: a settings file has `[DEFAULT]` and `[SESSION]` blocks in any
order and number. A session inherits the values of the defaults and overrides
them with its own; all values are validated before the file is accepted.
-/

namespace RustTrader.Fix

def knownKeys : List String :=
  ["ConnectionType", "BeginString", "SenderCompID", "TargetCompID", "SocketAcceptPort",
    "SocketConnectHost", "SocketConnectPort", "HeartBtInt", "ResetOnLogout", "ResetOnDisconnect",
    "PersistMessages", "UseDataDictionary", "DataDictionary", "FileLogPath", "Logging",
    "DynamicSessions", "TargetCompIDs", "FillPolicy"]

inductive ConfigError where
  | invalid (line : Nat) (message : String)
  | unknownKey (line : Nat) (key : String)
  | duplicateKey (line : Nat) (key place : String)
  | missing (place key : String)
  | unsupported (key value message : String)
  deriving DecidableEq, Repr

/-- One character of a text as it is shown in an error. Beyond Latin-1 all are taken as
printable. -/
def escapeDebug (c : Char) : List Char :=
  if c = '"' ∨ c = '\\' then ['\\', c]
  else if c = '\t' then ['\\', 't']
  else if c = '\n' then ['\\', 'n']
  else if c = '\r' then ['\\', 'r']
  else if c.toNat = 0 then ['\\', '0']
  else if c.toNat < 0x20 ∨ (0x7F ≤ c.toNat ∧ c.toNat ≤ 0xA0) ∨ c.toNat = 0xAD then
    "\\u\x7b".toList ++ Nat.toDigits 16 c.toNat ++ "\x7d".toList
  else [c]

def escaped (s : String) : String := "\"" ++ String.ofList (s.toList.flatMap escapeDebug) ++ "\""

def parseU16 (key value : String) : Except ConfigError Nat :=
  match Numeral.parseUnsigned (2 ^ 16) value with
  | none => .error (.unsupported key value "expected an unsigned 16-bit integer")
  | some parsed =>
    if parsed = 0 then .error (.unsupported key value "port must be between 1 and 65535")
    else .ok parsed

def parseU32 (key value : String) : Except ConfigError Nat :=
  match Numeral.parseUnsigned (2 ^ 32) value with
  | none => .error (.unsupported key value "expected an unsigned 32-bit integer")
  | some parsed =>
    if key = "HeartBtInt" ∧ parsed = 0 then
      .error (.unsupported key value "must be greater than zero")
    else .ok parsed

structure SessionSettings where
  settings : HashMap String String

namespace SessionSettings

variable (settings : SessionSettings)

def get (key : String) : Option String := HashMap.get? settings.settings key

def getOr (key default : String) : String := (settings.get key).getD default

def required (place key : String) : Except ConfigError String :=
  match settings.get key with
  | none => .error (.missing place key)
  | some value => .ok value

def bool (key : String) (default : Bool) : Except ConfigError Bool :=
  match settings.get key with
  | none => .ok default
  | some value =>
    if value = "Y" then .ok true
    else if value = "N" then .ok false
    else .error (.unsupported key value "expected Y or N")

def u16 (key : String) (default : Nat) : Except ConfigError Nat :=
  match settings.get key with
  | none => .ok default
  | some value => parseU16 key value

def requiredU16 (place key : String) : Except ConfigError Nat := do
  let value ← settings.required place key
  parseU16 key value

def u32 (key : String) (default : Nat) : Except ConfigError Nat :=
  match settings.get key with
  | none => .ok default
  | some value => parseU32 key value

end SessionSettings

/-- `defaults` has the values of the defaults only, and `sessions` those written in each
block. -/
structure FixConfig where
  defaults : SessionSettings
  sessions : List SessionSettings

/-- The settings of a session: its own over those of the defaults. -/
def FixConfig.session (config : FixConfig) (index : Nat) : Option SessionSettings :=
  config.sessions[index]?.map
    fun session => ⟨HashMap.extend config.defaults.settings session.settings⟩

def FixConfig.resolvedSessions (config : FixConfig) : List SessionSettings :=
  (List.range config.sessions.length).filterMap config.session

inductive Section where
  | none
  | default
  | session (index : Nat)
  deriving DecidableEq, Repr

def Section.name : Section → String
  | .none => "<none>"
  | .default => "[DEFAULT]"
  | .session _ => "[SESSION]"

/-- The loop over the lines: what has been read, and the section it stands in. -/
structure Loader where
  config : FixConfig
  place : Section

/-- The value written for a key in a section. -/
def FixConfig.written (config : FixConfig) (place : Section) (key : String) : Option String :=
  match place with
  | .none => none
  | .default => config.defaults.get key
  | .session index => config.sessions[index]?.bind fun session => session.get key

def SessionSettings.insert (settings : SessionSettings) (key value : String) : SessionSettings :=
  ⟨HashMap.set settings.settings key value⟩

/-- Everything after the first `sep`, and everything before. -/
def splitFirst (sep : Char) (line : List Char) : Option (List Char × List Char) :=
  match line.dropWhile (fun c => c != sep) with
  | [] => none
  | _ :: rest => some (line.takeWhile (fun c => c != sep), rest)

namespace Loader

variable (loader : Loader)

def new : Loader := ⟨⟨⟨∅⟩, []⟩, .none⟩

def enterDefault : Loader := { loader with place := .default }

def enterSession : Loader where
  config := { loader.config with sessions := loader.config.sessions ++ [⟨∅⟩] }
  place := .session loader.config.sessions.length

def insert (key value : String) : Loader :=
  match loader.place with
  | .none => loader
  | .default =>
    { loader with config.defaults := loader.config.defaults.insert key value }
  | .session index =>
    { loader with
      config.sessions := loader.config.sessions.modify index fun session =>
        session.insert key value }

def loadHeader (number : Nat) (line : List Char) : Except ConfigError Loader :=
  if line.getLast? ≠ some ']' then .error (.invalid number "section header must end with ]")
  else if line = "[DEFAULT]".toList then .ok loader.enterDefault
  else if line = "[SESSION]".toList then .ok loader.enterSession
  else .error (.invalid number
    ("unsupported section " ++ escaped (String.ofList line) ++ "; expected [DEFAULT] or [SESSION]"))

def loadSetting (number : Nat) (line : List Char) : Except ConfigError Loader :=
  match splitFirst '=' line with
  | none => .error (.invalid number "setting must use key=value syntax")
  | some (before, after) =>
    let key := String.ofList (trim before)
    let value := String.ofList (trim after)
    if key = "" then .error (.invalid number "setting key must not be empty")
    else if value = "" then
      .error (.invalid number ("setting " ++ escaped key ++ " must not be empty"))
    else if key ∉ knownKeys then .error (.unknownKey number key)
    else if loader.place = .none then
      .error (.invalid number "setting appears before [DEFAULT] or [SESSION]")
    else if (loader.config.written loader.place key).isSome then
      .error (.duplicateKey number key loader.place.name)
    else .ok (loader.insert key value)

/-- One line of the file, numbered from zero. -/
def loadLine (index : Nat) (raw : List Char) : Except ConfigError Loader :=
  let line := trim raw
  let number := index + 1
  if line.isEmpty || ['/', '/'].isPrefixOf line || ['#'].isPrefixOf line then .ok loader
  else if ['['].isPrefixOf line then loader.loadHeader number line
  else loader.loadSetting number line

def loadLines (loader : Loader) : Nat → List (List Char) → Except ConfigError Loader
  | _, [] => .ok loader
  | index, line :: lines => do
    let loader ← loader.loadLine index line
    loadLines loader (index + 1) lines

end Loader

namespace FixConfig

/-- `load` before the values are validated. -/
def parse (text : String) : Except ConfigError FixConfig := do
  let loader ← Loader.new.loadLines 0 (text.toList.splitOn '\n')
  pure loader.config

end FixConfig

/-- Printable ASCII that is not white space. -/
def validateCompId (key value : String) : Except ConfigError Unit :=
  if value = "" ∨ 64 < value.utf8ByteSize ∨ value.toList.any (fun c => 128 ≤ c.toNat) ∨
      value.toList.any (fun c => c.toNat < 0x20 || c.toNat == 0x7F || whiteSpace c) then
    .error (.unsupported key value
      "CompID must be 1-64 ASCII non-whitespace printable characters")
  else .ok ()

/-- The entries of a list of identifiers. -/
def targetsOf (value : String) : List String :=
  (value.toList.splitOn ',').map fun target => String.ofList (trim target)

namespace SessionSettings

variable (settings : SessionSettings)

/-- A key with a few possible values. -/
def validateChoice (key : String) (choices : List String) (message : String) :
    Except ConfigError Unit :=
  (settings.get key).forM fun value =>
    if value ∈ choices then .ok () else .error (.unsupported key value message)

def validateTargets : Except ConfigError Unit :=
  (settings.get "TargetCompIDs").forM fun value =>
    (targetsOf value).forM fun target =>
      if target = "" then
        .error (.unsupported "TargetCompIDs" value
          "comma-separated IDs must not contain empty entries")
      else validateCompId "TargetCompIDs" target

/-- The values of the defaults, or of a session. -/
def validate : Except ConfigError Unit := do
  settings.validateChoice "ConnectionType" ["acceptor", "initiator"]
    "expected acceptor or initiator"
  settings.validateChoice "BeginString" ["FIX.4.2"] "only the FIX.4.2 profile is implemented"
  ["ResetOnLogout", "ResetOnDisconnect", "PersistMessages", "UseDataDictionary", "Logging",
    "DynamicSessions"].forM fun key => do let _ ← settings.bool key false
  let _ ← settings.u32 "HeartBtInt" 1
  ["SocketAcceptPort", "SocketConnectPort"].forM fun key => do let _ ← settings.u16 key 1
  ["SenderCompID", "TargetCompID"].forM fun key => (settings.get key).forM (validateCompId key)
  settings.validateTargets

/-- The begin string and both identifiers, once a session has all of them. -/
def identity : Option String := do
  let begin_ ← settings.get "BeginString"
  let sender ← settings.get "SenderCompID"
  let target ← settings.get "TargetCompID"
  pure (begin_ ++ "|" ++ sender ++ "|" ++ target)

end SessionSettings

namespace FixConfig

variable (config : FixConfig)

/-- The policy is that of the process: it stands in the defaults only. -/
def validateFillPolicy : Except ConfigError Unit := do
  config.defaults.validateChoice "FillPolicy" ["Real", "Tiered"]
    "expected Real or Tiered in [DEFAULT]"
  config.sessions.forM fun session =>
    session.validateChoice "FillPolicy" [] "FillPolicy may only appear in [DEFAULT]"

def validateIdentities : Nat → List String → List SessionSettings → Except ConfigError Unit
  | _, _, [] => .ok ()
  | index, identities, settings :: rest => do
    let place := "[SESSION] #" ++ index.repr
    let _ ← settings.required place "ConnectionType"
    let _ ← settings.required place "BeginString"
    match settings.identity with
    | none => validateIdentities (index + 1) identities rest
    | some identity =>
      if identity ∈ identities then
        throw (.invalid 0 ("duplicate QuickFIX session identity in " ++ place))
      else validateIdentities (index + 1) (identity :: identities) rest

def validateValues : Except ConfigError Unit := do
  (config.defaults :: config.resolvedSessions).forM SessionSettings.validate
  config.validateFillPolicy
  validateIdentities 0 [] config.resolvedSessions

def load (text : String) : Except ConfigError FixConfig := do
  let config ← parse text
  config.validateValues
  pure config

end FixConfig

end RustTrader.Fix

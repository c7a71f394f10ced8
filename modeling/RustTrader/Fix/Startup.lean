import RustTrader.Fix.Requests
import RustTrader.Fix.Sequence
import RustTrader.Fix.SettingsFile

/-!
# Start-up of the exchange

The settings of the acceptor are resolved from the accepted file, as `--check`
does, and are validated once more before the listener is bound. The two ends agree
on every identifier but those with an equals sign.
-/

namespace RustTrader.Fix

structure LogConfig where
  enabled : Bool
  dir : String

def LogConfig.fromSettings (settings : SessionSettings) (defaultDir : String) :
    Except ConfigError LogConfig := do
  let dir := settings.getOr "FileLogPath" defaultDir
  if (trim dir.toList).isEmpty then
    throw (.unsupported "FileLogPath" dir "log path must not be empty")
  let enabled ← settings.bool "Logging" true
  pure ⟨enabled, dir⟩

/-- Which clients may log on. -/
inductive Admission where
  | dynamic
  | declared (targets : List String)
  deriving DecidableEq

def clientAdmitted (admission : Admission) (client : String) : Bool :=
  match admission with
  | .dynamic => true
  | .declared targets => targets.any (fun target => target == client)

structure AcceptorConfig where
  port : Nat
  senderCompId : String
  beginString : String
  log : LogConfig
  admission : Admission
  sessionLogs : HashMap String LogConfig

def validComponentId (value : String) : Bool :=
  value != "" && value.utf8ByteSize ≤ 64 && value.toList.all (fun c => c.toNat < 128) &&
    value.toList.all (fun c => graphic c && c != '=')

def validateAcceptorConfig (acceptor : AcceptorConfig) : Except String Unit :=
  if acceptor.beginString ≠ "FIX.4.2" then .error "only FIX.4.2 is supported"
  else if acceptor.port = 0 then .error "acceptor port must be nonzero"
  else if !validComponentId acceptor.senderCompId then .error "invalid acceptor SenderCompID"
  else match acceptor.admission with
    | .dynamic => .ok ()
    | .declared targets =>
      if targets.isEmpty || targets.any (fun target => !validComponentId target) then
        .error "invalid declared TargetCompID"
      else .ok ()

/-- The sender, the heartbeat interval and the number of a first message. -/
def validateLogon [Chrono] (message : FixMessage) (acceptor : AcceptorConfig) :
    Except String (String × Nat × Nat) := do
  if message.beginString ≠ acceptor.beginString then
    throw ("unsupported BeginString " ++ message.beginString)
  if message.msgType ≠ some "A" then throw "first message was not a Logon"
  let sender ← message.validateUniqueHeaderTag 49
  let target ← message.validateUniqueHeaderTag 56
  if target ≠ acceptor.senderCompId then throw ("logon for unknown target " ++ target)
  let _ ← message.validateUniqueHeaderTag 34
  let _ ← message.validateUniqueHeaderTag 52
  validateTimestampFields message
  if (← message.parseRequiredText 98) ≠ "0" then throw "only EncryptMethod=0 is supported"
  let heart ← message.parseRequiredU64 108
  if 2 ^ 32 ≤ heart then throw "HeartBtInt is too large"
  let seq ← message.parseRequiredSeq
  pure (sender, heart, seq)

/-- A connection is accepted by its first message, up to the reservation of the session. -/
def acceptLogon (D : Type) [Decimal D] [DecimalText D] [Chrono] (message : FixMessage)
    (acceptor : AcceptorConfig) : Exec (Except String (String × Nat × Nat)) :=
  match validateLogon message acceptor with
  | .error reason => pure (.error reason)
  | .ok (client, heart, seq) => do
    match ← (decode message : Exec (Except String (Inbound D))) with
    | .error reason => pure (.error reason)
    | .ok _ =>
      if !clientAdmitted acceptor.admission client then pure (.error "session not declared")
      else if message.get 141 = some "Y" ∧ seq ≠ 1 then
        pure (.error "reset Logon must have sequence 1")
      else pure (.ok (client, heart, seq))

/-- What start-up finds around the settings: the file of instruments, and the log directories. -/
structure Installation where
  instrumentsPath : String
  instruments : String
  resolve : String → String
  preflight : String → String → String → String → Except String Unit

inductive Refusal where
  | config (err : ConfigError)
  | message (reason : String)

/-- An error of the settings ends the process. -/
def dieConfig {α : Type} : Except ConfigError α → Except Refusal α
  | .ok a => .ok a
  | .error err => .error (.config err)

def requiredText (settings : SessionSettings) (key place : String) : Except Refusal String :=
  match (settings.get key).filter (fun value => value != "") with
  | none => .error (.config (.missing place key))
  | some value => .ok value

namespace FixConfig

def acceptors (config : FixConfig) : List SessionSettings :=
  config.resolvedSessions.filter fun settings => settings.get "ConnectionType" == some "acceptor"

def validateSupportedRuntime (settings : SessionSettings) : Except ConfigError Unit := do
  if ← settings.bool "PersistMessages" true then
    throw (.unsupported "PersistMessages" "Y"
      "message persistence is not implemented; use PersistMessages=N")
  if !(← settings.bool "ResetOnDisconnect" false) then
    throw (.unsupported "ResetOnDisconnect" "N"
      "non-resetting disconnect recovery is not implemented; use ResetOnDisconnect=Y")
  if !(← settings.bool "ResetOnLogout" false) then
    throw (.unsupported "ResetOnLogout" "N"
      "non-resetting logout recovery is not implemented; use ResetOnLogout=Y")
  if !(← settings.bool "UseDataDictionary" true) then
    throw (.unsupported "UseDataDictionary" "N"
      "the built-in FIX.4.2 dictionary is required; use UseDataDictionary=Y")
  settings.validateChoice "DataDictionary" ["FIX42.xml", "builtin"]
    "only the built-in FIX.4.2 profile is supported"

/-- Repeated neighbours are removed. -/
def dedup : List String → List String
  | first :: second :: rest =>
    if first = second then dedup (second :: rest) else first :: dedup (second :: rest)
  | targets => targets

/-- What the first acceptor session fixes for all of them. -/
structure Listener where
  beginString : String
  senderCompId : String
  port : Nat
  dynamic : Bool

/-- The clients declared so far, and their logs. -/
structure Declared where
  targets : List String
  logs : HashMap String LogConfig

def acceptorPlace : String := "acceptor [SESSION]"

/-- The log of a session, in its resolved directory. -/
def sessionLog (site : Installation) (settings : SessionSettings) : Except Refusal LogConfig := do
  let log ← dieConfig (LogConfig.fromSettings settings "logs/exchange")
  pure { log with dir := site.resolve log.dir }

/-- Both daily files of a session are opened before any service is exposed. -/
def preflightLog (site : Installation) (listener : Listener) (log : LogConfig)
    (settings : SessionSettings) : Except Refusal Unit :=
  if log.enabled then
    match site.preflight log.dir listener.beginString listener.senderCompId
        ((settings.get "TargetCompID").getD "preflight") with
    | .error err =>
      .error (.message ("FIX log directory " ++ log.dir ++ " is not writable: " ++ err))
    | .ok _ => .ok ()
  else .ok ()

/-- A session is served by the listener of the first one. -/
def checkListener (listener : Listener) (settings : SessionSettings) : Except Refusal Unit := do
  let beginString ← requiredText settings "BeginString" acceptorPlace
  if beginString ≠ listener.beginString then
    throw (.message "all acceptor SESSION rows must use the same BeginString and SenderCompID")
  let senderCompId ← requiredText settings "SenderCompID" acceptorPlace
  if senderCompId ≠ listener.senderCompId then
    throw (.message "all acceptor SESSION rows must use the same BeginString and SenderCompID")
  let port ← dieConfig (settings.requiredU16 acceptorPlace "SocketAcceptPort")
  if port ≠ listener.port then
    throw (.message "all acceptor SESSION rows must use the same SocketAcceptPort")

def declareTarget (listener : Listener) (declared : Declared) (log : LogConfig)
    (settings : SessionSettings) : Except Refusal Declared :=
  match settings.get "TargetCompID" with
  | some target =>
    .ok { targets := declared.targets ++ [target], logs := HashMap.set declared.logs target log }
  | none =>
    if listener.dynamic then .ok declared
    else .error (.config (.missing acceptorPlace "TargetCompID"))

def declareTargets (declared : Declared) (settings : SessionSettings) : Declared :=
  match settings.get "TargetCompIDs" with
  | some value => { declared with
    targets := declared.targets ++ (targetsOf value).filter (fun target => target != "") }
  | none => declared

/-- One acceptor session is checked against the first, and its clients are collected. -/
def declare (site : Installation) (listener : Listener) (declared : Declared)
    (settings : SessionSettings) : Except Refusal Declared := do
  dieConfig (validateSupportedRuntime settings)
  checkListener listener settings
  let log ← sessionLog site settings
  preflightLog site listener log settings
  let declared ← declareTarget listener declared log settings
  pure (declareTargets declared settings)

/-- The policy of the engine, from the first session. -/
def fillPolicy (settings : SessionSettings) : Except Refusal FillPolicy :=
  match settings.get "FillPolicy" with
  | none => .ok .real
  | some value =>
    if value = "Tiered" then .ok .tiered
    else if value = "Real" then .ok .real
    else .error (.message ("FillPolicy must be Real or Tiered, got " ++ escaped value))

def loadInstruments (site : Installation) : Except Refusal InstrumentMap :=
  match InstrumentMap.loadFromReader site.instruments with
  | .ok instruments => .ok instruments
  | .error err =>
    .error (.message ("unable to load instruments " ++ site.instrumentsPath ++ ": " ++ err))

def admissionOf (dynamic : Bool) (targets : List String) : Except Refusal Admission :=
  if dynamic then .ok .dynamic
  else if targets.isEmpty then
    .error (.message "acceptor requires at least one TargetCompID when DynamicSessions=N")
  else .ok (.declared targets)

/-- What `main` resolves before it reports that the configuration is fine. -/
def resolveAcceptor (config : FixConfig) (site : Installation) :
    Except Refusal (AcceptorConfig × FillPolicy × InstrumentMap) :=
  match config.acceptors with
  | [] => .error (.config (.missing "[SESSION]" "acceptor session"))
  | first :: rest => do
    let beginString ← requiredText first "BeginString" acceptorPlace
    let senderCompId ← requiredText first "SenderCompID" acceptorPlace
    let port ← dieConfig (first.requiredU16 acceptorPlace "SocketAcceptPort")
    dieConfig (validateSupportedRuntime first)
    let policy ← fillPolicy first
    let instruments ← loadInstruments site
    let log ← sessionLog site first
    let dynamic ← dieConfig (first.bool "DynamicSessions" false)
    let declared ← (first :: rest).foldlM
      (declare site ⟨beginString, senderCompId, port, dynamic⟩) ⟨[], ∅⟩
    let targets := dedup (declared.targets.insertionSort (· ≤ ·))
    let admission ← admissionOf dynamic targets
    pure (⟨port, senderCompId, beginString, log, admission, declared.logs⟩, policy, instruments)

end FixConfig

/-- What an identifier is for both ends. -/
structure CompId (value : String) : Prop where
  some_ : value ≠ ""
  short : value.utf8ByteSize ≤ 64
  graphic : ∀ c ∈ value.toList, graphic c

theorem graphic_iff (c : Char) : graphic c = true ↔
    ¬ 128 ≤ c.toNat ∧ ¬ (c.toNat < 0x20 || c.toNat == 0x7F || whiteSpace c) = true := by
  unfold graphic whiteSpace
  simp only [Bool.or_eq_true, Bool.and_eq_true, decide_eq_true_eq, beq_iff_eq]
  omega

theorem validateCompId_ok {key value : String} : validateCompId key value = .ok () ↔
    CompId value := by
  have each : (∀ c ∈ value.toList, graphic c = true) ↔
      ¬ value.toList.any (fun c => 128 ≤ c.toNat) = true ∧
      ¬ value.toList.any (fun c => c.toNat < 0x20 || c.toNat == 0x7F || whiteSpace c) = true := by
    simp only [List.any_eq_true, decide_eq_true_eq, not_exists, not_and, graphic_iff]
    exact ⟨fun h => ⟨fun c mem => (h c mem).1, fun c mem => (h c mem).2⟩,
      fun h c mem => ⟨h.1 c mem, h.2 c mem⟩⟩
  unfold validateCompId
  constructor
  · intro h
    split at h
    · cases h
    · rename_i fine
      simp only [not_or] at fine
      exact ⟨fine.1, not_lt.mp fine.2.1, each.mpr fine.2.2⟩
  · rintro ⟨some_, short, all⟩
    rw [if_neg]
    simp only [not_or]
    exact ⟨some_, not_lt.mpr short, each.mp all⟩

/-- The session layer refuses the equals sign besides. -/
theorem validComponentId_iff {value : String} :
    validComponentId value = true ↔ CompId value ∧ '=' ∉ value.toList := by
  unfold validComponentId
  simp only [Bool.and_eq_true, bne_iff_ne, ne_eq, decide_eq_true_eq, List.all_eq_true]
  constructor
  · rintro ⟨⟨⟨some_, short⟩, -⟩, all⟩
    exact ⟨⟨some_, short, fun c mem => (all c mem).1⟩, fun mem => (all '=' mem).2 rfl⟩
  · rintro ⟨⟨some_, short, all⟩, absent⟩
    refine ⟨⟨⟨some_, short⟩, ?_⟩, ?_⟩
    · intro c mem
      exact not_le.mp ((graphic_iff c).mp (all c mem)).1
    · intro c mem
      refine ⟨all c mem, ?_⟩
      rintro rfl
      exact absent mem

/-- An identifier may be put into a field. -/
theorem CompId.value {id : String} (h : CompId id) : Value id := by
  refine ⟨h.some_, ?_⟩
  intro c mem
  have range := h.graphic c mem
  simp only [RustTrader.graphic, Bool.and_eq_true, decide_eq_true_eq] at range
  exact ⟨by omega, range.2⟩

namespace SessionSettings

/-- The clients a session declares. -/
def targets (settings : SessionSettings) : List String :=
  (settings.get "TargetCompID").toList ++ (settings.get "TargetCompIDs").toList.flatMap targetsOf

def componentIds (settings : SessionSettings) : List String :=
  (settings.get "SenderCompID").toList ++ settings.targets

/-- The values that matter to the acceptor, once they are validated. -/
structure Valid (settings : SessionSettings) : Prop where
  version : ∀ value, settings.get "BeginString" = some value → value = "FIX.4.2"
  ids : ∀ id ∈ settings.componentIds, CompId id

theorem valid_of_validate {settings : SessionSettings} (h : settings.validate = .ok ()) :
    settings.Valid := by
  unfold validate at h
  obtain ⟨⟨⟩, -, h⟩ := bind_eq_ok.mp h
  obtain ⟨⟨⟩, version, h⟩ := bind_eq_ok.mp h
  obtain ⟨⟨⟩, -, h⟩ := bind_eq_ok.mp h
  obtain ⟨_, -, h⟩ := bind_eq_ok.mp h
  obtain ⟨⟨⟩, -, h⟩ := bind_eq_ok.mp h
  obtain ⟨⟨⟩, singles, lists⟩ := bind_eq_ok.mp h
  have single : ∀ key ∈ ["SenderCompID", "TargetCompID"], ∀ value,
      settings.get key = some value → CompId value := by
    intro key mem value here
    exact validateCompId_ok.mp (forM_option_eq_ok.mp
      (forM_list_eq_ok.mp singles key mem) value here)
  have listed : ∀ value, settings.get "TargetCompIDs" = some value →
      ∀ target ∈ targetsOf value, CompId target := by
    intro value here target mem
    have checked := forM_list_eq_ok.mp (forM_option_eq_ok.mp lists value here) target mem
    split at checked
    · cases checked
    · exact validateCompId_ok.mp checked
  refine ⟨fun value here => by simpa using FixConfig.validateChoice_ok.mp version value here, ?_⟩
  intro id mem
  simp only [componentIds, targets, List.mem_append, Option.mem_toList, List.mem_flatMap] at mem
  rcases mem with sender | target | ⟨value, here, mem⟩
  · exact single "SenderCompID" (by simp) id sender
  · exact single "TargetCompID" (by simp) id target
  · exact listed value here id mem

end SessionSettings

namespace FixConfig

/-- The identifiers written in a file. -/
def componentIds (config : FixConfig) : List String :=
  (config.defaults :: config.sessions).flatMap SessionSettings.componentIds

/-- A resolved value is written in the session or in the defaults. -/
theorem resolved_written {config : FixConfig} {settings : SessionSettings}
    (mem : settings ∈ config.resolvedSessions) {key value : String}
    (h : settings.get key = some value) :
    ∃ raw ∈ config.defaults :: config.sessions, raw.get key = some value := by
  obtain ⟨index, here⟩ := List.mem_iff_getElem?.mp mem
  rw [resolvedSessions_get] at here
  rw [get_session here] at h
  obtain ⟨session, found, -⟩ := Option.map_eq_some_iff.mp here
  cases own : config.written (.session index) key with
  | some value' =>
    rw [own, Option.some_or] at h
    obtain rfl := Option.some.inj h
    refine ⟨session, List.mem_cons_of_mem _ (List.mem_of_getElem? found), ?_⟩
    simpa [written, found] using own
  | none =>
    rw [own, Option.none_or] at h
    exact ⟨config.defaults, List.mem_cons_self, h⟩

/-- A written value is seen by some section. -/
theorem written_resolved {config : FixConfig} {raw : SessionSettings}
    (mem : raw ∈ config.defaults :: config.sessions) : ∃ settings ∈
      config.defaults :: config.resolvedSessions, ∀ key value, raw.get key = some value →
        settings.get key = some value := by
  rcases List.mem_cons.mp mem with rfl | session
  · exact ⟨config.defaults, List.mem_cons_self, fun _ _ h => h⟩
  · obtain ⟨index, found⟩ := List.mem_iff_getElem?.mp session
    have here : config.session index = some
        ⟨HashMap.extend config.defaults.settings raw.settings⟩ := by
      unfold FixConfig.session
      rw [found]
      rfl
    refine ⟨_, List.mem_cons_of_mem _ (List.mem_of_getElem?
      ((resolvedSessions_get config index).trans
      here)), ?_⟩
    intro key value h
    rw [get_session here]
    simp [written, found, h]

theorem mem_componentIds {settings : SessionSettings} {id : String} :
    id ∈ settings.componentIds ↔ settings.get "SenderCompID" = some id ∨
      settings.get "TargetCompID" = some id ∨
      ∃ value, settings.get "TargetCompIDs" = some value ∧ id ∈ targetsOf value := by
  simp [SessionSettings.componentIds, SessionSettings.targets]

/-- Sections that see what others wrote see their identifiers. -/
theorem componentIds_sub {settings raw : SessionSettings}
    (sees : ∀ key value, raw.get key = some value → settings.get key = some value) {id : String}
    (mem : id ∈ raw.componentIds) : id ∈ settings.componentIds := by
  rw [mem_componentIds] at mem ⊢
  rcases mem with sender | target | ⟨value, here, mem⟩
  · exact .inl (sees _ _ sender)
  · exact .inr (.inl (sees _ _ target))
  · exact .inr (.inr ⟨value, sees _ _ here, mem⟩)

theorem resolved_componentIds {config : FixConfig} {settings : SessionSettings}
    (mem : settings ∈ config.resolvedSessions) {id : String} (h : id ∈ settings.componentIds) :
    id ∈ config.componentIds := by
  have from_ : ∀ {key value : String}, settings.get key = some value →
      (∀ raw : SessionSettings, raw.get key = some value → id ∈ raw.componentIds) →
      id ∈ config.componentIds := by
    intro key value here gives
    obtain ⟨raw, written_, same⟩ := resolved_written mem here
    exact List.mem_flatMap.mpr ⟨raw, written_, gives raw same⟩
  rcases mem_componentIds.mp h with sender | target | ⟨value, here, inside⟩
  · exact from_ sender fun raw same => mem_componentIds.mpr (.inl same)
  · exact from_ target fun raw same => mem_componentIds.mpr (.inr (.inl same))
  · exact from_ here fun raw same => mem_componentIds.mpr (.inr (.inr ⟨value, same, inside⟩))

variable {text : String} {config : FixConfig}

theorem loaded_valid (h : load text = .ok config) :
    ∀ settings ∈ config.defaults :: config.resolvedSessions, settings.Valid :=
  fun settings mem =>
    SessionSettings.valid_of_validate ((validateValues_ok.mp (load_ok.mp h).2).1 settings mem)

/-- Every identifier of an accepted file is one for the parser. -/
theorem loaded_ids (h : load text = .ok config) : ∀ id ∈ config.componentIds, CompId id := by
  intro id mem
  obtain ⟨raw, written_, here⟩ := List.mem_flatMap.mp mem
  obtain ⟨settings, resolved, sees⟩ := written_resolved written_
  exact (loaded_valid h settings resolved).ids id (componentIds_sub sees here)

end FixConfig

theorem requiredText_ok {settings : SessionSettings} {key place value : String}
    (h : requiredText settings key place = .ok value) : settings.get key = some value := by
  unfold requiredText at h
  split at h
  · cases h
  · rename_i found
    obtain rfl := Except.ok.inj h
    exact (Option.filter_eq_some_iff.mp found).1

theorem dieConfig_ok {α : Type} {x : Except ConfigError α} {a : α} (h : dieConfig x = .ok a) :
    x = .ok a := by
  unfold dieConfig at h
  split at h
  · rw [Except.ok.inj h]
  · cases h

theorem parseU16_pos {key value : String} {port : Nat} (h : parseU16 key value = .ok port) :
    port ≠ 0 := by
  unfold parseU16 at h
  split at h
  · cases h
  · split at h
    · cases h
    · rename_i positive
      rw [← Except.ok.inj h]
      exact positive

theorem mem_dedup {target : String} (targets : List String) :
    target ∈ FixConfig.dedup targets ↔ target ∈ targets := by
  induction targets with
  | nil => rfl
  | cons first rest ih =>
    cases rest with
    | nil => rfl
    | cons second rest =>
      unfold FixConfig.dedup
      split
      · rename_i same
        rw [ih, same]
        simp
      · rw [List.mem_cons, ih]
        exact List.mem_cons.symm

namespace FixConfig

/-- The clients collected from a session. -/
def collected (settings : SessionSettings) : List String :=
  (settings.get "TargetCompID").toList ++ (settings.get "TargetCompIDs").toList.flatMap
    fun value => (targetsOf value).filter (fun target => target != "")

theorem checkListener_ok {listener : Listener} {settings : SessionSettings}
    (h : checkListener listener settings = .ok ()) :
    settings.get "BeginString" = some listener.beginString ∧
      settings.get "SenderCompID" = some listener.senderCompId := by
  unfold checkListener at h
  obtain ⟨begin_, begins, h⟩ := bind_eq_ok.mp h
  obtain ⟨version, h⟩ := guard_eq_ok.mp h
  obtain ⟨sender, sends, h⟩ := bind_eq_ok.mp h
  obtain ⟨name, -⟩ := guard_eq_ok.mp h
  rw [← not_not.mp version, ← not_not.mp name]
  exact ⟨requiredText_ok begins, requiredText_ok sends⟩

theorem declare_ok {site : Installation} {listener : Listener} {declared declared' : Declared}
    {settings : SessionSettings} (h : declare site listener declared settings = .ok declared') :
    settings.get "BeginString" = some listener.beginString ∧
    settings.get "SenderCompID" = some listener.senderCompId ∧
    declared'.targets = declared.targets ++ collected settings := by
  unfold declare at h
  obtain ⟨_, -, h⟩ := bind_eq_ok.mp h
  obtain ⟨⟨⟩, same, h⟩ := bind_eq_ok.mp h
  obtain ⟨log, -, h⟩ := bind_eq_ok.mp h
  obtain ⟨_, -, h⟩ := bind_eq_ok.mp h
  obtain ⟨first, single, h⟩ := bind_eq_ok.mp h
  cases h
  obtain ⟨begins, sends⟩ := checkListener_ok same
  refine ⟨begins, sends, ?_⟩
  have one : first.targets = declared.targets ++ (settings.get "TargetCompID").toList := by
    unfold declareTarget at single
    split at single
    · rename_i target here
      cases single
      rw [here, Option.toList_some]
    · rename_i absent
      split at single
      · cases single
        rw [absent, Option.toList_none, List.append_nil]
      · cases single
  unfold declareTargets collected
  split
  · rename_i value here
    rw [here, Option.toList_some, List.flatMap_singleton, one, List.append_assoc]
  · rename_i absent
    rw [absent, Option.toList_none, List.flatMap_nil, List.append_nil, one]

theorem declared_ok {site : Installation} {listener : Listener} (sessions : List SessionSettings) :
    ∀ {declared declared' : Declared},
      sessions.foldlM (declare site listener) declared = .ok declared' →
      (∀ settings ∈ sessions, settings.get "BeginString" = some listener.beginString ∧
        settings.get "SenderCompID" = some listener.senderCompId) ∧
      declared'.targets = declared.targets ++ sessions.flatMap collected := by
  induction sessions with
  | nil =>
    intro declared declared' h
    cases h
    simp
  | cons settings rest ih =>
    intro declared declared' h
    obtain ⟨next, here, later⟩ := foldlM_cons_ok.mp h
    obtain ⟨begins, sends, first⟩ := declare_ok here
    obtain ⟨named, all⟩ := ih later
    rw [List.forall_mem_cons, List.flatMap_cons, ← List.append_assoc, ← first]
    exact ⟨⟨⟨begins, sends⟩, named⟩, all⟩

/-- Any client is admitted. -/
def Dynamic (config : FixConfig) : Prop :=
  ∃ first ∈ config.acceptors.head?, first.get "DynamicSessions" = some "Y"

/-- What is known of a resolved acceptor. -/
structure Resolved (config : FixConfig) (acceptor : AcceptorConfig) : Prop where
  some_ : ∃ first, first ∈ config.acceptors
  named : ∀ settings ∈ config.acceptors,
    settings.get "BeginString" = some acceptor.beginString ∧
      settings.get "SenderCompID" = some acceptor.senderCompId
  port : acceptor.port ≠ 0
  open_ : config.Dynamic → acceptor.admission = .dynamic
  closed : ¬ config.Dynamic → ∃ targets, acceptor.admission = .declared targets ∧
    targets ≠ [] ∧ ∀ target, target ∈ targets ↔ ∃ settings ∈ config.acceptors,
      target ∈ collected settings

theorem bool_true {settings : SessionSettings} {key : String} {flag : Bool}
    (h : settings.bool key false = .ok flag) : flag = true ↔ settings.get key = some "Y" := by
  unfold SessionSettings.bool at h
  split at h
  · rename_i absent
    cases h
    simp [absent]
  · rename_i value here
    rw [here]
    split at h
    · rename_i yes
      cases h
      simp [yes]
    · split at h
      · rename_i no
        cases h
        simp [no]
      · cases h

theorem resolveAcceptor_ok {config : FixConfig} {site : Installation} {acceptor : AcceptorConfig}
    {policy : FillPolicy} {instruments : InstrumentMap}
    (h : config.resolveAcceptor site = .ok (acceptor, policy, instruments)) :
    config.Resolved acceptor := by
  unfold resolveAcceptor at h
  split at h
  · cases h
  rename_i first rest sessions
  obtain ⟨begin_, -, h⟩ := bind_eq_ok.mp h
  obtain ⟨sender, -, h⟩ := bind_eq_ok.mp h
  obtain ⟨port, ported, h⟩ := bind_eq_ok.mp h
  obtain ⟨_, -, h⟩ := bind_eq_ok.mp h
  obtain ⟨_, -, h⟩ := bind_eq_ok.mp h
  obtain ⟨_, -, h⟩ := bind_eq_ok.mp h
  obtain ⟨log, -, h⟩ := bind_eq_ok.mp h
  obtain ⟨dynamic, flagged, h⟩ := bind_eq_ok.mp h
  obtain ⟨declared, loop, h⟩ := bind_eq_ok.mp h
  obtain ⟨admission, admits, h⟩ := bind_eq_ok.mp h
  cases h
  obtain ⟨named, collected_⟩ := declared_ok _ loop
  have switch : config.Dynamic ↔ dynamic = true := by
    rw [bool_true (dieConfig_ok flagged)]
    simp [Dynamic, sessions]
  obtain ⟨_, -, parsed⟩ := bind_eq_ok.mp (dieConfig_ok ported)
  refine ⟨⟨first, by simp [sessions]⟩, by rw [sessions]; exact named, parseU16_pos parsed, ?_, ?_⟩
  · intro dynamic_
    unfold admissionOf at admits
    rw [if_pos (switch.mp dynamic_)] at admits
    exact (Except.ok.inj admits).symm
  · intro closed
    unfold admissionOf at admits
    rw [if_neg (fun flag => closed (switch.mpr flag))] at admits
    split at admits
    · cases admits
    · rename_i some_
      rw [List.isEmpty_iff] at some_
      refine ⟨_, (Except.ok.inj admits).symm, some_, ?_⟩
      intro target
      rw [mem_dedup, List.mem_insertionSort, collected_, List.nil_append, List.mem_flatMap,
        sessions]

end FixConfig

section

variable {client target now : String} {heart : Nat}

/-- The first message of a client. -/
def logonOf (client target now : String) (heart : Nat) : FixMessage :=
  ⟨"FIX.4.2", headerFields "A" 1 client target now ++ buildLogon heart,
    frameText "FIX.4.2" "A" 1 client target now (buildLogon heart)⟩

theorem parseRequiredU64_repr {message : FixMessage} {tag n : Nat}
    (here : message.get tag = some n.repr) (positive : 0 < n) (small : n < 2 ^ 64) :
    message.parseRequiredU64 tag = .ok n := by
  unfold FixMessage.parseRequiredU64
  rw [here]
  dsimp only
  rw [Numeral.parseUnsigned_repr_eq, if_pos small]
  exact if_neg (Nat.pos_iff_ne_zero.mp positive)

theorem uniqueHeaderTag_logon {tag : Nat} {value : String} (some_ : value ≠ "")
    (only : (logonOf client target now heart).fields.filter (fun field => field.1 == tag) =
      [(tag, value)]) :
    (logonOf client target now heart).validateUniqueHeaderTag tag = .ok value := by
  unfold FixMessage.validateUniqueHeaderTag
  rw [only]
  exact if_neg some_

variable [Chrono]

theorem timestamps_logon (time : SendingTime now) :
    validateTimestampFields (logonOf client target now heart) = .ok () := by
  obtain ⟨t, parsed⟩ := time.parsed
  have sent : (logonOf client target now heart).parseRequiredText 52 = .ok now :=
    if_neg time.value.nonempty
  have stamp : parseFixTimestamp now 52 = .ok t := by
    unfold parseFixTimestamp
    simp [time.length, parsed]
  have first : (logonOf client target now heart).get 43 = none := rfl
  unfold validateTimestampFields
  simp only [sent, stamp, first, bind, Except.bind]
  rfl

theorem logon_validated {acceptor : AcceptorConfig} (version : acceptor.beginString = "FIX.4.2")
    (hclient : client ≠ "") (hsender : acceptor.senderCompId ≠ "") (time : SendingTime now)
    (positive : 0 < heart) (small : heart < 2 ^ 32) :
    validateLogon (logonOf client acceptor.senderCompId now heart) acceptor =
      .ok (client, heart, 1) := by
  have begins : (logonOf client acceptor.senderCompId now heart).beginString = "FIX.4.2" := rfl
  have kind : (logonOf client acceptor.senderCompId now heart).msgType = some "A" := rfl
  have secret : (logonOf client acceptor.senderCompId now heart).parseRequiredText 98 = .ok "0" :=
    rfl
  have first : (logonOf client acceptor.senderCompId now heart).parseRequiredSeq = .ok 1 :=
    parseRequiredU64_repr rfl (by decide) (by decide)
  have interval : (logonOf client acceptor.senderCompId now heart).parseRequiredU64 108 =
      .ok heart := parseRequiredU64_repr rfl positive (small.trans (by decide))
  have numbered : (logonOf client acceptor.senderCompId now heart).validateUniqueHeaderTag 34 =
      .ok (Nat.repr 1) := uniqueHeaderTag_logon (by decide) rfl
  have from_ : (logonOf client acceptor.senderCompId now heart).validateUniqueHeaderTag 49 =
      .ok client := uniqueHeaderTag_logon hclient rfl
  have towards : (logonOf client acceptor.senderCompId now heart).validateUniqueHeaderTag 56 =
      .ok acceptor.senderCompId := uniqueHeaderTag_logon hsender rfl
  have sent : (logonOf client acceptor.senderCompId now heart).validateUniqueHeaderTag 52 =
      .ok now := uniqueHeaderTag_logon time.value.nonempty rfl
  unfold validateLogon
  simp only [version, begins, kind, secret, first, interval, numbered, from_, towards, sent,
    timestamps_logon time, bind, Except.bind, ne_eq, not_true_eq_false, if_false, not_le.mpr small]
  rfl

variable {D : Type} [Decimal D] [DecimalText D] [LawfulText D]

/-- The Logon of an admitted client is accepted. -/
theorem logon_accepted {acceptor : AcceptorConfig} (version : acceptor.beginString = "FIX.4.2")
    (hclient : Value client) (hsender : Value acceptor.senderCompId) (time : SendingTime now)
    (positive : 0 < heart) (small : heart < 2 ^ 32)
    (admitted : clientAdmitted acceptor.admission client = true) :
    acceptLogon D (logonOf client acceptor.senderCompId now heart) acceptor =
      .ok (.ok (client, heart, 1)) := by
  have decoded : (decode (logonOf client acceptor.senderCompId now heart) :
      Exec (Except String (Inbound D))) = .ok (.ok (.logon heart)) := by
    have kind : decode (Request.message ⟨now, 0, 0⟩ 1 client acceptor.senderCompId now
        (frameText "FIX.4.2" "A" 1 client acceptor.senderCompId now (buildLogon heart))
        (.logon heart : Request D)) = .ok (decodeRequest _ "A") :=
      Request.decode_message small time hclient hsender time.value
    have fields : Request.Holds (logonOf client acceptor.senderCompId now heart)
        ((.logon heart : Request D).fields ⟨now, 0, 0⟩) := fun tag other => get_built other
    exact kind.trans (congrArg Except.ok ((Request.decodeRequest_cases
      (r := .logon heart) small fields).1 positive))
  have first : (logonOf client acceptor.senderCompId now heart).get 141 = none := rfl
  unfold acceptLogon
  rw [logon_validated version hclient.nonempty hsender.nonempty time positive small]
  simp only [decoded, bind, Except.bind, admitted, first, Bool.not_true, Bool.false_eq_true,
    if_false]
  rfl

end

theorem wireBytes_length (s : String) : (wireBytes s).length = s.utf8ByteSize := by
  rw [wireBytes, ← String.size_toByteArray]
  conv_rhs => rw [← String.ofList_toList (s := s)]
  rw [String.toByteArray_ofList, List.utf8Encode]
  simp

theorem repr_wire {n k : Nat} (positive : 0 < k) (small : n < 10 ^ k) :
    (wireBytes n.repr).length ≤ k := by
  rw [wireBytes_printable (digits_printable n), List.length_map, String.length_toList]
  exact (Nat.length_repr_le_iff positive).mpr small

/-- A first message is far from the limit of the reader. -/
theorem logon_fits (m : Outgoing) {heart : Nat} (kind : m.msgType = "A") (first : m.seq = 1)
    (client : m.sender.utf8ByteSize ≤ 64) (target : m.target.utf8ByteSize ≤ 64)
    (time : m.now.utf8ByteSize = 21) (fields : m.fields = buildLogon heart)
    (small : heart < 2 ^ 32) : m.bytes.length ≤ maxMessageSize := by
  have interval := repr_wire (n := heart) (k := 10) (by decide) (small.trans (by decide))
  have text : m.bodyBytes.length ≤ 300 := by
    have tags : (wireBytes (Nat.repr 35)).length = 2 ∧ (wireBytes (Nat.repr 34)).length = 2 ∧
        (wireBytes (Nat.repr 49)).length = 2 ∧ (wireBytes (Nat.repr 56)).length = 2 ∧
        (wireBytes (Nat.repr 52)).length = 2 ∧ (wireBytes (Nat.repr 98)).length = 2 ∧
        (wireBytes (Nat.repr 108)).length = 3 ∧ (wireBytes (Nat.repr 1)).length = 1 ∧
        (wireBytes "A").length = 1 ∧ (wireBytes "0").length = 1 := by decide
    rw [Outgoing.bodyBytes, wireBytes_bodyText, Outgoing.allFields, headerFields, fields,
      buildLogon, kind, first]
    simp only [List.cons_append, List.nil_append, List.flatMap_cons, List.flatMap_nil, fieldBytes,
      List.length_append, List.length_cons, List.length_nil, tags]
    have client_ := wireBytes_length m.sender
    have target_ := wireBytes_length m.target
    have now_ := wireBytes_length m.now
    omega
  have length := repr_wire (n := m.bodyBytes.length) (k := 3) (by decide) (by omega)
  have begins : Outgoing.beginBytes.length = 9 := by decide
  have label : (wireBytes "9=").length = 2 := by decide
  rw [m.bytes_header, header_length, Outgoing.lengthBytes, List.length_append, List.length_append,
    m.trailer_length, begins, label]
  unfold maxMessageSize
  omega

namespace FixConfig

/-- The clients the acceptor sessions declare. -/
def clients (config : FixConfig) : List String := config.acceptors.flatMap SessionSettings.targets

/-- A client logs on: each Logon it may send is read as it arrives, and accepted. -/
def LogsOn (D : Type) [Decimal D] [DecimalText D] [Chrono] (acceptor : AcceptorConfig)
    (client : String) : Prop :=
  ∀ (now : String) (heart : Nat), SendingTime now → 0 < heart → heart < 2 ^ 32 →
    ∀ script n, (frame "FIX.4.2" "A" 1 client acceptor.senderCompId now
        (buildLogon heart)).length < Framing.pieces script →
      1 + (timeouts script).length < n → ∃ message,
        received (readMessages n script FrameReader.new (frame "FIX.4.2" "A" 1 client
          acceptor.senderCompId now (buildLogon heart))).1 = [message] ∧
        acceptLogon D message acceptor = .ok (.ok (client, heart, 1))

/-- The acceptor can be bound, on identifiers both ends take, and its clients can log on. -/
structure Bindable (D : Type) [Decimal D] [DecimalText D] [Chrono] (config : FixConfig)
    (acceptor : AcceptorConfig) : Prop where
  accepted : validateAcceptorConfig acceptor = .ok ()
  ids : ∀ id ∈ config.componentIds, validComponentId id = true
  logons : ∀ client ∈ config.clients, LogsOn D acceptor client

section

variable {text : String} {config : FixConfig} {acceptor : AcceptorConfig}

theorem acceptors_sub (config : FixConfig) : ∀ settings ∈ config.acceptors,
    settings ∈ config.resolvedSessions := fun _ mem => List.mem_of_mem_filter mem

/-- What is collected are the declared clients: none is empty. -/
theorem collected_eq {settings : SessionSettings} (valid : settings.Valid) :
    collected settings = settings.targets := by
  unfold collected SessionSettings.targets
  congr 1
  refine List.flatMap_congr ?_
  intro value here
  refine List.filter_eq_self.mpr ?_
  intro target mem
  rw [bne_iff_ne]
  exact (valid.ids target (mem_componentIds.mpr
    (.inr (.inr ⟨value, Option.mem_toList.mp here, mem⟩)))).some_

variable (loaded : load text = .ok config) (resolved : config.Resolved acceptor)

include loaded

theorem client_compId {client : String} (mem : client ∈ config.clients) : CompId client := by
  obtain ⟨settings, here, mem⟩ := List.mem_flatMap.mp mem
  have valid := loaded_valid loaded settings (List.mem_cons_of_mem _ (acceptors_sub config _ here))
  exact valid.ids client (List.mem_append_right _ mem)

include resolved

theorem sender_compId : CompId acceptor.senderCompId := by
  obtain ⟨settings, here⟩ := resolved.some_
  have valid := loaded_valid loaded settings (List.mem_cons_of_mem _ (acceptors_sub config _ here))
  exact valid.ids _ (mem_componentIds.mpr (.inl (resolved.named settings here).2))

theorem version_supported : acceptor.beginString = "FIX.4.2" := by
  obtain ⟨settings, here⟩ := resolved.some_
  have valid := loaded_valid loaded settings (List.mem_cons_of_mem _ (acceptors_sub config _ here))
  exact valid.version _ (resolved.named settings here).1

theorem declared_clients (closed : ¬ config.Dynamic) : ∃ targets,
    acceptor.admission = .declared targets ∧ targets ≠ [] ∧
      ∀ target, target ∈ targets ↔ target ∈ config.clients := by
  obtain ⟨targets, admission, some_, all⟩ := resolved.closed closed
  refine ⟨targets, admission, some_, ?_⟩
  intro target
  rw [all, clients, List.mem_flatMap]
  refine exists_congr fun settings => and_congr_right fun here => ?_
  rw [collected_eq (loaded_valid loaded settings
    (List.mem_cons_of_mem _ (acceptors_sub config _ here)))]

/-- The session layer refuses the resolved acceptor only for equals signs. -/
theorem validateAcceptorConfig_ok : validateAcceptorConfig acceptor = .ok () ↔
    '=' ∉ acceptor.senderCompId.toList ∧
      (¬ config.Dynamic → ∀ client ∈ config.clients, '=' ∉ client.toList) := by
  have sender : validComponentId acceptor.senderCompId = true ↔
      '=' ∉ acceptor.senderCompId.toList := by
    rw [validComponentId_iff, and_iff_right (sender_compId loaded resolved)]
  have name : (!validComponentId acceptor.senderCompId) = true ↔
      ¬ '=' ∉ acceptor.senderCompId.toList := by
    rw [Bool.not_eq_true', ← Bool.not_eq_true, sender]
  unfold validateAcceptorConfig
  rw [if_neg (not_not.mpr (version_supported loaded resolved)), if_neg resolved.port]
  by_cases plain : '=' ∉ acceptor.senderCompId.toList
  · rw [if_neg (fun h => name.mp h plain), and_iff_right plain]
    by_cases dynamic : config.Dynamic
    · rw [resolved.open_ dynamic]
      exact ⟨fun _ closed => absurd dynamic closed, fun _ => rfl⟩
    · obtain ⟨targets, admission, some_, all⟩ := declared_clients loaded resolved dynamic
      have each : (targets.isEmpty || targets.any (fun target => !validComponentId target)) = true ↔
          ¬ ∀ client ∈ config.clients, '=' ∉ client.toList := by
        rw [Bool.or_eq_true, List.isEmpty_iff, or_iff_right some_, List.any_eq_true]
        constructor
        · rintro ⟨target, mem, wrong⟩ fine
          have client := (all target).mp mem
          rw [validComponentId_iff.mpr ⟨client_compId loaded client, fine target client⟩] at wrong
          cases wrong
        · intro wrong
          simp only [not_forall, not_not, exists_prop] at wrong
          obtain ⟨client, mem, sign⟩ := wrong
          refine ⟨client, (all client).mpr mem, ?_⟩
          rw [Bool.not_eq_true', ← Bool.not_eq_true]
          exact fun fine => (validComponentId_iff.mp fine).2 sign
      rw [admission]
      dsimp only
      split
      · rename_i wrong
        constructor
        · intro h
          cases h
        · intro h
          exact absurd (h dynamic) (each.mp wrong)
      · rename_i fine
        exact ⟨fun _ _ => not_not.mp (fun h => fine (each.mpr h)), fun _ => rfl⟩
  · rw [if_pos (name.mpr plain)]
    constructor
    · intro h
      cases h
    · intro h
      exact absurd h.1 plain

/-- Every declared client can log on to the resolved acceptor. -/
theorem clients_logOn (D : Type) [Decimal D] [DecimalText D] [LawfulText D] [Chrono] :
    ∀ client ∈ config.clients, LogsOn D acceptor client := by
  intro client mem now heart time positive small script n enough many
  have own := client_compId loaded mem
  have other := sender_compId loaded resolved
  let out := (.logon heart : Request D).outgoing ⟨now, 0, 0⟩ 1 client acceptor.senderCompId now
    small time.value own.value other.value time.value (by decide)
  have admitted : clientAdmitted acceptor.admission client = true := by
    by_cases dynamic : config.Dynamic
    · rw [resolved.open_ dynamic]
      rfl
    · obtain ⟨targets, admission, -, all⟩ := declared_clients loaded resolved dynamic
      rw [admission]
      exact List.any_eq_true.mpr ⟨client, (all client).mpr mem, beq_self_eq_true client⟩
  refine ⟨out.message, frame_received out ?_ script n enough many, ?_⟩
  · exact logon_fits out rfl rfl own.short other.short time.length rfl small
  · exact logon_accepted (version_supported loaded resolved) own.value other.value time positive
      small admitted

end

/-- What is accepted by the parser and resolved can be bound, and its clients can log on,
just when no identifier of the file has an equals sign; the listener alone is bound when
none has that it takes. -/
theorem acceptor_bound (D : Type) [Decimal D] [DecimalText D] [LawfulText D] [Chrono]
    (text : String) (site : Installation) (config : FixConfig) (acceptor : AcceptorConfig)
    (policy : FillPolicy) (instruments : InstrumentMap) (loaded : load text = .ok config)
    (resolved : config.resolveAcceptor site = .ok (acceptor, policy, instruments)) :
    (Bindable D config acceptor ↔ ∀ id ∈ config.componentIds, '=' ∉ id.toList) ∧
    (validateAcceptorConfig acceptor = .ok () ↔ '=' ∉ acceptor.senderCompId.toList ∧
      (¬ config.Dynamic → ∀ client ∈ config.clients, '=' ∉ client.toList)) := by
  have known := resolveAcceptor_ok resolved
  refine ⟨⟨?_, ?_⟩, validateAcceptorConfig_ok loaded known⟩
  · intro bindable id mem
    exact (validComponentId_iff.mp (bindable.ids id mem)).2
  · intro plain
    have held : ∀ settings ∈ config.acceptors, ∀ id ∈ settings.componentIds, '=' ∉ id.toList :=
      fun settings here id mem =>
        plain id (resolved_componentIds (acceptors_sub config settings here) mem)
    refine ⟨(validateAcceptorConfig_ok loaded known).mpr ⟨?_, ?_⟩, ?_, clients_logOn loaded known D⟩
    · obtain ⟨settings, here⟩ := known.some_
      exact held settings here _ (mem_componentIds.mpr (.inl (known.named settings here).2))
    · intro _ client mem
      obtain ⟨settings, here, mem⟩ := List.mem_flatMap.mp mem
      exact held settings here client (List.mem_append_right _ mem)
    · intro id mem
      exact validComponentId_iff.mpr ⟨loaded_ids loaded id mem, plain id mem⟩

/-- Whether the session layer accepts what is resolved from a text, and the text's identifiers. -/
def starts (text : String) (site : Installation) : Option (Bool × List String) :=
  (load text).toOption.bind fun config => (config.resolveAcceptor site).toOption.map fun resolved =>
    ((validateAcceptorConfig resolved.1).isOk, config.componentIds)

theorem starts_eq {text : String} {site : Installation} {fine : Bool} {ids : List String}
    (h : starts text site = some (fine, ids)) : ∃ config acceptor policy instruments,
      load text = .ok config ∧
      config.resolveAcceptor site = .ok (acceptor, policy, instruments) ∧
      (validateAcceptorConfig acceptor).isOk = fine ∧ config.componentIds = ids := by
  obtain ⟨config, loaded, h⟩ := Option.bind_eq_some_iff.mp h
  obtain ⟨⟨acceptor, policy, instruments⟩, resolved, same⟩ := Option.map_eq_some_iff.mp h
  obtain ⟨accepted, written⟩ := Prod.mk.inj same
  exact ⟨config, acceptor, policy, instruments, toOption_eq_some.mp loaded,
    toOption_eq_some.mp resolved, accepted, written⟩

/-- The settings of one acceptor and one client. -/
def settingsOf (sender : String) : String :=
  "[SESSION]\nConnectionType=acceptor\nBeginString=FIX.4.2\nSenderCompID=" ++ sender ++
    "\nTargetCompID=CLIENT\nSocketAcceptPort=5001\nPersistMessages=N\nResetOnDisconnect=Y\n" ++
    "ResetOnLogout=Y\n"

def oneInstrument : Installation where
  instrumentsPath := "configs/instruments.txt"
  instruments := "1 AAA\n"
  resolve := id
  preflight _ _ _ _ := .ok ()

theorem acceptor_bound_sample : ∃ config acceptor policy instruments,
    load (settingsOf "GOX") = .ok config ∧
    config.resolveAcceptor oneInstrument = .ok (acceptor, policy, instruments) ∧
    Bindable Dec96 config acceptor := by
  have fine : starts (settingsOf "GOX") oneInstrument = some (true, ["GOX", "CLIENT"]) := by
    decide +kernel
  obtain ⟨config, acceptor, policy, instruments, loaded, resolved, -, ids⟩ := starts_eq fine
  refine ⟨config, acceptor, policy, instruments, loaded, resolved, ?_⟩
  refine (acceptor_bound Dec96 _ _ _ _ _ _ loaded resolved).1.mpr ?_
  rw [ids]
  decide

/-- A sender with an equals sign passes the parser and the resolution, and cannot be bound. -/
theorem sender_refused : ¬ ∀ (text : String) (site : Installation) (config : FixConfig)
    (acceptor : AcceptorConfig) (policy : FillPolicy) (instruments : InstrumentMap),
      load text = .ok config →
      config.resolveAcceptor site = .ok (acceptor, policy, instruments) →
      validateAcceptorConfig acceptor = .ok () := by
  intro claim
  have refused : starts (settingsOf "GOX=1") oneInstrument = some (false, ["GOX=1", "CLIENT"]) := by
    decide +kernel
  obtain ⟨config, acceptor, policy, instruments, loaded, resolved, wrong, -⟩ := starts_eq refused
  rw [claim _ _ _ _ _ _ loaded resolved] at wrong
  cases wrong

end FixConfig

end RustTrader.Fix

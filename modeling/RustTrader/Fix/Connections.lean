import Mathlib.Data.Finset.Basic
import RustTrader.Disconnects
import RustTrader.Loading
import RustTrader.Fix.Business

/-!
# Connection threads

`handle_acceptor_connection` of `fix/session.rs`, once for each connection: a
thread reserves its session in the set of active sessions, registers its sink
with the engine, handles messages, disconnects the session and gives up the
reservation. The threads share the engine and the set, each behind a lock, so
their steps interleave in any order.
-/

namespace RustTrader

variable {D : Type} [Decimal D]

namespace Engine

/-- The commands a connection gives for its session. -/
def Serves (s : String) : Command D → Prop
  | .createOrder _ s' _ | .modifyOrderWithType _ s' _ _ _ _ _ | .cancelOrderWithId s' _ _
  | .quote s' _ _ _ _ _ => s' = s
  | .expireDayOrdersAt _ => True
  | _ => False

/-- Serving a session registers nobody and forgets nobody. -/
theorem step_registered [LawfulDecimal D] {policy : FillPolicy} {e e' : Engine D}
    {command : Command D} (c : Coherent policy e.view none) (hp : e.fillPolicy = policy)
    {s : String} (serves : Serves s command) (step : Step e command e') (s' : String) :
    e'.Registered s' ↔ e.Registered s' := by
  cases step with
  | createInstrument symbol => exact serves.elim
  | registerSession session fresh => exact serves.elim
  | sessionDisconnect _ session orders quotes visits returns => exact serves.elim
  | createOrder _ today session new reply returns =>
    cases policy with
    | real =>
      rcases createReal_cases c hp returns with ⟨_, -, -, rfl⟩ | ⟨-, _, _, _, _, _, _, done⟩
      · exact Iff.rfl
      · exact done.effect.registered s'
    | tiered =>
      rcases createTiered_cases c hp returns with ⟨_, -, -, rfl⟩ | ⟨-, _, _, _, _, _, _, _, done⟩
      · exact Iff.rfl
      · exact done.worked.effect.registered s'
  | modifyOrderWithType _ today session origId newId orderType price quantity reply returns =>
    cases policy with
    | real =>
      rcases modifyReal_cases c hp returns with ⟨⟨_, -, -, rfl⟩, -⟩ | ⟨-, _, _, _, _, _, k, done⟩
      · exact Iff.rfl
      cases done with
      | exhausted _ execId effect => exact effect.registered s'
      | matched _ trades left final book' fills execId added filled effect =>
        exact effect.registered s'
    | tiered =>
      rcases modifyTiered_cases c hp returns with
        ⟨_, -, -, rfl⟩ | ⟨-, _, _, _, _, _, _, k, -, done⟩
      · exact Iff.rfl
      cases done with
      | exhausted _ execId effect => exact effect.registered s'
      | worked _ last snaps front back execId fills worked => exact worked.effect.registered s'
  | cancelOrderWithId _ session origId clOrdId reply returns =>
    rcases cancel_cases c returns with ⟨_, -, -, rfl⟩ | ⟨-, entry, book', execId, done⟩
    · exact Iff.rfl
    · exact done.effect.registered s'
  | quote _ session i bidPrice bidQuantity askPrice askQuantity reply returns =>
    cases policy with
    | real =>
      rcases quote_cases c returns with ⟨_, -, -, rfl⟩ | ⟨-, v, trades, fills, done, -⟩
      · exact Iff.rfl
      · exact done.effect.registered s'
    | tiered =>
      obtain ⟨-, rfl⟩ := quote_tiered hp returns
      exact Iff.rfl
  | expireDayOrdersAt _ today keys visits returns =>
    suffices run : (∀ s', e'.Registered s' ↔ e.Registered s') ∧ Coherent policy e'.view none from
      run.1 s'
    refine expire_run (R := fun e e' => ∀ s', e'.Registered s' ↔ e.Registered s')
      (fun e s' => Iff.rfl) (fun _ _ _ first second s' => (second s').trans (first s'))
      (fun e e' effect => effect.registered) ?_ keys c returns
    intro e e' s id entry book' execId c done
    exact done.effect.registered

/-- The engine knows nothing of a session. -/
structure Absent (e : Engine D) (s : String) : Prop where
  session : ¬ e.Registered s
  record : ∀ id, e.order s id = none
  pair : ∀ i, e.pair s i = none
  date : ∀ id, HashMap.get? e.orderDates (s, id) = none
  resting : ∀ i side, ∀ o ∈ (e.book i).queue side, o.sessionId ≠ s

theorem absent_of_unregistered {policy : FillPolicy} {e : Engine D}
    (c : Coherent policy e.view none) {days : String → OrderId → Option Int} (dated : Dated e days)
    {s : String} (unregistered : ¬ e.Registered s) : Absent e s := by
  have pairs : ∀ i, e.pair s i = none := by
    intro i
    cases found : e.sessions.get? s with
    | none => simp [pair, found]
    | some session => exact absurd ⟨session, found⟩ unregistered
  have records := order_unregistered unregistered
  refine ⟨unregistered, records, pairs, ?_, fun i side o => rests_nowhere c records pairs⟩
  intro id
  cases entry : HashMap.get? e.orderDates (s, id) with
  | none => rfl
  | some day => exact absurd (dated.owners s id day entry) unregistered

end Engine

namespace Fix

/-- How far the thread of a connection has come. -/
inductive Stage where
  | connecting
  | reserved (session : String)
  | serving (session : String) (ids : WireIdMap)
  | closing (session : String)
  | closed

/-- The session whose reservation a thread has. -/
def Stage.holds : Stage → Option String
  | .reserved session | .serving session _ | .closing session => some session
  | _ => none

/-- The session a thread is registered for. -/
def Stage.serves : Stage → Option String
  | .serving session _ => some session
  | _ => none

theorem Stage.holds_of_serves {stage : Stage} {s : String} (h : stage.serves = some s) :
    stage.holds = some s := by
  cases stage <;> simp_all [Stage.serves, Stage.holds]

/-- The exchange. `sender` has the sinks of the engine's sessions, and `delivered`
what they were handed; `submitter` tells under whose call the engine numbered an
arrival. -/
structure Exchange (Conn D : Type) [Decimal D] where
  engine : Engine D
  activeSessions : Finset String
  stage : Conn → Stage
  sender : String → Option Conn
  delivered : List (Conn × Report D)
  submitter : Nat → Option Conn

namespace Exchange

variable {Conn : Type} [DecidableEq Conn]

/-- An engine nobody has connected to. -/
def start (Conn : Type) (e : Engine D) : Exchange Conn D where
  engine := e
  activeSessions := ∅
  stage := fun _ => .connecting
  sender := fun _ => none
  delivered := []
  submitter := fun _ => none

def setStage (x : Exchange Conn D) (c : Conn) (stage : Stage) : Exchange Conn D :=
  { x with stage := Function.update x.stage c stage }

/-- The reports an engine has sent since, with their sinks. -/
def routed (x : Exchange Conn D) (e' : Engine D) : List (Conn × Report D) :=
  (e'.sent.drop x.engine.sent.length).filterMap
    fun report => (x.sender report.order.sessionId).map fun sink => (sink, report)

/-- The engine after a call of `c`. -/
def call (x : Exchange Conn D) (c : Conn) (e' : Engine D) : Exchange Conn D :=
  { x with
    engine := e'
    delivered := x.delivered ++ x.routed e'
    submitter := fun n =>
      if n ≤ x.engine.nextArrival then x.submitter n
      else if n ≤ e'.nextArrival then some c
      else none }

/-- One step of one thread. A thread whose set access or engine call panics takes
no step. -/
inductive Move : Exchange Conn D → Exchange Conn D → Prop
  /-- No Logon, or one that is not admitted. -/
  | reject (x : Exchange Conn D) (c : Conn) (connecting : x.stage c = .connecting) :
      Move x (x.setStage c .closed)
  | reserve (x : Exchange Conn D) (c : Conn) (s : String) (connecting : x.stage c = .connecting)
      (free : s ∉ x.activeSessions) :
      Move x ({ x with activeSessions := insert s x.activeSessions }.setStage c (.reserved s))
  /-- The session is already active. -/
  | refuse (x : Exchange Conn D) (c : Conn) (s : String) (connecting : x.stage c = .connecting)
      (taken : s ∈ x.activeSessions) : Move x (x.setStage c .closed)
  /-- The log, the time-out or the stream of the writer fails. -/
  | fail (x : Exchange Conn D) (c : Conn) (s : String) (reserved : x.stage c = .reserved s) :
      Move x (x.setStage c (.closing s))
  | register (x : Exchange Conn D) (c : Conn) (s : String) (reserved : x.stage c = .reserved s) :
      Move x ({ x with
        engine := x.engine.registerSession s
        sender := Function.update x.sender s (some c) }.setStage c (.serving s .new))
  | expire (x : Exchange Conn D) (c : Conn) (s : String) (ids : WireIdMap)
      (serving : x.stage c = .serving s ids) (today : Int) (keys : List (String × OrderId))
      (e' : Engine D) (visits : keys.Perm (x.engine.expired today))
      (returns : x.engine.expireDayOrdersAt keys = .ok e') : Move x (x.call c e')
  | handle (x : Exchange Conn D) (c : Conn) (s : String) (ids : WireIdMap)
      (serving : x.stage c = .serving s ids) (today : Int) (now : String) (rejectId : Nat)
      (failed : Bool) (inbound : Inbound D) (done : Handled D)
      (returns : handleBusiness today now rejectId failed x.engine s ids inbound = .ok done) :
      Move x ((x.call c done.engine).setStage c (.serving s done.ids))
  | disconnect (x : Exchange Conn D) (c : Conn) (s : String) (ids : WireIdMap)
      (serving : x.stage c = .serving s ids) (orders : List (OrderId × Order D))
      (quotes : List (Int × QuotePair D)) (e' : Engine D)
      (visits : ∀ session, x.engine.sessions.get? s = some session → Visits session orders quotes)
      (returns : x.engine.sessionDisconnect s orders quotes = .ok e') :
      Move x ({ x with engine := e', sender := Function.update x.sender s none }.setStage c
        (.closing s))
  /-- The reservation is dropped. -/
  | release (x : Exchange Conn D) (c : Conn) (s : String) (closing : x.stage c = .closing s) :
      Move x ({ x with activeSessions := x.activeSessions.erase s }.setStage c .closed)

def Runs : Exchange Conn D → Exchange Conn D → Prop := Relation.ReflTransGen Move

/-- What every interleaving keeps: a session has one owner, to whom its reports go. -/
structure OneOwner (x : Exchange Conn D) : Prop where
  holder : ∀ c d s, (x.stage c).holds = some s → (x.stage d).holds = some s → c = d
  reserved : ∀ s, s ∈ x.activeSessions ↔ ∃ c, (x.stage c).holds = some s
  vacant : ∀ c s, x.stage c = .reserved s → ¬ x.engine.Registered s
  told : x.delivered.map Prod.snd = x.engine.sent
  submitted : ∀ sink report, (sink, report) ∈ x.delivered →
    x.submitter report.order.arrival = some sink
  absent : ∀ s, s ∉ x.activeSessions → Engine.Absent x.engine s

/-- An order was submitted by the connection its reports go to. -/
def Traced (x : Exchange Conn D) (o : Order D) : Prop :=
  (∃ c, x.sender o.sessionId = some c ∧ x.submitter o.arrival = some c) ∧
    o.arrival ≤ x.engine.nextArrival

structure Owned (policy : FillPolicy) (x : Exchange Conn D) : Prop where
  coherent : Coherent policy x.engine.view none
  fillPolicy : x.engine.fillPolicy = policy
  dated : ∃ days, Engine.Dated x.engine days
  holder : ∀ c d s, (x.stage c).holds = some s → (x.stage d).holds = some s → c = d
  reserved : ∀ s, s ∈ x.activeSessions ↔ ∃ c, (x.stage c).holds = some s
  seated : ∀ s, x.engine.Registered s ↔ ∃ c, (x.stage c).serves = some s
  sink : ∀ s c, x.sender s = some c ↔ (x.stage c).serves = some s
  known : ∀ o, x.engine.view.Known o → x.Traced o
  told : x.delivered.map Prod.snd = x.engine.sent
  submitted : ∀ sink report, (sink, report) ∈ x.delivered →
    x.submitter report.order.arrival = some sink ∧ report.order.arrival ≤ x.engine.nextArrival

section Lawful

variable {policy : FillPolicy} {x : Exchange Conn D} {c : Conn} {s : String}

theorem setStage_self (x : Exchange Conn D) (c : Conn) (stage : Stage) :
    (x.setStage c stage).stage c = stage := Function.update_self ..

theorem setStage_other (x : Exchange Conn D) {c d : Conn} (other : d ≠ c) (stage : Stage) :
    (x.setStage c stage).stage d = x.stage d := Function.update_of_ne other ..

/-- What a new stage does not change about its thread, it does not change at all. -/
theorem setStage_kept {α : Type} {f : Stage → α} {stage : Stage} (kept : f stage = f (x.stage c))
    (d : Conn) : f ((x.setStage c stage).stage d) = f (x.stage d) := by
  by_cases same : d = c
  · rw [same, setStage_self, kept]
  · rw [setStage_other x same]

/-- A thread that goes on with the same session. -/
theorem Owned.restage (h : Owned policy x) {stage : Stage}
    (holds : stage.holds = (x.stage c).holds) (serves : stage.serves = (x.stage c).serves) :
    Owned policy (x.setStage c stage) := by
  have held := setStage_kept holds
  have served := setStage_kept serves
  refine ⟨h.coherent, h.fillPolicy, h.dated, ?_, ?_, ?_, ?_, h.known, h.told, h.submitted⟩
  · intro d d' s
    rw [held, held]
    exact h.holder d d' s
  · intro s
    simp only [held]
    exact h.reserved s
  · intro s
    simp only [served]
    exact h.seated s
  · intro s d
    rw [served]
    exact h.sink s d

theorem Owned.reserve (h : Owned policy x) (connecting : x.stage c = .connecting)
    (free : s ∉ x.activeSessions) : Owned policy
      ({ x with activeSessions := insert s x.activeSessions }.setStage c (.reserved s)) := by
  let y : Exchange Conn D := { x with activeSessions := insert s x.activeSessions }
  have unheld : ∀ d, (x.stage d).holds ≠ some s := fun d holds =>
    free ((h.reserved s).mpr ⟨d, holds⟩)
  have held : ∀ d s', ((y.setStage c (.reserved s)).stage d).holds = some s' ↔
      d = c ∧ s' = s ∨ (x.stage d).holds = some s' := by
    intro d s'
    by_cases same : d = c
    · subst same
      rw [setStage_self, connecting]
      simp [Stage.holds, eq_comm]
    · rw [setStage_other _ same]
      simp [y, same]
  have served : ∀ d, ((y.setStage c (.reserved s)).stage d).serves = (x.stage d).serves :=
    setStage_kept (x := y) (congrArg Stage.serves connecting).symm
  change Owned policy (y.setStage c (.reserved s))
  refine ⟨h.coherent, h.fillPolicy, h.dated, ?_, ?_, ?_, ?_, h.known, h.told, h.submitted⟩
  · intro d d' s'
    rw [held, held]
    rintro (⟨rfl, rfl⟩ | holds) (⟨rfl, same⟩ | holds')
    · rfl
    · exact absurd holds' (unheld d')
    · exact absurd (same ▸ holds) (unheld d)
    · exact h.holder d d' s' holds holds'
  · intro s'
    simp only [held]
    constructor
    · intro mem
      rcases Finset.mem_insert.mp mem with rfl | mem
      · exact ⟨c, .inl ⟨rfl, rfl⟩⟩
      · obtain ⟨d, holds⟩ := (h.reserved s').mp mem
        exact ⟨d, .inr holds⟩
    · rintro ⟨d, ⟨-, rfl⟩ | holds⟩
      · exact Finset.mem_insert_self ..
      · exact Finset.mem_insert_of_mem ((h.reserved s').mpr ⟨d, holds⟩)
  · intro s'
    simp only [served]
    exact h.seated s'
  · intro s' d
    rw [served]
    exact h.sink s' d

omit [DecidableEq Conn] in
/-- Before it registers, the engine does not know the session of a thread. -/
theorem Owned.vacant (h : Owned policy x) (reserved : x.stage c = .reserved s) :
    ¬ x.engine.Registered s := by
  intro registered
  obtain ⟨d, serves⟩ := (h.seated s).mp registered
  have same : d = c := h.holder d c s (Stage.holds_of_serves serves) (by rw [reserved]; rfl)
  rw [same, reserved] at serves
  cases serves

theorem Owned.release (h : Owned policy x) (closing : x.stage c = .closing s) :
    Owned policy
      ({ x with activeSessions := x.activeSessions.erase s }.setStage c .closed) := by
  let y : Exchange Conn D := { x with activeSessions := x.activeSessions.erase s }
  have holds : (x.stage c).holds = some s := by
    rw [closing]
    rfl
  have held : ∀ d s', ((y.setStage c .closed).stage d).holds = some s' ↔
      (x.stage d).holds = some s' ∧ s' ≠ s := by
    intro d s'
    by_cases same : d = c
    · subst same
      rw [setStage_self, holds]
      simp [Stage.holds, eq_comm]
    · rw [setStage_other _ same]
      refine ⟨fun other => ⟨other, ?_⟩, And.left⟩
      rintro rfl
      exact same (h.holder d c s' other holds)
  have served : ∀ d, ((y.setStage c .closed).stage d).serves = (x.stage d).serves :=
    setStage_kept (x := y) (congrArg Stage.serves closing).symm
  change Owned policy (y.setStage c .closed)
  refine ⟨h.coherent, h.fillPolicy, h.dated, ?_, ?_, ?_, ?_, h.known, h.told, h.submitted⟩
  · intro d d' s'
    rw [held, held]
    exact fun first second => h.holder d d' s' first.1 second.1
  · intro s'
    simp only [held]
    change s' ∈ x.activeSessions.erase s ↔ _
    rw [Finset.mem_erase, h.reserved, exists_and_right, and_comm]
  · intro s'
    simp only [served]
    exact h.seated s'
  · intro s' d
    rw [served]
    exact h.sink s' d

theorem fresh_session {e : Engine D} {command : Command D} {o : Order D}
    (c : Coherent policy e.view none) (serves : Engine.Serves s command)
    (fresh : Engine.Fresh e command o) : o.sessionId = s := by
  cases fresh with
  | request asked listed valid =>
    subst asked
    rw [Engine.incoming_eq]
    exact serves
  | replacement asked recorded =>
    subst asked
    exact (c.keyed _ _ _ recorded).1.trans serves
  | leg asked listed named terms =>
    subst asked
    exact terms.owner.trans serves

omit [DecidableEq Conn] in
/-- The arrivals numbered before a call are not submitted again. -/
theorem call_submitter {e' : Engine D} {n : Nat} (old : n ≤ x.engine.nextArrival) :
    (x.call c e').submitter n = x.submitter n := if_pos old

omit [DecidableEq Conn] in
theorem call_numbers {e' : Engine D} {o : Order D} (new : Engine.Numbers x.engine e' o) :
    (x.call c e').submitter o.arrival = some c :=
  (if_neg (not_le.mpr new.1)).trans (if_pos new.2)

variable [LawfulDecimal D]

theorem Owned.register (h : Owned policy x) (reserved : x.stage c = .reserved s) :
    Owned policy ({ x with
      engine := x.engine.registerSession s
      sender := Function.update x.sender s (some c) }.setStage c (.serving s .new)) := by
  have vacant := h.vacant reserved
  have view := Engine.view_registerSession vacant
  have step := Step.registerSession x.engine s vacant
  obtain ⟨days, dated⟩ := h.dated
  have unsent : ∀ d, x.sender s ≠ some d := by
    intro d sends
    exact vacant ((h.seated s).mpr ⟨d, (h.sink s d).mp sends⟩)
  let y : Exchange Conn D := { x with
    engine := x.engine.registerSession s
    sender := Function.update x.sender s (some c) }
  have held : ∀ d, ((y.setStage c (.serving s .new)).stage d).holds = (x.stage d).holds :=
    setStage_kept (x := y) (congrArg Stage.holds reserved).symm
  have served : ∀ d s', ((y.setStage c (.serving s .new)).stage d).serves = some s' ↔
      d = c ∧ s' = s ∨ (x.stage d).serves = some s' := by
    intro d s'
    by_cases same : d = c
    · subst same
      rw [setStage_self, reserved]
      simp [Stage.serves, eq_comm]
    · rw [setStage_other _ same]
      simp [y, same]
  change Owned policy (y.setStage c (.serving s .new))
  refine ⟨(Engine.step_coherent h.coherent h.fillPolicy step).1, h.fillPolicy,
    ⟨_, dated.step h.coherent h.fillPolicy step⟩, ?_, ?_, ?_, ?_, ?_, h.told, h.submitted⟩
  · intro d d' s'
    rw [held, held]
    exact h.holder d d' s'
  · intro s'
    simp only [held]
    exact h.reserved s'
  · intro s'
    simp only [served]
    constructor
    · rintro ⟨session, found⟩
      by_cases same : s' = s
      · exact ⟨c, .inl ⟨rfl, same⟩⟩
      · change (x.engine.sessions.insert s _).get? s' = some session at found
        rw [SortedMap.get?_insert_ne _ _ same] at found
        obtain ⟨d, serves⟩ := (h.seated s').mp ⟨session, found⟩
        exact ⟨d, .inr serves⟩
    · rintro ⟨d, new⟩
      by_cases same : s' = s
      · exact ⟨⟨∅, ∅⟩, by subst same; exact SortedMap.get?_insert_self ..⟩
      · rcases new with ⟨-, here⟩ | serves
        · exact absurd here same
        · obtain ⟨session, found⟩ := (h.seated s').mpr ⟨d, serves⟩
          exact ⟨session, (SortedMap.get?_insert_ne _ _ same).trans found⟩
  · intro s' d
    rw [served]
    change Function.update x.sender s (some c) s' = some d ↔ _
    by_cases same : s' = s
    · subst same
      rw [Function.update_self]
      constructor
      · intro sends
        exact .inl ⟨(Option.some.inj sends).symm, rfl⟩
      · rintro (⟨rfl, -⟩ | serves)
        · rfl
        · exact absurd ((h.sink s' d).mpr serves) (unsent d)
    · rw [Function.update_of_ne same, h.sink]
      simp [same]
  · intro o known
    change (x.engine.registerSession s).view.Known o at known
    rw [view] at known
    obtain ⟨⟨d, sends, by_⟩, arrived⟩ := h.known o known
    refine ⟨⟨d, ?_, by_⟩, arrived⟩
    change Function.update x.sender s (some c) o.sessionId = some d
    rw [Function.update_of_ne, sends]
    intro same
    exact unsent d (same ▸ sends)

theorem Owned.disconnect (h : Owned policy x) {ids : WireIdMap}
    (serving : x.stage c = .serving s ids)
    {orders : List (OrderId × Order D)} {quotes : List (Int × QuotePair D)} {e' : Engine D}
    (visits : ∀ session, x.engine.sessions.get? s = some session → Visits session orders quotes)
    (returns : x.engine.sessionDisconnect s orders quotes = .ok e') :
    Owned policy ({ x with engine := e', sender := Function.update x.sender s none }.setStage c
      (.closing s)) := by
  have step := Step.sessionDisconnect x.engine e' s orders quotes visits returns
  obtain ⟨departed, -⟩ := Engine.sessionDisconnect_spec h.coherent visits returns
  obtain ⟨coherent, fillPolicy⟩ := Engine.step_coherent h.coherent h.fillPolicy step
  obtain ⟨days, dated⟩ := h.dated
  have arrival := Engine.step_arrival h.coherent h.fillPolicy step
  let y : Exchange Conn D := { x with engine := e', sender := Function.update x.sender s none }
  have serves : (x.stage c).serves = some s := by
    rw [serving]
    rfl
  have held : ∀ d, ((y.setStage c (.closing s)).stage d).holds = (x.stage d).holds :=
    setStage_kept (x := y) (congrArg Stage.holds serving).symm
  have served : ∀ d s', ((y.setStage c (.closing s)).stage d).serves = some s' ↔
      (x.stage d).serves = some s' ∧ s' ≠ s := by
    intro d s'
    by_cases same : d = c
    · subst same
      rw [setStage_self, serves]
      simp [Stage.serves, eq_comm]
    · rw [setStage_other _ same]
      refine ⟨fun other => ⟨other, ?_⟩, And.left⟩
      rintro rfl
      exact same (h.holder d c s' (Stage.holds_of_serves other) (Stage.holds_of_serves serves))
  change Owned policy (y.setStage c (.closing s))
  refine ⟨coherent, fillPolicy, ⟨_, dated.step h.coherent h.fillPolicy step⟩, ?_, ?_, ?_, ?_, ?_,
    h.told.trans departed.sent.symm, ?_⟩
  · intro d d' s'
    rw [held, held]
    exact h.holder d d' s'
  · intro s'
    simp only [held]
    exact h.reserved s'
  · intro s'
    simp only [served]
    refine (departed.registered s').trans ?_
    rw [h.seated, exists_and_right]
  · intro s' d
    rw [served]
    change Function.update x.sender s none s' = some d ↔ _
    by_cases same : s' = s
    · subst same
      simp
    · rw [Function.update_of_ne same, h.sink]
      simp [same]
  · intro o known
    have own := Engine.registered_of_known coherent o known
    obtain ⟨-, other⟩ := (departed.registered _).mp own
    have before : x.engine.view.Known o :=
      (departed.carries (P := x.engine.view.Known) fun _ => id).known o known
    obtain ⟨⟨d, sends, by_⟩, arrived⟩ := h.known o before
    refine ⟨⟨d, ?_, by_⟩, arrived.trans arrival⟩
    exact (Function.update_of_ne other ..).trans sends
  · intro sink report mem
    obtain ⟨by_, arrived⟩ := h.submitted sink report mem
    exact ⟨by_, arrived.trans arrival⟩

omit [DecidableEq Conn] [LawfulDecimal D] in
theorem Traced.call {o : Order D} (h : x.Traced o) {e' : Engine D}
    (arrival : x.engine.nextArrival ≤ e'.nextArrival) : (x.call c e').Traced o := by
  obtain ⟨⟨d, sends, by_⟩, arrived⟩ := h
  exact ⟨⟨d, sends, (call_submitter arrived).trans by_⟩, arrived.trans arrival⟩

omit [DecidableEq Conn] [LawfulDecimal D] in
/-- A call that registers nobody and carries on all orders. -/
theorem Owned.carried (h : Owned policy x) {e' : Engine D} {news : List (Report D)}
    (coherent : Coherent policy e'.view none) (fillPolicy : e'.fillPolicy = policy)
    (dated : ∃ days, Engine.Dated e' days)
    (registered : ∀ s, e'.Registered s ↔ x.engine.Registered s)
    (arrival : x.engine.nextArrival ≤ e'.nextArrival)
    (carried : Engine.Carries (x.call c e').Traced x.engine e' news) :
    Owned policy (x.call c e') := by
  have routed : x.routed e' = news.filterMap fun report =>
      (x.sender report.order.sessionId).map fun sink => (sink, report) := by
    unfold Exchange.routed
    rw [carried.sent, List.drop_left]
  refine ⟨coherent, fillPolicy, dated, h.holder, h.reserved,
    fun s' => (registered s').trans (h.seated s'), h.sink, carried.known, ?_, ?_⟩
  · change (x.delivered ++ x.routed e').map Prod.snd = e'.sent
    rw [List.map_append, h.told, carried.sent, routed, List.map_filterMap]
    refine congrArg (x.engine.sent ++ ·) ?_
    refine (List.filterMap_congr fun report mem => ?_).trans List.filterMap_some
    obtain ⟨⟨d, sends, -⟩, -⟩ := carried.told report mem
    change x.sender _ = some d at sends
    simp [sends]
  · intro sink report mem
    rcases List.mem_append.mp mem with before | now
    · obtain ⟨by_, arrived⟩ := h.submitted sink report before
      exact ⟨(call_submitter arrived).trans by_, arrived.trans arrival⟩
    · rw [routed] at now
      obtain ⟨r, hr, sent⟩ := List.mem_filterMap.mp now
      obtain ⟨d, sends, same⟩ := Option.map_eq_some_iff.mp sent
      obtain ⟨rfl, rfl⟩ := Prod.mk.inj same
      obtain ⟨⟨d', sends', by_⟩, arrived⟩ := carried.told r hr
      obtain rfl := Option.some.inj (sends.symm.trans sends')
      exact ⟨by_, arrived⟩

omit [DecidableEq Conn] [LawfulDecimal D] in
theorem Owned.idle (h : Owned policy x) : Owned policy (x.call c x.engine) :=
  h.carried h.coherent h.fillPolicy h.dated (fun _ => Iff.rfl) le_rfl
    (.unchanged (fun o known => (h.known o known).call le_rfl) rfl rfl)

omit [DecidableEq Conn] in
/-- Whoever is served may trade, and the exchange goes on as it was. -/
theorem Owned.call (h : Owned policy x) (serves : (x.stage c).serves = some s) {e' : Engine D}
    {command : Command D} (own : Engine.Serves s command) (step : Step x.engine command e') :
    Owned policy (x.call c e') := by
  obtain ⟨coherent, fillPolicy⟩ := Engine.step_coherent h.coherent h.fillPolicy step
  obtain ⟨days, dated⟩ := h.dated
  have arrival := Engine.step_arrival h.coherent h.fillPolicy step
  have lasting : Lasting (x.call c e').Traced := lasting_labels fun owner arrival =>
    (∃ d, (x.call c e').sender owner = some d ∧ (x.call c e').submitter arrival = some d) ∧
      arrival ≤ e'.nextArrival
  obtain ⟨news, carried⟩ := Engine.step_carries lasting h.coherent h.fillPolicy
    (fun o known => (h.known o known).call arrival) (by
      intro o fresh numbered
      have home := fresh_session h.coherent own fresh
      have traced : (x.call c e').Traced o :=
        ⟨⟨c, home ▸ (h.sink s c).mpr serves, call_numbers numbered⟩, numbered.2⟩
      exact ⟨fun _ => traced, fun _ => traced, fun _ => traced⟩) step
  exact h.carried coherent fillPolicy ⟨_, dated.step h.coherent h.fillPolicy step⟩
    (Engine.step_registered h.coherent h.fillPolicy own step) arrival carried

omit [LawfulDecimal D] [DecidableEq Conn] in
/-- A handled message is at most one call for the session of its connection. -/
theorem handled_call {today : Int} {now : String} {rejectId : Nat} {failed : Bool} {e : Engine D}
    {ids : WireIdMap} {inbound : Inbound D} {done : Handled D}
    (returns : handleBusiness today now rejectId failed e s ids inbound = .ok done) :
    done.engine = e ∨ ∃ command, Engine.Serves s command ∧ Step e command done.engine := by
  cases inbound with
  | newOrderSingle clOrdId symbol side orderType price quantity =>
    obtain ⟨attempt, entered, rfl⟩ := handle_newOrderSingle returns
    rw [conclude_engine]
    unfold enterOrder at entered
    split at entered
    · cases entered
      exact .inl rfl
    · split at entered
      · cases entered
        exact .inl rfl
      · obtain ⟨reply, called, entered⟩ := Exec.bind_ok.mp entered
        cases entered
        exact .inr ⟨.createOrder today s _, rfl, .createOrder _ _ _ _ _ _ called⟩
  | cancelRequest clOrdId origClOrdId symbol side =>
    obtain ⟨attempt, entered, rfl⟩ := handle_cancelRequest returns
    rw [conclude_engine]
    unfold cancelOrder at entered
    split at entered
    · cases entered
      exact .inl rfl
    · split at entered
      · cases entered
        exact .inl rfl
      · obtain ⟨reply, called, entered⟩ := Exec.bind_ok.mp entered
        cases entered
        exact .inr ⟨.cancelOrderWithId s _ _, rfl, .cancelOrderWithId _ _ _ _ _ _ called⟩
  | cancelReplace clOrdId origClOrdId symbol side orderType price quantity =>
    obtain ⟨attempt, entered, rfl⟩ := handle_cancelReplace returns
    rw [conclude_engine]
    unfold replaceOrder at entered
    split at entered
    · cases entered
      exact .inl rfl
    · split at entered
      · cases entered
        exact .inl rfl
      · obtain ⟨reply, called, entered⟩ := Exec.bind_ok.mp entered
        cases entered
        exact .inr ⟨.modifyOrderWithType today s _ _ _ _ _, rfl,
          .modifyOrderWithType _ _ _ _ _ _ _ _ _ _ called⟩
  | massQuote quoteId responseLevel symbol bidPx bidQty offerPx offerQty =>
    obtain ⟨⟨result, e'⟩, quoted, returns⟩ := Exec.bind_ok.mp returns
    cases returns
    unfold massQuote at quoted
    split at quoted
    · cases quoted
      exact .inl rfl
    · obtain ⟨⟨reply, e''⟩, called, quoted⟩ := Exec.bind_ok.mp quoted
      cases quoted
      exact .inr ⟨.quote s _ _ _ _ _, rfl, .quote _ _ _ _ _ _ _ _ _ called⟩
  | _ =>
    cases returns
    exact .inl rfl

omit [DecidableEq Conn] in
/-- An engine that has loaded its instruments and nothing else. -/
theorem owned_start {text : String} {e : Engine D}
    (load : (Engine.withFillPolicy policy).loadInstruments text = .ok e) :
    Owned policy (start Conn e) := by
  obtain ⟨-, made⟩ := Engine.loadInstruments_ok load
  have view : e.view = (Engine.withFillPolicy policy : Engine D).view := by
    rw [made]
    rfl
  obtain ⟨coherent, fillPolicy⟩ :=
    Engine.reachable_coherent (show Reachable policy
      (Engine.withFillPolicy policy : Engine D) from .refl)
  have nobody : ∀ s, ¬ e.Registered s := by
    rintro s ⟨session, found⟩
    rw [made] at found
    cases found
  constructor
  · exact view ▸ coherent
  · change e.fillPolicy = policy
    rw [made]
    exact fillPolicy
  · refine ⟨fun _ _ => none, ?_, ?_⟩
    · intro s id r recorded
      exact absurd (Engine.registered_of_order recorded) (nobody s)
    · intro s id day entry
      change HashMap.get? e.orderDates (s, id) = some day at entry
      rw [made] at entry
      cases entry
  · intro c d s holds
    cases holds
  · intro s
    simp [start, Stage.holds]
  · intro s
    simp [start, Stage.serves, nobody]
  · intro s c
    simp [start, Stage.serves]
  · rintro o (recorded | ⟨i, side, ho⟩)
    · exact absurd (Engine.registered_of_order recorded) (nobody _)
    · change o ∈ e.view.queue i side at ho
      rw [view] at ho
      cases side <;> cases ho
  · change [] = e.sent
    rw [made]
    rfl
  · intro sink report mem
    cases mem

theorem Owned.move (h : Owned policy x) {x' : Exchange Conn D} (move : Move x x') :
    Owned policy x' := by
  cases move with
  | reject c connecting =>
    exact h.restage (congrArg Stage.holds connecting).symm (congrArg Stage.serves connecting).symm
  | reserve c s connecting free => exact h.reserve connecting free
  | refuse c s connecting taken =>
    exact h.restage (congrArg Stage.holds connecting).symm (congrArg Stage.serves connecting).symm
  | fail c s reserved =>
    exact h.restage (congrArg Stage.holds reserved).symm (congrArg Stage.serves reserved).symm
  | register c s reserved => exact h.register reserved
  | expire c s ids serving today keys e' visits returns =>
    have step : Step x.engine (.expireDayOrdersAt today) e' :=
      .expireDayOrdersAt _ _ _ _ visits returns
    have own : Engine.Serves s (.expireDayOrdersAt today : Command D) := trivial
    exact h.call (congrArg Stage.serves serving) own step
  | handle c s ids serving today now rejectId failed inbound done returns =>
    have called : Owned policy (x.call c done.engine) := by
      rcases handled_call returns with same | ⟨command, own, step⟩
      · rw [same]
        exact h.idle
      · exact h.call (congrArg Stage.serves serving) own step
    exact called.restage (congrArg Stage.holds serving).symm (congrArg Stage.serves serving).symm
  | disconnect c s ids serving orders quotes e' visits returns =>
    exact h.disconnect serving visits returns
  | release c s closing => exact h.release closing

omit [LawfulDecimal D] [DecidableEq Conn] in
theorem Owned.oneOwner (h : Owned policy x) : OneOwner x where
  holder := h.holder
  reserved := h.reserved
  vacant := fun c s => h.vacant
  told := h.told
  submitted := fun sink report mem => (h.submitted sink report mem).1
  absent := by
    intro s free
    obtain ⟨days, dated⟩ := h.dated
    refine Engine.absent_of_unregistered h.coherent dated ?_
    intro registered
    obtain ⟨c, serves⟩ := (h.seated s).mp registered
    exact free ((h.reserved s).mpr ⟨c, Stage.holds_of_serves serves⟩)

end Lawful

/-- In every interleaving of the threads a session has one owner. -/
theorem one_owner_per_session [LawfulDecimal D] {policy : FillPolicy} {text : String} {e : Engine D}
    (load : (Engine.withFillPolicy policy).loadInstruments text = .ok e) {x : Exchange Conn D}
    (run : Runs (start Conn e) x) : OneOwner x := by
  suffices owned : Owned policy x from owned.oneOwner
  induction run with
  | refl => exact owned_start load
  | tail _ move ih => exact ih.move move

def sampleRequest : Inbound ℚ := .newOrderSingle "7" "AAA" .sell .limit 10 5

/-- Two connections want one session: the second is turned away, and the first
gets the report of its order. -/
theorem one_owner_per_session_sample : ∃ (e : Engine ℚ) (x : Exchange Nat ℚ),
    (Engine.withFillPolicy .real).loadInstruments "1 AAA\n" = .ok e ∧ Runs (start Nat e) x ∧
    x.delivered.map (fun entry => (entry.1, entry.2.order.identity)) = [(0, "a", 7)] ∧
    OneOwner x := by
  have ran : ((Engine.withFillPolicy .real).loadInstruments "1 AAA\n").toOption.bind (fun e =>
      (handleBusiness 1 "now" 1 false (e.registerSession "a") "a" .new sampleRequest).toOption.map
        fun done => (e.sent.length, done.engine.sent.map fun report => report.order.identity)) =
      some (0, [("a", 7)]) := by decide +kernel
  obtain ⟨e, load, ran⟩ := Option.bind_eq_some_iff.mp ran
  obtain ⟨done, handled, seen⟩ := Option.map_eq_some_iff.mp ran
  obtain ⟨unsent, sent⟩ := Prod.mk.inj seen
  rw [toOption_eq_some] at load handled
  have first := Relation.ReflTransGen.single (Move.reserve (start Nat e) 0 "a" rfl
    (by simp [start]))
  have second := first.tail (.register _ 0 "a" rfl)
  have third := second.tail (.refuse _ 1 "a" rfl (by simp [setStage, start]))
  have fourth := third.tail (.handle _ 0 "a" .new rfl 1 "now" 1 false sampleRequest done handled)
  refine ⟨e, _, load, fourth, ?_, one_owner_per_session load fourth⟩
  obtain ⟨report, only, named⟩ := List.map_eq_singleton_iff.mp sent
  obtain ⟨owner, -⟩ := Prod.mk.inj named
  simp [setStage, call, routed, start, Engine.registerSession, List.length_eq_zero_iff.mp unsent,
    only, named, owner]

end Exchange

end Fix

end RustTrader

import RustTrader.Fix.Responses

/-!
# Texts and numbers

A connection names its requests by texts, the engine by numbers. What is
reported of an order is written under the text of the request that it answers, or
under the one the order was last accepted with, however many texts have been given
a number by the time the writer comes to it.
-/

namespace RustTrader.Fix

variable {D : Type} [Decimal D]

/-- The texts a report should carry. -/
structure Label where
  clOrdId : Option String
  origClOrdId : Option String

/-- The texts of the request a report is the answer to. -/
def answerOf (inbound : Inbound D) (report : Report D) : Option Label :=
  match inbound, eventOf report with
  | .cancelRequest clOrdId origClOrdId .., .cancelled => some ⟨some clOrdId, some origClOrdId⟩
  | .cancelReplace clOrdId origClOrdId .., .replaced => some ⟨some clOrdId, some origClOrdId⟩
  | _, _ => none

/-- A report on an order under its own number. -/
structure Unprompted (report : Report D) : Prop where
  own : clOrdIdOf report = report.order.id
  alone : origClOrdIdOf report = none

/-- A report under the number of the request it answers. -/
structure AnswerTo (s : String) (ids : WireIdMap) (clOrdId origClOrdId : String)
    (report : Report D) : Prop where
  owner : report.order.sessionId = s
  request : HashMap.get? ids.wireToInternal clOrdId = some (clOrdIdOf report)
  target : ∃ original, origClOrdIdOf report = some original ∧
    HashMap.get? ids.wireToInternal origClOrdId = some original

/-- A report during a call is its answer, or on an order under its own number. -/
def Tells (s : String) (ids : WireIdMap) (answer : Option Label) (report : Report D) : Prop :=
  answer = none ∧ Unprompted report ∨
    ∃ clOrdId origClOrdId, answer = some ⟨some clOrdId, some origClOrdId⟩ ∧
      AnswerTo s ids clOrdId origClOrdId report

/-- What a call does to the engine: the orders it brings in have its text, and what is
reported are its answers or plain. -/
structure Dispatched (e : Engine D) (s : String) (ids : WireIdMap) (request : Option String)
    (answer : Report D → Option Label) (e' : Engine D) (command : Command D) : Prop where
  step : Step e command e'
  serves : Engine.Serves s command
  fresh : ∀ o, Engine.Fresh e command o → o.id ≠ quoteOrderId → ∃ wire,
    request = some wire ∧ HashMap.get? ids.wireToInternal wire = some o.id
  tells : ∀ news, e'.sent = e.sent ++ news → ∀ report ∈ news, Tells s ids (answer report) report

section Lawful

theorem filled_plain {e : Engine D} {report : Report D} (h : Engine.Filled e report) :
    Unprompted report := by
  cases h
  exact ⟨rfl, rfl⟩

theorem filled_answers {e : Engine D} {report : Report D} (h : Engine.Filled e report)
    (inbound : Inbound D) : answerOf inbound report = none := by
  cases h with
  | @intro order =>
    by_cases whole : order.remaining = 0
    · cases inbound <;> simp [answerOf, eventOf, whole]
    · cases inbound <;> simp [answerOf, eventOf, whole]

/-- Only cancellations and replacements are answered under another number. -/
def Unanswered : Command D → Prop
  | .cancelOrderWithId .. | .modifyOrderWithType .. => False
  | _ => True

theorem announced_plain {e : Engine D} {command : Command D} {report : Report D}
    (said : Engine.Announced e command report) (unanswered : Unanswered command) :
    Unprompted report := by
  cases said with
  | fill filled => exact filled_plain filled
  | own kind => exact ⟨rfl, rfl⟩
  | cancelled asked =>
    subst asked
    exact unanswered.elim
  | replaced asked =>
    subst asked
    exact unanswered.elim

variable [LawfulDecimal D] {policy : FillPolicy} {e : Engine D} {s : String} {ids : WireIdMap}
  {today : Int} {now : String} {rejectId : Nat} {failed : Bool} {done : Handled D}

theorem newOrder_dispatched (c : Coherent policy e.view none) (hp : e.fillPolicy = policy)
    (paired : ids.Paired) {clOrdId symbol : String} {side : Side} {orderType : OrderType}
    {price quantity : D} (returns : handleBusiness today now rejectId failed e s ids
      (.newOrderSingle clOrdId symbol side orderType price quantity) = .ok done) :
    done.engine = e ∨ ∃ command, Dispatched e s done.ids (some clOrdId)
      (answerOf (.newOrderSingle clOrdId symbol side orderType price quantity)) done.engine
      command := by
  obtain ⟨attempt, entered, rfl⟩ := handle_newOrderSingle returns
  rw [conclude_engine, conclude_ids]
  rcases enterOrder_cases c hp entered with
    ⟨reason, rfl⟩ | ⟨id, instrumentId, news, fresh, -, step, sent, said, -⟩
  · exact .inl rfl
  refine .inr ⟨_, step, rfl, ?_, ?_⟩
  · intro o enters _
    refine ⟨clOrdId, rfl, ?_⟩
    cases enters with
    | request asked listed valid =>
      cases asked
      rw [Engine.incoming_id]
      exact fresh_found paired fresh
    | replacement asked => cases asked
    | leg asked => cases asked
  · intro news' sent' report hreport
    obtain rfl : news = news' := List.append_cancel_left (sent.symm.trans sent')
    exact .inl ⟨rfl, announced_plain (said report hreport) trivial⟩

omit [LawfulDecimal D] in
theorem cancel_dispatched (c : Coherent policy e.view none) (paired : ids.Paired)
    {clOrdId origClOrdId symbol : String} {side : Side}
    (returns : handleBusiness today now rejectId failed e s ids
      (.cancelRequest clOrdId origClOrdId symbol side) = .ok done) :
    done.engine = e ∨ ∃ command, Dispatched e s done.ids (some clOrdId)
      (answerOf (.cancelRequest clOrdId origClOrdId symbol side)) done.engine command := by
  obtain ⟨attempt, cancelled, rfl⟩ := handle_cancelRequest returns
  rw [conclude_engine, conclude_ids]
  rcases cancelOrder_cases c cancelled with
    ⟨reason, rfl⟩ | ⟨request, original, order, execId, fresh, -, found, step, sent, identity⟩
  · exact .inl rfl
  refine .inr ⟨_, step, rfl, ?_, ?_⟩
  · intro o enters
    cases enters with
    | request asked => cases asked
    | replacement asked => cases asked
    | leg asked => cases asked
  · intro news sent' report hreport
    rw [← List.append_cancel_left (sent.symm.trans sent')] at hreport
    obtain rfl := List.mem_singleton.mp hreport
    exact .inr ⟨clOrdId, origClOrdId, rfl, congrArg Prod.fst identity,
      fresh_found paired fresh, original, rfl, found⟩

theorem replace_dispatched (c : Coherent policy e.view none) (hp : e.fillPolicy = policy)
    (paired : ids.Paired) {clOrdId origClOrdId symbol : String} {side : Side}
    {orderType : OrderType} {price quantity : D}
    (returns : handleBusiness today now rejectId failed e s ids
      (.cancelReplace clOrdId origClOrdId symbol side orderType price quantity) = .ok done) :
    done.engine = e ∨ ∃ command, Dispatched e s done.ids (some clOrdId)
      (answerOf (.cancelReplace clOrdId origClOrdId symbol side orderType price quantity))
      done.engine command := by
  obtain ⟨attempt, replaced, rfl⟩ := handle_cancelReplace returns
  rw [conclude_engine, conclude_ids]
  rcases replaceOrder_cases c hp replaced with
    ⟨reason, rfl⟩ | ⟨request, original, order, execId, fills, fresh, -, found, step, sent,
      identity, filled⟩
  · exact .inl rfl
  refine .inr ⟨_, step, rfl, ?_, ?_⟩
  · intro o enters _
    refine ⟨clOrdId, rfl, ?_⟩
    cases enters with
    | request asked => cases asked
    | replacement asked recorded =>
      cases asked
      exact fresh_found paired fresh
    | leg asked => cases asked
  · intro news sent' report hreport
    rw [← List.append_cancel_left (sent.symm.trans sent')] at hreport
    rcases List.mem_cons.mp hreport with rfl | hfill
    · obtain ⟨owner, number⟩ := Prod.mk.inj identity
      exact .inr ⟨clOrdId, origClOrdId, rfl, owner,
        (fresh_found paired fresh).trans (congrArg some number.symm), original, rfl, found⟩
    · have fill := filled report hfill
      exact .inl ⟨filled_answers fill _, filled_plain fill⟩

theorem quote_dispatched (c : Coherent policy e.view none) (hp : e.fillPolicy = policy)
    {quoteId symbol : String} {responseLevel : Nat} {bidPx bidQty offerPx offerQty : D}
    (returns : handleBusiness today now rejectId failed e s ids
      (.massQuote quoteId responseLevel symbol bidPx bidQty offerPx offerQty) = .ok done) :
    done.engine = e ∨ ∃ command, Dispatched e s done.ids none
      (answerOf (.massQuote quoteId responseLevel symbol bidPx bidQty offerPx offerQty))
      done.engine command := by
  obtain ⟨⟨result, e'⟩, quoted, returns⟩ := Exec.bind_ok.mp returns
  cases returns
  unfold massQuote at quoted
  split at quoted
  · cases quoted
    exact .inl rfl
  obtain ⟨⟨reply, e''⟩, called, quoted⟩ := Exec.bind_ok.mp quoted
  cases quoted
  have step : Step e (.quote s _ _ _ _ _) e' := .quote _ _ _ _ _ _ _ _ _ called
  refine .inr ⟨_, step, rfl, ?_, ?_⟩
  · intro o enters regular
    cases enters with
    | request asked => cases asked
    | replacement asked => cases asked
    | leg asked listed named terms => exact absurd terms.quoted regular
  · intro news sent' report hreport
    obtain ⟨news', sent, said⟩ := Engine.step_announces c hp step
    obtain rfl : news' = news := List.append_cancel_left (sent.symm.trans sent')
    exact .inl ⟨rfl, announced_plain (said report hreport) trivial⟩

/-- A message leaves the engine alone or is dispatched. -/
theorem handled_dispatched (c : Coherent policy e.view none) (hp : e.fillPolicy = policy)
    (paired : ids.Paired) {inbound : Inbound D}
    (returns : handleBusiness today now rejectId failed e s ids inbound = .ok done) :
    done.engine = e ∨ ∃ command,
      Dispatched e s done.ids (requestOf inbound) (answerOf inbound) done.engine command := by
  cases inbound with
  | newOrderSingle => exact newOrder_dispatched c hp paired returns
  | cancelRequest => exact cancel_dispatched c paired returns
  | cancelReplace => exact replace_dispatched c hp paired returns
  | massQuote => exact quote_dispatched c hp returns
  | _ =>
    cases returns
    exact .inl rfl

omit [LawfulDecimal D] in
/-- An expiry brings in nothing and answers nobody. -/
theorem expired_dispatched (c : Coherent policy e.view none) {keys : List (String × OrderId)}
    {e' : Engine D} (visits : keys.Perm (e.expired today))
    (returns : e.expireDayOrdersAt keys = .ok e') :
    Dispatched e s ids none (fun _ => none) e' (.expireDayOrdersAt today) := by
  refine ⟨.expireDayOrdersAt _ _ _ _ visits returns, trivial, ?_, ?_⟩
  · intro o enters
    cases enters with
    | request asked => cases asked
    | replacement asked => cases asked
    | leg asked => cases asked
  · intro news' sent' report hreport
    obtain ⟨news, sent, said⟩ := Engine.expire_announces c returns today
    obtain rfl : news = news' := List.append_cancel_left (sent.symm.trans sent')
    exact .inl ⟨rfl, announced_plain (said report hreport) trivial⟩

end Lawful

/-- The exchange with a history: the texts used on each connection, the text under
which each arrival was accepted, and the reports on their way to the writers, with what
they should say. A connection keeps its identifiers after it is closed, for its writer. -/
structure Dialogue (Conn D : Type) [Decimal D] where
  exchange : Exchange Conn D
  ids : Conn → WireIdMap
  used : Conn → List String
  acceptedAs : Nat → Option String
  queued : Conn → List (Report D × Label)
  written : List (Conn × Report D × Fields × Label)

namespace Dialogue

variable {Conn : Type} [DecidableEq Conn]

def start (Conn : Type) (e : Engine D) : Dialogue Conn D where
  exchange := .start Conn e
  ids := fun _ => .new
  used := fun _ => []
  acceptedAs := fun _ => none
  queued := fun _ => []
  written := []

/-- The arrivals numbered by a call have the text of its request. -/
def accepting (y : Dialogue Conn D) (e' : Engine D) (wire : Option String) (n : Nat) :
    Option String :=
  if n ≤ y.exchange.engine.nextArrival then y.acceptedAs n
  else if n ≤ e'.nextArrival then wire
  else none

/-- An answer to the caller has the texts of its request, anything else the text its
order was accepted under. -/
def label (answer : Option Label) (acceptedAs : Nat → Option String) (report : Report D) :
    Label :=
  answer.getD ⟨acceptedAs report.order.arrival, none⟩

/-- The history after a call of `c`, perhaps for a request. -/
def call (y : Dialogue Conn D) (c : Conn) (request : Option String)
    (answer : Report D → Option Label) (e' : Engine D) : Dialogue Conn D :=
  let acceptedAs := y.accepting e' request
  { y with
    exchange := y.exchange.call c e'
    acceptedAs := acceptedAs
    queued := fun d => y.queued d ++
      ((y.exchange.routed e').filter fun entry => entry.1 = d).map fun entry =>
        (entry.2, label (if d = c then answer entry.2 else none) acceptedAs entry.2) }

/-- The history after a message of `c` for the session `s`. -/
def handled (y : Dialogue Conn D) (c : Conn) (s : String) (inbound : Inbound D)
    (done : Handled D) : Dialogue Conn D :=
  { y.call c (requestOf inbound) (answerOf inbound) done.engine with
    exchange := (y.exchange.call c done.engine).setStage c (.serving s done.ids)
    ids := Function.update y.ids c done.ids
    used := Function.update y.used c ((requestOf inbound).toList ++ y.used c) }

def setExchange (y : Dialogue Conn D) (x : Exchange Conn D) : Dialogue Conn D :=
  { y with exchange := x }

/-- One step of a thread, or of a writer. -/
inductive Turn : Dialogue Conn D → Dialogue Conn D → Prop
  | reject (y : Dialogue Conn D) (c : Conn) (connecting : y.exchange.stage c = .connecting) :
      Turn y (y.setExchange (y.exchange.setStage c .closed))
  | reserve (y : Dialogue Conn D) (c : Conn) (s : String)
      (connecting : y.exchange.stage c = .connecting) (free : s ∉ y.exchange.activeSessions) :
      Turn y (y.setExchange ({ y.exchange with
        activeSessions := insert s y.exchange.activeSessions }.setStage c (.reserved s)))
  | refuse (y : Dialogue Conn D) (c : Conn) (s : String)
      (connecting : y.exchange.stage c = .connecting) (taken : s ∈ y.exchange.activeSessions) :
      Turn y (y.setExchange (y.exchange.setStage c .closed))
  | fail (y : Dialogue Conn D) (c : Conn) (s : String)
      (reserved : y.exchange.stage c = .reserved s) :
      Turn y (y.setExchange (y.exchange.setStage c (.closing s)))
  | register (y : Dialogue Conn D) (c : Conn) (s : String)
      (reserved : y.exchange.stage c = .reserved s) :
      Turn y (y.setExchange ({ y.exchange with
        engine := y.exchange.engine.registerSession s
        sender := Function.update y.exchange.sender s (some c) }.setStage c (.serving s .new)))
  | expire (y : Dialogue Conn D) (c : Conn) (s : String) (ids : WireIdMap)
      (serving : y.exchange.stage c = .serving s ids) (today : Int)
      (keys : List (String × OrderId)) (e' : Engine D)
      (visits : keys.Perm (y.exchange.engine.expired today))
      (returns : y.exchange.engine.expireDayOrdersAt keys = .ok e') :
      Turn y (y.call c none (fun _ => none) e')
  | handle (y : Dialogue Conn D) (c : Conn) (s : String) (ids : WireIdMap)
      (serving : y.exchange.stage c = .serving s ids) (today : Int) (now : String)
      (rejectId : Nat) (failed : Bool) (inbound : Inbound D) (done : Handled D)
      (returns : handleBusiness today now rejectId failed y.exchange.engine s ids inbound =
        .ok done) : Turn y (y.handled c s inbound done)
  | disconnect (y : Dialogue Conn D) (c : Conn) (s : String) (ids : WireIdMap)
      (serving : y.exchange.stage c = .serving s ids) (orders : List (OrderId × Order D))
      (quotes : List (Int × QuotePair D)) (e' : Engine D)
      (visits : ∀ session, y.exchange.engine.sessions.get? s = some session →
        Visits session orders quotes)
      (returns : y.exchange.engine.sessionDisconnect s orders quotes = .ok e') :
      Turn y (y.setExchange ({ y.exchange with
        engine := e'
        sender := Function.update y.exchange.sender s none }.setStage c (.closing s)))
  | release (y : Dialogue Conn D) (c : Conn) (s : String)
      (closing : y.exchange.stage c = .closing s) :
      Turn y (y.setExchange ({ y.exchange with
        activeSessions := y.exchange.activeSessions.erase s }.setStage c .closed))
  /-- The writer of a connection takes the next report. -/
  | write (y : Dialogue Conn D) (c : Conn) (now : String) (report : Report D) (label : Label)
      (rest : List (Report D × Label)) (next : y.queued c = (report, label) :: rest) :
      Turn y { y with
        queued := Function.update y.queued c rest
        written := y.written ++ [(c, report, writtenReport now (y.ids c) report, label)] }

def Runs : Dialogue Conn D → Dialogue Conn D → Prop := Relation.ReflTransGen Turn

/-- Every move of the exchange has its history. -/
theorem turn_of_move (y : Dialogue Conn D) {x' : Exchange Conn D}
    (move : Exchange.Move y.exchange x') : ∃ y', Turn y y' ∧ y'.exchange = x' := by
  cases move with
  | reject c connecting => exact ⟨_, .reject y c connecting, rfl⟩
  | reserve c s connecting free => exact ⟨_, .reserve y c s connecting free, rfl⟩
  | refuse c s connecting taken => exact ⟨_, .refuse y c s connecting taken, rfl⟩
  | fail c s reserved => exact ⟨_, .fail y c s reserved, rfl⟩
  | register c s reserved => exact ⟨_, .register y c s reserved, rfl⟩
  | expire c s ids serving today keys e' visits returns =>
    exact ⟨_, .expire y c s ids serving today keys e' visits returns, rfl⟩
  | handle c s ids serving today now rejectId failed inbound done returns =>
    exact ⟨_, .handle y c s ids serving today now rejectId failed inbound done returns, rfl⟩
  | disconnect c s ids serving orders quotes e' visits returns =>
    exact ⟨_, .disconnect y c s ids serving orders quotes e' visits returns, rfl⟩
  | release c s closing => exact ⟨_, .release y c s closing, rfl⟩

/-- A turn moves the exchange, or leaves it alone. -/
theorem Turn.moves {y y' : Dialogue Conn D} (turn : Turn y y') :
    y'.exchange = y.exchange ∨ Exchange.Move y.exchange y'.exchange := by
  cases turn with
  | reject c connecting => exact .inr (.reject _ c connecting)
  | reserve c s connecting free => exact .inr (.reserve _ c s connecting free)
  | refuse c s connecting taken => exact .inr (.refuse _ c s connecting taken)
  | fail c s reserved => exact .inr (.fail _ c s reserved)
  | register c s reserved => exact .inr (.register _ c s reserved)
  | expire c s ids serving today keys e' visits returns =>
    exact .inr (.expire _ c s ids serving today keys e' visits returns)
  | handle c s ids serving today now rejectId failed inbound done returns =>
    exact .inr (.handle _ c s ids serving today now rejectId failed inbound done returns)
  | disconnect c s ids serving orders quotes e' visits returns =>
    exact .inr (.disconnect _ c s ids serving orders quotes e' visits returns)
  | release c s closing => exact .inr (.release _ c s closing)
  | write c now report label rest next => exact .inl rfl

/-- The map gives back the texts of a label for the numbers of a report. -/
def Told (ids : WireIdMap) (report : Report D) (label : Label) : Prop :=
  report.order.id ≠ quoteOrderId → ∃ wire, label.clOrdId = some wire ∧
    clOrdIdOf report ≠ 0 ∧ ids.wireFor (clOrdIdOf report) = some wire ∧
    (origClOrdIdOf report).map ids.wireFor = label.origClOrdId.map some

/-- A regular order is known by the text it was accepted under. -/
def Accepted (y : Dialogue Conn D) (o : Order D) : Prop :=
  o.id ≠ quoteOrderId → ∃ c wire, y.exchange.sender o.sessionId = some c ∧
    (y.ids c).wireFor o.id = some wire ∧ y.acceptedAs o.arrival = some wire

/-- A text that is never fresh again. -/
def Spent (ids : WireIdMap) (wire : String) : Prop :=
  wire = "" ∨ HashMap.get? ids.wireToInternal wire ≠ none ∨ ids.Full

/-- The report is written with the texts of its label. -/
def Verbatim (report : Report D) (fields : Fields) (label : Label) : Prop :=
  report.order.id ≠ quoteOrderId → label.clOrdId ≠ none ∧
    fieldOf fields 11 = label.clOrdId ∧ fieldOf fields 41 = label.origClOrdId

/-- A thread that has not been served yet. -/
def Early : Stage → Prop
  | .connecting | .reserved _ => True
  | _ => False

structure Worded (policy : FillPolicy) (y : Dialogue Conn D) : Prop where
  owned : Exchange.Owned policy y.exchange
  agree : ∀ c s ids, y.exchange.stage c = .serving s ids → y.ids c = ids
  blank : ∀ c, Early (y.exchange.stage c) → y.ids c = .new
  issued : ∀ c, (y.ids c).Paired ∧ (y.ids c).Packed
  known : ∀ o, y.exchange.engine.view.Known o → y.Accepted o
  queued : ∀ c, ∀ entry ∈ y.queued c, Told (y.ids c) entry.1 entry.2
  written : ∀ c report fields label, (c, report, fields, label) ∈ y.written →
    Verbatim report fields label
  used : ∀ c, ∀ wire ∈ y.used c, Spent (y.ids c) wire

omit [Decimal D] in
/-- A plain report carries the text of its order. -/
theorem told_plain {ids : WireIdMap} {report : Report D} {wire : String}
    (plain : Unprompted report) (named : ids.wireFor report.order.id = some wire) :
    Told ids report ⟨some wire, none⟩ := by
  intro regular
  refine ⟨wire, rfl, plain.own ▸ regular, plain.own ▸ named, ?_⟩
  rw [plain.alone]
  rfl

omit [Decimal D] in
/-- An answer carries the texts of its request. -/
theorem told_reply {ids : WireIdMap} {s clOrdId origClOrdId : String} {report : Report D}
    (reply : AnswerTo s ids clOrdId origClOrdId report) (paired : ids.Paired) :
    Told ids report ⟨some clOrdId, some origClOrdId⟩ := by
  intro regular
  obtain ⟨original, target, found⟩ := reply.target
  have own := paired.forth clOrdId _ reply.request
  refine ⟨clOrdId, rfl, ne_of_gt (paired.range _ _ own).1, own, ?_⟩
  rw [target]
  exact congrArg some (paired.forth origClOrdId original found)

theorem told_verbatim {ids : WireIdMap} (paired : ids.Paired) {report : Report D} {label : Label}
    (h : Told ids report label) (now : String) :
    Verbatim report (writtenReport now ids report) label := by
  intro regular
  obtain ⟨wire, own, nonzero, named, orig⟩ := h regular
  refine ⟨by simp [own], ?_, ?_⟩
  · rw [own]
    exact written_clOrdId nonzero named
  · rw [written_orig]
    cases original : origClOrdIdOf report with
    | none =>
      rw [original] at orig
      exact (Option.map_eq_none_iff.mp orig.symm).symm
    | some id =>
      rw [original] at orig
      obtain ⟨target, same, given⟩ := Option.map_eq_some_iff.mp orig.symm
      rw [same]
      exact congrArg some (wireText_number paired given.symm)

theorem wireFor_extends {map map' : WireIdMap} (paired : map.Paired) (paired' : map'.Paired)
    (extended : map.Extends map') {id : OrderId} {wire : String}
    (named : map.wireFor id = some wire) : map'.wireFor id = some wire :=
  paired'.forth wire id (extended wire id (paired.back wire id named))

omit [Decimal D] in
theorem Told.extends {map map' : WireIdMap} (paired : map.Paired) (paired' : map'.Paired)
    (extended : map.Extends map') {report : Report D} {label : Label}
    (h : Told map report label) : Told map' report label := by
  intro regular
  obtain ⟨wire, own, nonzero, named, orig⟩ := h regular
  refine ⟨wire, own, nonzero, wireFor_extends paired paired' extended named, ?_⟩
  cases original : origClOrdIdOf report with
  | none =>
    rw [original] at orig
    exact orig
  | some id =>
    rw [original] at orig
    obtain ⟨target, same, given⟩ := Option.map_eq_some_iff.mp orig.symm
    rw [same, Option.map_some, Option.map_some,
      wireFor_extends paired paired' extended given.symm]

theorem Spent.extends {map map' : WireIdMap} (paired : map.Paired) (paired' : map'.Paired)
    (extended : map.Extends map') {wire : String} (h : Spent map wire) : Spent map' wire := by
  rcases h with empty | known | full
  · exact .inl empty
  · obtain ⟨id, found⟩ := Option.ne_none_iff_exists'.mp known
    exact .inr (.inl (by rw [extended wire id found]; exact Option.some_ne_none id))
  · refine .inr (.inr ?_)
    intro id positive bound
    obtain ⟨wire', named⟩ := Option.ne_none_iff_exists'.mp (full id positive bound)
    rw [wireFor_extends paired paired' extended named]
    exact Option.some_ne_none wire'

/-- A text that is given a number, or refused one, is spent. -/
theorem freshId_spends {map : WireIdMap} (paired : map.Paired) (packed : map.Packed)
    (wire : String) : Spent (map.freshId wire).2 wire := by
  unfold WireIdMap.freshId
  split
  · rename_i known
    exact .inr (.inl (Option.isSome_iff_ne_none.mp known))
  · have split : map.intern wire = ((map.intern wire).1, (map.intern wire).2) := rfl
    obtain ⟨-, -, ⟨reason, failed, same⟩ | ⟨id, -, interned⟩⟩ :=
      WireIdMap.intern_cases paired split
    · rw [same]
      rcases (WireIdMap.intern_refused packed wire).2.mp ⟨reason, failed⟩ with empty | ⟨-, full⟩
      · exact .inl empty
      · exact .inr (.inr full)
    · exact .inr (.inl (by rw [interned.given]; exact Option.some_ne_none id))

theorem spent_refused {map : WireIdMap} (packed : map.Packed) {wire : String}
    (h : Spent map wire) : ∃ reason, (map.freshId wire).1 = .error reason := by
  unfold WireIdMap.freshId
  split
  · exact ⟨_, rfl⟩
  · rename_i unknown
    have absent : HashMap.get? map.wireToInternal wire = none := by
      simpa [HashMap.contains] using unknown
    rcases h with empty | known | full
    · exact (WireIdMap.intern_refused packed wire).2.mpr (.inl empty)
    · exact absurd absent known
    · exact (WireIdMap.intern_refused packed wire).2.mpr (.inr ⟨absent, full⟩)

omit [Decimal D] in
theorem noted_extends {ids : WireIdMap} (paired : ids.Paired) (inbound : Inbound D) :
    ids.Extends (noted ids inbound) := by
  unfold noted
  split
  · rename_i wire _
    have split : ids.freshId wire = ((ids.freshId wire).1, (ids.freshId wire).2) := rfl
    exact (WireIdMap.freshId_cases paired split).2.1
  · exact .refl ids

section Lawful

variable [LawfulDecimal D] {policy : FillPolicy} {y : Dialogue Conn D} {c : Conn} {s : String}

omit [LawfulDecimal D] [DecidableEq Conn] in
/-- A move of the exchange that reports nothing. -/
theorem Worded.aside (h : Worded policy y) {x' : Exchange Conn D}
    (owned : Exchange.Owned policy x')
    (agree : ∀ c s ids, x'.stage c = .serving s ids → y.ids c = ids)
    (blank : ∀ c, Early (x'.stage c) → y.ids c = .new)
    (known : ∀ o, x'.engine.view.Known o → y.exchange.engine.view.Known o ∧
      x'.sender o.sessionId = y.exchange.sender o.sessionId) :
    Worded policy (y.setExchange x') := by
  refine ⟨owned, agree, blank, h.issued, ?_, h.queued, h.written, h.used⟩
  intro o mem regular
  obtain ⟨before, sender⟩ := known o mem
  obtain ⟨d, wire, sends, named, accepted⟩ := h.known o before regular
  exact ⟨d, wire, sender.trans sends, named, accepted⟩

omit [LawfulDecimal D] in
/-- A thread enters a stage in which it is not served. -/
theorem Worded.restage (h : Worded policy y) {x : Exchange Conn D} {stage : Stage}
    (owned : Exchange.Owned policy (x.setStage c stage))
    (same : x.stage = y.exchange.stage)
    (early : Early stage → Early (y.exchange.stage c))
    (unserved : ∀ s ids, stage ≠ .serving s ids)
    (known : ∀ o, x.engine.view.Known o → y.exchange.engine.view.Known o ∧
      x.sender o.sessionId = y.exchange.sender o.sessionId) :
    Worded policy (y.setExchange (x.setStage c stage)) := by
  refine h.aside owned ?_ ?_ known
  · intro d s ids serving
    by_cases here : d = c
    · rw [here, Exchange.setStage_self] at serving
      exact absurd serving (unserved s ids)
    · rw [Exchange.setStage_other _ here, same] at serving
      exact h.agree d s ids serving
  · intro d start
    by_cases here : d = c
    · rw [here, Exchange.setStage_self] at start
      exact here ▸ h.blank c (early start)
    · rw [Exchange.setStage_other _ here, same] at start
      exact h.blank d start

omit [DecidableEq Conn] [LawfulDecimal D] in
theorem lasting_accepted (Q : String → OrderId → Nat → Prop) :
    Lasting (fun o : Order D => Q o.sessionId o.id o.arrival) := by
  refine ⟨?_, fun h _ => h, fun h => h⟩
  intro o o' quantity price h _ f _ _ _
  obtain ⟨owner, number⟩ := Prod.mk.inj f.identity
  rw [owner, number, f.arrival]
  exact h

/-- A call leaves every order accepted and every report with its texts. -/
theorem Worded.called (h : Worded policy y) {ids ids' : WireIdMap}
    (serving : y.exchange.stage c = .serving s ids) (paired : ids'.Paired)
    (extended : ids.Extends ids') {request : Option String} {answer : Report D → Option Label}
    {e' : Engine D} (effect : e' = y.exchange.engine ∨
      ∃ command, Dispatched y.exchange.engine s ids' request answer e' command) :
    (∀ o, e'.view.Known o →
      Accepted { y.call c request answer e' with ids := Function.update y.ids c ids' } o) ∧
    ∀ d, ∀ entry ∈ (y.call c request answer e').queued d,
      Told (Function.update y.ids c ids' d) entry.1 entry.2 := by
  have grown : ∀ d, (Function.update y.ids c ids' d).Paired ∧
      (y.ids d).Extends (Function.update y.ids c ids' d) := by
    intro d
    by_cases here : d = c
    · rw [here, Function.update_self, h.agree c s ids serving]
      exact ⟨paired, extended⟩
    · rw [Function.update_of_ne here]
      exact ⟨(h.issued d).1, .refl _⟩
  have before : ∀ d, ∀ entry ∈ y.queued d,
      Told (Function.update y.ids c ids' d) entry.1 entry.2 :=
    fun d entry mem => (h.queued d entry mem).extends (h.issued d).1 (grown d).1 (grown d).2
  have kept : ∀ o, y.exchange.engine.view.Known o →
      Accepted { y.call c request answer e' with ids := Function.update y.ids c ids' } o := by
    intro o known regular
    obtain ⟨d, wire, sends, named, accepted⟩ := h.known o known regular
    refine ⟨d, wire, sends, wireFor_extends (h.issued d).1 (grown d).1 (grown d).2 named, ?_⟩
    exact (if_pos (h.owned.known o known).2).trans accepted
  rcases effect with same | ⟨command, dispatched⟩
  · subst same
    refine ⟨kept, ?_⟩
    intro d entry mem
    simp only [call, Exchange.routed, List.drop_length, List.filterMap_nil, List.filter_nil,
      List.map_nil, List.append_nil] at mem
    exact before d entry mem
  have sends : y.exchange.sender s = some c := (h.owned.sink s c).mpr (by rw [serving]; rfl)
  have brought : ∀ o, Engine.Fresh y.exchange.engine command o →
      Engine.Numbers y.exchange.engine e' o →
      Accepted { y.call c request answer e' with ids := Function.update y.ids c ids' } o := by
    intro o fresh numbered regular
    obtain ⟨wire, asked, found⟩ := dispatched.fresh o fresh regular
    have owner := Exchange.fresh_session h.owned.coherent dispatched.serves fresh
    refine ⟨c, wire, owner ▸ sends, ?_, ?_⟩
    · change (Function.update y.ids c ids' c).wireFor o.id = some wire
      rw [Function.update_self]
      exact paired.forth wire o.id found
    · exact ((if_neg (not_le.mpr numbered.1)).trans (if_pos numbered.2)).trans asked
  obtain ⟨news, carried⟩ := Engine.step_carries (lasting_accepted fun owner id arrival =>
      id ≠ quoteOrderId → ∃ d wire, y.exchange.sender owner = some d ∧
        (Function.update y.ids c ids' d).wireFor id = some wire ∧
        y.accepting e' request arrival = some wire) h.owned.coherent h.owned.fillPolicy kept
    (fun o fresh numbered => ⟨fun _ => brought o fresh numbered,
      fun _ => brought o fresh numbered, fun _ => brought o fresh numbered⟩) dispatched.step
  refine ⟨carried.known, ?_⟩
  intro d entry mem
  rcases List.mem_append.mp mem with old | new
  · exact before d entry old
  obtain ⟨⟨sink, report⟩, routed, rfl⟩ := List.mem_map.mp new
  obtain ⟨handed, here⟩ := List.mem_filter.mp routed
  obtain rfl : sink = d := of_decide_eq_true here
  rw [Exchange.routed, carried.sent, List.drop_left] at handed
  obtain ⟨report', told, sent⟩ := List.mem_filterMap.mp handed
  obtain ⟨d, delivers, same⟩ := Option.map_eq_some_iff.mp sent
  obtain ⟨rfl, rfl⟩ := Prod.mk.inj same
  intro regular
  obtain ⟨d', wire, delivers', named, accepted⟩ := carried.told report' told regular
  obtain rfl := Option.some.inj (delivers.symm.trans delivers')
  rcases dispatched.tells news carried.sent report' told with
    ⟨unanswered, plain⟩ | ⟨clOrdId, origClOrdId, answered, reply⟩
  · have unlabelled : (if d = c then answer report' else none) = none := by
      split
      · exact unanswered
      · rfl
    rw [label, unlabelled, Option.getD_none, accepted]
    exact told_plain plain named regular
  · obtain rfl : d = c := Option.some.inj (delivers.symm.trans (reply.owner ▸ sends))
    rw [label, if_pos rfl, answered, Function.update_self]
    exact told_reply reply paired regular

theorem Worded.expire (h : Worded policy y) {ids : WireIdMap}
    (serving : y.exchange.stage c = .serving s ids) {today : Int} {keys : List (String × OrderId)}
    {e' : Engine D} (visits : keys.Perm (y.exchange.engine.expired today))
    (returns : y.exchange.engine.expireDayOrdersAt keys = .ok e') :
    Worded policy (y.call c none (fun _ => none) e') := by
  have same : Function.update y.ids c ids = y.ids := by
    rw [← h.agree c s ids serving, Function.update_eq_self]
  have paired : ids.Paired := h.agree c s ids serving ▸ (h.issued c).1
  obtain ⟨known, queued⟩ := h.called serving paired (.refl ids)
    (.inr ⟨_, expired_dispatched h.owned.coherent visits returns⟩)
  rw [same] at known queued
  exact ⟨h.owned.move (.expire _ c s ids serving today keys e' visits returns), h.agree, h.blank,
    h.issued, known, queued, h.written, h.used⟩

theorem Worded.handle (h : Worded policy y) {ids : WireIdMap}
    (serving : y.exchange.stage c = .serving s ids) {today : Int} {now : String} {rejectId : Nat}
    {failed : Bool} {inbound : Inbound D} {done : Handled D}
    (returns : handleBusiness today now rejectId failed y.exchange.engine s ids inbound =
      .ok done) : Worded policy (y.handled c s inbound done) := by
  have agreed := h.agree c s ids serving
  obtain ⟨paired, packed⟩ := h.issued c
  rw [agreed] at paired packed
  obtain ⟨paired', packed'⟩ := noted_issued paired packed inbound
  have extended := noted_extends paired inbound
  have noted := handled_ids returns
  rw [← noted] at paired' packed' extended
  obtain ⟨known, queued⟩ := h.called serving paired' extended
    (handled_dispatched h.owned.coherent h.owned.fillPolicy paired returns)
  have stage : ∀ {d : Conn}, d ≠ c → (y.handled c s inbound done).exchange.stage d =
      y.exchange.stage d := fun other => Exchange.setStage_other _ other _
  refine ⟨h.owned.move (.handle _ c s ids serving today now rejectId failed inbound done returns),
    ?_, ?_, ?_, known, queued, h.written, ?_⟩
  · intro d s' ids' serving'
    by_cases here : d = c
    · subst here
      have same := (Exchange.setStage_self _ d _).symm.trans serving'
      cases same
      exact Function.update_self ..
    · rw [stage here] at serving'
      exact (Function.update_of_ne here ..).trans (h.agree d s' ids' serving')
  · intro d early
    by_cases here : d = c
    · subst here
      have same : (y.handled d s inbound done).exchange.stage d = .serving s done.ids :=
        Exchange.setStage_self _ d _
      rw [same] at early
      exact early.elim
    · rw [stage here] at early
      exact (Function.update_of_ne here ..).trans (h.blank d early)
  · intro d
    by_cases here : d = c
    · subst here
      change (Function.update y.ids d done.ids d).Paired ∧
        (Function.update y.ids d done.ids d).Packed
      rw [Function.update_self]
      exact ⟨paired', packed'⟩
    · change (Function.update y.ids c done.ids d).Paired ∧
        (Function.update y.ids c done.ids d).Packed
      rw [Function.update_of_ne here]
      exact h.issued d
  · intro d wire mem
    change wire ∈ Function.update y.used c ((requestOf inbound).toList ++ y.used c) d at mem
    change Spent (Function.update y.ids c done.ids d) wire
    by_cases here : d = c
    · subst here
      rw [Function.update_self] at mem ⊢
      rcases List.mem_append.mp mem with new | old
      · have asked : requestOf inbound = some wire := by simpa using new
        rw [noted, Fix.noted, asked]
        exact freshId_spends paired packed wire
      · exact (agreed ▸ h.used d wire old).extends paired paired' extended
    · rw [Function.update_of_ne here] at mem ⊢
      exact h.used d wire mem

omit [LawfulDecimal D] in
theorem Worded.write (h : Worded policy y) {report : Report D} {label : Label}
    {rest : List (Report D × Label)} (next : y.queued c = (report, label) :: rest)
    (now : String) : Worded policy { y with
      queued := Function.update y.queued c rest
      written := y.written ++ [(c, report, writtenReport now (y.ids c) report, label)] } := by
  refine ⟨h.owned, h.agree, h.blank, h.issued, h.known, ?_, ?_, h.used⟩
  · intro d entry mem
    change entry ∈ Function.update y.queued c rest d at mem
    by_cases here : d = c
    · subst here
      rw [Function.update_self] at mem
      exact h.queued d entry (by rw [next]; exact List.mem_cons_of_mem _ mem)
    · rw [Function.update_of_ne here] at mem
      exact h.queued d entry mem
  · intro d report' fields label' mem
    rcases List.mem_append.mp mem with old | new
    · exact h.written d report' fields label' old
    · cases List.mem_singleton.mp new
      exact told_verbatim (h.issued c).1
        (h.queued c (report, label) (by rw [next]; exact List.mem_cons_self)) now

theorem Worded.turn (h : Worded policy y) {y' : Dialogue Conn D} (turn : Turn y y') :
    Worded policy y' := by
  have still : ∀ o, y.exchange.engine.view.Known o → y.exchange.engine.view.Known o ∧
      y.exchange.sender o.sessionId = y.exchange.sender o.sessionId := fun o known => ⟨known, rfl⟩
  cases turn with
  | reject c connecting =>
    exact h.restage (h.owned.move (.reject _ c connecting)) rfl False.elim
      (fun _ _ => Stage.noConfusion) still
  | reserve c s connecting free =>
    exact h.restage (h.owned.move (.reserve _ c s connecting free)) rfl
      (fun _ => connecting ▸ trivial) (fun _ _ => Stage.noConfusion) still
  | refuse c s connecting taken =>
    exact h.restage (h.owned.move (.refuse _ c s connecting taken)) rfl
      False.elim (fun _ _ => Stage.noConfusion) still
  | fail c s reserved =>
    exact h.restage (h.owned.move (.fail _ c s reserved)) rfl False.elim
      (fun _ _ => Stage.noConfusion) still
  | register c s reserved =>
    have vacant := h.owned.vacant reserved
    have start : y.ids c = .new := h.blank c (by rw [reserved]; exact trivial)
    refine h.aside (h.owned.move (.register _ c s reserved)) ?_ ?_ ?_
    · intro d s' ids serving
      by_cases here : d = c
      · subst here
        have same := (Exchange.setStage_self _ d _).symm.trans serving
        cases same
        exact start
      · exact h.agree d s' ids ((Exchange.setStage_other _ here _).symm.trans serving)
    · intro d early
      by_cases here : d = c
      · exact here ▸ start
      · rw [Exchange.setStage_other _ here] at early
        exact h.blank d early
    · intro o known
      have before : y.exchange.engine.view.Known o := Engine.view_registerSession vacant ▸ known
      refine ⟨before, Function.update_of_ne ?_ ..⟩
      intro same
      exact vacant (same ▸ Engine.registered_of_known h.owned.coherent o before)
  | expire c s ids serving today keys e' visits returns => exact h.expire serving visits returns
  | handle c s ids serving today now rejectId failed inbound done returns =>
    exact h.handle serving returns
  | disconnect c s ids serving orders quotes e' visits returns =>
    obtain ⟨departed, -⟩ := Engine.sessionDisconnect_spec h.owned.coherent visits returns
    have owned := h.owned.move (.disconnect _ c s ids serving orders quotes e' visits returns)
    refine h.restage owned rfl False.elim (fun _ _ => Stage.noConfusion) ?_
    intro o known
    have own := Engine.registered_of_known owned.coherent o known
    obtain ⟨-, other⟩ := (departed.registered _).mp own
    refine ⟨?_, Function.update_of_ne other ..⟩
    exact (departed.carries (P := y.exchange.engine.view.Known) fun _ => id).known o known
  | release c s closing =>
    exact h.restage (h.owned.move (.release _ c s closing)) rfl False.elim
      (fun _ _ => Stage.noConfusion) still
  | write c now report label rest next => exact h.write next now

omit [DecidableEq Conn] in
theorem worded_start {text : String} {e : Engine D}
    (load : (Engine.withFillPolicy policy).loadInstruments text = .ok e) :
    Worded policy (start Conn e) := by
  have owned : Exchange.Owned policy (Exchange.start Conn e) := Exchange.owned_start load
  refine ⟨owned, ?_, fun _ _ => rfl, fun _ => ⟨WireIdMap.paired_new, WireIdMap.packed_new⟩, ?_, ?_,
    ?_, ?_⟩
  · intro c s ids serving
    cases serving
  · intro o known
    obtain ⟨⟨c, sends, -⟩, -⟩ := owned.known o known
    cases sends
  · intro c entry mem
    cases mem
  · intro c report fields label mem
    cases mem
  · intro c wire mem
    cases mem

/-- What texts are good for: reports are written with the texts they should carry, known
orders have the text they were accepted under, no two texts share a number, and a used
text is never fresh again. -/
structure Trustworthy (y : Dialogue Conn D) : Prop where
  written : ∀ c report fields label, (c, report, fields, label) ∈ y.written →
    Verbatim report fields label
  known : ∀ o, y.exchange.engine.view.Known o → y.Accepted o
  apart : ∀ c wire wire' id, HashMap.get? (y.ids c).wireToInternal wire = some id →
    HashMap.get? (y.ids c).wireToInternal wire' = some id → wire = wire'
  spent : ∀ c, ∀ wire ∈ y.used c, ∃ reason, ((y.ids c).freshId wire).1 = .error reason

/-- In every interleaving of the connections and their writers the texts of a
connection can be trusted. -/
theorem texts_written_back {text : String} {e : Engine D}
    (load : (Engine.withFillPolicy policy).loadInstruments text = .ok e)
    (run : Runs (start Conn e) y) : Trustworthy y := by
  have worded : Worded policy y := by
    induction run with
    | refl => exact worded_start load
    | tail _ turn ih => exact ih.turn turn
  refine ⟨worded.written, worded.known, ?_, ?_⟩
  · intro c wire wire' id found found'
    have paired := (worded.issued c).1
    exact Option.some.inj ((paired.forth wire id found).symm.trans (paired.forth wire' id found'))
  · intro c wire mem
    exact spent_refused (worded.issued c).2 (worded.used c wire mem)

/-- An order under a text with leading zeros, and its report. -/
theorem texts_written_back_sample : ∃ (e : Engine ℚ) (y : Dialogue Nat ℚ),
    (Engine.withFillPolicy .real).loadInstruments "1 AAA\n" = .ok e ∧ Runs (start Nat e) y ∧
    y.written.map (fun entry => entry.1) = [0] ∧ Trustworthy y := by
  have ran : ((Engine.withFillPolicy .real : Engine ℚ).loadInstruments
      "1 AAA\n").toOption.bind (fun e =>
        (handleBusiness 1 "now" 1 false (e.registerSession "a") "a" .new
          (.newOrderSingle "007" "AAA" .sell .limit 10 5)).toOption.map fun done =>
            (e.sent.length, done.engine.sent.map fun report => report.order.sessionId)) =
      some (0, ["a"]) := by decide +kernel
  obtain ⟨e, load, ran⟩ := Option.bind_eq_some_iff.mp ran
  obtain ⟨done, handled, seen⟩ := Option.map_eq_some_iff.mp ran
  obtain ⟨unsent, sent⟩ := Prod.mk.inj seen
  rw [toOption_eq_some] at load handled
  obtain ⟨report, only, owner⟩ := List.map_eq_singleton_iff.mp sent
  have first := Relation.ReflTransGen.single (Turn.reserve (start Nat e) 0 "a" rfl
    (by simp [start, Exchange.start]))
  have second := first.tail (.register _ 0 "a" rfl)
  have third := second.tail (.handle _ 0 "a" .new (Exchange.setStage_self _ 0 _) 1 "now" 1 false _
    done handled)
  have fourth := third.tail (.write _ 0 "later" report _ [] (by
    simp [Dialogue.handled, call, setExchange, Exchange.setStage, Exchange.routed, start,
      Exchange.start, Engine.registerSession, List.length_eq_zero_iff.mp unsent, only, owner]
    rfl))
  exact ⟨e, _, load, fourth, rfl, texts_written_back load fourth⟩

end Lawful

end Dialogue

end RustTrader.Fix

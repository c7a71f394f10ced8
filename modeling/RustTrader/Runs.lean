import Mathlib.Logic.Relation
import RustTrader.Reporting

/-!
# Runs of the engine

The public operations as commands with arbitrary arguments, one step per
command that returns, and the engines reachable from an empty one. Loops over a
hash map may visit it in any order. A command that panics ends the run: the
engine is then behind a poisoned lock.
-/

namespace RustTrader

variable {D : Type} [Decimal D]

inductive Command (D : Type) where
  | createInstrument (symbol : String)
  | registerSession (session : String)
  | sessionDisconnect (session : String)
  | createOrder (today : Int) (session : String) (new : NewOrder D)
  | modifyOrderWithType (today : Int) (session : String) (origId newId : OrderId)
      (orderType : OrderType) (price quantity : D)
  | cancelOrderWithId (session : String) (origId clOrdId : OrderId)
  | quote (session : String) (instrumentId : Int) (bidPrice bidQuantity askPrice askQuantity : D)
  | expireDayOrdersAt (today : Int)

/-- `orders` and `quotes` list a session's maps in some order. -/
structure Visits (session : Session D) (orders : List (OrderId × Order D))
    (quotes : List (Int × QuotePair D)) : Prop where
  orders : orders.Perm (HashMap.pairs session.orders)
  quotes : quotes.Perm (HashMap.pairs session.quotes)

/-- A command that returns, and the engine it leaves. -/
inductive Step : Engine D → Command D → Engine D → Prop
  | createInstrument (e : Engine D) (symbol : String) :
      Step e (.createInstrument symbol) (e.createInstrument symbol).2
  | registerSession (e : Engine D) (session : String) (fresh : ¬ e.Registered session) :
      Step e (.registerSession session) (e.registerSession session)
  | sessionDisconnect (e e' : Engine D) (session : String) (orders : List (OrderId × Order D))
      (quotes : List (Int × QuotePair D))
      (visits : ∀ s, e.sessions.get? session = some s → Visits s orders quotes)
      (returns : e.sessionDisconnect session orders quotes = .ok e') :
      Step e (.sessionDisconnect session) e'
  | createOrder (e e' : Engine D) (today : Int) (session : String) (new : NewOrder D)
      (reply : Except EngineError OrderId)
      (returns : e.createOrder today session new = .ok (reply, e')) :
      Step e (.createOrder today session new) e'
  | modifyOrderWithType (e e' : Engine D) (today : Int) (session : String) (origId newId : OrderId)
      (orderType : OrderType) (price quantity : D) (reply : Except EngineError Unit)
      (returns : e.modifyOrderWithType today session origId newId orderType price quantity =
        .ok (reply, e')) :
      Step e (.modifyOrderWithType today session origId newId orderType price quantity) e'
  | cancelOrderWithId (e e' : Engine D) (session : String) (origId clOrdId : OrderId)
      (reply : Except EngineError Unit)
      (returns : e.cancelOrderWithId session origId clOrdId = .ok (reply, e')) :
      Step e (.cancelOrderWithId session origId clOrdId) e'
  | quote (e e' : Engine D) (session : String) (instrumentId : Int)
      (bidPrice bidQuantity askPrice askQuantity : D) (reply : Except EngineError Unit)
      (returns : e.quote session instrumentId bidPrice bidQuantity askPrice askQuantity =
        .ok (reply, e')) :
      Step e (.quote session instrumentId bidPrice bidQuantity askPrice askQuantity) e'
  | expireDayOrdersAt (e e' : Engine D) (today : Int) (keys : List (String × OrderId))
      (visits : keys.Perm (e.expired today)) (returns : e.expireDayOrdersAt keys = .ok e') :
      Step e (.expireDayOrdersAt today) e'

/-- Runs all of whose commands satisfy `guard` where they are issued. -/
def RunWith (guard : Engine D → Command D → Prop) : Engine D → Engine D → Prop :=
  Relation.ReflTransGen (fun e e' => ∃ command, guard e command ∧ Step e command e')

def Reachable (policy : FillPolicy) (e : Engine D) : Prop :=
  RunWith (fun _ _ => True) (Engine.withFillPolicy policy) e

theorem RunWith.reachable {policy : FillPolicy} {guard : Engine D → Command D → Prop}
    {e : Engine D} (h : RunWith guard (Engine.withFillPolicy policy) e) : Reachable policy e :=
  h.lift id (fun _ _ ⟨command, _, step⟩ => ⟨command, trivial, step⟩)

/-- What holds of the empty engine and is kept by every step holds of every
reachable engine. -/
theorem Reachable.invariant {policy : FillPolicy} {P : Engine D → Prop}
    (start : P (Engine.withFillPolicy policy))
    (step : ∀ e command e', P e → Step e command e' → P e') {e : Engine D}
    (h : Reachable policy e) : P e := by
  induction h with
  | refl => exact start
  | tail _ hs ih =>
    obtain ⟨command, -, hs⟩ := hs
    exact step _ command _ ih hs

namespace Engine

/-- One command, with hash maps visited as they are stored. A session that is
already there is not registered again. -/
def perform (e : Engine D) : Command D → Exec (Engine D)
  | .createInstrument symbol => pure (e.createInstrument symbol).2
  | .registerSession session =>
    if e.sessions.contains session then pure e else pure (e.registerSession session)
  | .sessionDisconnect session =>
    match e.sessions.get? session with
    | none => pure e
    | some s => e.sessionDisconnect session (HashMap.pairs s.orders) (HashMap.pairs s.quotes)
  | .createOrder today session new => do
    let (_, e) ← e.createOrder today session new
    pure e
  | .modifyOrderWithType today session origId newId orderType price quantity => do
    let (_, e) ← e.modifyOrderWithType today session origId newId orderType price quantity
    pure e
  | .cancelOrderWithId session origId clOrdId => do
    let (_, e) ← e.cancelOrderWithId session origId clOrdId
    pure e
  | .quote session instrumentId bidPrice bidQuantity askPrice askQuantity => do
    let (_, e) ← e.quote session instrumentId bidPrice bidQuantity askPrice askQuantity
    pure e
  | .expireDayOrdersAt today => e.expireDayOrdersAt (e.expired today)

def play (e : Engine D) (commands : List (Command D)) : Exec (Engine D) :=
  commands.foldlM perform e

theorem perform_step {e e' : Engine D} {command : Command D} (h : e.perform command = .ok e') :
    e' = e ∨ Step e command e' := by
  cases command with
  | createInstrument symbol =>
    cases h
    exact Or.inr (.createInstrument e symbol)
  | registerSession session =>
    by_cases registered : e.sessions.contains session = true
    · simp only [perform, registered, if_true] at h
      cases h
      exact Or.inl rfl
    · simp only [perform, registered] at h
      cases h
      exact Or.inr (.registerSession e session (fun r => registered (registered_iff.mpr r)))
  | sessionDisconnect session =>
    simp only [perform] at h
    cases hs : e.sessions.get? session with
    | none =>
      rw [hs] at h
      cases h
      exact Or.inl rfl
    | some s =>
      rw [hs] at h
      refine Or.inr (.sessionDisconnect e e' session _ _ ?_ h)
      intro s' hs'
      obtain rfl := Option.some.inj (hs.symm.trans hs')
      exact ⟨.refl _, .refl _⟩
  | createOrder today session new =>
    obtain ⟨⟨reply, e1⟩, h, rest⟩ := Exec.bind_ok.mp h
    cases rest
    exact Or.inr (.createOrder e e' today session new reply h)
  | modifyOrderWithType today session origId newId orderType price quantity =>
    obtain ⟨⟨reply, e1⟩, h, rest⟩ := Exec.bind_ok.mp h
    cases rest
    exact Or.inr (.modifyOrderWithType e e' today session origId newId orderType price quantity
      reply h)
  | cancelOrderWithId session origId clOrdId =>
    obtain ⟨⟨reply, e1⟩, h, rest⟩ := Exec.bind_ok.mp h
    cases rest
    exact Or.inr (.cancelOrderWithId e e' session origId clOrdId reply h)
  | quote session instrumentId bidPrice bidQuantity askPrice askQuantity =>
    obtain ⟨⟨reply, e1⟩, h, rest⟩ := Exec.bind_ok.mp h
    cases rest
    exact Or.inr (.quote e e' session instrumentId bidPrice bidQuantity askPrice askQuantity
      reply h)
  | expireDayOrdersAt today => exact Or.inr (.expireDayOrdersAt e e' today _ (.refl _) h)

/-- Played commands make a run, of whatever they all satisfy. -/
theorem play_run {guard : Engine D → Command D → Prop} (commands : List (Command D)) :
    ∀ {e e' : Engine D}, (∀ command ∈ commands, ∀ e, guard e command) →
      e.play commands = .ok e' → RunWith guard e e' := by
  induction commands with
  | nil =>
    intro e e' meets h
    cases h
    exact .refl
  | cons command commands ih =>
    intro e e' meets h
    unfold play at h
    rw [List.foldlM_cons] at h
    obtain ⟨mid, hmid, tail⟩ := Exec.bind_ok.mp h
    have run := ih (fun c hc => meets c (List.mem_cons_of_mem _ hc)) tail
    rcases perform_step hmid with rfl | step
    · exact run
    · exact .head ⟨command, meets command (List.mem_cons_self ..) e, step⟩ run

/-- The engine after some commands, or the empty one if they panic. -/
def played (policy : FillPolicy) (commands : List (Command D)) : Engine D :=
  match (withFillPolicy policy).play commands with
  | .ok e => e
  | .error _ => withFillPolicy policy

theorem played_run {guard : Engine D → Command D → Prop} (policy : FillPolicy)
    (commands : List (Command D)) (meets : ∀ command ∈ commands, ∀ e, guard e command) :
    RunWith guard (withFillPolicy policy) (played policy commands) := by
  unfold played
  cases h : (withFillPolicy policy).play commands with
  | ok e => exact play_run commands meets h
  | error p => exact .refl

theorem played_reachable (policy : FillPolicy) (commands : List (Command D)) :
    Reachable policy (played policy commands) :=
  played_run policy commands (fun _ _ _ => trivial)

/-- What an operation that was accepted returned. -/
def accepted {α : Type} : Reply D α → Option (α × Engine D)
  | .ok (.ok a, e) => some (a, e)
  | _ => none

theorem accepted_eq {α : Type} {reply : Reply D α} {a : α} {e : Engine D}
    (h : accepted reply = some (a, e)) : reply = .ok (.ok a, e) := by
  unfold accepted at h
  split at h
  · cases h
    rfl
  · cases h

end Engine

end RustTrader

import RustTrader.Fix.Connections
import RustTrader.Fix.Writer

/-!
# Answers to requests

The engine reports what it accepts and the connection refuses what either of them
declines. In every interleaving of the connections a request is answered one way or
the other, whatever its identifiers are and wherever it fails.
-/

namespace RustTrader

open Decimal

variable {D : Type} [Decimal D]

namespace Engine

theorem lasting_unrejected : Lasting (fun o : Order D => o.state ≠ .rejected) := by
  refine ⟨?_, fun _ _ => OrderState.noConfusion, fun _ => OrderState.noConfusion⟩
  intro o o' quantity price h _ f _ _ _
  rw [f.state]
  split <;> decide

theorem fresh_unrejected {policy : FillPolicy} {e : Engine D} {command : Command D} {o : Order D}
    (fresh : Fresh e command o) : Enters policy (fun o : Order D => o.state ≠ .rejected) o := by
  have rested : (OrderBook.restState o).state ≠ .rejected := by
    unfold OrderBook.restState
    dsimp only
    split <;> decide
  refine ⟨fun _ => ?_, fun _ => OrderState.noConfusion, fun _ => rested⟩
  cases fresh with
  | request asked listed valid =>
    rw [incoming_eq]
    exact OrderState.noConfusion
  | replacement asked recorded active valid covered remains =>
    unfold replacement
    dsimp only
    split
    · decide
    · split <;> decide
  | leg asked listed named terms positive price =>
    rw [terms.state]
    decide

/-- No order is rejected once the engine has it. -/
def Unrejected (e : Engine D) : Prop := ∀ o, e.view.Known o → o.state ≠ .rejected

theorem step_unrejected [LawfulDecimal D] {policy : FillPolicy} {e e' : Engine D}
    {command : Command D} (c : Coherent policy e.view none) (hp : e.fillPolicy = policy)
    (h : Unrejected e) (step : Step e command e') :
    ∃ news, Carries (fun o => o.state ≠ .rejected) e e' news :=
  step_carries lasting_unrejected c hp h (fun _ fresh _ => fresh_unrejected fresh) step

end Engine

namespace Fix

theorem WireIdMap.freshId_issued {map : WireIdMap} (paired : map.Paired) (packed : map.Packed)
    (wire : String) : (map.freshId wire).2.Paired ∧ (map.freshId wire).2.Packed := by
  refine ⟨(freshId_cases paired (rfl : map.freshId wire = (_, _))).1, ?_⟩
  unfold freshId
  split
  · exact packed
  · exact (intern_refused packed wire).1

@[simp] theorem conclude_ids (failed : Bool) (ids : WireIdMap)
    (refuse : Engine D → String → OutMsg D) (done : Attempt D) :
    (conclude failed ids refuse done).ids = ids := by
  obtain ⟨outcome, e⟩ := done
  cases outcome with
  | ok _ => rfl
  | error refused =>
    unfold conclude
    dsimp only
    split <;> rfl

/-- The text a request is to be known by. -/
def requestOf : Inbound D → Option String
  | .newOrderSingle clOrdId .. => some clOrdId
  | .cancelRequest clOrdId .. => some clOrdId
  | .cancelReplace clOrdId .. => some clOrdId
  | _ => none

/-- The identifiers after a message. -/
def noted (ids : WireIdMap) (inbound : Inbound D) : WireIdMap :=
  match requestOf inbound with
  | some clOrdId => (ids.freshId clOrdId).2
  | none => ids

theorem handled_ids {today : Int} {now : String} {rejectId : Nat} {failed : Bool} {e : Engine D}
    {s : String} {ids : WireIdMap} {inbound : Inbound D} {done : Handled D}
    (returns : handleBusiness today now rejectId failed e s ids inbound = .ok done) :
    done.ids = noted ids inbound := by
  cases inbound with
  | newOrderSingle clOrdId symbol side orderType price quantity =>
    obtain ⟨attempt, -, rfl⟩ := handle_newOrderSingle returns
    exact conclude_ids ..
  | cancelRequest clOrdId origClOrdId symbol side =>
    obtain ⟨attempt, -, rfl⟩ := handle_cancelRequest returns
    exact conclude_ids ..
  | cancelReplace clOrdId origClOrdId symbol side orderType price quantity =>
    obtain ⟨attempt, -, rfl⟩ := handle_cancelReplace returns
    exact conclude_ids ..
  | massQuote quoteId responseLevel symbol bidPx bidQty offerPx offerQty =>
    obtain ⟨⟨result, e'⟩, -, returns⟩ := Exec.bind_ok.mp returns
    cases returns
    rfl
  | _ =>
    cases returns
    rfl

omit [Decimal D] in
theorem noted_issued {ids : WireIdMap} (paired : ids.Paired) (packed : ids.Packed)
    (inbound : Inbound D) : (noted ids inbound).Paired ∧ (noted ids inbound).Packed := by
  unfold noted
  split
  · exact WireIdMap.freshId_issued paired packed _
  · exact ⟨paired, packed⟩

section

variable {now : String} {ids : WireIdMap} {e : Engine D} {s : String} {done : Handled D}
  {written : List (String × Fields)}

theorem fresh_found {map : WireIdMap} (paired : map.Paired) {wire : String} {id : OrderId}
    (fresh : (map.freshId wire).1 = .ok id) :
    HashMap.get? (map.freshId wire).2.wireToInternal wire = some id := by
  have split : map.freshId wire = ((map.freshId wire).1, (map.freshId wire).2) := rfl
  obtain ⟨-, -, ⟨reason, failed, -⟩ | ⟨id', given, interned, -⟩⟩ :=
    WireIdMap.freshId_cases paired split
  · rw [fresh] at failed
    cases failed
  · rw [fresh] at given
    cases given
    exact interned.given

end

section Lawful

variable [LawfulDecimal D] {policy : FillPolicy} {e : Engine D} {s : String} {ids : WireIdMap}
  {today : Int} {now : String} {rejectId : Nat} {done : Handled D} {clOrdId origClOrdId : String}
  {symbol : String} {side : Side} {orderType : OrderType} {price quantity : D}

end Lawful

namespace Exchange

variable {Conn : Type} [DecidableEq Conn] {policy : FillPolicy} {x x' : Exchange Conn D}

/-- A move of a thread is at most one step of the engine. -/
theorem Owned.step (h : Owned policy x) (move : Move x x') :
    x'.engine = x.engine ∨ ∃ command, Step x.engine command x'.engine := by
  cases move with
  | register c s reserved => exact .inr ⟨_, .registerSession _ _ (h.vacant reserved)⟩
  | expire c s ids serving today keys e' visits returns =>
    exact .inr ⟨_, .expireDayOrdersAt _ _ _ _ visits returns⟩
  | handle c s ids serving today now rejectId failed inbound done returns =>
    rcases handled_call returns with same | ⟨command, -, step⟩
    · exact .inl same
    · exact .inr ⟨command, step⟩
  | disconnect c s ids serving orders quotes e' visits returns =>
    exact .inr ⟨_, .sessionDisconnect _ _ _ _ _ visits returns⟩
  | _ => exact .inl rfl

/-- The identifiers of a connection that is served. -/
def Issued (x : Exchange Conn D) : Prop :=
  ∀ c s ids, x.stage c = .serving s ids → ids.Paired ∧ ids.Packed

/-- What the answers rest on. -/
structure Answering (policy : FillPolicy) (x : Exchange Conn D) : Prop where
  owned : Owned policy x
  issued : x.Issued
  unrejected : x.engine.Unrejected

theorem Issued.move (h : x.Issued) (move : Move x x') : x'.Issued := by
  have kept : ∀ {y : Exchange Conn D} {c : Conn} {stage : Stage}, y.stage = x.stage →
      (∀ s ids, stage = .serving s ids → ids.Paired ∧ ids.Packed) →
        (y.setStage c stage).Issued := by
    intro y c stage same new d s ids serving
    by_cases here : d = c
    · rw [here, setStage_self] at serving
      exact new s ids serving
    · rw [setStage_other _ here, same] at serving
      exact h d s ids serving
  cases move with
  | register c s reserved =>
    refine kept rfl ?_
    rintro _ _ ⟨⟩
    exact ⟨WireIdMap.paired_new, WireIdMap.packed_new⟩
  | expire c s ids serving today keys e' visits returns => exact h
  | handle c s ids serving today now rejectId failed inbound done returns =>
    refine kept rfl ?_
    rintro _ _ ⟨⟩
    obtain ⟨paired, packed⟩ := h c s ids serving
    rw [handled_ids returns]
    exact noted_issued paired packed inbound
  | _ =>
    refine kept rfl ?_
    rintro _ _ ⟨⟩

variable [LawfulDecimal D]

theorem Answering.move (h : Answering policy x) (move : Move x x') : Answering policy x' := by
  refine ⟨h.owned.move move, h.issued.move move, ?_⟩
  rcases h.owned.step move with same | ⟨command, step⟩
  · rw [same]
    exact h.unrejected
  · obtain ⟨news, carried⟩ :=
      Engine.step_unrejected h.owned.coherent h.owned.fillPolicy h.unrejected step
    exact carried.known

end Exchange

end Fix

end RustTrader

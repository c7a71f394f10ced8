import RustTrader.Fix.Codec
import RustTrader.Ledger

/-!
# Accounting on the wire

The books of the orders, as their owners see them: what an execution report says
was executed and is left adds up to the order, and the executions of an order are
the fills reported along its chain of replacements.
-/

namespace RustTrader

open Decimal

namespace Fix

variable {D : Type} [Decimal D]

/-- Executed, left and ordered quantity as a report shows them. -/
theorem shown_quantities (now : String) (report : Report D) :
    (14, fixDecimal report.order.cumQuantity) ∈ buildExecutionReport now report ∧
    (151, fixDecimal report.order.leaves) ∈ buildExecutionReport now report ∧
    (38, fixDecimal report.order.quantity) ∈ buildExecutionReport now report := by
  simp [buildExecutionReport, Order.leaves]

/-- A report that shows what was executed of its order, what is left and what was
ordered, and the three add up. -/
structure AddsUp (now : String) (report : Report D) : Prop where
  executed : (14, fixDecimal report.order.cumQuantity) ∈ buildExecutionReport now report
  left : (151, fixDecimal report.order.leaves) ∈ buildExecutionReport now report
  ordered : (38, fixDecimal report.order.quantity) ∈ buildExecutionReport now report
  total : val report.order.cumQuantity + val report.order.leaves = val report.order.quantity

/-- A balanced active order is shown with quantities that add up. -/
theorem shown_balance {report : Report D} (balanced : Balanced report.order)
    (active : report.order.state.isActive) (now : String) : AddsUp now report := by
  obtain ⟨executed, left_, ordered⟩ := shown_quantities now report
  refine ⟨executed, left_, ordered, ?_⟩
  rw [Order.leaves, if_pos active]
  exact (balanced.total (alive_of_active active)).symm

end Fix

namespace Engine

variable {D : Type} [Decimal D]

/-- Executed quantity and value of some reports. -/
def executedQuantity (reports : List (Report D)) : ℚ := (reports.map (fun r => r.tally.1)).sum

def executedValue (reports : List (Report D)) : ℚ := (reports.map (fun r => r.tally.2)).sum

theorem tally_sums (reports : List (Report D)) :
    (reports.map Report.tally).sum = (executedQuantity reports, executedValue reports) := by
  induction reports with
  | nil => rfl
  | cons report reports ih =>
    rw [List.map_cons, List.sum_cons, ih]
    rfl

/-- The books of every order are balanced, add up in every report, and are the
sums of the fills reported along its chain. -/
theorem order_accounting [ExactDecimal D] {policy : FillPolicy} {e : Engine D}
    (h : Reachable policy e) :
    (∀ s id r, e.order s id = some r → Balanced r) ∧
    (∀ i side, ∀ o ∈ (e.book i).queue side, Balanced o ∧ 0 < o.remaining) ∧
    (∀ report ∈ e.sent, report.order.state.isActive → ∀ now, Fix.AddsUp now report) ∧
    (∃ chain, Chained policy e chain) ∧
    ∀ chain, Chained policy e chain → ∀ s id r, e.order s id = some r →
      val r.cumQuantity = executedQuantity (chain s id) ∧
      val r.avgPrice * val r.cumQuantity = executedValue (chain s id) := by
  obtain ⟨chain, run⟩ := reachable_chained h
  have books := chained_inOrder run
  obtain ⟨c, -⟩ := reachable_coherent h
  refine ⟨books.accounted.recorded, ?_, ?_, ⟨chain, run⟩, ?_⟩
  · intro i side o ho
    exact ⟨books.accounted.resting i side o ho, (c.fit i side o ho).positive⟩
  · intro report sent active now
    exact Fix.shown_balance (books.told report sent) active now
  · intro chain run s id r recorded
    have sums := (chained_inOrder run).entries s id r recorded
    rw [tally_sums] at sums
    exact ⟨congrArg Prod.fst sums, congrArg Prod.snd sums⟩

/-- Order 2 replaced order 1 after a fill of 3 at 10, and traded 3 more at 9. -/
theorem order_accounting_sample : ∃ chain, Chained .real (played .real sampleRun) chain ∧
    executedQuantity (chain "a" 2) = 6 ∧ executedValue (chain "a" 2) = 57 := by
  obtain ⟨-, -, -, ⟨chain, run⟩, sums⟩ := order_accounting (played_reachable .real sampleRun)
  have executed : ((played .real sampleRun).order "a" 2).map
      (fun r => (val r.cumQuantity, val r.avgPrice * val r.cumQuantity)) = some (6, 57) := by
    decide +kernel
  obtain ⟨r, recorded, same⟩ := Option.map_eq_some_iff.mp executed
  obtain ⟨quantity, value⟩ := sums chain run "a" 2 r recorded
  exact ⟨chain, run, quantity.symm.trans (congrArg Prod.fst same),
    value.symm.trans (congrArg Prod.snd same)⟩

end Engine

end RustTrader

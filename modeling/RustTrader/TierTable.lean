import RustTrader.Requests

/-!
# The tier table

`tier_fill_plan` on exact decimals: which quantities are refused, and what the
plan of each of the others is, tier by tier.
-/

namespace RustTrader

open Decimal

variable {D : Type} [Decimal D]

/-- Full lots and a last one that is neither empty nor larger. -/
structure Lots (plan : List D) : Prop where
  shape : ∃ front last, plan = front ++ [last] ∧ (∀ chunk ∈ front, val chunk = 100) ∧
    0 < val last ∧ val last ≤ 100

/-- The plan of a remaining quantity that is not refused. -/
structure TierPlan (remaining : D) (plan : List D) : Prop where
  positive : ∀ chunk ∈ plan, 0 < chunk
  count : plan.length ≤ maxTierFills
  covered : (plan.map val).sum ≤ val remaining
  idle : val remaining ≤ 100 → (plan.map val).sum = 0
  whole : 100 < val remaining → val remaining ≤ 1000 → (plan.map val).sum = val remaining
  half : 1000 < val remaining → val remaining ≤ 2000 → (plan.map val).sum = val remaining / 2
  lots : 2000 < val remaining → (plan.map val).sum = val remaining ∧ Lots plan

/-- A request is refused when its quantity is negative or above the cap, and
planned otherwise. -/
structure MeetsTable (remaining : D) (result : Except EngineError (List D)) : Prop where
  refused : (∃ err, result = .error err) ↔
    remaining < 0 ∨ (maxTierFills : ℚ) * 100 < val remaining
  planned : ∀ plan, result = .ok plan → TierPlan remaining plan

theorem cap_eq : ((maxTierFills : ℕ) : ℚ) * 100 = 25600 := by norm_num [maxTierFills]

theorem MeetsTable.error {remaining : D} (err : EngineError)
    (bad : remaining < 0 ∨ 25600 < val remaining) : MeetsTable remaining (.error err) := by
  constructor
  · rw [cap_eq]
    exact iff_of_true ⟨err, rfl⟩ bad
  · intro plan same
    cases same

section Exact

variable [ExactDecimal D]

theorem le_lit {m : Int} {d : D} (small : |m| < 2 ^ 63) : d ≤ lit m 0 ↔ val d ≤ m := by
  rw [← val_le, LawfulDecimal.val_lit m 0 small (by norm_num)]
  norm_num

theorem val_tierMaxRemaining : val (tierMaxRemaining : D) = 25600 := by
  rw [tierMaxRemaining, LawfulDecimal.val_lit _ _ (by norm_num [maxTierFills, tierChunkSize])
    (by norm_num)]
  norm_num [maxTierFills, tierChunkSize]

/-- The loop takes lots as long as more than one is left. -/
theorem tierLots_table (fuel : Nat) : ∀ {rest : D} {plan : List D}, 0 < val rest →
    tierLots fuel rest = .ok plan →
      plan.length ≤ fuel ∧ (plan.map val).sum = val rest ∧ Lots plan := by
  induction fuel with
  | zero =>
    intro rest plan _ h
    cases h
  | succ fuel ih =>
    intro rest plan positive h
    rw [tierLots] at h
    by_cases more : tierChunk < rest
    · rw [if_pos more] at h
      obtain ⟨rest', hsub, h⟩ := Exec.bind_ok.mp h
      obtain ⟨later, hplan, h⟩ := Exec.bind_ok.mp h
      obtain rfl := Except.ok.inj h
      have left := val_sub hsub
      have above := (LawfulDecimal.val_lt _ _).mpr more
      rw [val_tierChunk] at left above
      obtain ⟨count, sum, front, last, rfl, full, tail⟩ := ih (by linarith) hplan
      refine ⟨?_, ?_, tierChunk :: front, last, rfl, ?_, tail⟩
      · exact Nat.succ_le_succ count
      · rw [List.map_cons, List.sum_cons, sum, val_tierChunk]
        linarith
      · intro chunk mem
        rcases List.mem_cons.mp mem with rfl | mem
        · exact val_tierChunk
        · exact full chunk mem
    · rw [if_neg more] at h
      have few := val_le.mpr (not_lt.mp more)
      rw [val_tierChunk] at few
      have some_ : rest ≠ 0 := by
        rintro rfl
        rw [LawfulDecimal.val_zero] at positive
        exact lt_irrefl 0 positive
      rw [if_neg some_] at h
      obtain rfl := Except.ok.inj h
      exact ⟨by simp, by simp, [], rest, rfl, by simp, positive, few⟩

/-- Full lots are positive. -/
theorem Lots.positive {plan : List D} (h : Lots plan) : ∀ chunk ∈ plan, 0 < chunk := by
  obtain ⟨front, last, rfl, full, some_, -⟩ := h.shape
  intro chunk mem
  rw [← val_pos]
  rcases List.mem_append.mp mem with mem | mem
  · rw [full chunk mem]
    norm_num
  · rw [List.mem_singleton.mp mem]
    exact some_

omit [ExactDecimal D] in
theorem one_chunk {chunk : D} : ([chunk].map val).sum = val chunk := by simp

theorem MeetsTable.ok {remaining : D} {plan : List D} (nonneg : 0 ≤ val remaining)
    (below : val remaining ≤ 25600) (meets : TierPlan remaining plan) :
    MeetsTable remaining (.ok plan) := by
  constructor
  · rw [cap_eq]
    refine iff_of_false ?_ ?_
    · rintro ⟨err, same⟩
      cases same
    · rintro (negative | above)
      · exact absurd (val_nonneg.mp nonneg) (not_le.mpr negative)
      · exact absurd below (not_le.mpr above)
  · intro plan' same
    exact Except.ok.inj same ▸ meets

theorem le_tierChunk (d : D) : d ≤ tierChunk ↔ val d ≤ 100 := by
  rw [← val_le, val_tierChunk]

theorem le_thousand (d : D) : d ≤ lit 1000 0 ↔ val d ≤ 1000 := by
  rw [le_lit (by norm_num)]
  norm_num

theorem le_twoThousand (d : D) : d ≤ lit 2000 0 ↔ val d ≤ 2000 := by
  rw [le_lit (by norm_num)]
  norm_num

/-- Every quantity has a plan or is refused, the negative ones and those above
the cap, and the plan is that of its tier. -/
theorem tier_plan_table (remaining : D) :
    ∃ result, tierFillPlan remaining = .ok result ∧ MeetsTable remaining result := by
  unfold tierFillPlan
  by_cases negative : remaining < 0
  · rw [if_pos negative]
    exact ⟨_, rfl, .error _ (.inl negative)⟩
  rw [if_neg negative]
  have nonneg := val_nonneg.mpr (not_lt.mp negative)
  by_cases small : remaining ≤ tierChunk
  · rw [if_pos small]
    rw [le_tierChunk] at small
    refine ⟨_, rfl, .ok nonneg (by linarith) ⟨by simp, by simp, by simpa using nonneg,
      fun _ => rfl, ?_, ?_, ?_⟩⟩
    all_goals
      intros
      linarith
  rw [if_neg small]
  rw [le_tierChunk, not_le] at small
  by_cases one : remaining ≤ lit 1000 0
  · rw [if_pos one]
    rw [le_thousand] at one
    have positive : 0 < remaining := by
      rw [← val_pos]
      linarith
    refine ⟨_, rfl, .ok nonneg (by linarith) ⟨?_, by simp [maxTierFills], one_chunk.le, ?_,
      fun _ _ => one_chunk, ?_, ?_⟩⟩
    · intro c mem
      exact List.mem_singleton.mp mem ▸ positive
    all_goals
      intros
      linarith
  rw [if_neg one]
  rw [le_thousand, not_le] at one
  by_cases two : remaining ≤ lit 2000 0
  · rw [if_pos two]
    rw [le_twoThousand] at two
    obtain ⟨half, hdiv, hval⟩ := ExactDecimal.div_exact remaining (lit 2 0)
    rw [LawfulDecimal.val_lit 2 0 (by norm_num) (by norm_num)] at hval
    norm_num at hval
    have positive : 0 < half := by
      rw [← val_pos, hval]
      linarith
    have sum : ([half].map val).sum = val remaining / 2 := one_chunk.trans hval
    refine ⟨.ok [half], by rw [hdiv]; rfl, .ok nonneg (by linarith) ⟨?_, by simp [maxTierFills],
      by linarith, ?_, ?_, fun _ _ => sum, ?_⟩⟩
    · intro c mem
      exact List.mem_singleton.mp mem ▸ positive
    all_goals
      intros
      linarith
  rw [if_neg two]
  rw [le_twoThousand, not_le] at two
  by_cases above : tierMaxRemaining < remaining
  · rw [if_pos above]
    rw [← LawfulDecimal.val_lt, val_tierMaxRemaining] at above
    exact ⟨_, rfl, .error _ (.inr above)⟩
  rw [if_neg above]
  have bounded := val_le.mpr (not_lt.mp above)
  rw [val_tierMaxRemaining] at bounded
  obtain ⟨plan, lots⟩ : ∃ plan, tierLots maxTierFills remaining = .ok plan := by
    refine Engine.tierLots_returns maxTierFills le_rfl ?_ (by decide)
    rw [mul_comm, cap_eq]
    exact bounded
  obtain ⟨count, sum, shape⟩ := tierLots_table maxTierFills (by linarith) lots
  refine ⟨.ok plan, by rw [lots]; rfl, .ok nonneg bounded
    ⟨shape.positive, count, sum.le, ?_, ?_, ?_, fun _ => ⟨sum, shape⟩⟩⟩
  all_goals
    intros
    linarith

theorem tier_plan_table_sample :
    ∃ result, tierFillPlan (2550 : ℚ) = .ok result ∧ MeetsTable (2550 : ℚ) result :=
  tier_plan_table 2550

end Exact

end RustTrader

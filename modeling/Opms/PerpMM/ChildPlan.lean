import Opms.PerpMM.Branches
import Opms.PassiveAggressive.Outcome

/-! # The child plan of a close

The controller sizes the children of a close and the executor cuts the amount
into them. The sizing never asks for more than five children, so the executor's
constructor accepts it whatever the mid and the venue's limits are.
-/

namespace Opms.PassiveAggressive

/-- The slots have the child size each, and the last one takes the remainder. -/
theorem buildChildSlots_eq {cfg : Settings} (hchild : 0 < cfg.childOrderQuantity)
    (hle : cfg.childOrderQuantity ≤ cfg.totalAmountBase)
    (hmax : ⌊cfg.totalAmountBase / cfg.childOrderQuantity⌋ ≤ maxChildren) :
    ∃ (full : ℕ) (remainder : ℚ),
      (full : ℤ) + 1 = ⌊cfg.totalAmountBase / cfg.childOrderQuantity⌋ ∧
      0 ≤ remainder ∧ remainder < cfg.childOrderQuantity ∧
      buildChildSlots cfg = .ok (List.replicate full { target := cfg.childOrderQuantity } ++
        [{ target := cfg.childOrderQuantity + remainder }]) := by
  set q := cfg.totalAmountBase with hq
  set childQ := cfg.childOrderQuantity with hchildQ
  have hratio : 1 ≤ q / childQ := (one_le_div hchild).mpr hle
  have hcount : decimalFloorDiv q childQ = ⌊q / childQ⌋ :=
    if_pos (zero_le_one.trans hratio)
  have hone : 1 ≤ ⌊q / childQ⌋ := Int.le_floor.mpr (by exact_mod_cast hratio)
  obtain ⟨full, hfull⟩ := Int.eq_ofNat_of_zero_le (show 0 ≤ ⌊q / childQ⌋ - 1 by omega)
  have hsucc : (full : ℤ) + 1 = ⌊q / childQ⌋ := by omega
  have hnat : ⌊q / childQ⌋.toNat = full + 1 := by omega
  have hlow : (⌊q / childQ⌋ : ℚ) * childQ ≤ q := (le_div_iff₀ hchild).mp (Int.floor_le _)
  have hhigh : q < ((⌊q / childQ⌋ : ℚ) + 1) * childQ :=
    (div_lt_iff₀ hchild).mp (Int.lt_floor_add_one _)
  refine ⟨full, q - ⌊q / childQ⌋ * childQ, hsucc, sub_nonneg.mpr hlow, by linarith, ?_⟩
  rw [buildChildSlots, ← hq, ← hchildQ]
  dsimp only
  rw [hcount, if_neg (not_le.mpr hchild), if_neg (not_lt.mpr hmax), hnat]
  congr 1
  split
  next => simp [foldRemainder, List.replicate_succ']
  next hremainder =>
    have hzero : q - ⌊q / childQ⌋ * childQ = 0 :=
      le_antisymm (not_lt.mp hremainder) (sub_nonneg.mpr hlow)
    rw [hzero, add_zero, List.replicate_succ']

/-- As many children as fit, each of the child size up to twice that. -/
theorem buildChildSlots_accepts (cfg : Settings) (hchild : 0 < cfg.childOrderQuantity)
    (hle : cfg.childOrderQuantity ≤ cfg.totalAmountBase)
    (hmax : ⌊cfg.totalAmountBase / cfg.childOrderQuantity⌋ ≤ maxChildren) :
    ∃ slots, buildChildSlots cfg = .ok slots ∧ 1 ≤ slots.length ∧
      (slots.length : ℤ) = ⌊cfg.totalAmountBase / cfg.childOrderQuantity⌋ ∧
      ∀ slot ∈ slots, cfg.childOrderQuantity ≤ slot.target ∧
        slot.target < 2 * cfg.childOrderQuantity := by
  obtain ⟨full, remainder, hcount, hnonneg, hlt, hslots⟩ := buildChildSlots_eq hchild hle hmax
  refine ⟨_, hslots, by simp, by simp [← hcount], ?_⟩
  intro slot hslot
  rcases List.mem_append.mp hslot with hfull | hlast
  · rw [List.eq_of_mem_replicate hfull]
    constructor
    · exact le_rfl
    · linarith
  · rw [List.mem_singleton.mp hlast]
    constructor
    · exact le_add_of_nonneg_right hnonneg
    · linarith

end Opms.PassiveAggressive

namespace Opms.PerpMM

open PassiveAggressive

variable {cfg : PerpMMControllerConfig} {cycle : Cycle} {req : ExecutionRequest}

/-! ## The size the controller asks for -/

/-- The smallest child is worth its minimum notional with headroom. -/
theorem minNotionalSize_le_minChildQuantity {mid : ℚ} (hmid : cycle.mid = some mid)
    (hpos : 0 < mid) (hstep : 0 < cycle.rules.minBaseAmountIncrement) :
    11 / 10 * cycle.rules.minNotionalSize ≤ minChildQuantity cycle * mid := by
  have hfilter : cycle.mid.filter (· ≠ 0) = some mid := by
    rw [hmid, Option.filter_some, if_pos (by simpa using hpos.ne')]
  rw [minChildQuantity, hfilter]
  dsimp only
  split
  next hnone =>
    have hfree : cycle.rules.minNotionalSize = 0 := hnone.resolve_right hstep.ne'
    rw [hfree, mul_zero, zero_mul]
  next =>
    have hceil := (div_le_iff₀ hstep).mp
      (Int.le_ceil (cycle.rules.minNotionalSize * (11 / 10) / mid /
        cycle.rules.minBaseAmountIncrement))
    rw [div_le_iff₀ hpos] at hceil
    linarith

/-- The child size lies between a fifth of the amount and the amount; a worked
close is never below the smallest child unless the whole amount is. -/
structure Sized (cycle : Cycle) (req : ExecutionRequest)
    (config : PassiveAggressiveExecutorConfig) : Prop where
  total : config.totalAmountBase = req.amount
  fifth : req.amount / 5 ≤ config.childOrderQuantity
  le_amount : config.childOrderQuantity ≤ req.amount
  venue : minChildQuantity cycle ≤ req.amount →
    minChildQuantity cycle ≤ config.childOrderQuantity

theorem executionConfig_sized (hamount : 0 < req.amount)
    {config : PassiveAggressiveExecutorConfig}
    (hconfig : executionConfig cfg cycle req = .passiveAggressive config) :
    Sized cycle req config := by
  have hfifth : req.amount / 5 ≤ req.amount := by linarith
  have hwhole : ∀ timeLimit refreshTime : ℚ,
      Sized cycle req (deRiskConfig cfg cycle req req.amount timeLimit refreshTime) :=
    fun _ _ => ⟨rfl, hfifth, le_rfl, id⟩
  unfold executionConfig at hconfig
  split at hconfig
  case h_3 =>
    obtain rfl := ExecutorConfig.passiveAggressive.inj hconfig
    exact hwhole _ _
  case h_4 =>
    split at hconfig
    next => cases hconfig
    next =>
      obtain rfl := ExecutorConfig.passiveAggressive.inj hconfig
      exact hwhole _ _
  all_goals
    obtain rfl := ExecutorConfig.passiveAggressive.inj hconfig
    refine ⟨rfl, ?_, min_le_left _ _, ?_⟩
    · exact le_min hfifth (le_max_left _ _)
    · intro hvenue
      exact le_min hvenue (le_max_right _ _)

/-! ## What the executor makes of it -/

/-- Every close that the controller hands to a passive-aggressive executor gives
an accepted plan of one to five children: they add up to the requested amount,
none is a child size short or two child sizes long, and on a usable book each is
worth the venue's minimum with headroom, when the whole amount is. -/
theorem executionActions_childPlan (cfg : PerpMMControllerConfig) (cycle : Cycle)
    (req : ExecutionRequest) (hamount : 0 < req.amount)
    (controllerId : String) (config : PassiveAggressiveExecutorConfig)
    (hcreate : .create controllerId (.passiveAggressive config) ∈ executionActions cfg cycle req)
    (maxRetries : ℕ) :
    ∃ slots, buildChildSlots { toPassiveAggressiveExecutorConfig := config, maxRetries } =
        .ok slots ∧
      0 < config.childOrderQuantity ∧ 1 ≤ slots.length ∧ slots.length ≤ 5 ∧
      (slots.map ChildSlot.target).sum = req.amount ∧
      (∀ slot ∈ slots, config.childOrderQuantity ≤ slot.target ∧
        slot.target < 2 * config.childOrderQuantity) ∧
      (req.urgency = .passive ∨ req.urgency = .normal → ∀ mid, cycle.mid = some mid → 0 < mid →
        0 < cycle.rules.minBaseAmountIncrement → minChildQuantity cycle ≤ req.amount →
        ∀ slot ∈ slots, 11 / 10 * cycle.rules.minNotionalSize ≤ slot.target * mid) := by
  obtain ⟨_, hconfig⟩ := ExecutorAction.create.inj (List.mem_singleton.mp hcreate)
  have hsized : Sized cycle req config := executionConfig_sized hamount hconfig.symm
  have hchild : 0 < config.childOrderQuantity := by linarith [hsized.fifth]
  have hfive : ⌊config.totalAmountBase / config.childOrderQuantity⌋ ≤ 5 := by
    rw [← Int.lt_add_one_iff, Int.floor_lt, div_lt_iff₀ hchild, hsized.total]
    push_cast
    linarith [hsized.fifth]
  obtain ⟨slots, hslots, hone, hlength, htargets⟩ := buildChildSlots_accepts
    { toPassiveAggressiveExecutorConfig := config, maxRetries } hchild
    (hsized.le_amount.trans_eq hsized.total.symm) (hfive.trans (by decide))
  refine ⟨slots, hslots, hchild, hone, ?_, ?_, htargets, ?_⟩
  · have hcount : (slots.length : ℤ) ≤ 5 := hlength.trans_le hfive
    omega
  · rw [sum_target_buildChildSlots hslots (by simpa [hsized.total] using hamount)]
    exact hsized.total
  · intro _ mid hmid hpos hstep hvenue slot hslot
    calc 11 / 10 * cycle.rules.minNotionalSize
        ≤ minChildQuantity cycle * mid := minNotionalSize_le_minChildQuantity hmid hpos hstep
      _ ≤ slot.target * mid :=
          mul_le_mul_of_nonneg_right ((hsized.venue hvenue).trans (htargets slot hslot).1) hpos.le

theorem executionActions_childPlan_of_unit :
    ∃ slots, buildChildSlots
        { toPassiveAggressiveExecutorConfig := deRiskConfig sampleConfig notionalCycle
            { side := .sell, amount := 1, urgency := .passive } (1 / 5) 60 20
          maxRetries := 10 } = .ok slots ∧
      slots.length ≤ 5 ∧ (slots.map ChildSlot.target).sum = 1 ∧
      ∀ slot ∈ slots, 11 / 10 * 10 ≤ slot.target * 100 := by
  obtain ⟨slots, hslots, _, _, hfive, hsum, _, hworth⟩ := executionActions_childPlan
    sampleConfig notionalCycle { side := .sell, amount := 1, urgency := .passive } (by decide)
    "mm" (deRiskConfig sampleConfig notionalCycle
      { side := .sell, amount := 1, urgency := .passive } (1 / 5) 60 20) (by decide +kernel) 10
  exact ⟨slots, hslots, hfive, hsum,
    hworth (.inl rfl) 100 rfl (by decide) (by decide +kernel) (by decide +kernel)⟩

end Opms.PerpMM

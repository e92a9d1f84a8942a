import Opms.Gateway.PositionBook
import Mathlib.Order.Interval.Set.UnorderedInterval
import Mathlib.Tactic.Positivity

/-! # The active-bin tolerance of deposits

A deposit is checked at the active bin its caller expects and at the one the
pool reports. It hands on the tolerance that the drift between them leaves, so a
write stays within the caller's tolerance, and its bins are clear of the active
bin all the way between the two.
-/

namespace Opms.Gateway

universe u

variable {K : Type u}

namespace Session

/-! ## Bins clear of the active one -/

/-- No bid bin at or above the active bin, and no ask bin below it. -/
def Clear (side : Side) (binIds : List ℤ) (active : ℤ) : Prop :=
  match side with
  | .bid => ∀ binId ∈ binIds, binId < active
  | .ask => ∀ binId ∈ binIds, active ≤ binId

theorem crosses_eq_false_iff (side : Side) (binIds : List ℤ) (active : ℤ) :
    crosses side binIds active = false ↔ Clear side binIds active := by
  cases side with
  | bid => simp [crosses, Clear]
  | ask => simp [crosses, Clear]

/-- Bids stay clear above a clear active bin, asks below one. -/
theorem Clear.between {side : Side} {binIds : List ℤ} {first last active : ℤ}
    (hfirst : Clear side binIds first) (hlast : Clear side binIds last)
    (hbetween : active ∈ Set.uIcc first last) : Clear side binIds active := by
  have hbounds := Set.mem_uIcc.mp hbetween
  cases side with
  | bid =>
      intro binId hmem
      have hbelow : binId < first := hfirst binId hmem
      have hbelow' : binId < last := hlast binId hmem
      omega
  | ask =>
      intro binId hmem
      have habove : first ≤ binId := hfirst binId hmem
      have habove' : last ≤ binId := hlast binId hmem
      omega

/-! ## Tolerated deposits -/

/-- The tolerance is positive and within the policy, the active bin drifted by
less, and the bins are clear of every active bin on its way. -/
structure Tolerates (cfg : GatewayConfig) (anchor : Anchor K) (d : Deposit K) : Prop where
  positive : 0 < d.maxActiveBinSlippage
  bounded : d.maxActiveBinSlippage ≤ cfg.maxActiveBinSlippageBins
  drift : |anchor.activeBin - d.expectedActiveBin| < d.maxActiveBinSlippage
  clear : ∀ active ∈ Set.uIcc d.expectedActiveBin anchor.activeBin,
    Clear d.side d.binIds active

theorem tolerates_iff (cfg : GatewayConfig) (anchor : Anchor K) (d : Deposit K) :
    Tolerates cfg anchor d ↔ WithinPolicy cfg d ∧ AdmittedAt anchor d := by
  constructor
  · rintro ⟨hpositive, hbounded, hdrift, hclear⟩
    refine ⟨⟨hpositive, hbounded⟩, hdrift, ?_, ?_⟩
    · exact (crosses_eq_false_iff _ _ _).mpr (hclear _ Set.left_mem_uIcc)
    · exact (crosses_eq_false_iff _ _ _).mpr (hclear _ Set.right_mem_uIcc)
  · rintro ⟨⟨hpositive, hbounded⟩, hdrift, hexpected, hcurrent⟩
    rw [crosses_eq_false_iff] at hexpected hcurrent
    exact ⟨hpositive, hbounded, hdrift, fun active => hexpected.between hcurrent⟩

/-- Within the remaining tolerance of the pool's active bin is within the
caller's tolerance of the expected one. -/
theorem within_of_remaining (d : Deposit K) {current active : ℤ}
    (hremaining : |active - current| ≤ d.remainingTolerance current) :
    |active - d.expectedActiveBin| ≤ d.maxActiveBinSlippage := by
  have htriangle := abs_sub_le active current d.expectedActiveBin
  rw [Deposit.remainingTolerance] at hremaining
  omega

variable [Field K] [LinearOrder K] [IsStrictOrderedRing K]

theorem Anchor.priceOf_isSome {anchor : Anchor K} (hstep : 0 < anchor.binStepBps) (binId : ℤ) :
    (anchor.priceOf binId).isSome = true := by
  have hcast : (0 : K) < anchor.binStepBps := Int.cast_pos.mpr hstep
  have hpos : 0 < anchor.step := by
    unfold step
    positivity
  rw [priceOf, if_neg (fun hboth => hpos.ne' hboth.1)]
  rfl

theorem slippagePct_pos {anchor : Anchor K} {d : Deposit K} (hstep : 0 < anchor.binStepBps)
    (hdrift : |anchor.activeBin - d.expectedActiveBin| < d.maxActiveBinSlippage) :
    0 < slippagePct anchor d := by
  have hremaining : 0 < d.remainingTolerance anchor.activeBin := sub_pos.mpr hdrift
  have hcast : (0 : K) < d.remainingTolerance anchor.activeBin := Int.cast_pos.mpr hremaining
  have hcast' : (0 : K) < anchor.binStepBps := Int.cast_pos.mpr hstep
  unfold slippagePct
  positivity

theorem writeRequest_spec (cfg : GatewayConfig) {anchor : Anchor K} {d : Deposit K} (s : Session K)
    (hbins : d.binIds ≠ []) (hstep : 0 < anchor.binStepBps) :
    ∃ write, writeRequest cfg anchor d s = some write ∧ write.method = .post ∧
      write.payload.get? "slippagePct" = some (.float (slippagePct anchor d)) := by
  obtain ⟨lowest, hlowest⟩ := Option.isSome_iff_exists.mp (List.isSome_min?_of_ne_nil hbins)
  obtain ⟨highest, hhighest⟩ := Option.isSome_iff_exists.mp (List.isSome_max?_of_ne_nil hbins)
  obtain ⟨lowerPrice, hlower⟩ :=
    Option.isSome_iff_exists.mp (Anchor.priceOf_isSome hstep lowest)
  obtain ⟨upperPrice, hupper⟩ :=
    Option.isSome_iff_exists.mp (Anchor.priceOf_isSome hstep highest)
  refine ⟨writeBetween cfg anchor d s lowerPrice upperPrice, ?_, ?_, ?_⟩
  · rw [writeRequest, hlowest, hhighest, Option.bind_some, Option.bind_some, hlower, hupper]
    rfl
  · unfold writeBetween
    split <;> rfl
  · unfold writeBetween
    split <;> rfl

/-- A deposit writes exactly when its tolerance covers the drift and its bins stay
clear of the active bin; it asks for the tolerance that is left. Otherwise it
sends nothing but the read of the pool. -/
theorem deposit_within_tolerance [FloorRing K] (lib : Library K) (cfg : GatewayConfig)
    (net : ℕ → Outcome K) (d : Deposit K) (hbins : d.binIds ≠ []) (s : Session K) :
    let sent := (depositSingleSided lib cfg net d s).2.sent.drop s.sent.length
    (∀ anchor, (binPriceFn lib cfg net d.pool s).1 = some (.ok anchor) →
      0 < anchor.binStepBps → Tolerates cfg anchor d → ∃ write,
        sent = [poolInfo cfg d.pool, write] ∧ write.method = .post ∧
        write.payload.get? "slippagePct" = some (.float (slippagePct anchor d)) ∧
        0 < slippagePct anchor d ∧
        ∀ active, |active - anchor.activeBin| ≤ d.remainingTolerance anchor.activeBin →
          |active - d.expectedActiveBin| ≤ d.maxActiveBinSlippage) ∧
    ((∀ anchor, (binPriceFn lib cfg net d.pool s).1 = some (.ok anchor) →
        ¬ Tolerates cfg anchor d) →
      ∀ request ∈ sent, request = poolInfo cfg d.pool) := by
  intro sent
  have hsent : sent = if s.started = true ∧ WithinPolicy cfg d then
      poolInfo cfg d.pool :: writesAfter lib cfg net d s else [] := by
    simp only [sent, depositSingleSided_sent, List.drop_left']
  constructor
  · intro anchor hread hstep htolerates
    obtain ⟨hpolicy, hadmitted⟩ := (tolerates_iff cfg anchor d).mp htolerates
    obtain ⟨write, hwrite, hpost, hslippage⟩ := writeRequest_spec cfg s hbins hstep
    refine ⟨write, ?_, hpost, hslippage, slippagePct_pos hstep htolerates.drift,
      fun active => within_of_remaining d⟩
    have hstarted := binPriceFn_started lib cfg net hread
    rw [hsent, if_pos ⟨hstarted, hpolicy⟩, writesAfter, hread]
    simp only [if_pos hadmitted, hwrite, Option.toList_some]
  · intro hnone request hrequest
    rw [hsent] at hrequest
    split at hrequest
    next hboth =>
      refine (List.mem_cons.mp hrequest).resolve_right fun hwrite => ?_
      unfold writesAfter at hwrite
      split at hwrite
      next anchor hread =>
        rw [if_neg] at hwrite
        · cases hwrite
        · exact fun hadmitted => hnone anchor hread
            ((tolerates_iff cfg anchor d).mpr ⟨hboth.2, hadmitted⟩)
      next => cases hwrite
    next => cases hrequest

/-- The active bin has moved by one of the two tolerated bins. -/
def driftedDeposit : Deposit ℚ := { sampleDeposit with expectedActiveBin := 1 }

theorem deposit_within_tolerance_of_drift : ∃ write,
    (depositSingleSided sampleLibrary {} sampleNetwork driftedDeposit sampleSession).2.sent =
      [poolInfo {} "pool", write] ∧ write.payload.get? "slippagePct" = some (.float (4 / 5)) := by
  obtain ⟨write, hsent, -, hslippage, -⟩ := (deposit_within_tolerance sampleLibrary {}
    sampleNetwork driftedDeposit (by decide) sampleSession).1 ⟨100, 0, 80⟩ rfl (by decide)
    ((tolerates_iff {} _ driftedDeposit).mpr ⟨by decide, by decide⟩)
  have hpercent : slippagePct ⟨100, 0, 80⟩ driftedDeposit = 4 / 5 := by decide +kernel
  rw [hpercent] at hslippage
  exact ⟨write, hsent, hslippage⟩

end Session

end Opms.Gateway

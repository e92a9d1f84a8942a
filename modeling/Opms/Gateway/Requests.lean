import Opms.Gateway.ExecBridge

/-! # What the verbs send

A request is only added to the log. A deposit sends a pool-info read once its
tolerance is within the policy, and one write once the anchor that comes back is
admissible too.
-/

namespace Opms.Gateway

open Foundation

universe u

variable {K : Type u}

namespace Session

section Requests

variable [Field K] [LinearOrder K]
variable (lib : Library K) (cfg : GatewayConfig) (net : ℕ → Outcome K)

/-! ## Single requests -/

/-- A request is only added to the log, and without a client there is none. -/
theorem request_session (method : Method) (path : String) (payload : Fields K) (s : Session K) :
    (s.request lib net method path payload).2 =
      { s with sent := s.sent ++ if s.started then [⟨method, path, payload⟩] else [] } := by
  unfold request
  split
  next hstarted =>
    dsimp only
    split <;> simp [hstarted]
  next => rw [List.append_nil]

@[simp] theorem get_positions (path : String) (params : Fields K) (s : Session K) :
    (s.get lib cfg net path params).2.positions = s.positions := by
  rw [get, request_session]

@[simp] theorem post_positions (path : String) (body : Fields K) (s : Session K) :
    (s.post lib cfg net path body).2.positions = s.positions := by
  rw [post, request_session]

theorem binPriceFn_positions [FloorRing K] (pool : String) (s : Session K) :
    (binPriceFn lib cfg net pool s).2.positions = s.positions := by
  apply Returned.andThen_rule (fun s' => s'.positions = s.positions)
  · exact get_positions lib cfg net _ _ s
  · intro anchor _
    split <;> exact get_positions lib cfg net _ _ s

/-! ## The requests of a deposit -/

/-- The pool-info read of a verb. -/
def poolInfo (pool : String) : Request K :=
  ⟨.get, clmm ++ "/pool-info", [("network", .string cfg.network), ("poolAddress", .string pool)]⟩

/-- The write of a deposit between two prices. -/
def writeBetween (anchor : Anchor K) (d : Deposit K) (s : Session K) (lowerPrice upperPrice : K) :
    Request K :=
  let body := ("network", .string cfg.network) :: ("walletAddress", .string cfg.wallet) ::
    depositBody anchor d lowerPrice upperPrice
  match s.known d.pool with
  | some existingPos =>
      ⟨.post, clmm ++ "/add-liquidity", body ++ [("positionAddress", existingPos)]⟩
  | none => ⟨.post, clmm ++ "/open-position", body⟩

/-- The write of an admissible deposit, if its prices exist. -/
def writeRequest (anchor : Anchor K) (d : Deposit K) (s : Session K) : Option (Request K) :=
  (d.binIds.min?.bind anchor.priceOf).bind fun lowerPrice =>
    (d.binIds.max?.bind anchor.priceOf).map (writeBetween cfg anchor d s lowerPrice)

/-- The deposit passes the checks on the anchor. -/
def AdmittedAt (anchor : Anchor K) (d : Deposit K) : Prop :=
  |anchor.activeBin - d.expectedActiveBin| < d.maxActiveBinSlippage ∧
    crosses d.side d.binIds d.expectedActiveBin = false ∧
    crosses d.side d.binIds anchor.activeBin = false

instance (anchor : Anchor K) (d : Deposit K) : Decidable (AdmittedAt anchor d) :=
  inferInstanceAs (Decidable (_ ∧ _ ∧ _))

theorem recordPosition_sent (pool : String) (result : ExecResult K) (s : Session K) :
    (recordPosition pool result s).2.sent = s.sent := by
  unfold recordPosition
  split
  next =>
    split
    next =>
      dsimp only
      split <;> rfl
    next => rfl
  next => rfl

theorem writeDeposit_sent (anchor : Anchor K) (d : Deposit K) {s : Session K}
    (hstarted : s.started = true) :
    (writeDeposit lib cfg net anchor d s).2.sent =
      s.sent ++ (writeRequest cfg anchor d s).toList := by
  unfold writeDeposit writeRequest
  cases d.binIds.min?.bind anchor.priceOf with
  | none => exact (List.append_nil _).symm
  | some lowerPrice =>
      cases d.binIds.max?.bind anchor.priceOf with
      | none => exact (List.append_nil _).symm
      | some upperPrice =>
          simp only [Option.bind_some, Option.map_some, Option.toList_some, writeBetween]
          apply Returned.andThen_rule (fun s' => s'.sent = _)
          · cases s.known d.pool with
            | none => simp [post, request_session, hstarted]
            | some existingPos => simp [post, request_session, hstarted]
          · intro result _
            rw [recordPosition_sent]
            cases s.known d.pool with
            | none => simp [post, request_session, hstarted]
            | some existingPos => simp [post, request_session, hstarted]

theorem depositAt_sent (anchor : Anchor K) (d : Deposit K) {s : Session K}
    (hstarted : s.started = true) :
    (depositAt lib cfg net anchor d s).2.sent =
      s.sent ++ if AdmittedAt anchor d then (writeRequest cfg anchor d s).toList else [] := by
  have hrejected : ¬ AdmittedAt anchor d → s.sent =
      s.sent ++ if AdmittedAt anchor d then (writeRequest cfg anchor d s).toList else [] := by
    intro hnot
    rw [if_neg hnot, List.append_nil]
  by_cases hfar : d.maxActiveBinSlippage < |anchor.activeBin - d.expectedActiveBin|
  · rw [depositAt, if_pos hfar]
    exact hrejected fun hadmitted => absurd hadmitted.1 (not_lt.mpr hfar.le)
  · by_cases hzero : d.remainingTolerance anchor.activeBin = 0
    · rw [depositAt, if_neg hfar, if_pos hzero]
      refine hrejected fun hadmitted => ?_
      exact absurd (sub_eq_zero.mp hzero) hadmitted.1.ne'
    · have hnear : |anchor.activeBin - d.expectedActiveBin| < d.maxActiveBinSlippage :=
        lt_of_le_of_ne (not_lt.mp hfar) fun heq => hzero (sub_eq_zero.mpr heq.symm)
      rw [depositAt, if_neg hfar, if_neg hzero]
      split
      next hcrosses =>
        refine hrejected fun hadmitted => ?_
        rw [hadmitted.2.1, hadmitted.2.2] at hcrosses
        cases hcrosses
      next hclear =>
        rw [Bool.not_eq_true, Bool.or_eq_false_iff] at hclear
        have hadmitted : AdmittedAt anchor d := ⟨hnear, hclear⟩
        rw [if_pos hadmitted]
        exact writeDeposit_sent lib cfg net anchor d hstarted

theorem binPriceFn_session [FloorRing K] (pool : String) (s : Session K) :
    (binPriceFn lib cfg net pool s).2 =
      { s with sent := s.sent ++ if s.started then [poolInfo cfg pool] else [] } := by
  have hread := request_session lib net .get (clmm ++ "/pool-info")
    [("network", .string cfg.network), ("poolAddress", .string pool)] s
  apply Returned.andThen_rule (fun s' => s' = _)
  · exact hread
  · intro anchor _
    split <;> exact hread

theorem request_started {method : Method} {path : String} {payload : Fields K} {s : Session K}
    {result : ExecResult K} (hresult : (s.request lib net method path payload).1 = some result) :
    s.started = true := by
  unfold request at hresult
  split at hresult
  next hstarted => exact hstarted
  next => cases hresult

theorem binPriceFn_started [FloorRing K] {pool : String} {s : Session K}
    {result : Except (ExecResult K) (Anchor K)}
    (hresult : (binPriceFn lib cfg net pool s).1 = some result) : s.started = true := by
  unfold binPriceFn at hresult
  obtain ⟨_, heq⟩ | ⟨read, hread, _⟩ := Returned.andThen_cases
    (s.get lib cfg net (clmm ++ "/pool-info") [("poolAddress", .string pool)]) _
  · rw [heq] at hresult
    cases hresult
  · exact request_started lib net hread

/-- The tolerance is positive and within the configured bound. -/
def WithinPolicy (d : Deposit K) : Prop :=
  0 < d.maxActiveBinSlippage ∧ d.maxActiveBinSlippage ≤ cfg.maxActiveBinSlippageBins

instance (d : Deposit K) : Decidable (WithinPolicy cfg d) :=
  inferInstanceAs (Decidable (_ ∧ _))

/-- What a deposit sends after its read. -/
def writesAfter [FloorRing K] (d : Deposit K) (s : Session K) : List (Request K) :=
  match (binPriceFn lib cfg net d.pool s).1 with
  | some (.ok anchor) =>
      if AdmittedAt anchor d then (writeRequest cfg anchor d s).toList else []
  | _ => []

theorem depositSingleSided_sent [FloorRing K] (d : Deposit K) (s : Session K) :
    (depositSingleSided lib cfg net d s).2.sent = s.sent ++
      if s.started = true ∧ WithinPolicy cfg d then
        poolInfo cfg d.pool :: writesAfter lib cfg net d s
      else [] := by
  by_cases hpolicy : WithinPolicy cfg d
  · have hnegative : ¬ d.maxActiveBinSlippage < 0 := by
      have hpos := hpolicy.1
      omega
    have hnonzero : ¬ d.maxActiveBinSlippage = 0 := by
      have hpos := hpolicy.1
      omega
    rw [depositSingleSided, if_neg hnegative, if_neg hnonzero, if_neg (not_lt.mpr hpolicy.2)]
    have hsession := binPriceFn_session lib cfg net d.pool s
    cases hresult : (binPriceFn lib cfg net d.pool s).1 with
    | none =>
        have hpair : binPriceFn lib cfg net d.pool s = (none, _) := Prod.ext hresult hsession
        rw [writesAfter, hresult, hpair]
        simp only [Returned.andThen, hpolicy, and_true]
    | some result =>
        have hstarted := binPriceFn_started lib cfg net hresult
        have hpair : binPriceFn lib cfg net d.pool s = (some result, _) :=
          Prod.ext hresult hsession
        rw [writesAfter, hresult, hpair, if_pos hstarted, if_pos ⟨hstarted, hpolicy⟩]
        cases result with
        | error failed => rfl
        | ok anchor =>
            -- the read leaves the position that the write adds to
            have hsent := depositAt_sent lib cfg net anchor d
              (s := { s with sent := s.sent ++ [poolInfo cfg d.pool] }) hstarted
            rw [List.append_assoc] at hsent
            exact hsent
  · rw [if_neg (fun hboth => hpolicy hboth.2), List.append_nil]
    unfold depositSingleSided
    split
    next => rfl
    next hnegative =>
      split
      next => rfl
      next hnonzero =>
        split
        next => rfl
        next hcap => exact absurd ⟨by omega, by omega⟩ hpolicy

end Requests

end Session

end Opms.Gateway

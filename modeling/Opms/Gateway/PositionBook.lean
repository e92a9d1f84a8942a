import Opms.Gateway.Requests
import Mathlib.Data.Rat.Floor

/-! # The position book under failures

A deposit notes a position only from a successful write. A full withdrawal drops
the position whatever its write returns, so the book survives a failed verb
exactly when the verb closes no position that it holds.
-/

namespace Opms.Gateway

open Foundation

universe u

variable {K : Type u}

namespace Session

section Verbs

variable [Field K] [LinearOrder K]
variable (lib : Library K) (cfg : GatewayConfig) (net : ℕ → Outcome K)

/-! ## Verbs without a write of positions -/

theorem getPosition_positions (positionId : Json K) (s : Session K) :
    (getPosition lib cfg net positionId s).2.positions = s.positions := by
  apply Returned.andThen_rule (fun s' => s'.positions = s.positions)
  · exact get_positions lib cfg net _ _ s
  · intro result _
    split <;> exact get_positions lib cfg net _ _ s

theorem getState_positions (pool : String) (s : Session K) :
    (getState lib cfg net pool s).2.positions = s.positions := by
  have hread := get_positions lib cfg net (clmm ++ "/pool-info") [("poolAddress", .string pool)] s
  apply Returned.andThen_rule (fun s' => s'.positions = s.positions) hread
  intro poolR _
  split
  next =>
    split
    next => exact hread
    next =>
      split
      next => exact hread
      next posId _ =>
        have hposition := (getPosition_positions lib cfg net posId _).trans hread
        apply Returned.andThen_rule (fun s' => s'.positions = s.positions) hposition
        intro posR _
        split <;> exact hposition
  next => exact hread

/-! ## Deposits -/

omit [Field K] [LinearOrder K] in
/-- A returned failure comes with the book as it was. -/
def FailsClean (s : Session K) (returned : Returned K (ExecResult K)) : Prop :=
  ∀ result, returned.1 = some result → result.ok = false → returned.2.positions = s.positions

omit [Field K] [LinearOrder K] in
theorem andThen_failsClean {First : Type u} {s : Session K} (returned : Returned K First)
    (next : First → Session K → Returned K (ExecResult K))
    (hnext : ∀ result, returned.1 = some result → FailsClean s (next result returned.2)) :
    FailsClean s (returned.andThen next) := by
  obtain ⟨_, heq⟩ | ⟨result, hresult, heq⟩ := returned.andThen_cases next
  · rw [heq]
    rintro _ ⟨⟩
  · rw [heq]
    exact hnext result hresult

theorem recordPosition_failsClean (pool : String) (result : ExecResult K) {s s' : Session K}
    (hsame : s'.positions = s.positions) : FailsClean s (recordPosition pool result s') := by
  unfold recordPosition
  split
  next hok =>
    have hresult : result.ok = true := (Bool.and_eq_true_iff.mp hok).1
    split
    next =>
      dsimp only
      split
      next =>
        -- a noted position comes from a successful result
        rintro _ ⟨⟩ hfailed
        rw [hresult] at hfailed
        cases hfailed
      next => exact fun _ _ _ => hsame
    next => exact fun _ _ _ => hsame
  next => exact fun _ _ _ => hsame

theorem writeDeposit_failsClean (anchor : Anchor K) (d : Deposit K) {s s' : Session K}
    (hsame : s'.positions = s.positions) :
    FailsClean s (writeDeposit lib cfg net anchor d s') := by
  unfold writeDeposit
  split
  next =>
    apply andThen_failsClean
    intro result _
    apply recordPosition_failsClean
    split <;> exact (post_positions lib cfg net _ _ _).trans hsame
  next => exact fun _ _ _ => hsame

theorem depositAt_failsClean (anchor : Anchor K) (d : Deposit K) {s s' : Session K}
    (hsame : s'.positions = s.positions) :
    FailsClean s (depositAt lib cfg net anchor d s') := by
  unfold depositAt
  dsimp only
  split
  next => exact fun _ _ _ => hsame
  next =>
    split
    next => exact fun _ _ _ => hsame
    next =>
      split
      next => exact fun _ _ _ => hsame
      next => exact writeDeposit_failsClean lib cfg net anchor d hsame

theorem depositSingleSided_failsClean [FloorRing K] (d : Deposit K) (s : Session K) :
    FailsClean s (depositSingleSided lib cfg net d s) := by
  unfold depositSingleSided
  split
  next => exact fun _ _ _ => rfl
  next =>
    split
    next => exact fun _ _ _ => rfl
    next =>
      split
      next => exact fun _ _ _ => rfl
      next =>
        have hread := binPriceFn_positions lib cfg net d.pool s
        apply andThen_failsClean
        rintro (failed | anchor) _
        · exact fun _ _ _ => hread
        · exact depositAt_failsClean lib cfg net anchor d hread

/-! ## Verbs and the positions they close -/

theorem withdraw_positions (positionId : String) (percent : ℤ) (s : Session K)
    {result : ExecResult K}
    (hresult : (withdraw lib cfg net positionId percent s).1 = some result) :
    (withdraw lib cfg net positionId percent s).2.positions =
      if 100 ≤ percent then s.positions.filter fun _ v => !v.isString positionId
      else s.positions := by
  unfold withdraw at hresult ⊢
  split
  next hfull =>
    rw [if_pos hfull] at hresult
    obtain ⟨_, heq⟩ | ⟨read, _, heq⟩ := Returned.andThen_cases (s.post lib cfg net
      (clmm ++ "/close-position") [("positionAddress", .string positionId)]) _
    · rw [heq] at hresult
      cases hresult
    · rw [heq, post_positions]
  next => exact post_positions lib cfg net _ _ s

theorem refreshBundle_of_failed [FloorRing K] (withdrawPositionId : String)
    (swapSpec : Option (SwapSpec K)) (depositSpec : DepositSpec K) (s : Session K)
    {result : ExecResult K}
    (hresult : (withdraw lib cfg net withdrawPositionId 100 s).1 = some result)
    (hfailed : result.ok = false) :
    (refreshBundle lib cfg net withdrawPositionId swapSpec depositSpec s).2 =
      (withdraw lib cfg net withdrawPositionId 100 s).2 := by
  have hpair : withdraw lib cfg net withdrawPositionId 100 s = (some result, _) :=
    Prod.ext hresult rfl
  rw [refreshBundle, hpair]
  simp only [Returned.andThen, hfailed, Bool.false_eq_true, ↓reduceIte]

end Verbs

end Session

/-- The verbs of the bridge. -/
inductive Verb (K : Type u)
  | getPosition (positionId : Json K)
  | getState (pool : String)
  | depositSingleSided (d : Session.Deposit K)
  | withdraw (positionId : String) (percent : ℤ)
  | swap (inMint outMint : String) (amount : K) (pool : Option String) (maxSlippageBps : ℤ)
  | refreshBundle (withdrawPositionId : String) (swapSpec : Option (Session.SwapSpec K))
      (depositSpec : Session.DepositSpec K)

/-- The position that the verb closes in full. -/
def Verb.closes? : Verb K → Option String
  | .withdraw positionId percent => if 100 ≤ percent then some positionId else none
  | .refreshBundle withdrawPositionId _ _ => some withdrawPositionId
  | _ => none

namespace Session

variable [Field K] [LinearOrder K] [FloorRing K]
variable (lib : Library K) (cfg : GatewayConfig) (net : ℕ → Outcome K)

def perform (s : Session K) : Verb K → Returned K (ExecResult K)
  | .getPosition positionId => getPosition lib cfg net positionId s
  | .getState pool => getState lib cfg net pool s
  | .depositSingleSided d => depositSingleSided lib cfg net d s
  | .withdraw positionId percent => withdraw lib cfg net positionId percent s
  | .swap inMint outMint amount pool maxSlippageBps =>
      swap lib cfg net inMint outMint amount pool maxSlippageBps s
  | .refreshBundle withdrawPositionId swapSpec depositSpec =>
      refreshBundle lib cfg net withdrawPositionId swapSpec depositSpec s

/-- The verb returns a failure, or its withdrawal does if it is a refresh. -/
def Fails (s : Session K) : Verb K → Prop
  | .refreshBundle withdrawPositionId _ _ =>
      ∃ result, (withdraw lib cfg net withdrawPositionId 100 s).1 = some result ∧
        result.ok = false
  | verb => ∃ result, (s.perform lib cfg net verb).1 = some result ∧ result.ok = false

omit [Field K] [LinearOrder K] [FloorRing K] in
/-- The book has the position for some pool. -/
def Holds (s : Session K) (positionId : String) : Prop :=
  ∃ pool position, s.positions.lookup pool = some position ∧
    position.isString positionId = true

/-- The next report on the pool gives the balances of the position, if it can be
read. -/
def Reports (s : Session K) (pool : String) (position : Json K) : Prop :=
  ∀ (net : ℕ → Outcome K) (poolR posR : ExecResult K) (d : Fields K) (idle : ExecResult K),
    let read := s.get lib cfg net (clmm ++ "/pool-info") [("poolAddress", .string pool)]
    read.1 = some poolR → poolR.ok = true → poolR.data.fields? = some d →
      poolState lib d 0 0 = some idle →
      (getPosition lib cfg net position read.2).1 = some posR → posR.ok = true →
      posR.data.truthy = true →
        (getState lib cfg net pool s).1 =
          (balancesOf lib posR.data).bind fun (base, quote) => poolState lib d base quote

/-- The next deposits to the pool add to the position. -/
def AddsTo (s : Session K) (pool : String) (position : Json K) : Prop :=
  ∀ (net : ℕ → Outcome K) (d : Deposit K), d.pool = pool →
    ∀ request ∈ (depositSingleSided lib cfg net d s).2.sent.drop s.sent.length,
      request.method = .post → request.path = clmm ++ "/add-liquidity" ∧
        request.payload.get? "positionAddress" = some position

omit [Field K] [LinearOrder K] [FloorRing K] in
theorem filter_positions_eq_iff (s : Session K) (positionId : String) :
    s.positions.filter (fun _ v => !v.isString positionId) = s.positions ↔
      ¬ s.Holds positionId := by
  simp [Registry.filter_eq_self_iff, Holds]

theorem perform_positions_iff (s : Session K) (verb : Verb K)
    (hfails : s.Fails lib cfg net verb) :
    (s.perform lib cfg net verb).2.positions = s.positions ↔
      ∀ positionId ∈ verb.closes?, ¬ s.Holds positionId := by
  cases verb with
  | getPosition positionId =>
      exact iff_of_true (getPosition_positions lib cfg net positionId s) nofun
  | getState pool => exact iff_of_true (getState_positions lib cfg net pool s) nofun
  | depositSingleSided d =>
      obtain ⟨result, hresult, hfailed⟩ := hfails
      exact iff_of_true (depositSingleSided_failsClean lib cfg net d s result hresult hfailed) nofun
  | withdraw positionId percent =>
      obtain ⟨result, hresult, -⟩ := hfails
      rw [perform, withdraw_positions lib cfg net positionId percent s hresult, Verb.closes?]
      split
      next => simp [filter_positions_eq_iff]
      next => exact iff_of_true rfl nofun
  | swap inMint outMint amount pool maxSlippageBps =>
      exact iff_of_true (post_positions lib cfg net _ _ s) nofun
  | refreshBundle withdrawPositionId swapSpec depositSpec =>
      obtain ⟨result, hresult, hfailed⟩ := hfails
      rw [perform, refreshBundle_of_failed lib cfg net _ _ _ s hresult hfailed,
        withdraw_positions lib cfg net withdrawPositionId 100 s hresult, if_pos (le_refl _)]
      simp [filter_positions_eq_iff, Verb.closes?]

omit [FloorRing K] in
theorem reports_of_known {s : Session K} {pool : String} {position : Json K}
    (hknown : s.known pool = some position) : s.Reports lib cfg pool position := by
  intro net poolR posR d idle read hread hok hdata hidle hposition hposOk htruthy
  have hpair : s.get lib cfg net (clmm ++ "/pool-info") [("poolAddress", .string pool)] =
      (some poolR, read.2) := Prod.ext hread rfl
  have hsame : read.2.known pool = some position := by
    rw [known, get_positions]
    exact hknown
  have hposPair : getPosition lib cfg net position read.2 = (some posR, _) :=
    Prod.ext hposition rfl
  rw [getState, hpair]
  simp only [Returned.andThen, hok, ↓reduceIte, hdata, Option.bind_some, hidle, Option.map_some,
    hsame]
  rw [hposPair]
  simp only [hposOk, htruthy, Bool.and_self, ↓reduceIte]

theorem addsTo_of_known {s : Session K} {pool : String} {position : Json K}
    (hknown : s.known pool = some position) : s.AddsTo lib cfg pool position := by
  rintro net d rfl request hrequest hpost
  rw [depositSingleSided_sent, List.drop_left'] at hrequest
  · split at hrequest
    next =>
      rcases List.mem_cons.mp hrequest with rfl | hwrite
      · cases hpost
      · unfold writesAfter at hwrite
        split at hwrite
        next =>
          split at hwrite
          next =>
            obtain ⟨lowerPrice, _, hupper⟩ := Option.bind_eq_some_iff.mp
              (Option.mem_toList.mp hwrite)
            obtain ⟨upperPrice, _, rfl⟩ := Option.map_eq_some_iff.mp hupper
            rw [writeBetween, hknown]
            exact ⟨rfl, rfl⟩
          next => cases hwrite
        next => cases hwrite
    next => cases hrequest
  · rfl

/-- A failed verb leaves the book as it was exactly when the verb closes no
position that the book holds. The bridge then still knows every position,
reports it and adds to it. -/
theorem failed_verb_keeps_positions_iff (s : Session K) (verb : Verb K)
    (hfails : s.Fails lib cfg net verb) :
    ((s.perform lib cfg net verb).2.positions = s.positions ↔
      ∀ positionId ∈ verb.closes?, ¬ s.Holds positionId) ∧
    ((∀ positionId ∈ verb.closes?, ¬ s.Holds positionId) →
      ∀ pool position, s.known pool = some position →
        let after := (s.perform lib cfg net verb).2
        after.known pool = some position ∧ after.Reports lib cfg pool position ∧
          after.AddsTo lib cfg pool position) := by
  have hiff := perform_positions_iff lib cfg net s verb hfails
  refine ⟨hiff, fun hharmless pool position hknown => ?_⟩
  have hsame : (s.perform lib cfg net verb).2.known pool = some position := by
    rw [known, hiff.mpr hharmless]
    exact hknown
  exact ⟨hsame, reports_of_known lib cfg hsame, addsTo_of_known lib cfg hsame⟩

/-! ## Concrete sessions -/

/-- Replies become successful results with their data. -/
def sampleLibrary : Library ℚ where
  read := ⟨fun _ => none, fun _ => none⟩
  str
    | .string text => text
    | _ => ""
  fromPayload envelope := some { ok := true, data := (envelope.get? "data").getD .null }

/-- A deposit opens a position, its full withdrawal fails, and another deposit
follows. -/
def sampleNetwork : ℕ → Outcome ℚ
  | 1 => .reply (.object [("positionAddress", .string "first")])
  | 2 => .status 500 "unavailable"
  | 4 => .reply (.object [("positionAddress", .string "second")])
  | _ => .reply (.object [("activeBinId", .int 0), ("price", .float 100), ("binStep", .int 80)])

def sampleDeposit : Deposit ℚ where
  pool := "pool"
  side := .bid
  binIds := [-2, -1]
  amounts := [10, 20]
  expectedActiveBin := 0
  maxActiveBinSlippage := 2

def sampleSession : Session ℚ where
  started := true
  positions := Registry.empty

/-- The session with the position opened. -/
def openedSession : Session ℚ :=
  (depositSingleSided sampleLibrary {} sampleNetwork sampleDeposit sampleSession).2

/-- A partial withdrawal that fails keeps the position. -/
theorem failed_verb_keeps_positions_iff_partial :
    (openedSession.perform sampleLibrary {} sampleNetwork (.withdraw "first" 50)).2.positions =
      openedSession.positions :=
  have hfailed : (withdraw sampleLibrary {} sampleNetwork "first" 50 openedSession).1.map
      ExecResult.ok = some false := by
    decide +kernel
  (failed_verb_keeps_positions_iff sampleLibrary {} sampleNetwork openedSession
    (.withdraw "first" 50) (Option.map_eq_some_iff.mp hfailed)).1.mpr (by simp [Verb.closes?])

/-- The failed full withdrawal forgets the position, and the next deposit opens
a second one. -/
theorem failed_close_forgets_position :
    let closed := withdraw sampleLibrary {} sampleNetwork "first" 100 openedSession
    let reopened := depositSingleSided sampleLibrary {} sampleNetwork sampleDeposit closed.2
    (openedSession.positions.lookup "pool").map (Json.isString "first") = some true ∧
      closed.1.map ExecResult.ok = some false ∧
      closed.2.positions ≠ openedSession.positions ∧
      (closed.2.positions.lookup "pool").isNone = true ∧
      reopened.2.sent.map Request.path =
        [clmm ++ "/pool-info", clmm ++ "/open-position", clmm ++ "/close-position",
          clmm ++ "/pool-info", clmm ++ "/open-position"] ∧
      (reopened.2.positions.lookup "pool").map (Json.isString "second") = some true := by
  have hforgotten : ((withdraw sampleLibrary {} sampleNetwork "first" 100
      openedSession).2.positions.lookup "pool").isNone = true := by
    decide +kernel
  have hopened : (openedSession.positions.lookup "pool").map (Json.isString "first") =
      some true := by
    decide +kernel
  refine ⟨hopened, by decide +kernel, fun hsame => ?_, hforgotten, by decide +kernel,
    by decide +kernel⟩
  rw [hsame] at hforgotten
  rw [Option.isNone_iff_eq_none.mp hforgotten] at hopened
  cases hopened

end Session

end Opms.Gateway

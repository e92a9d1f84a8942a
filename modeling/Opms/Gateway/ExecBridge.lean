import Opms.Foundation.Registry
import Opms.Gateway.Json

/-! # The Gateway execution bridge

Each verb sends requests to the Gateway and reads the replies; the bridge keeps
one position id for each pool. What the network does is given by the position of
a request in the log of all that were sent. A verb that raises keeps the changes
it made before, so verbs return no result then, but always a session.
-/

namespace Opms.Gateway

open Foundation

universe u

variable {K : Type u}

/-! ## Results and requests -/

structure ExecResult (K : Type u) where
  ok : Bool
  data : Json K := .null
  error : Option String := none
  positionId : Json K := .null
  txSignatures : List (Json K) := []
  txReceipts : List (Fields K) := []
  slot : Json K := .null
  blockTime : Json K := .null
  feeLamports : Option ℤ := none

def ExecResult.failure (error : String) : ExecResult K := { ok := false, error := some error }

def ExecResult.errorText (result : ExecResult K) : String := result.error.getD "None"

inductive Method
  | get
  | post
  deriving DecidableEq

structure Request (K : Type u) where
  method : Method
  path : String
  payload : Fields K

/-- How the exchange of a request ends: with an error status, with another
exception, or with a decoded reply. -/
inductive Outcome (K : Type u)
  | status (code : ℕ) (text : String)
  | raised (message : String)
  | reply (raw : Json K)

/-- Code outside the repository: conversions of strings, `str`, and
`ExecResult.from_payload`, which may raise. -/
structure Library (K : Type u) where
  read : StringReader K
  str : Json K → String
  fromPayload : Fields K → Option (ExecResult K)

structure GatewayConfig where
  wallet : String := ""
  network : String := "mainnet-beta"
  baseDecimals : ℕ := 9
  quoteDecimals : ℕ := 6
  maxActiveBinSlippageBins : ℤ := 3

/-- The bridge, `started` while it has a client, and the requests it sent. -/
structure Session (K : Type u) where
  started : Bool
  positions : Registry String (Json K)
  sent : List (Request K) := []

/-- What a verb returns, nothing when it raises, and the session it leaves. -/
abbrev Returned (K : Type u) (Result : Type u) := Option Result × Session K

namespace Returned

variable {First Last : Type u}

/-- Go on with the result, unless the first part raised. -/
def andThen (returned : Returned K First) (next : First → Session K → Returned K Last) :
    Returned K Last :=
  match returned with
  | (none, s) => (none, s)
  | (some result, s) => next result s

theorem andThen_cases (returned : Returned K First)
    (next : First → Session K → Returned K Last) :
    (returned.1 = none ∧ returned.andThen next = (none, returned.2)) ∨
      ∃ result, returned.1 = some result ∧ returned.andThen next = next result returned.2 := by
  obtain ⟨result, s⟩ := returned
  cases result with
  | none => exact .inl ⟨rfl, rfl⟩
  | some result => exact .inr ⟨result, rfl, rfl⟩

/-- What both parts lead to. -/
theorem andThen_rule (reached : Session K → Prop) {returned : Returned K First}
    {next : First → Session K → Returned K Last} (hfirst : reached returned.2)
    (hnext : ∀ result, returned.1 = some result → reached (next result returned.2).2) :
    reached (returned.andThen next).2 := by
  obtain ⟨_, heq⟩ | ⟨result, hresult, heq⟩ := returned.andThen_cases next
  · rw [heq]
    exact hfirst
  · rw [heq]
    exact hnext result hresult

end Returned

/-- `_CLMM`. -/
def clmm : String := "/connectors/meteora/clmm"

namespace Session

def start (s : Session K) : Session K := { s with started := true }

def stop (s : Session K) : Session K := { s with started := false }

variable [Field K] [LinearOrder K]
variable (lib : Library K) (cfg : GatewayConfig) (net : ℕ → Outcome K)

/-- The result of a decoded reply. -/
def resultOf (raw : Fields K) : Option (ExecResult K) :=
  match (raw.get? "error").filter Json.truthy with
  | some error => some (.failure (lib.str error))
  | none =>
      let data := ((raw.get? "data").bind Json.fields?).getD raw
      lib.fromPayload ((raw.set "ok" (.bool true)).set "data" (.object data))

/-- `_request`. -/
def request (method : Method) (path : String) (payload : Fields K) (s : Session K) :
    Returned K (ExecResult K) :=
  if s.started then
    let sent := { s with sent := s.sent ++ [⟨method, path, payload⟩] }
    match net s.sent.length with
    | .status code text => (some (.failure s!"HTTP {code}: {text.take 200}"), sent)
    | .raised message => (some (.failure message), sent)
    | .reply raw => (raw.fields?.bind (resultOf lib), sent)
  else
    (none, s)

def get (path : String) (params : Fields K) (s : Session K) : Returned K (ExecResult K) :=
  s.request lib net .get path (("network", .string cfg.network) :: params)

def post (path : String) (body : Fields K) (s : Session K) : Returned K (ExecResult K) :=
  s.request lib net .post path
    (("network", .string cfg.network) :: ("walletAddress", .string cfg.wallet) :: body)

/-! ## Reads -/

/-- What a pool-info read anchors bin prices to. -/
structure Anchor (K : Type u) where
  price : K
  activeBin : ℤ
  binStepBps : ℤ

def Anchor.step (anchor : Anchor K) : K := 1 + anchor.binStepBps / (10000 : ℕ)

/-- The price of a bin, or nothing for a negative power of zero. -/
def Anchor.priceOf (anchor : Anchor K) (binId : ℤ) : Option K :=
  if anchor.step = 0 ∧ binId < anchor.activeBin then none
  else some (anchor.price * anchor.step ^ (binId - anchor.activeBin))

def anchorOf [FloorRing K] (data : Json K) : Option (Anchor K) :=
  data.fields?.bind fun d =>
    (d.get? "price").bind fun price => (price.toFloat lib.read).bind fun price =>
      (d.get? "activeBinId").bind fun activeBin => (activeBin.toInt lib.read).bind fun activeBin =>
        (d.get? "binStep").bind fun binStep => (binStep.toInt lib.read).map fun binStep =>
          ⟨price, activeBin, binStep⟩

/-- `_bin_price_fn`: the anchor, or the result of a failed read. -/
def binPriceFn [FloorRing K] (pool : String) (s : Session K) :
    Returned K (Except (ExecResult K) (Anchor K)) :=
  (s.get lib cfg net (clmm ++ "/pool-info") [("poolAddress", .string pool)]).andThen
    fun anchor s =>
      if anchor.ok then ((anchorOf lib anchor.data).map .ok, s) else (some (.error anchor), s)

/-- The rows of a position's bins; only a number cannot be gone through. -/
def binRows (raw : Fields K) : Option (List (Json K)) :=
  let row (source : Fields K) : Json K :=
    .object (((source.set "bin_id" ((source.first ["bin_id", "binId", "activeBin"]).getD .null)).set
      "amount_x_raw" ((source.first ["amount_x_raw", "amountXRaw"]).getD .null)).set
      "amount_y_raw" ((source.first ["amount_y_raw", "amountYRaw"]).getD .null))
  let bins := (raw.get? "bins").getD ((raw.get? "positions").getD (.array []))
  if bins.truthy then
    match bins with
    | .array items => some ((items.filterMap Json.fields?).map row)
    | .object _ => some []
    | .string _ => some []
    | _ => none
  else
    some []

/-- The normalized data of a position. -/
def positionData (positionId : Json K) (raw : Fields K) : Option (Json K) :=
  let feeXRaw := raw.first ["claimable_fee_x_raw", "claimableFeeXRaw", "feeXRaw"]
  let feeYRaw := raw.first ["claimable_fee_y_raw", "claimableFeeYRaw", "feeYRaw"]
  let fee (keys : List String) (feeRaw : Option (Json K)) (decimals : ℕ) : Option K :=
    match raw.first keys, feeRaw with
    | none, some feeRaw => (feeRaw.toFloat lib.read).map (· / (10 ^ decimals : ℕ))
    | fee, _ => Json.toFloatOrZero lib.read fee
  (fee ["claimable_fee_x", "claimableFeeX"] feeXRaw cfg.baseDecimals).bind fun feeX =>
    (fee ["claimable_fee_y", "claimableFeeY"] feeYRaw cfg.quoteDecimals).bind fun feeY =>
      (binRows raw).bind fun bins =>
        (Json.toFloatOrZero lib.read (raw.first ["baseTokenAmount", "baseAmount"])).bind
          fun baseAmount =>
            (Json.toFloatOrZero lib.read (raw.first ["quoteTokenAmount", "quoteAmount"])).map
              fun quoteAmount => .object
                [("raw", .object raw), ("position_id", positionId),
                  ("active_bin",
                    (raw.first ["active_bin", "activeBinId", "activeBin"]).getD .null),
                  ("bins", .array bins), ("claimable_fee_x_raw", feeXRaw.getD .null),
                  ("claimable_fee_y_raw", feeYRaw.getD .null), ("claimable_fee_x", .float feeX),
                  ("claimable_fee_y", .float feeY), ("base_amount", .float baseAmount),
                  ("quote_amount", .float quoteAmount)]

def getPosition (positionId : Json K) (s : Session K) : Returned K (ExecResult K) :=
  (s.get lib cfg net (clmm ++ "/position-info") [("positionAddress", positionId)]).andThen
    fun result s =>
      match result.ok, result.data with
      | true, .object raw =>
          ((positionData lib cfg positionId raw).map fun data =>
            { result with data, positionId }, s)
      | _, _ => (some result, s)

/-- The reported state of a pool, with the given balances. -/
def poolState (d : Fields K) (base quote : K) : Option (ExecResult K) :=
  (Json.toFloatOrZero lib.read (d.get? "price")).bind fun price =>
    (Json.toFloatOrZero lib.read (d.get? "baseTokenAmount")).bind fun baseAmt =>
      (Json.toFloatOrZero lib.read (d.get? "quoteTokenAmount")).map fun quoteAmt =>
        { ok := true
          data := .object
            [("active_bin", (d.get? "activeBinId").getD ((d.get? "activeBin").getD (.int 0))),
              ("price", .float price), ("tvl_usd", .float (baseAmt * price + quoteAmt)),
              ("balances", .object [("base", .float base), ("quote", .float quote)])] }

/-- The balances in a position's data, or nothing when reading them raises. -/
def balancesOf (data : Json K) : Option (K × K) :=
  data.fields?.bind fun d =>
    (((d.get? "base_amount").getD (.float 0)).toFloat lib.read).bind fun base =>
      (((d.get? "quote_amount").getD (.float 0)).toFloat lib.read).map fun quote => (base, quote)

/-- The position the bridge knows for a pool. -/
def known (s : Session K) (pool : String) : Option (Json K) :=
  (s.positions.lookup pool).filter Json.truthy

def getState (pool : String) (s : Session K) : Returned K (ExecResult K) :=
  (s.get lib cfg net (clmm ++ "/pool-info") [("poolAddress", .string pool)]).andThen
    fun poolR s =>
      if poolR.ok then
        match poolR.data.fields?.bind fun d => (poolState lib d 0 0).map fun idle => (d, idle) with
        | none => (none, s)
        | some (d, idle) =>
            match s.known pool with
            | none => (some idle, s)
            | some posId =>
                (getPosition lib cfg net posId s).andThen fun posR s =>
                  if posR.ok && posR.data.truthy then
                    ((balancesOf lib posR.data).bind fun (base, quote) =>
                      poolState lib d base quote, s)
                  else
                    (some idle, s)
      else
        (some poolR, s)

/-! ## Writes -/

inductive Side
  | bid
  | ask
  deriving DecidableEq

def Side.text : Side → String
  | .bid => "bid"
  | .ask => "ask"

/-- The arguments of `deposit_single_sided`. -/
structure Deposit (K : Type u) where
  pool : String
  side : Side
  binIds : List ℤ
  amounts : List K
  strategyType : String := "Spot"
  expectedActiveBin : ℤ
  maxActiveBinSlippage : ℤ

/-- `_STRATEGY_INT`, `Spot` for an unknown strategy. -/
def strategyInt : String → ℤ
  | "Curve" => 1
  | "BidAsk" => 2
  | _ => 0

def crosses (side : Side) (binIds : List ℤ) (active : ℤ) : Bool :=
  match side with
  | .bid => binIds.any fun binId => active ≤ binId
  | .ask => binIds.any fun binId => binId < active

/-- The tolerance that the drift of the active bin leaves. -/
def Deposit.remainingTolerance (d : Deposit K) (currentActiveBin : ℤ) : ℤ :=
  d.maxActiveBinSlippage - |currentActiveBin - d.expectedActiveBin|

/-- The remaining tolerance in percent: Gateway does not count bins. -/
def slippagePct (anchor : Anchor K) (d : Deposit K) : K :=
  d.remainingTolerance anchor.activeBin * anchor.binStepBps / (100 : ℕ)

/-- The body of the write, without the position it adds to. -/
def depositBody (anchor : Anchor K) (d : Deposit K) (lowerPrice upperPrice : K) : Fields K :=
  let total := d.amounts.sum
  [("poolAddress", .string d.pool), ("lowerPrice", .float lowerPrice),
    ("upperPrice", .float upperPrice),
    ("baseTokenAmount", if d.side = .ask then .float total else .int 0),
    ("quoteTokenAmount", if d.side = .bid then .float total else .int 0),
    ("strategyType", .int (strategyInt d.strategyType)),
    ("slippagePct", .float (slippagePct anchor d))]

/-- Note the position that a deposit returned, if it is one. -/
def recordPosition (pool : String) (result : ExecResult K) (s : Session K) :
    Returned K (ExecResult K) :=
  if result.ok && result.data.truthy then
    match result.data.fields? with
    | some data =>
        let posAddr := (data.get? "positionAddress").getD ((data.get? "position_id").getD .null)
        if posAddr.truthy then
          (some { result with data := .object (data.set "position_id" posAddr) },
            { s with positions := s.positions.set pool posAddr })
        else
          (some result, s)
    | none => (none, s)
  else
    (some result, s)

/-- The write of a deposit, to the known position or to a new one. -/
def writeDeposit (anchor : Anchor K) (d : Deposit K) (s : Session K) : Returned K (ExecResult K) :=
  match d.binIds.min?.bind anchor.priceOf, d.binIds.max?.bind anchor.priceOf with
  | some lowerPrice, some upperPrice =>
      let body := depositBody anchor d lowerPrice upperPrice
      let written :=
        match s.known d.pool with
        | some existingPos =>
            s.post lib cfg net (clmm ++ "/add-liquidity")
              (body ++ [("positionAddress", existingPos)])
        | none => s.post lib cfg net (clmm ++ "/open-position") body
      written.andThen fun result s => recordPosition d.pool result s
  | _, _ => (none, s)

/-- A deposit at a known anchor. -/
def depositAt (anchor : Anchor K) (d : Deposit K) (s : Session K) : Returned K (ExecResult K) :=
  let currentActiveBin := anchor.activeBin
  if d.maxActiveBinSlippage < |currentActiveBin - d.expectedActiveBin| then
    (some (.failure "active_bin_slippage_exceeded"), s)
  else if d.remainingTolerance currentActiveBin = 0 then
    (some (.failure "policy_rejected"), s)
  else if crosses d.side d.binIds d.expectedActiveBin ||
      crosses d.side d.binIds currentActiveBin then
    (some (.failure "bins_cross_active"), s)
  else
    writeDeposit lib cfg net anchor d s

/-- Legacy compatibility path, without the explicit weights of the bins. -/
def depositSingleSided [FloorRing K] (d : Deposit K) (s : Session K) :
    Returned K (ExecResult K) :=
  if d.maxActiveBinSlippage < 0 then
    (some (.failure "bad_request"), s)
  else if d.maxActiveBinSlippage = 0 then
    -- a zero slippage would be read as unset
    (some (.failure "policy_rejected"), s)
  else if cfg.maxActiveBinSlippageBins < d.maxActiveBinSlippage then
    (some (.failure "policy_rejected"), s)
  else
    (binPriceFn lib cfg net d.pool s).andThen fun
      | .error anchor, s => (some anchor, s)
      | .ok anchor, s => depositAt lib cfg net anchor d s

def withdraw (positionId : String) (percent : ℤ) (s : Session K) : Returned K (ExecResult K) :=
  if 100 ≤ percent then
    (s.post lib cfg net (clmm ++ "/close-position")
      [("positionAddress", .string positionId)]).andThen fun result s =>
        (some result,
          { s with positions := s.positions.filter fun _ v => !v.isString positionId })
  else
    s.post lib cfg net (clmm ++ "/remove-liquidity")
      [("positionAddress", .string positionId), ("liquidityPct", .int percent)]

/-- An exact-in sale of the input token. -/
def swap (inMint outMint : String) (amount : K) (pool : Option String) (maxSlippageBps : ℤ)
    (s : Session K) : Returned K (ExecResult K) :=
  let body : Fields K :=
    [("baseToken", .string inMint), ("quoteToken", .string outMint), ("amount", .float amount),
      ("side", .string "SELL"), ("slippagePct", .float (maxSlippageBps / (100 : ℕ)))]
  let pools : Fields K :=
    match pool.filter (· ≠ "") with
    | some pool => [("poolAddress", .string pool)]
    | none => []
  s.post lib cfg net (clmm ++ "/execute-swap") (body ++ pools)

/-! ## Refreshing -/

/-- A swap before the deposits; the pool deposited into unless it names one. -/
structure SwapSpec (K : Type u) where
  inMint : String
  outMint : String
  amount : K
  pool : Option String := none
  maxSlippageBps : ℤ := 50

/-- The deposits of a refresh; a key without default may be missing. -/
structure DepositSpec (K : Type u) where
  pool : Option String
  bidBins : List ℤ := []
  askBins : List ℤ := []
  bidAmounts : List K := []
  askAmounts : List K := []
  expectedActiveBin : Option ℤ
  maxActiveBinSlippage : Option ℤ

/-- The steps of a refresh so far, or the result it ends with. -/
abbrev Steps (K : Type u) := Except (ExecResult K) (List (ExecResult K))

/-- The deposit of one side after the steps so far. -/
def depositStep [FloorRing K] (d : Deposit K) (steps : List (ExecResult K)) (s : Session K) :
    Returned K (Steps K) :=
  if d.binIds.isEmpty then
    (some (.ok steps), s)
  else
    (depositSingleSided lib cfg net d s).andThen fun r s =>
      if r.ok then (some (.ok (steps ++ [r])), s)
      else (some (.error (.failure
        s!"refresh_bundle: {d.side.text} deposit failed: {r.errorText}")), s)

/-- The result of a whole refresh. -/
def bundleResult [FloorRing K] (steps : List (ExecResult K)) (position : Option (Json K)) :
    Option (ExecResult K) :=
  let receipts := steps.flatMap ExecResult.txReceipts
  let ofLast (key : String) : Json K := (receipts.getLast?.bind fun r => r.get? key).getD .null
  let fees := receipts.filterMap fun receipt => receipt.first ["fee_lamports"]
  (fees.mapM (Json.toInt lib.read)).map fun amounts =>
    { ok := true
      data := .object
        [("steps", .array (steps.map ExecResult.data)), ("position_id", position.getD .null)]
      txSignatures := steps.flatMap ExecResult.txSignatures
      txReceipts := receipts
      positionId := position.getD .null
      slot := ofLast "slot"
      blockTime := ofLast "block_time"
      feeLamports := if fees.isEmpty then none else some amounts.sum }

/-- The deposits of a refresh, bids before asks. -/
def redeposit [FloorRing K] (pool : String) (spec : DepositSpec K) (steps : List (ExecResult K))
    (s : Session K) : Returned K (ExecResult K) :=
  match spec.expectedActiveBin, spec.maxActiveBinSlippage with
  | some expectedActiveBin, some maxActiveBinSlippage =>
      let bid : Deposit K :=
        { pool, side := .bid, binIds := spec.bidBins, amounts := spec.bidAmounts
          expectedActiveBin, maxActiveBinSlippage }
      let ask : Deposit K :=
        { pool, side := .ask, binIds := spec.askBins, amounts := spec.askAmounts
          expectedActiveBin, maxActiveBinSlippage }
      (depositStep lib cfg net bid steps s).andThen fun
        | .error failed, s => (some failed, s)
        | .ok steps, s =>
            (depositStep lib cfg net ask steps s).andThen fun
              | .error failed, s => (some failed, s)
              | .ok steps, s => (bundleResult lib steps (s.positions.lookup pool), s)
  | _, _ => (none, s)

def refreshBundle [FloorRing K] (withdrawPositionId : String) (swapSpec : Option (SwapSpec K))
    (depositSpec : DepositSpec K) (s : Session K) : Returned K (ExecResult K) :=
  (withdraw lib cfg net withdrawPositionId 100 s).andThen fun withdrawR s =>
    if withdrawR.ok then
      match depositSpec.pool, swapSpec with
      | none, _ => (none, s)
      | some pool, none => redeposit lib cfg net pool depositSpec [withdrawR] s
      | some pool, some spec =>
          (swap lib cfg net spec.inMint spec.outMint spec.amount (some (spec.pool.getD pool))
            spec.maxSlippageBps s).andThen fun swapR s =>
              -- a failed swap is logged and the deposits follow anyway
              redeposit lib cfg net pool depositSpec [withdrawR, swapR] s
    else
      (some (.failure s!"refresh_bundle: withdraw failed: {withdrawR.errorText}"), s)

end Session

end Opms.Gateway

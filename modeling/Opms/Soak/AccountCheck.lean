import Opms.Foundation.Checks
import Opms.Soak.Monitor

/-! # The account check

Scripts around a bounded run read the account from the venue, request by
request, and judge what concerns the coins of the run. Every request meets the
account as it stands when it arrives.
-/

namespace Opms.Soak

open Foundation

/-! ## What the venue answers -/

/-- A figure as the venue gives it: a finite number, or nothing that `float` makes
one of. -/
inductive Figure
  | number (value : ℚ)
  | unusable
  deriving DecidableEq

structure OpenOrder where
  oid : ℤ
  coin : Option String
  side : Option String := none
  sz : Option String := none
  limitPx : Option String := none
  orderType : Option String := none
  reduceOnly : Bool := false
  deriving DecidableEq

structure AssetPosition where
  coin : Option String
  szi : Option ℚ
  entryPx : Option String := none
  unrealizedPnl : Option String := none
  deriving DecidableEq

/-- An absent size is read as 0. -/
def AssetPosition.size (position : AssetPosition) : ℚ := position.szi.getD 0

structure UserState where
  assetPositions : List AssetPosition := []
  accountValue : Option Figure := none
  totalMarginUsed : Option Figure := none
  totalNtlPos : Option Figure := none
  withdrawable : Option Figure := none
  deriving DecidableEq

structure SpotBalance where
  coin : Option String
  total : Option Figure
  hold : Option Figure
  deriving DecidableEq

structure SpotState where
  balances : List SpotBalance := []
  tokenToAvailableAfterMaintenance : List (ℤ × Figure) := []
  deriving DecidableEq

/-- The account at the venue. -/
structure Account where
  orders : List OpenOrder := []
  state : UserState := {}
  spot : SpotState := {}
  deriving DecidableEq

/-- An exception of a request. -/
structure Raised where
  typeName : String
  message : String
  deriving DecidableEq

def Raised.text (error : Raised) : String := error.typeName ++ ": " ++ error.message

/-! ## Requests -/

/-- What the signer signs. The order that closes a coin names no size: `szi` is the
size it was decided on, which is reported. -/
inductive SignedRequest
  | cancel (coin : String) (oid : ℤ)
  | marketClose (coin : String) (szi : Option ℚ)
  deriving DecidableEq

/-- `connect` builds the signing client. -/
inductive Request
  | userState
  | spotUserState
  | openOrders
  | connect
  | signed (request : SignedRequest)
  deriving DecidableEq

/-- The request asks what the account holds. -/
@[simp] def Request.IsRead : Request → Prop
  | .userState | .spotUserState | .openOrders => True
  | .connect | .signed _ => False

/-- The account as a request finds it, and what comes back. -/
structure Moment where
  account : Account
  response : String := ""
  error : Option Raised := none
  deriving DecidableEq

structure Entry extends Moment where
  request : Request
  deriving DecidableEq

/-- The request was answered. -/
def Entry.answered (entry : Entry) : Prop := entry.error = none

instance (entry : Entry) : Decidable entry.answered :=
  inferInstanceAs (Decidable (entry.error = none))

/-- Log a request and what it met; the moments are counted by the log. -/
def ask (moments : ℕ → Moment) (log : List Entry) (request : Request) : List Entry :=
  log ++ [{ moments log.length with request }]

/-- Why a script ends without a result. -/
inductive Abort
  | systemExit (message : String)
  | raised (error : Raised)
  deriving DecidableEq

/-- What the request reads of the account, or the error it raises. -/
def read {Reply : Type} (moments : ℕ → Moment) (log : List Entry) (request : Request)
    (reply : Account → Reply) : Except (Abort × List Entry) (Reply × List Entry) :=
  match (moments log.length).error with
  | some error => .error (.raised error, ask moments log request)
  | none => .ok (reply (moments log.length).account, ask moments log request)

section Reads

variable {moments : ℕ → Moment} {log after : List Entry} {request : Request} {abort : Abort}

/-- A read that is answered logs itself, and replies with what it saw. -/
theorem read_eq_ok {Reply : Type} {reply : Account → Reply} {result : Reply}
    (hread : read moments log request reply = .ok (result, after)) :
    ∃ entry, entry.request = request ∧ entry.answered ∧ result = reply entry.account ∧
      after = log ++ [entry] := by
  unfold read at hread
  split at hread
  next => cases hread
  next hnone =>
    obtain ⟨rfl, rfl⟩ := Prod.mk.inj (Except.ok.inj hread)
    exact ⟨{ moments log.length with request }, rfl, hnone, rfl, rfl⟩

theorem read_eq_error {Reply : Type} {reply : Account → Reply}
    (hread : read moments log request reply = .error (abort, after)) :
    ∃ entry, entry.request = request ∧ after = log ++ [entry] := by
  unfold read at hread
  split at hread
  next =>
    obtain ⟨_, rfl⟩ := Prod.mk.inj (Except.error.inj hread)
    exact ⟨{ moments log.length with request }, rfl, rfl⟩
  next => cases hread

end Reads

/-! ## The scope -/

def OpenOrder.inScope (coins : List String) (order : OpenOrder) : Prop :=
  ∃ coin ∈ order.coin, coin ∈ coins

instance (coins : List String) : DecidablePred (OpenOrder.inScope coins) :=
  fun _ => inferInstanceAs (Decidable (∃ _ ∈ _, _))

/-- A size the scripts do not take for dust. -/
def sizeable (size : ℚ) : Prop := 1 / 10 ^ 12 < |size|

instance : DecidablePred sizeable := fun _ => inferInstanceAs (Decidable (_ < _))

def AssetPosition.inScope (coins : List String) (position : AssetPosition) : Prop :=
  (∃ coin ∈ position.coin, coin ∈ coins) ∧ sizeable position.size

instance (coins : List String) : DecidablePred (AssetPosition.inScope coins) :=
  fun _ => inferInstanceAs (Decidable ((∃ _ ∈ _, _) ∧ _))

/-! ## The snapshot -/

structure Snapshot where
  address : String
  accountValue : Option Figure
  totalMarginUsed : Option Figure
  totalNotional : Option Figure
  withdrawable : Option Figure
  spotUsdcTotal : Option Figure
  spotUsdcHold : Option Figure
  availableAfterMaintenance : Option Figure
  orders : List OpenOrder
  positions : List AssetPosition
  deriving DecidableEq

/-- The first eight and the last four characters. -/
def redacted (address : String) : String :=
  let letters := address.toList
  String.ofList (letters.take 8) ++ ".." ++ String.ofList (letters.drop (letters.length - 4))

/-- The snapshot that three replies make; of two figures for a token the later counts. -/
def Snapshot.ofReplies (address : String) (coins : List String) (state : UserState)
    (spot : SpotState) (orders : List OpenOrder) : Snapshot :=
  let usdc := spot.balances.find? fun balance => balance.coin = some "USDC"
  let available := spot.tokenToAvailableAfterMaintenance.reverse.find? fun entry => entry.1 = 0
  { address := redacted address
    accountValue := state.accountValue
    totalMarginUsed := state.totalMarginUsed
    totalNotional := state.totalNtlPos
    withdrawable := state.withdrawable
    spotUsdcTotal := usdc.bind SpotBalance.total
    spotUsdcHold := usdc.bind SpotBalance.hold
    availableAfterMaintenance := available.map Prod.snd
    orders := orders.filter (OpenOrder.inScope coins ·)
    positions := state.assetPositions.filter (AssetPosition.inScope coins ·) }

/-- Positions are read first and orders last. -/
def snapshotAccount (moments : ℕ → Moment) (address : String) (coins : List String)
    (log : List Entry) : Except (Abort × List Entry) (Snapshot × List Entry) := do
  let (state, log) ← read moments log .userState Account.state
  let (spot, log) ← read moments log .spotUserState Account.spot
  let (orders, log) ← read moments log .openOrders Account.orders
  .ok (.ofReplies address coins state spot orders, log)

section Snapshots

variable {moments : ℕ → Moment} {address : String} {coins : List String} {log after : List Entry}

/-- A snapshot reads the positions, the spot balances and the orders in turn. -/
theorem snapshotAccount_eq_ok {snapshot : Snapshot}
    (hsnapshot : snapshotAccount moments address coins log = .ok (snapshot, after)) :
    ∃ state spot orders : Entry, state.request = .userState ∧ spot.request = .spotUserState ∧
      orders.request = .openOrders ∧ (∀ entry ∈ [state, spot, orders], entry.answered) ∧
      after = log ++ [state, spot, orders] ∧
      snapshot = .ofReplies address coins state.account.state spot.account.spot
        orders.account.orders := by
  simp only [snapshotAccount, bind_eq_ok_iff, Prod.exists, Except.ok.injEq, Prod.mk.injEq]
    at hsnapshot
  obtain ⟨_, _, hfirst, _, _, hsecond, _, _, hthird, rfl, rfl⟩ := hsnapshot
  obtain ⟨state, hstate, hseen, rfl, rfl⟩ := read_eq_ok hfirst
  obtain ⟨spot, hspot, hseen', rfl, rfl⟩ := read_eq_ok hsecond
  obtain ⟨orders, horders, hseen'', rfl, rfl⟩ := read_eq_ok hthird
  exact ⟨state, spot, orders, hstate, hspot, horders, by simp [hseen, hseen', hseen''], by simp,
    rfl⟩

theorem snapshotAccount_eq_error {abort : Abort}
    (hsnapshot : snapshotAccount moments address coins log = .error (abort, after)) :
    ∃ reads, after = log ++ reads ∧ ∀ entry ∈ reads, entry.request.IsRead := by
  simp only [snapshotAccount, bind_eq_error_iff, Prod.exists] at hsnapshot
  rcases hsnapshot with hfirst |
    ⟨_, _, hfirst, hsecond | ⟨_, _, hsecond, hthird | ⟨_, _, _, hnone⟩⟩⟩
  · obtain ⟨state, hstate, rfl⟩ := read_eq_error hfirst
    exact ⟨[state], rfl, by simp [hstate]⟩
  · obtain ⟨state, hstate, _, rfl, rfl⟩ := read_eq_ok hfirst
    obtain ⟨spot, hspot, rfl⟩ := read_eq_error hsecond
    exact ⟨[state, spot], by simp, by simp [hstate, hspot]⟩
  · obtain ⟨state, hstate, _, rfl, rfl⟩ := read_eq_ok hfirst
    obtain ⟨spot, hspot, _, rfl, rfl⟩ := read_eq_ok hsecond
    obtain ⟨orders, horders, rfl⟩ := read_eq_error hthird
    exact ⟨[state, spot, orders], by simp, by simp [hstate, hspot, horders]⟩
  · cases hnone

end Snapshots

/-- Nothing in the scope. -/
def Snapshot.clean (snapshot : Snapshot) : Prop :=
  snapshot.orders = [] ∧ snapshot.positions = []

instance : DecidablePred Snapshot.clean := fun _ => inferInstanceAs (Decidable (_ ∧ _))

/-! ## The check -/

inductive CheckFailure
  | notMainnet
  | equityUnresolved (spotUsdcTotal accountValue : Option Figure)
  | equityBelow (equity minEquity : ℚ)
  | openOrders (count : ℕ)
  | positions (positions : List AssetPosition)
  deriving DecidableEq

/-- The equity and what is wrong with it: the spot figure when there is one, else
that of the account, and neither is replaced by 0. -/
def equityCheck (state : Snapshot) (minEquity : ℚ) : Option ℚ × Option CheckFailure :=
  match state.spotUsdcTotal.or state.accountValue with
  | some (.number equity) =>
      (some equity, if equity < minEquity then some (.equityBelow equity minEquity) else none)
  | _ => (none, some (.equityUnresolved state.spotUsdcTotal state.accountValue))

structure CheckArgs where
  accountId : String := "e2_mm1"
  coins : List String := ["ETH", "SOL"]
  requireClean : Bool := false
  minEquity : ℚ := 0

structure CheckResult where
  accountId : String
  isTestnetEnv : Option String
  coins : List String
  state : Snapshot
  equityUsedForCheck : Option ℚ
  failures : List CheckFailure

/-- The exit code is 0 exactly when the check passes. -/
def CheckResult.passed (result : CheckResult) : Prop := result.failures = []

instance : DecidablePred CheckResult.passed := fun _ => inferInstanceAs (Decidable (_ = _))

def explicitMainnet (isTestnet : Option String) : Prop := (isTestnet.getD "None").toLower = "false"

instance : DecidablePred explicitMainnet := fun _ => inferInstanceAs (Decidable (_ = _))

def CheckArgs.result (args : CheckArgs) (isTestnet : Option String) (state : Snapshot) :
    CheckResult :=
  let (equity, equityFailure) := equityCheck state args.minEquity
  { accountId := args.accountId
    isTestnetEnv := isTestnet
    coins := args.coins
    state
    equityUsedForCheck := equity
    failures := (if explicitMainnet isTestnet then [] else [.notMainnet]) ++ equityFailure.toList ++
      if args.requireClean then
        (if state.orders = [] then [] else [.openOrders state.orders.length]) ++
          (if state.positions = [] then [] else [.positions state.positions])
      else [] }

/-- The check of one account, with the requests it made. -/
def CheckArgs.main (args : CheckArgs) (environ : String → Option String) (moments : ℕ → Moment)
    (log : List Entry) : Except (Abort × List Entry) (CheckResult × List Entry) :=
  match resolveAccount environ args.accountId with
  | .error message => .error (.systemExit message, log)
  | .ok (address, isTestnet) => do
      let (state, log) ← snapshotAccount moments address args.coins log
      .ok (args.result isTestnet state, log)

end Opms.Soak

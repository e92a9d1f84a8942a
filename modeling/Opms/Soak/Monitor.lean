import Opms.Foundation.Halting
import Opms.Foundation.Registry
import Opms.Resilience

/-! # The soak monitor

The monitor watches the processes of a bounded run. Each round of its loop reads
the clock, the decision logs and the accounts; it stops the processes when what
it reads breaches a limit, or when it has been unable to read for too long.
-/

namespace Opms.Soak

open Foundation

/-! ## Arguments -/

structure MonitorArgs where
  accountIds : List String := []
  pids : List ℕ
  duration : ℚ
  interval : ℚ := 10
  maxReadOutageS : ℚ := 45
  maxReadRetryDelayS : ℚ := 20
  leverage : ℚ := 6
  coins : List String := ["ETH", "SOL"]
  minMarginHealthRatio : ℚ := 15 / 100
  maxInitialMarginRatio : ℚ := 85 / 100
  maxDrawdownPct : Option ℚ := none
  maxOrderAgeS : ℚ := 90
  maxDecisionAgeS : ℚ := 30
  decisionStartupGraceS : ℚ := 90
  decisionLog : List String := []
  deriving DecidableEq

/-- The label of a `LABEL=/absolute/path` value. -/
def logLabel (labels : List String) (value : String) : Except String String :=
  let (label, path) := value.toList.span (· ≠ '=')
  match path with
  | [] => .error "--decision-log must be LABEL=/absolute/path"
  | _ :: path =>
      if label = [] ∨ path.head? ≠ some '/' ∨ String.ofList label ∈ labels then
        .error "decision-log labels must be unique and paths absolute"
      else
        .ok (String.ofList label)

/-- The labels of all decision logs, in their order. -/
def logLabels : List String → List String → Except String (List String)
  | labels, [] => .ok labels
  | labels, value :: rest =>
      match logLabel labels value with
      | .error message => .error message
      | .ok label => logLabels (labels ++ [label]) rest

/-- The arguments as the loop uses them. -/
structure Monitor extends MonitorArgs where
  labels : List String
  startedAt : ℚ
  deadline : ℚ
  deriving DecidableEq

def MonitorArgs.accounts (args : MonitorArgs) : List String :=
  if args.accountIds = [] then ["e2_mm1"] else args.accountIds

/-- The address of an account, and what the environment says of the testnet. -/
def resolveAccount (environ : String → Option String) (accountId : String) :
    Except String (String × Option String) :=
  let key := "HYPERLIQUID_" ++ accountId.toUpper
  match (environ (key ++ "_ACCOUNT_ADDRESS")).filter (· ≠ "") with
  | none => .error ("missing " ++ key ++ "_ACCOUNT_ADDRESS")
  | some address => .ok (address.toLower, environ (key ++ "_IS_TESTNET"))

/-- The addresses of the accounts, all of them on mainnet. -/
def mainnetAddresses (environ : String → Option String) : List String → Except String (List String)
  | [] => .ok []
  | accountId :: rest =>
      match resolveAccount environ accountId with
      | .error message => .error message
      | .ok (address, isTestnet) =>
          if (isTestnet.getD "None").toLower ≠ "false" then
            .error "monitor refuses a non-mainnet credential environment"
          else
            (mainnetAddresses environ rest).map (address :: ·)

/-- The checks before the loop. The clock is read for the deadline and for the
start. -/
def MonitorArgs.start (args : MonitorArgs) (environ : String → Option String)
    (deadlineNow startedAt : ℚ) : Except String Monitor :=
  if args.maxDrawdownPct.any fun pct => ¬ (0 < pct ∧ pct ≤ 100) then
    .error "--max-drawdown-pct must be in (0, 100]"
  else if min (min args.maxOrderAgeS args.maxDecisionAgeS) args.decisionStartupGraceS ≤ 0 then
    .error "order age, decision age, and startup grace must be positive"
  else if min (min args.interval args.maxReadOutageS) args.maxReadRetryDelayS ≤ 0 then
    .error "read interval, outage limit, and retry delay must be positive"
  else if args.accounts.length ≠ args.pids.length then
    .error "repeat --account-id and --pid once per monitored account"
  else if ¬ args.accounts.Nodup then
    .error "--account-id values must be distinct"
  else
    match logLabels [] args.decisionLog with
    | .error message => .error message
    | .ok labels =>
        match mainnetAddresses environ args.accounts with
        | .error message => .error message
        | .ok addresses =>
            if ¬ addresses.Nodup then
              .error "monitor refuses duplicate account addresses"
            else
              .ok { args with labels, startedAt, deadline := deadlineNow + args.duration + 90 }

/-! ## Readings -/

/-- What the venue says of one account. -/
structure AccountReading where
  balances : List (String × Option ℚ)
  tokenToAvailableAfterMaintenance : List (ℤ × Option ℚ)
  assetPositions : List (Option String × ℚ)
  openOrders : List (Option String × ℚ)
  deriving DecidableEq

structure Reading where
  mids : Registry String ℚ
  account : String → AccountReading

structure PositionSample where
  coin : String
  szi : ℚ
  mid : ℚ
  deriving DecidableEq

structure AccountSample where
  accountId : String
  equity : ℚ
  marginAvailable : ℚ
  marginHealthRatio : ℚ
  grossNotional : ℚ
  initialMargin : ℚ
  initialMarginRatio : ℚ
  openOrders : ℕ
  oldestOrderAgeS : ℚ
  positions : List PositionSample
  deriving DecidableEq

def oldestOrderAgeS (timestamps : List ℚ) (now : ℚ) : ℚ :=
  ((timestamps.map fun timestamp => max (now - timestamp / 1000) 0).max?).getD 0

/-- A position of the monitored coins that is not dust. -/
def positionSample (coins : List String) (mids : Registry String ℚ) :
    Option String × ℚ → Option PositionSample
  | (none, _) => none
  | (some coin, szi) =>
      if coin ∈ coins ∧ 1 / 10 ^ 12 < |szi| then
        some { coin, szi, mid := (mids.lookup coin).getD 0 }
      else
        none

/-- The sample of an account; dividing by a leverage of zero raises. -/
def accountSample (accountId : String) (reading : AccountReading) (mids : Registry String ℚ)
    (coins : List String) (leverage now : ℚ) : Option AccountSample :=
  let usdc := reading.balances.find? fun balance => balance.1 = "USDC"
  let equity := (usdc.bind Prod.snd).getD 0
  let available := reading.tokenToAvailableAfterMaintenance.reverse.find? fun entry => entry.1 = 0
  let marginAvailable := (available.bind Prod.snd).getD 0
  let positions := reading.assetPositions.filterMap (positionSample coins mids)
  let grossNotional := (positions.map fun position => |position.szi| * position.mid).sum
  let orders := reading.openOrders.filter fun order => order.1.any (· ∈ coins)
  if leverage = 0 then
    none
  else
    let initialMargin := grossNotional / leverage
    some {
      accountId
      equity
      marginAvailable
      marginHealthRatio := if 0 < equity then marginAvailable / equity else 0
      grossNotional
      initialMargin
      initialMarginRatio := if 0 < equity then initialMargin / equity else 1
      openOrders := orders.length
      oldestOrderAgeS := oldestOrderAgeS (orders.map Prod.snd) now
      positions }

/-! ## Limits -/

def drawdownBreached (equity peakEquity : ℚ) (limitPct : Option ℚ) : Bool :=
  limitPct.any fun limitPct =>
    0 < peakEquity ∧ limitPct < (peakEquity - equity) / peakEquity * 100

def portfolioDrawdownBreached (equities : List ℚ) (peakEquity : ℚ) (limitPct : Option ℚ) : Bool :=
  drawdownBreached equities.sum peakEquity limitPct

/-- Seconds to the next read, unless the power of two is too large for a float. -/
def readErrorDelayS (consecutive : ℕ) (intervalS maxDelayS : ℚ) : Option ℚ :=
  (floatTimesPow intervalS (consecutive - 1)).map fun delay => min delay maxDelayS

def readOutageBreached (firstErrorAt now maxOutageS : ℚ) : Bool :=
  maxOutageS ≤ now - firstErrorAt

/-- Why the monitor stops the processes. -/
inductive Breach
  | logMissing (label : String)
  | logEmpty (label : String)
  | logStale (label : String) (ageS : ℚ)
  | equity (accountId : String)
  | marginHealth (accountId : String) (ratio : ℚ)
  | initialMargin (accountId : String) (ratio : ℚ)
  | orderAge (accountId : String) (ageS : ℚ)
  | drawdown (pct : ℚ)
  deriving DecidableEq

/-- A decision log that exists. -/
structure LogStat where
  size : ℕ
  mtime : ℚ
  deriving DecidableEq

/-- What one log says of the liveness of its decisions. -/
def logBreach (m : Monitor) (now : ℚ) (label : String) : Option LogStat → Option Breach
  | none =>
      if m.decisionStartupGraceS < now - m.startedAt then some (.logMissing label) else none
  | some stat =>
      if stat.size = 0 then
        if m.decisionStartupGraceS < now - m.startedAt then some (.logEmpty label) else none
      else
        let age := max (now - stat.mtime) 0
        if m.maxDecisionAgeS < age then some (.logStale label age) else none

def decisionLivenessBreach (m : Monitor) (now : ℚ) (logs : String → Option LogStat) :
    Option Breach :=
  m.labels.findSome? fun label => logBreach m now label (logs label)

def accountBreach (m : Monitor) (account : AccountSample) : Option Breach :=
  if account.equity ≤ 0 then some (.equity account.accountId)
  else if account.marginHealthRatio < m.minMarginHealthRatio then
    some (.marginHealth account.accountId account.marginHealthRatio)
  else if m.maxInitialMarginRatio < account.initialMarginRatio then
    some (.initialMargin account.accountId account.initialMarginRatio)
  else if m.maxOrderAgeS < account.oldestOrderAgeS then
    some (.orderAge account.accountId account.oldestOrderAgeS)
  else none

/-- The first account's breach, or that of the whole portfolio. -/
def sampleBreach (m : Monitor) (samples : List AccountSample) (peakEquity : ℚ) : Option Breach :=
  match samples.findSome? (accountBreach m) with
  | some breach => some breach
  | none =>
      let equities := samples.map AccountSample.equity
      if portfolioDrawdownBreached equities peakEquity m.maxDrawdownPct then
        some (.drawdown ((peakEquity - equities.sum) / peakEquity * 100))
      else
        none

/-! ## The loop -/

/-- What one round reads. The loop asks for the processes and the clock before the
round, and once more when it ends. -/
structure Round where
  alive : ℕ → Bool
  checkedAt : ℚ
  now : ℚ
  logs : String → Option LogStat
  reading : Except String Reading
  /-- When the sample or the error is noted. -/
  notedAt : ℚ
  aliveAfter : ℕ → Bool := alive
  endedAt : ℚ := checkedAt

/-- A line of the output. -/
inductive Event
  | sample (ts equity peakEquity : ℚ) (accounts : List AccountSample)
  | riskBreach (ts : ℚ) (reason : Breach)
  | readError (ts : ℚ) (error : String) (consecutive : ℕ) (outageS retryInS : ℚ)
  deriving DecidableEq

structure MonitorState where
  consecutiveErrors : ℕ := 0
  firstReadErrorAt : Option ℚ := none
  peakEquity : ℚ := 0
  output : List Event := []
  slept : List ℚ := []
  deriving DecidableEq

inductive ExitKind
  | returned (code : ℕ)
  | raised
  deriving DecidableEq

/-- How the monitor ends, and the processes it has signalled. -/
structure Exit where
  kind : ExitKind
  signalled : List ℕ := []
  output : List Event

namespace Monitor

variable (m : Monitor)

/-- The samples of all accounts, or the error that reading them raises. -/
def samples (round : Round) : Except String (List AccountSample) :=
  match round.reading with
  | .error message => .error message
  | .ok reading =>
      match m.accounts.mapM fun accountId => accountSample accountId (reading.account accountId)
          reading.mids (m.coins.map String.toUpper) m.leverage round.now with
      | none => .error "ZeroDivisionError: float division by zero"
      | some samples => .ok samples

/-- `_signal_all`, and the exit code 1. -/
def signalAll (output : List Event) : Exit where
  kind := .returned 1
  signalled := m.pids
  output := output

/-- The end of the loop. -/
def finish (s : MonitorState) (round : Round) : Exit :=
  if m.deadline ≤ round.endedAt ∧ m.pids.any round.aliveAfter then m.signalAll s.output
  else { kind := .returned 0, output := s.output }

def noteSamples (s : MonitorState) (round : Round) (samples : List AccountSample) :
    Except Exit MonitorState :=
  let equities := samples.map AccountSample.equity
  let equity := equities.sum
  let peakEquity := max s.peakEquity equity
  let output := s.output ++ [.sample round.notedAt equity peakEquity samples]
  match sampleBreach m samples peakEquity with
  | some breach => .error (m.signalAll (output ++ [.riskBreach round.notedAt breach]))
  | none =>
      .ok { consecutiveErrors := 0, firstReadErrorAt := none, peakEquity, output
            slept := s.slept ++ [m.interval] }

/-- Fail closed after repeated read failures. -/
def noteError (s : MonitorState) (round : Round) (message : String) : Except Exit MonitorState :=
  let consecutiveErrors := s.consecutiveErrors + 1
  let firstReadErrorAt := s.firstReadErrorAt.getD round.notedAt
  match readErrorDelayS consecutiveErrors m.interval m.maxReadRetryDelayS with
  | none => .error { kind := .raised, output := s.output }
  | some retryDelay =>
      let output := s.output ++ [.readError round.notedAt message consecutiveErrors
        (round.notedAt - firstReadErrorAt) retryDelay]
      if readOutageBreached firstReadErrorAt round.notedAt m.maxReadOutageS then
        .error (m.signalAll output)
      else
        .ok { s with
          consecutiveErrors, firstReadErrorAt := some firstReadErrorAt, output
          slept := s.slept ++ [retryDelay] }

/-- The loop goes on while every process lives and the deadline has not come. -/
def goesOn (round : Round) : Bool :=
  m.pids.all round.alive && round.checkedAt < m.deadline

def round (s : MonitorState) (round : Round) : Except Exit MonitorState :=
  if !m.goesOn round then
    .error (m.finish s round)
  else
    match decisionLivenessBreach m round.now round.logs with
    | some breach => .error (m.signalAll (s.output ++ [.riskBreach round.now breach]))
    | none =>
        match m.samples round with
        | .ok samples => m.noteSamples s round samples
        | .error message => m.noteError s round message

/-- The monitor over the rounds it gets to. -/
def run (rounds : List Round) : Except Exit MonitorState := loop m.round {} rounds

end Monitor

end Opms.Soak

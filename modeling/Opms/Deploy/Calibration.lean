import Opms.Foundation.Checks
import Opms.Foundation.Registry
import Mathlib.Algebra.Order.Ring.Rat

/-! # Calibrated runs

A calibration report is turned into the directory of one run: a controller, a
script that names it, a copy of the report and a manifest. Before a live run the
directory is checked against its own report again.
-/

namespace Opms.Deploy

open Foundation

/-- A value of a report or a configuration, as far as `==` can tell: a Boolean
is a number. -/
inductive Value
  | null
  | number (x : ℚ)
  | text (s : String)
  deriving DecidableEq

namespace Value

def truthy : Value → Bool
  | .null => false
  | .number x => x ≠ 0
  | .text s => s ≠ ""

def ofBool (b : Bool) : Value := .number (if b then 1 else 0)

def ofNumber? : Option ℚ → Value
  | some x => .number x
  | none => .null

def number? : Value → Option ℚ
  | .number x => some x
  | _ => none

def text? : Value → Option String
  | .text s => some s
  | _ => none

end Value

abbrev Fields := Registry String Value

/-- `fields[key]`. -/
def item (fields : Fields) (key : String) : Except String Value :=
  orError (fields.lookup key) ("KeyError: " ++ key)

/-- `fields[key]`, of a number. -/
def numberItem (fields : Fields) (key : String) : Except String ℚ :=
  item fields key >>= fun value => orError value.number? ("TypeError: " ++ key)

/-- `dict(**fields, **additions)`. -/
def keywords (fields : Fields) (additions : List (String × Value)) : Except String Fields :=
  match fields.insertAll additions with
  | .ok extended => .ok extended
  | .error key =>
      .error ("TypeError: dict() got multiple values for keyword argument '" ++ key ++ "'")

/-! ## Reports -/

/-- One result of a report: its own entries, and those of the dictionaries in
it. `selected` holds the parameters, unless the result has no candidate. -/
structure CalibrationResult where
  fields : Fields
  selected : Option Fields
  policy : Fields
  venueRules : Fields

structure Report where
  fields : Fields
  results : List CalibrationResult

/-- The first result for the coin. -/
def Report.resultFor (report : Report) (coin : Value) : Except String CalibrationResult :=
  go report.results
where
  go : List CalibrationResult → Except String CalibrationResult
    | [] => .error "StopIteration"
    | result :: rest =>
        match result.fields.lookup "coin" with
        | none => .error "KeyError: coin"
        | some other => if other = coin then .ok result else go rest

/-! ## Controllers -/

def experimentAccounts : List String := ["e2_mm1", "e3_sub1"]

def experimentCoins : List String := ["SOL", "ENA", "VVV"]

def unsupported : String := "unsupported account/coin for this experiment"

def controllerId (account coin : String) : String :=
  "perp_mm_" ++ account ++ "_" ++ coin.toLower ++ "_soak"

/-- The entries before the calibrated parameters. -/
def identity (account coin : String) : List (String × Value) :=
  [("id", .text (controllerId account coin)), ("controller_name", .text "perp_mm"),
    ("controller_type", .text "generic"), ("connector_name", .text "hyperliquid_perpetual"),
    ("trading_pair", .text (coin ++ "-USD")), ("venue", .text "hyperliquid"),
    ("account_id", .text account)]

/-- The entries after them, of which the result supplies these. -/
structure Limits where
  quoteSize : ℚ
  priceTick : Value
  maxPositionMultiple : ℚ
  makerFeeBps : Value
  minEdgeBps : Value
  quoteRepriceBps : Value
  quotePostOnlyBufferBps : Value
  regimeStop : Value
  toxicMarkoutBps : Value
  updateInterval : Value
  quoteRefreshInterval : Value
  maxMarketDataAgeS : Value

def Limits.entries (limits : Limits) (live : Bool) : List (String × Value) :=
  let cap := limits.quoteSize * limits.maxPositionMultiple
  [("quote_size", .number limits.quoteSize), ("price_tick", limits.priceTick),
    ("target_inventory", .number 0), ("max_position", .number cap),
    ("critical_position", .number (2 * cap)), ("leverage", .number 3),
    ("shadow_mode", .ofBool (!live)), ("maker_fee_bps", limits.makerFeeBps),
    ("min_edge_bps", limits.minEdgeBps), ("quote_reprice_bps", limits.quoteRepriceBps),
    ("quote_post_only_buffer_bps", limits.quotePostOnlyBufferBps),
    ("regime_stop", limits.regimeStop), ("toxic_markout_bps", limits.toxicMarkoutBps),
    ("update_interval", limits.updateInterval),
    ("quote_refresh_interval", limits.quoteRefreshInterval),
    ("max_market_data_age_s", limits.maxMarketDataAgeS),
    ("quote_liveness_timeout", .number 15), ("quote_recovery_cooldown", .number 30)]

namespace CalibrationResult

variable (result : CalibrationResult)

/-- The checks on the account, the coin and the approval. -/
def checkedCoin (account : String) (live : Bool) : Except String String := do
  require (account ∈ experimentAccounts) unsupported
  let value ← item result.fields "coin"
  let coin ← orError value.text? unsupported
  require (coin ∈ experimentCoins) unsupported
  require (!live || ((result.fields.lookup "approved_for_micro_soak").any Value.truthy))
    "calibration not approved: shadow preparation only"
  pure coin

/-- The parameters, once the policy is checked. -/
def checkedParameters : Except String Fields := do
  let params ← orError result.selected
    "report has no fitted candidate; collect valid training data"
  let exchange ← item result.policy "exchange"
  require (exchange = .text "hyperliquid") "Hyperliquid requires its own venue calibration"
  let pricingModel ← item params "pricing_model"
  require (pricingModel ∈ [Value.text "glft", .text "fixed"])
    "legacy parameters cannot enter corrected live profiles"
  let target ← item result.policy "target_inventory"
  require (target = .number 0) "profile requires flat target and 3x leverage"
  let leverage ← item result.policy "leverage"
  require (leverage = .number 3) "profile requires flat target and 3x leverage"
  pure params

/-- What is multiplied for the position limit is read first. -/
def limits (size multiple : ℚ) : Except String Limits := do
  let priceTick ← item result.venueRules "price_tick"
  let makerFeeBps ← item result.policy "maker_fee_bps"
  let minEdgeBps ← item result.policy "min_edge_bps"
  let quoteRepriceBps ← item result.policy "quote_reprice_bps"
  let quotePostOnlyBufferBps ← item result.policy "quote_post_only_buffer_bps"
  let regimeStop ← item result.fields "regime_stop"
  let toxicMarkoutBps ← item result.fields "toxic_markout_bps"
  let updateInterval ← item result.fields "update_interval"
  let quoteRefreshInterval ← item result.fields "quote_refresh_interval"
  let maxMarketDataAgeS ← item result.fields "max_market_data_age_s"
  pure {
    quoteSize := size
    priceTick, maxPositionMultiple := multiple
    makerFeeBps, minEdgeBps, quoteRepriceBps, quotePostOnlyBufferBps
    regimeStop, toxicMarkoutBps, updateInterval, quoteRefreshInterval, maxMarketDataAgeS }

end CalibrationResult

def controllerFromResult (result : CalibrationResult) (account : String) (live : Bool) :
    Except String Fields := do
  let coin ← result.checkedCoin account live
  let params ← result.checkedParameters
  let size ← numberItem result.venueRules "quote_size"
  let multiple ← numberItem result.fields "max_position_multiple"
  let named ← keywords Registry.empty (identity account coin)
  let calibrated ← keywords named params.entries
  let limits ← result.limits size multiple
  keywords calibrated (limits.entries live)

/-! ## Prepared runs -/

/-- The configuration of the launcher's script. -/
structure ScriptConfig where
  scriptFileName : String
  controllersConfig : List String
  others : List (String × Value) := []
  deriving DecidableEq

structure Manifest where
  coin : String
  account : String
  live : Bool
  controller : String
  script : String
  config : Fields
  startEquity : Value

/-- The text formats of the files. -/
structure Formats (Text : Type) where
  controller : Codec Fields Text
  script : Codec ScriptConfig Text
  report : Codec Report Text
  manifest : Codec Manifest Text
  str : Value → String

/-- The directory of a run. -/
structure RunDirectory (Text : Type) where
  controllers : Registry String Text
  scripts : Registry String Text
  calibration : Text
  manifest : Text
  runEnv : List (String × String)

/-- The variables of a shell that has sourced `run.env`. -/
def RunDirectory.exported {Text : Type} (path : RunDirectory Text) (name : String) :
    Option String :=
  path.runEnv.lookup name

section Run

variable {Text : Type} (formats : Formats Text)

structure PrepareArgs where
  report : Report
  coin : String
  output : String
  account : String := "e2_mm1"
  live : Bool := false

def scriptName (account coin : String) : String :=
  "opms_perp_mm_" ++ account ++ "_" ++ coin.toLower ++ "_calibrated.yml"

def decisionLogPath (root id : String) : String :=
  root ++ "/logs/hb_soak/" ++ id ++ ".decisions.jsonl"

/-- What the shell of the run exports. -/
def PrepareArgs.runEnv (args : PrepareArgs) (startEquity updateInterval : Value) :
    List (String × String) :=
  [("ACCOUNT_ID", args.account), ("SOAK_COINS", args.coin), ("SOAK_CONFIG_DIR", args.output),
    ("SOAK_SCRIPT_CONFIG", scriptName args.account args.coin), ("SOAK_LEVERAGE", "3"),
    ("SOAK_RISK_GATES", "markout-only"), ("SOAK_FLAT_TARGETS", "1"),
    ("SOAK_UPDATE_INTERVAL", formats.str updateInterval),
    ("MIN_COLLATERAL", formats.str startEquity), ("MAX_DRAWDOWN_PCT", "1.0")]

/-- The checks of the report against the file it was made from. -/
def PrepareArgs.checked (args : PrepareArgs) (sha256 : Value → Option String) :
    Except String CalibrationResult := do
  require (args.coin ∈ experimentCoins ∧ args.account ∈ experimentAccounts) "invalid choice"
  require (args.report.fields.lookup "schema_version" = some (.number 2))
    "only corrected v2 calibration reports are accepted"
  let path ← item args.report.fields "capture_path"
  let digest ← orError (sha256 path) "FileNotFoundError"
  let expected ← item args.report.fields "capture_sha256"
  require (Value.text digest = expected) "capture hash changed since calibration"
  args.report.resultFor (.text args.coin)

/-- `prepare_calibrated_soak`, into a directory that does not exist yet. -/
def prepare (root : String) (sha256 : Value → Option String) (outputExists : Bool)
    (args : PrepareArgs) : Except String (RunDirectory Text) := do
  let result ← args.checked sha256
  let config ← controllerFromResult result args.account args.live
  let id ← orError (config.lookup "id" >>= Value.text?) "KeyError: id"
  let config := config.set "decision_log_path" (.text (decisionLogPath root id))
  require (!outputExists) "FileExistsError"
  let controller := id ++ ".yml"
  let script := scriptName args.account args.coin
  let startEquity ← item result.fields "start_equity"
  let updateInterval ← item result.fields "update_interval"
  pure {
    controllers := Registry.empty.set controller (formats.controller.dump config)
    scripts := Registry.empty.set script (formats.script.dump {
      scriptFileName := "opms_perp_mm.py", controllersConfig := [controller] })
    calibration := formats.report.dump args.report
    manifest := formats.manifest.dump {
      coin := args.coin, account := args.account, live := args.live
      controller, script, config, startEquity }
    runEnv := args.runEnv formats startEquity updateInterval }

/-- The report is live-gated and was made within the last day. -/
def checkAge (report : Report) (requireLive : Bool) (now : ℚ) : Except String Unit :=
  if requireLive then do
    let createdAt ← numberItem report.fields "created_at"
    require (0 ≤ now - createdAt ∧ now - createdAt ≤ 86400)
      "calibration expired (>24h): recapture and recalibrate"
  else
    .ok ()

def validatePrepared (path : RunDirectory Text) (account : String) (coins : List String)
    (requireLive : Bool) (now : ℚ) (sourceFingerprint : Value) : Except String Manifest := do
  let manifest ← orError (formats.manifest.load path.manifest) "manifest.json"
  let report ← orError (formats.report.load path.calibration) "calibration.json"
  require (manifest.account = account ∧ coins = [manifest.coin])
    "prepared run must be one exact account and coin"
  require (report.fields.lookup "schema_version" = some (.number 2) ∧
      (requireLive → manifest.live))
    "not a live-gated v2 preparation"
  checkAge report requireLive now
  let fingerprint ← item report.fields "source_fingerprint"
  require (fingerprint = sourceFingerprint)
    "strategy/execution source changed since calibration"
  let result ← report.resultFor (.text manifest.coin)
  let expected ← controllerFromResult result account manifest.live
  let controller ← orError
    (path.controllers.lookup manifest.controller >>= formats.controller.load) "controllers"
  let actual := controller.filter fun key _ => key ≠ "decision_log_path"
  require (actual.agrees expected && controller.agrees manifest.config)
    "prepared controller differs from calibrated policy"
  let script ← orError (path.scripts.lookup manifest.script >>= formats.script.load) "scripts"
  require (script = {
      scriptFileName := "opms_perp_mm.py", controllersConfig := [manifest.controller] })
    "unexpected prepared script/controller set"
  pure manifest

end Run

end Opms.Deploy

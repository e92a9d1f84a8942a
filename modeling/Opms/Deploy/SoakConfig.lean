import Opms.Deploy.Launch
import Opms.Deploy.PreparedRun

/-! # The last check before a soak

The configurations that Hummingbot has loaded are checked against the arguments
that the run script makes of its variables. Of a prepared live run that validates
little is left to check.
-/

namespace Opms.Deploy

open Foundation

inductive RiskGates
  | enabled
  | markoutOnly
  | disabled
  deriving DecidableEq

structure SoakArgs where
  accountId : String := "e2_mm1"
  scriptConfig : Option String := none
  coins : List String := ["ETH", "SOL"]
  leverage : ℤ := 6
  updateInterval : ℚ := 5
  flatTargets : Bool := false
  expectedTarget : List String := []
  riskGates : RiskGates := .disabled

namespace SoakArgs

variable (args : SoakArgs)

def scriptName : String :=
  match args.scriptConfig.filter (· ≠ "") with
  | some script => script
  | none => "opms_perp_mm_" ++ args.accountId ++ "_soak.yml"

end SoakArgs

/-! ## The run's variables -/

def RiskGates.ofString? : String → Option RiskGates
  | "enabled" => some .enabled
  | "markout-only" => some .markoutOnly
  | "disabled" => some .disabled
  | _ => none

/-- The words of the first line. -/
def words (text : String) : List String :=
  let line := text.toList.takeWhile (· ≠ '\n')
  ((line.splitOnP (· ∈ [' ', '\t'])).filter (· ≠ [])).map String.ofList

/-- `${name:-default}`. -/
def variableOr (environ : String → Option String) (name default : String) : String :=
  (named (environ name)).getD default

/-- The arguments that `run_single_live_soak` makes of its variables, as the
validator reads them. -/
def soakArgs (int : String → Option ℤ) (float : String → Option ℚ)
    (environ : String → Option String) : Except String SoakArgs := do
  let accountId := variableOr environ "ACCOUNT_ID" "e2_mm1"
  let coins := words (variableOr environ "SOAK_COINS" "ETH SOL")
  require (coins ≠ []) "at least one soak coin is required"
  require (accountId ∈ experimentAccounts) "argument --account-id: invalid choice"
  let leverage ← orError (int (variableOr environ "SOAK_LEVERAGE" "6"))
    "argument --leverage: invalid int value"
  let riskGates ← orError (RiskGates.ofString? (variableOr environ "SOAK_RISK_GATES" "disabled"))
    "argument --risk-gates: invalid choice"
  let updateInterval ← orError (float (variableOr environ "SOAK_UPDATE_INTERVAL" "5"))
    "argument --update-interval: invalid float value"
  pure {
    accountId, coins, leverage, riskGates, updateInterval
    scriptConfig := some (variableOr environ "SOAK_SCRIPT_CONFIG"
      ("opms_perp_mm_" ++ accountId ++ "_soak.yml"))
    flatTargets := environ "SOAK_FLAT_TARGETS" = some "1" }

/-! ## Checks -/

/-- The last target of each pair. -/
def targetsOf (controllers : List ControllerConfig) : Registry String ℚ :=
  controllers.foldl (fun targets cfg => targets.set cfg.tradingPair cfg.targetInventory)
    Registry.empty

/-- The targets of `PAIR=VALUE` arguments. -/
def expectedTargets (float : String → Option ℚ) :
    Registry String ℚ → List String → Except String (Registry String ℚ)
  | expected, [] => .ok expected
  | expected, value :: rest =>
      match value.toList.span (· ≠ '=') with
      | (_, []) => .error "--expected-target must be PAIR=VALUE"
      | (pair, _ :: target) =>
          match float (String.ofList target) with
          | none => .error "ValueError: could not convert string to float"
          | some target => expectedTargets float (expected.set (String.ofList pair) target) rest

def defaultTargets (accountId : String) : Registry String ℚ :=
  if accountId = "e2_mm1" then
    (Registry.empty.set "ETH-USD" (1 / 10)).set "SOL-USD" (-1)
  else
    (Registry.empty.set "ETH-USD" (-1 / 10)).set "SOL-USD" 1

def checkTargets (float : String → Option ℚ) (args : SoakArgs) (targets : Registry String ℚ) :
    Except String Unit :=
  if args.expectedTarget ≠ [] then do
    let expected ← expectedTargets float Registry.empty args.expectedTarget
    require (targets.agrees expected) "unexpected soak targets"
  else if args.flatTargets then
    require (targets.entries.all fun target => |target.2| ≤ 1 / 10 ^ 12)
      "single-market soak targets must be flat"
  else
    require (targets.agrees (defaultTargets args.accountId)) "unexpected soak targets"

def checkRiskGates (gates : RiskGates) (controllers : List ControllerConfig) :
    Except String Unit :=
  match gates with
  | .enabled =>
      require (controllers.all fun cfg => cfg.regimeStop && cfg.toxicMarkoutBps.isSome)
        "soak must enable regime and toxic-markout gates"
  | .markoutOnly =>
      require (controllers.all fun cfg => !cfg.regimeStop && cfg.toxicMarkoutBps.isSome)
        "soak must disable regime and retain toxic-markout protection"
  | .disabled => do
      require (controllers.all fun cfg => !cfg.regimeStop)
        "soak must have the regime gate disabled for every controller"
      require (controllers.all fun cfg => cfg.toxicMarkoutBps.isNone)
        "soak must have toxic-markout widening disabled"

/-- `validate_hb_soak_config`, of the controllers loaded from the script. -/
def validateSoak (float : String → Option ℚ) (site : Site) (args : SoakArgs)
    (controllers : List ControllerConfig) : Except String Unit := do
  let account := args.accountId
  let coins := args.coins.map String.toUpper
  let testnet := "HYPERLIQUID_" ++ account.toUpper ++ "_IS_TESTNET"
  require (((site.env testnet).getD "").toLower = "false")
    ("soak must target a mainnet credential (" ++ testnet ++ "=false)")
  let address ← orError (named (site.env (accountVariable account)))
    ("missing " ++ accountVariable account)
  validateControllerTopology site controllers
  require (controllers.length = coins.length)
    (args.scriptName ++ ": expected " ++ toString coins.length ++ " controllers")
  require ((controllers.map ControllerConfig.id).toFinset =
      (coins.map (controllerId account)).toFinset)
    "unexpected soak controller ids"
  require ((controllers.map ControllerConfig.tradingPair).toFinset =
      (coins.map (· ++ "-USD")).toFinset)
    "unexpected soak trading pairs"
  checkTargets float args (targetsOf controllers)
  require (controllers.all fun cfg => cfg.accountId = account)
    ("soak must use " ++ account ++ " for every controller")
  require (controllers.all fun cfg => cfg.leverage = args.leverage)
    ("soak must request " ++ toString args.leverage ++ "x leverage for every controller")
  checkRiskGates args.riskGates controllers
  require (controllers.all fun cfg => !cfg.shadowMode && cfg.updateInterval = args.updateInterval)
    "soak controllers must be live at the calibrated cadence"
  controllers.forM fun cfg => checkAccountRouting site cfg ⟨some address⟩

/-- The check of a run, with the arguments that its script makes. -/
def checkSoak (int : String → Option ℤ) (float : String → Option ℚ)
    (environ : String → Option String) (site : Site) (controllers : List ControllerConfig) :
    Except String Unit := do
  let args ← soakArgs int float environ
  validateSoak float site args controllers

/-- The configuration has the values of the file's entries, which are of its types. -/
structure LoadsAs (fields : Fields) (cfg : ControllerConfig) : Prop where
  id : fields.lookup "id" = some (.text cfg.id)
  connectorName : fields.lookup "connector_name" = some (.text cfg.connectorName)
  tradingPair : fields.lookup "trading_pair" = some (.text cfg.tradingPair)
  accountId : fields.lookup "account_id" = some (.text cfg.accountId)
  targetInventory : fields.lookup "target_inventory" = some (.number cfg.targetInventory)
  leverage : fields.lookup "leverage" = some (.number cfg.leverage)
  shadowMode : fields.lookup "shadow_mode" = some (.ofBool cfg.shadowMode)
  regimeStop : fields.lookup "regime_stop" = some (.ofBool cfg.regimeStop)
  toxicMarkoutBps : fields.lookup "toxic_markout_bps" = some (.ofNumber? cfg.toxicMarkoutBps)
  updateInterval : fields.lookup "update_interval" = some (.number cfg.updateInterval)

/-- The numerals of the run's variables are read as the numbers they stand for. -/
structure ReadsBack {Text : Type} (formats : Formats Text) (int : String → Option ℤ)
    (float : String → Option ℚ) (updateInterval : ℚ) : Prop where
  leverage : int "3" = some 3
  written : formats.str (.number updateInterval) ≠ ""
  interval : float (formats.str (.number updateInterval)) = some updateInterval

/-! ## Calibrated runs -/

/-- The arguments of a calibrated run. -/
def calibratedArgs (account script coin : String) (updateInterval : ℚ) : SoakArgs where
  accountId := account
  scriptConfig := some script
  coins := [coin]
  leverage := 3
  updateInterval := updateInterval
  flatTargets := true
  riskGates := .markoutOnly

section Calibrated

variable {Text : Type} {formats : Formats Text} {root : String} {sha256 : Value → Option String}
  {outputExists : Bool} {args : PrepareArgs} {path : RunDirectory Text} {account : String}
  {coins : List String} {now : ℚ} {sourceFingerprint : Value} {manifest : Manifest}
  {controller : Fields} {cfg : ControllerConfig}

/-- A variable that a prepared run exports is read as it was written. -/
theorem PreparedFrom.variableOr_eq {result : CalibrationResult} {config : Fields} {id : String}
    {startEquity updateInterval : Value}
    (h : PreparedFrom formats root args path result config id startEquity updateInterval)
    (name value : String)
    (hlookup : (args.runEnv formats startEquity updateInterval).lookup name = some value)
    (hne : value ≠ "") (default : String) :
    variableOr path.exported name default = value := by
  have hexported : path.exported name = some value := by
    rw [RunDirectory.exported, h.runEnv, hlookup]
  simp [variableOr, named, hexported, Option.filter, hne]

theorem ne_empty_of_supported (haccount : account ∈ experimentAccounts) : account ≠ "" := by
  rintro rfl
  simp [experimentAccounts] at haccount

theorem coin_of_supported {coin : String} (hcoin : coin ∈ experimentCoins) :
    coin ≠ "" ∧ words coin = [coin] ∧ coin.toUpper = coin := by
  simp only [experimentCoins, List.mem_cons, List.not_mem_nil, or_false] at hcoin
  rcases hcoin with rfl | rfl | rfl <;> decide +kernel

/-- The variables that a prepared run exports become the arguments of its
calibration. -/
theorem soakArgs_exported {result : CalibrationResult} {config : Fields} {id : String}
    {startEquity : Value} {updateInterval : ℚ} {int : String → Option ℤ}
    {float : String → Option ℚ}
    (h : PreparedFrom formats root args path result config id startEquity
      (.number updateInterval)) (hreads : ReadsBack formats int float updateInterval) :
    soakArgs int float path.exported = .ok (calibratedArgs args.account
      (scriptName args.account args.coin) args.coin updateInterval) := by
  obtain ⟨hcoin, hwords, _⟩ := coin_of_supported h.supported.1
  have haccount := h.variableOr_eq "ACCOUNT_ID" args.account (by simp [PrepareArgs.runEnv])
    (ne_empty_of_supported h.supported.2)
  have hcoins := h.variableOr_eq "SOAK_COINS" args.coin
    (by simp [PrepareArgs.runEnv, List.lookup_cons]) hcoin
  have hscript := h.variableOr_eq "SOAK_SCRIPT_CONFIG" (scriptName args.account args.coin)
    (by simp [PrepareArgs.runEnv, List.lookup_cons]) (by simp [scriptName])
  have hleverage := h.variableOr_eq "SOAK_LEVERAGE" "3"
    (by simp [PrepareArgs.runEnv, List.lookup_cons]) (by decide)
  have hgates := h.variableOr_eq "SOAK_RISK_GATES" "markout-only"
    (by simp [PrepareArgs.runEnv, List.lookup_cons]) (by decide)
  have hinterval := h.variableOr_eq "SOAK_UPDATE_INTERVAL" (formats.str (.number updateInterval))
    (by simp [PrepareArgs.runEnv, List.lookup_cons]) hreads.written
  have hflat : path.exported "SOAK_FLAT_TARGETS" = some "1" := by
    rw [RunDirectory.exported, h.runEnv]
    simp [PrepareArgs.runEnv, List.lookup_cons]
  simp only [soakArgs, haccount, hcoins, hwords, hscript, hleverage, hgates, hinterval, hflat,
    hreads.leverage, hreads.interval, h.supported.2]
  rfl

/-- What a validated live run loads as. -/
structure LoadedFrom (account coin : String) (result : CalibrationResult)
    (cfg : ControllerConfig) : Prop where
  supported : coin ∈ experimentCoins
  id : cfg.id = controllerId account coin
  connectorName : cfg.connectorName = "hyperliquid_perpetual"
  tradingPair : cfg.tradingPair = coin ++ "-USD"
  accountId : cfg.accountId = account
  targetInventory : cfg.targetInventory = 0
  leverage : cfg.leverage = 3
  shadowMode : cfg.shadowMode = false
  regimeStop : result.fields.lookup "regime_stop" = some (.ofBool cfg.regimeStop)
  toxicMarkoutBps : result.fields.lookup "toxic_markout_bps" =
    some (.ofNumber? cfg.toxicMarkoutBps)
  updateInterval : result.fields.lookup "update_interval" = some (.number cfg.updateInterval)

theorem ofBool_injective : Function.Injective Value.ofBool := by
  intro first second hsame
  cases first <;> cases second <;> simp [Value.ofBool] at hsame ⊢

theorem loadedFrom_of_validated
    (hvalid : validatePrepared formats path account coins true now sourceFingerprint =
      .ok manifest)
    (hcontroller : path.controllers.lookup manifest.controller >>= formats.controller.load =
      some controller) (hload : LoadsAs controller cfg) :
    ∃ report result, formats.report.load path.calibration = some report ∧
      report.resultFor (.text manifest.coin) = .ok result ∧
      LoadedFrom account manifest.coin result cfg := by
  obtain ⟨report, result, expected, other, h⟩ := validatePrepared_eq_ok_iff.mp hvalid
  obtain rfl := Option.some.inj (hcontroller.symm.trans h.controllerLoaded)
  obtain ⟨coin, params, limits, hmade⟩ := controllerFromResult_eq_ok h.made
  obtain ⟨_, hcoin, hsupported, _⟩ := checkedCoin_eq_ok hmade.checkedCoin
  have hfound := resultFor_coin h.found
  rw [hcoin] at hfound
  obtain rfl := Value.text.inj (Option.some.inj hfound)
  have hloaded : ∀ key value loaded, key ≠ "decision_log_path" →
      controller.lookup key = some loaded →
        (key, value) ∈ identity account manifest.coin ++ limits.entries true → loaded = value := by
    intro key value loaded hkey hlookup hmem
    rw [← h.live rfl] at hmem
    have hvalue := hmade.lookup_of_mem hmem
    rw [← h.agrees key hkey, hlookup] at hvalue
    exact Option.some.inj hvalue
  refine ⟨report, result, h.reportLoaded, h.found, {
    supported := hsupported
    id := Value.text.inj (hloaded _ _ _ (by decide) hload.id (by simp [identity]))
    connectorName :=
      Value.text.inj (hloaded _ _ _ (by decide) hload.connectorName (by simp [identity]))
    tradingPair :=
      Value.text.inj (hloaded _ _ _ (by decide) hload.tradingPair (by simp [identity]))
    accountId := Value.text.inj (hloaded _ _ _ (by decide) hload.accountId (by simp [identity]))
    targetInventory :=
      Value.number.inj (hloaded _ _ _ (by decide) hload.targetInventory (by simp [Limits.entries]))
    leverage := ?_
    shadowMode :=
      ofBool_injective (hloaded _ _ _ (by decide) hload.shadowMode (by simp [Limits.entries]))
    regimeStop := ?_
    toxicMarkoutBps := ?_
    updateInterval := ?_ }⟩
  · have hleverage := hloaded _ (.number 3) _ (by decide) hload.leverage (by simp [Limits.entries])
    exact_mod_cast Value.number.inj hleverage
  · rw [hmade.limitsOf.regimeStop,
      ← hloaded _ limits.regimeStop _ (by decide) hload.regimeStop (by simp [Limits.entries])]
  · rw [hmade.limitsOf.toxicMarkoutBps,
      ← hloaded _ limits.toxicMarkoutBps _ (by decide) hload.toxicMarkoutBps
        (by simp [Limits.entries])]
  · rw [hmade.limitsOf.updateInterval,
      ← hloaded _ limits.updateInterval _ (by decide) hload.updateInterval
        (by simp [Limits.entries])]

theorem LoadedFrom.checkTargets {coin : String} {result : CalibrationResult}
    (h : LoadedFrom account coin result cfg) (float : String → Option ℚ) (script : String)
    (updateInterval : ℚ) :
    checkTargets float (calibratedArgs account script coin updateInterval) (targetsOf [cfg]) =
      .ok () := by
  have htargets : (targetsOf [cfg]).entries = [(cfg.tradingPair, 0)] := by
    rw [targetsOf, List.foldl_cons, List.foldl_nil, h.targetInventory,
      Registry.set_of_absent_entries _ (Registry.lookup_empty _)]
    rfl
  unfold Deploy.checkTargets
  rw [if_neg (by simp [calibratedArgs]), if_pos (by simp [calibratedArgs]), htargets]
  simp

theorem checkAccountRouting_own {site : Site} {address : String}
    (haddress : named (site.env (accountVariable cfg.accountId)) = some address) :
    checkAccountRouting site cfg ⟨some address⟩ = .ok () := by
  have hsome : named (some address) = some address := by
    have hne := (Option.filter_eq_some_iff.mp haddress).2
    exact Option.filter_eq_some_iff.mpr ⟨rfl, hne⟩
  simp [checkAccountRouting, haddress, hsome, bind_eq_ok_iff]

/-- With the arguments of its calibration, only the credentials, the venue table
and the gates of a run remain to be checked. -/
theorem LoadedFrom.validateSoak_iff {coin : String} {result : CalibrationResult}
    (h : LoadedFrom account coin result cfg) (float : String → Option ℚ) (site : Site)
    (script : String) :
    validateSoak float site (calibratedArgs account script coin cfg.updateInterval) [cfg] =
        .ok () ↔
      ((site.env ("HYPERLIQUID_" ++ account.toUpper ++ "_IS_TESTNET")).getD "").toLower =
          "false" ∧
        (∃ address, named (site.env (accountVariable account)) = some address) ∧
        (∃ mode, site.positionMode "hyperliquid" = some mode) ∧
        cfg.regimeStop = false ∧ cfg.toxicMarkoutBps.isSome = true := by
  have hvenue : venueOf cfg.connectorName = "hyperliquid" := by
    rw [h.connectorName]
    decide +kernel
  have hupper : [coin].map String.toUpper = [coin] := by
    rw [List.map_singleton, (coin_of_supported h.supported).2.2]
  have htopology : validateControllerTopology site [cfg] = .ok () ↔
      ∃ mode, site.positionMode "hyperliquid" = some mode := by
    rw [validateControllerTopology, validateTopology_eq_ok_iff, ← hvenue]
    simp
  have hgates : checkRiskGates .markoutOnly [cfg] = .ok () ↔
      cfg.regimeStop = false ∧ cfg.toxicMarkoutBps.isSome = true := by
    simp [checkRiskGates]
  have htargets := h.checkTargets float script cfg.updateInterval
  unfold validateSoak
  simp only [calibratedArgs, hupper, bind_eq_ok_iff, require_eq_ok_iff, orError_eq_ok_iff,
    decide_eq_true_eq, forM_eq_ok_iff, htopology, hgates]
  constructor
  · rintro ⟨_, hmainnet, address, haddress, _, hmode, _, _, _, _, _, _, _, _, _, _, _, _, _, hgate,
      _⟩
    exact ⟨of_decide_eq_true hmainnet, ⟨address, haddress⟩, hmode, hgate⟩
  · rintro ⟨hmainnet, ⟨address, haddress⟩, hmode, hgate⟩
    refine ⟨(), decide_eq_true hmainnet, address, haddress, (), hmode, (), rfl, (), ?_, (), ?_, (),
      htargets, (), ?_, (), ?_, (), hgate, (), ?_, fun other hother => ?_⟩
    · rw [List.map_singleton, List.map_singleton, h.id]
    · rw [List.map_singleton, List.map_singleton, h.tradingPair]
    · simp [h.accountId]
    · simp [h.leverage]
    · simp [h.shadowMode]
    · obtain rfl := List.mem_singleton.mp hother
      exact checkAccountRouting_own (by rw [h.accountId, haddress])

/-- The loaded gates are those of the calibration. -/
theorem LoadedFrom.gates_iff {coin : String} {result : CalibrationResult}
    (h : LoadedFrom account coin result cfg) :
    (cfg.regimeStop = false ∧ cfg.toxicMarkoutBps.isSome = true) ↔
      result.fields.lookup "regime_stop" = some (.ofBool false) ∧
        ∃ bps, result.fields.lookup "toxic_markout_bps" = some (.number bps) := by
  rw [h.regimeStop, h.toxicMarkoutBps, Option.some_inj, ofBool_injective.eq_iff]
  cases cfg.toxicMarkoutBps <;> simp [Value.ofNumber?]

/-- A live run that was prepared and validates passes the last check, with the
arguments that its script makes of the exported variables, exactly if the
credentials are mainnet ones with an address, the venue is known, and the report
has the regime gate off and the markout gate set. -/
theorem validated_live_run_passes_soak_checks_iff
    (hprepare : prepare formats root sha256 outputExists args = .ok path)
    (hvalid : validatePrepared formats path args.account [args.coin] true now sourceFingerprint =
      .ok manifest)
    (hcontroller : path.controllers.lookup manifest.controller >>= formats.controller.load =
      some controller)
    (hload : LoadsAs controller cfg) {int : String → Option ℤ} {float : String → Option ℚ}
    (hreads : ReadsBack formats int float cfg.updateInterval) (site : Site) :
    checkSoak int float path.exported site [cfg] = .ok () ↔
      ((site.env ("HYPERLIQUID_" ++ args.account.toUpper ++ "_IS_TESTNET")).getD "").toLower =
          "false" ∧
        (∃ address, named (site.env (accountVariable args.account)) = some address) ∧
        (∃ mode, site.positionMode "hyperliquid" = some mode) ∧
        ∃ result, args.report.resultFor (.text args.coin) = .ok result ∧
          result.fields.lookup "regime_stop" = some (.ofBool false) ∧
          ∃ bps, result.fields.lookup "toxic_markout_bps" = some (.number bps) := by
  obtain ⟨result, config, id, startEquity, updateInterval, hfrom⟩ := prepare_eq_ok hprepare
  obtain ⟨report, other, hreport, hother, h⟩ := loadedFrom_of_validated hvalid hcontroller hload
  rw [hfrom.calibration, formats.report.load_dump] at hreport
  obtain rfl := Option.some.inj hreport
  have hcoin : manifest.coin = args.coin := by
    obtain ⟨_, _, _, _, hchecked⟩ := validatePrepared_eq_ok_iff.mp hvalid
    exact (List.singleton_inj.mp hchecked.sameCoins).symm
  rw [hcoin] at hother h
  obtain rfl := Except.ok.inj (hfrom.found.symm.trans hother)
  obtain rfl := Option.some.inj (hfrom.cadence.symm.trans h.updateInterval)
  have hresult : (∃ other, args.report.resultFor (.text args.coin) = .ok other ∧
      other.fields.lookup "regime_stop" = some (.ofBool false) ∧
        ∃ bps, other.fields.lookup "toxic_markout_bps" = some (.number bps)) ↔
      result.fields.lookup "regime_stop" = some (.ofBool false) ∧
        ∃ bps, result.fields.lookup "toxic_markout_bps" = some (.number bps) := by
    constructor
    · rintro ⟨other, hfound, hgates⟩
      obtain rfl := Except.ok.inj (hfrom.found.symm.trans hfound)
      exact hgates
    · exact fun hgates => ⟨result, hfrom.found, hgates⟩
  rw [hresult, ← h.gates_iff, ← h.validateSoak_iff float site (scriptName args.account args.coin),
    checkSoak, soakArgs_exported hfrom hreads]
  rfl

end Calibrated

/-! ## The run of SOL -/

/-- What is prepared for SOL. -/
def solPath : RunDirectory File :=
  (prepare File.formats "/repo" (fun _ => some "5f") false solArgs).toOption.getD
    ⟨Registry.empty, Registry.empty, .report solArgs.report, .report solArgs.report, []⟩

theorem solPath_prepared :
    prepare File.formats "/repo" (fun _ => some "5f") false solArgs = .ok solPath := by
  obtain ⟨path, hpath⟩ := exists_ok_of_isOk
    (show (prepare File.formats "/repo" (fun _ => some "5f") false solArgs).isOk = true by
      decide +kernel)
  rw [solPath, hpath]
  rfl

def solController : Fields :=
  ((solPath.controllers.lookup "perp_mm_e2_mm1_sol_soak.yml").bind File.controller?).getD
    Registry.empty

def solConfig : ControllerConfig where
  id := "perp_mm_e2_mm1_sol_soak"
  connectorName := "hyperliquid_perpetual"
  tradingPair := "SOL-USD"
  accountId := "e2_mm1"
  leverage := 3
  regimeStop := false
  updateInterval := 1

theorem solController_loadsAs : LoadsAs solController solConfig := by
  constructor <;> decide +kernel

/-- Mainnet credentials of the account, in the process's variables. -/
def soakSite : Site :=
  { mainnetSite with
    environ := fun name => if name = "HYPERLIQUID_E2_MM1_IS_TESTNET" then some "False" else none }

/-- Reads the numerals of the run. -/
def readNumeral (text : String) : Option ℤ :=
  if text = "1" then some 1 else if text = "3" then some 3 else none

theorem readNumeral_readsBack :
    ReadsBack File.formats readNumeral (fun text => (readNumeral text).map Int.cast) 1 where
  leverage := by decide
  written := by decide
  interval := by decide +kernel

theorem validated_live_run_passes_soak_checks_iff_sol :
    checkSoak readNumeral (fun text => (readNumeral text).map Int.cast) solPath.exported soakSite
      [solConfig] = .ok () := by
  obtain ⟨manifest, hvalid⟩ := exists_ok_of_isOk
    (show (validatePrepared File.formats solPath "e2_mm1" ["SOL"] true 5000 (.text "a7")).isOk =
      true by decide +kernel)
  have hname : manifest.controller = "perp_mm_e2_mm1_sol_soak.yml" := by
    obtain ⟨_, _, _, _, h⟩ := validatePrepared_eq_ok_iff.mp hvalid
    have hsame : (File.manifest? solPath.manifest).map (·.controller) =
      some "perp_mm_e2_mm1_sol_soak.yml" := by decide +kernel
    rw [show File.manifest? solPath.manifest = some manifest from h.manifestLoaded] at hsame
    exact Option.some.inj hsame
  have hsome : ((solPath.controllers.lookup "perp_mm_e2_mm1_sol_soak.yml").bind
    File.controller?).isSome = true := by decide +kernel
  have hcontroller : solPath.controllers.lookup manifest.controller >>=
      File.formats.controller.load = some solController := by
    obtain ⟨controller, hread⟩ := Option.isSome_iff_exists.mp hsome
    rw [hname, solController, hread]
    exact hread
  have hgates : ∃ result, solArgs.report.resultFor (.text "SOL") = .ok result ∧
      result.fields.lookup "regime_stop" = some (.ofBool false) ∧
        ∃ bps, result.fields.lookup "toxic_markout_bps" = some (.number bps) :=
    ⟨solResult, rfl, by decide +kernel, -1, by decide +kernel⟩
  exact (validated_live_run_passes_soak_checks_iff solPath_prepared hvalid hcontroller
    solController_loadsAs readNumeral_readsBack soakSite).mpr
    ⟨by decide +kernel, ⟨"0xa1", by decide +kernel⟩, ⟨"net", by decide +kernel⟩, hgates⟩

end Opms.Deploy

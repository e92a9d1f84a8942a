import Opms.Deploy.Calibration

/-! # Preparing and validating a run

What was prepared is validated, and what is validated follows the calibration,
whatever has been done to the files in between.
-/

namespace Opms.Deploy

open Foundation

/-! ## Controllers -/

theorem item_eq_ok_iff {fields : Fields} {key : String} {value : Value} :
    item fields key = .ok value ↔ fields.lookup key = some value := orError_eq_ok_iff

theorem numberItem_eq_ok_iff {fields : Fields} {key : String} {x : ℚ} :
    numberItem fields key = .ok x ↔ fields.lookup key = some (.number x) := by
  unfold numberItem
  rw [bind_eq_ok_iff]
  constructor
  · rintro ⟨value, hvalue, hnumber⟩
    rw [item_eq_ok_iff] at hvalue
    rw [orError_eq_ok_iff] at hnumber
    cases value with
    | number y =>
        obtain rfl := Option.some.inj hnumber
        exact hvalue
    | null => cases hnumber
    | text s => cases hnumber
  · intro hlookup
    exact ⟨.number x, item_eq_ok_iff.mpr hlookup, rfl⟩

theorem entries_keywords {fields extended : Fields} {additions : List (String × Value)}
    (h : keywords fields additions = .ok extended) :
    extended.entries = fields.entries ++ additions := by
  unfold keywords at h
  split at h
  next hinsert =>
    obtain rfl := Except.ok.inj h
    exact Registry.entries_insertAll hinsert
  next => cases h

theorem resultFor_coin {report : Report} {coin : Value} {result : CalibrationResult}
    (h : report.resultFor coin = .ok result) : result.fields.lookup "coin" = some coin := by
  unfold Report.resultFor at h
  generalize report.results = results at h
  induction results with
  | nil => cases h
  | cons first rest ih =>
      rw [Report.resultFor.go] at h
      split at h
      next => cases h
      next other hother =>
        split at h
        next hsame =>
          obtain rfl := Except.ok.inj h
          rw [hother, hsame]
        next => exact ih h

theorem checkedCoin_eq_ok {result : CalibrationResult} {account : String} {live : Bool}
    {coin : String} (h : result.checkedCoin account live = .ok coin) :
    account ∈ experimentAccounts ∧ result.fields.lookup "coin" = some (.text coin) ∧
      coin ∈ experimentCoins ∧ (live = true →
        ∃ approved, result.fields.lookup "approved_for_micro_soak" = some approved ∧
          approved.truthy = true) := by
  simp only [CalibrationResult.checkedCoin, bind_eq_ok_iff, require_eq_ok_iff, item_eq_ok_iff,
    orError_eq_ok_iff] at h
  obtain ⟨_, haccount, value, hvalue, text, htext, _, hcoin, _, happroved, hpure⟩ := h
  obtain rfl := Except.ok.inj hpure
  refine ⟨by simpa using haccount, ?_, by simpa using hcoin, fun hlive => ?_⟩
  · cases value with
    | text s =>
        obtain rfl := Option.some.inj htext
        exact hvalue
    | null => cases htext
    | number x => cases htext
  · subst hlive
    simpa [Option.any_eq_true] using happroved

theorem checkedParameters_eq_ok {result : CalibrationResult} {params : Fields}
    (h : result.checkedParameters = .ok params) :
    result.selected = some params ∧ result.policy.lookup "exchange" = some (.text "hyperliquid") ∧
      result.policy.lookup "target_inventory" = some (.number 0) ∧
      result.policy.lookup "leverage" = some (.number 3) := by
  simp only [CalibrationResult.checkedParameters, bind_eq_ok_iff, require_eq_ok_iff,
    item_eq_ok_iff, orError_eq_ok_iff, decide_eq_true_eq] at h
  obtain ⟨selected, hselected, exchange, hexchange, _, rfl, _, _, _, _, target, htarget, _, rfl,
    leverage, hleverage, _, rfl, hpure⟩ := h
  obtain rfl := Except.ok.inj hpure
  exact ⟨hselected, hexchange, htarget, hleverage⟩

/-- The limits are those that the result and its policy state. -/
structure LimitsOf (result : CalibrationResult) (limits : Limits) : Prop where
  quoteSize : result.venueRules.lookup "quote_size" = some (.number limits.quoteSize)
  priceTick : result.venueRules.lookup "price_tick" = some limits.priceTick
  maxPositionMultiple : result.fields.lookup "max_position_multiple" =
    some (.number limits.maxPositionMultiple)
  makerFeeBps : result.policy.lookup "maker_fee_bps" = some limits.makerFeeBps
  minEdgeBps : result.policy.lookup "min_edge_bps" = some limits.minEdgeBps
  quoteRepriceBps : result.policy.lookup "quote_reprice_bps" = some limits.quoteRepriceBps
  quotePostOnlyBufferBps : result.policy.lookup "quote_post_only_buffer_bps" =
    some limits.quotePostOnlyBufferBps
  regimeStop : result.fields.lookup "regime_stop" = some limits.regimeStop
  toxicMarkoutBps : result.fields.lookup "toxic_markout_bps" = some limits.toxicMarkoutBps
  updateInterval : result.fields.lookup "update_interval" = some limits.updateInterval
  quoteRefreshInterval : result.fields.lookup "quote_refresh_interval" =
    some limits.quoteRefreshInterval
  maxMarketDataAgeS : result.fields.lookup "max_market_data_age_s" =
    some limits.maxMarketDataAgeS

theorem limits_eq_ok {result : CalibrationResult} {size multiple : ℚ} {limits : Limits}
    (hsize : result.venueRules.lookup "quote_size" = some (.number size))
    (hmultiple : result.fields.lookup "max_position_multiple" = some (.number multiple))
    (h : result.limits size multiple = .ok limits) : LimitsOf result limits := by
  simp only [CalibrationResult.limits, bind_eq_ok_iff, item_eq_ok_iff] at h
  obtain ⟨priceTick, htick, makerFee, hfee, edge, hedge, reprice, hreprice, buffer, hbuffer, stop,
    hstop, markout, hmarkout, interval, hinterval, refresh, hrefresh, age, hage, hpure⟩ := h
  obtain rfl := Except.ok.inj hpure
  exact ⟨hsize, htick, hmultiple, hfee, hedge, hreprice, hbuffer, hstop, hmarkout, hinterval,
    hrefresh, hage⟩

/-- What a controller was made of. -/
structure MadeFrom (result : CalibrationResult) (account : String) (live : Bool) (config : Fields)
    (coin : String) (params : Fields) (limits : Limits) : Prop where
  checkedCoin : result.checkedCoin account live = .ok coin
  checkedParameters : result.checkedParameters = .ok params
  limitsOf : LimitsOf result limits
  entries : config.entries = identity account coin ++ params.entries ++ limits.entries live

theorem controllerFromResult_eq_ok {result : CalibrationResult} {account : String} {live : Bool}
    {config : Fields} (h : controllerFromResult result account live = .ok config) :
    ∃ coin params limits, MadeFrom result account live config coin params limits := by
  simp only [controllerFromResult, bind_eq_ok_iff, numberItem_eq_ok_iff] at h
  obtain ⟨coin, hcoin, params, hparams, size, hsize, multiple, hmultiple, named, hnamed,
    calibrated, hcalibrated, limits, hlimits, hconfig⟩ := h
  refine ⟨coin, params, limits, hcoin, hparams, limits_eq_ok hsize hmultiple hlimits, ?_⟩
  rw [entries_keywords hconfig, entries_keywords hcalibrated, entries_keywords hnamed]
  rfl

namespace MadeFrom

variable {result : CalibrationResult} {account : String} {live : Bool} {config : Fields}
  {coin : String} {params : Fields} {limits : Limits}

theorem lookup_of_mem (h : MadeFrom result account live config coin params limits) {key : String}
    {value : Value} (hmem : (key, value) ∈ identity account coin ++ limits.entries live) :
    config.lookup key = some value := by
  rw [← Registry.mem_entries_iff, h.entries, List.append_assoc, List.mem_append, List.mem_append]
  rcases List.mem_append.mp hmem with hmem | hmem
  · exact .inl hmem
  · exact .inr (.inr hmem)

/-- Only the parameters can name a decision log. -/
theorem lookup_decisionLogPath (h : MadeFrom result account live config coin params limits) :
    config.lookup "decision_log_path" = none ↔ params.lookup "decision_log_path" = none := by
  rw [Registry.lookup_eq_none_iff, Registry.lookup_eq_none_iff, Registry.keys, h.entries]
  simp [Registry.keys, identity, Limits.entries]

end MadeFrom

/-! ## Preparing -/

section Run

variable {Text : Type} {formats : Formats Text} {root : String} {sha256 : Value → Option String}
  {outputExists : Bool} {args : PrepareArgs} {path : RunDirectory Text}

theorem checked_eq_ok {result : CalibrationResult} (h : args.checked sha256 = .ok result) :
    args.coin ∈ experimentCoins ∧ args.account ∈ experimentAccounts ∧
      args.report.fields.lookup "schema_version" = some (.number 2) ∧
      args.report.resultFor (.text args.coin) = .ok result := by
  simp only [PrepareArgs.checked, bind_eq_ok_iff, require_eq_ok_iff, decide_eq_true_eq] at h
  obtain ⟨_, ⟨hcoin, haccount⟩, _, hschema, _, _, _, _, _, _, _, _, hresult⟩ := h
  exact ⟨hcoin, haccount, hschema, hresult⟩

/-- What a run was prepared from. -/
structure PreparedFrom (formats : Formats Text) (root : String) (args : PrepareArgs)
    (path : RunDirectory Text) (result : CalibrationResult) (config : Fields) (id : String)
    (startEquity updateInterval : Value) : Prop where
  supported : args.coin ∈ experimentCoins ∧ args.account ∈ experimentAccounts
  schema : args.report.fields.lookup "schema_version" = some (.number 2)
  found : args.report.resultFor (.text args.coin) = .ok result
  made : controllerFromResult result args.account args.live = .ok config
  controllers : path.controllers.lookup (id ++ ".yml") = some (formats.controller.dump
    (config.set "decision_log_path" (.text (decisionLogPath root id))))
  scripts : path.scripts.lookup (scriptName args.account args.coin) = some (formats.script.dump {
    scriptFileName := "opms_perp_mm.py", controllersConfig := [id ++ ".yml"] })
  calibration : path.calibration = formats.report.dump args.report
  manifest : path.manifest = formats.manifest.dump {
    coin := args.coin, account := args.account, live := args.live
    controller := id ++ ".yml", script := scriptName args.account args.coin
    config := config.set "decision_log_path" (.text (decisionLogPath root id)), startEquity }
  cadence : result.fields.lookup "update_interval" = some updateInterval
  runEnv : path.runEnv = args.runEnv formats startEquity updateInterval

theorem prepare_eq_ok (h : prepare formats root sha256 outputExists args = .ok path) :
    ∃ result config id startEquity updateInterval,
      PreparedFrom formats root args path result config id startEquity updateInterval := by
  simp only [prepare, bind_eq_ok_iff, item_eq_ok_iff] at h
  obtain ⟨result, hresult, config, hconfig, id, _, _, _, startEquity, _, updateInterval, hcadence,
    hpure⟩ := h
  obtain rfl := Except.ok.inj hpure
  obtain ⟨hcoin, haccount, hschema, hfound⟩ := checked_eq_ok hresult
  exact ⟨result, config, id, startEquity, updateInterval, {
    supported := ⟨hcoin, haccount⟩
    schema := hschema
    found := hfound
    made := hconfig
    controllers := by rw [Registry.lookup_set, if_pos rfl]
    scripts := by rw [Registry.lookup_set, if_pos rfl]
    calibration := rfl
    manifest := rfl
    cadence := hcadence
    runEnv := rfl }⟩

/-! ## Validating -/

variable {account : String} {coins : List String} {requireLive : Bool} {now : ℚ}
  {sourceFingerprint : Value} {manifest : Manifest}

/-- The report is at most a day old. -/
def Recent (report : Report) (now : ℚ) : Prop :=
  ∃ createdAt, report.fields.lookup "created_at" = some (.number createdAt) ∧
    0 ≤ now - createdAt ∧ now - createdAt ≤ 86400

theorem checkAge_eq_ok_iff {report : Report} {answer : Unit} :
    checkAge report requireLive now = .ok answer ↔ (requireLive = true → Recent report now) := by
  unfold checkAge Recent
  cases requireLive with
  | false => exact iff_of_true rfl (fun hlive => by cases hlive)
  | true =>
      rw [if_pos rfl, bind_eq_ok_iff]
      simp only [numberItem_eq_ok_iff, require_eq_ok_iff, decide_eq_true_eq, true_implies]

/-- What has been checked of a run. -/
structure Validated (formats : Formats Text) (path : RunDirectory Text) (account : String)
    (coins : List String) (requireLive : Bool) (now : ℚ) (sourceFingerprint : Value)
    (manifest : Manifest) (report : Report) (result : CalibrationResult)
    (expected controller : Fields) : Prop where
  manifestLoaded : formats.manifest.load path.manifest = some manifest
  reportLoaded : formats.report.load path.calibration = some report
  sameAccount : manifest.account = account
  sameCoins : coins = [manifest.coin]
  schema : report.fields.lookup "schema_version" = some (.number 2)
  live : requireLive = true → manifest.live = true
  recent : requireLive = true → Recent report now
  fingerprint : report.fields.lookup "source_fingerprint" = some sourceFingerprint
  found : report.resultFor (.text manifest.coin) = .ok result
  made : controllerFromResult result account manifest.live = .ok expected
  controllerLoaded : path.controllers.lookup manifest.controller >>= formats.controller.load =
    some controller
  agrees : ∀ key, key ≠ "decision_log_path" → controller.lookup key = expected.lookup key
  noLogPath : expected.lookup "decision_log_path" = none
  sameConfig : ∀ key, controller.lookup key = manifest.config.lookup key
  scriptLoaded : path.scripts.lookup manifest.script >>= formats.script.load = some {
    scriptFileName := "opms_perp_mm.py", controllersConfig := [manifest.controller] }

/-- Without its log path the controller agrees with one that has none. -/
theorem agrees_without_iff {controller expected : Fields} :
    (∀ key, (controller.filter fun key _ => key ≠ "decision_log_path").lookup key =
        expected.lookup key) ↔
      (∀ key, key ≠ "decision_log_path" → controller.lookup key = expected.lookup key) ∧
        expected.lookup "decision_log_path" = none := by
  simp only [Registry.lookup_filter]
  constructor
  · intro hall
    refine ⟨fun key hkey => ?_, ?_⟩
    · rw [← hall key]
      simp only [hkey, ne_eq, not_false_eq_true, decide_true]
      cases controller.lookup key <;> rfl
    · rw [← hall "decision_log_path"]
      simp
  · rintro ⟨hall, hnone⟩ key
    by_cases hkey : key = "decision_log_path"
    · subst hkey
      rw [hnone]
      simp
    · rw [← hall key hkey]
      simp only [hkey, ne_eq, not_false_eq_true, decide_true]
      cases controller.lookup key <;> rfl

theorem validatePrepared_eq_ok_iff :
    validatePrepared formats path account coins requireLive now sourceFingerprint = .ok manifest ↔
      ∃ report result expected controller, Validated formats path account coins requireLive now
        sourceFingerprint manifest report result expected controller := by
  simp only [validatePrepared, bind_eq_ok_iff, require_eq_ok_iff, orError_eq_ok_iff,
    item_eq_ok_iff, checkAge_eq_ok_iff, decide_eq_true_eq, Bool.and_eq_true, Registry.agrees_iff,
    agrees_without_iff]
  constructor
  · rintro ⟨loaded, hmanifest, report, hreport, _, ⟨haccount, hcoins⟩, _, ⟨hschema, hlive⟩, _,
      hrecent, fingerprint, hfingerprint, _, rfl, result, hresult, expected, hexpected,
      controller, hcontroller, _, ⟨⟨hagrees, hnone⟩, hconfig⟩, script, hscript, _, rfl, hpure⟩
    obtain rfl := Except.ok.inj hpure
    exact ⟨report, result, expected, controller, hmanifest, hreport, haccount, hcoins, hschema,
      hlive, hrecent, hfingerprint, hresult, hexpected, hcontroller, hagrees, hnone, hconfig,
      hscript⟩
  · rintro ⟨report, result, expected, controller, h⟩
    exact ⟨manifest, h.manifestLoaded, report, h.reportLoaded, (), ⟨h.sameAccount, h.sameCoins⟩,
      (), ⟨h.schema, h.live⟩, (), h.recent, sourceFingerprint, h.fingerprint, (), rfl, result,
      h.found, expected, h.made, controller, h.controllerLoaded, (),
      ⟨⟨h.agrees, h.noLogPath⟩, h.sameConfig⟩, _, h.scriptLoaded, (), rfl, rfl⟩

end Run

/-! ## A run of SOL -/

/-- Texts that are read back as they are. -/
inductive File
  | controller (content : Fields)
  | script (content : ScriptConfig)
  | report (content : Report)
  | manifest (content : Manifest)

namespace File

def controller? : File → Option Fields
  | controller content => some content
  | _ => none

def script? : File → Option ScriptConfig
  | script content => some content
  | _ => none

def report? : File → Option Report
  | report content => some content
  | _ => none

def manifest? : File → Option Manifest
  | manifest content => some content
  | _ => none

def formats : Formats File where
  controller := ⟨controller, controller?, fun _ => rfl⟩
  script := ⟨script, script?, fun _ => rfl⟩
  report := ⟨report, report?, fun _ => rfl⟩
  manifest := ⟨manifest, manifest?, fun _ => rfl⟩
  str := fun _ => "1"

end File

def solResult : CalibrationResult where
  fields := ⟨[("coin", .text "SOL"), ("approved_for_micro_soak", .ofBool true),
    ("regime_stop", .ofBool false), ("toxic_markout_bps", .number (-1)),
    ("update_interval", .number 1), ("quote_refresh_interval", .number 5),
    ("max_market_data_age_s", .number 2), ("max_position_multiple", .number 5),
    ("start_equity", .number 600)], by decide⟩
  selected := some ⟨[("pricing_model", .text "glft"), ("gamma", .number (2 / 100))], by decide⟩
  policy := ⟨[("exchange", .text "hyperliquid"), ("target_inventory", .number 0),
    ("leverage", .number 3), ("maker_fee_bps", .number (3 / 2)), ("min_edge_bps", .number 5),
    ("quote_reprice_bps", .number 2), ("quote_post_only_buffer_bps", .number 1)], by decide⟩
  venueRules := ⟨[("quote_size", .number (1 / 5)), ("price_tick", .number (1 / 1000))], by decide⟩

def solArgs : PrepareArgs where
  report := {
    fields := ⟨[("schema_version", .number 2), ("capture_path", .text "capture.jsonl"),
      ("capture_sha256", .text "5f"), ("created_at", .number 1000),
      ("source_fingerprint", .text "a7")], by decide⟩
    results := [solResult] }
  coin := "SOL"
  output := "/runs/sol"
  live := true

/-! ## Preparing, then validating -/

section RoundTrip

variable {Text : Type} {formats : Formats Text} {root : String} {sha256 : Value → Option String}
  {outputExists : Bool} {args : PrepareArgs} {path : RunDirectory Text} {account : String}
  {coins : List String} {requireLive : Bool} {now : ℚ} {sourceFingerprint : Value}
  {manifest : Manifest}

/-- A prepared run validates exactly if its source has not changed, its
parameters do not name a decision log, and, where a live run is asked for, it
was prepared live from a report of the last day. -/
theorem prepared_run_validates_iff
    (hprepare : prepare formats root sha256 outputExists args = .ok path) (requireLive : Bool)
    (now : ℚ) (sourceFingerprint : Value) :
    (∃ manifest, validatePrepared formats path args.account [args.coin] requireLive now
        sourceFingerprint = .ok manifest) ↔
      (requireLive = true → args.live = true ∧ Recent args.report now) ∧
        args.report.fields.lookup "source_fingerprint" = some sourceFingerprint ∧
        ∀ result params, args.report.resultFor (.text args.coin) = .ok result →
          result.selected = some params → params.lookup "decision_log_path" = none := by
  obtain ⟨result, config, id, startEquity, _, hfrom⟩ := prepare_eq_ok hprepare
  obtain ⟨coin, params, limits, hmade⟩ := controllerFromResult_eq_ok hfrom.made
  obtain ⟨hselected, _⟩ := checkedParameters_eq_ok hmade.checkedParameters
  constructor
  · rintro ⟨manifest, hvalid⟩
    obtain ⟨report, found, expected, controller, h⟩ := validatePrepared_eq_ok_iff.mp hvalid
    have hreport := h.reportLoaded
    rw [hfrom.calibration, formats.report.load_dump] at hreport
    obtain rfl := Option.some.inj hreport
    have hmanifest := h.manifestLoaded
    rw [hfrom.manifest, formats.manifest.load_dump] at hmanifest
    obtain rfl := Option.some.inj hmanifest
    refine ⟨fun hlive => ⟨h.live hlive, h.recent hlive⟩, h.fingerprint, ?_⟩
    intro other others hother hothers
    obtain rfl := Except.ok.inj (hfrom.found.symm.trans hother)
    obtain rfl := Option.some.inj (hselected.symm.trans hothers)
    obtain rfl := Except.ok.inj (hfrom.found.symm.trans h.found)
    obtain rfl := Except.ok.inj (hfrom.made.symm.trans h.made)
    exact hmade.lookup_decisionLogPath.mp h.noLogPath
  · rintro ⟨hlive, hfingerprint, hparams⟩
    let controller := config.set "decision_log_path" (.text (decisionLogPath root id))
    let manifest : Manifest := {
      coin := args.coin, account := args.account, live := args.live
      controller := id ++ ".yml", script := scriptName args.account args.coin
      config := controller, startEquity }
    refine ⟨manifest, validatePrepared_eq_ok_iff.mpr ⟨args.report, result, config, controller, {
      manifestLoaded := by rw [hfrom.manifest, formats.manifest.load_dump]
      reportLoaded := by rw [hfrom.calibration, formats.report.load_dump]
      sameAccount := rfl
      sameCoins := rfl
      schema := hfrom.schema
      live := fun hrequired => (hlive hrequired).1
      recent := fun hrequired => (hlive hrequired).2
      fingerprint := hfingerprint
      found := hfrom.found
      made := hfrom.made
      controllerLoaded := by
        rw [hfrom.controllers]
        exact formats.controller.load_dump _
      agrees := fun key hkey => (Registry.lookup_set _ _ _ _).trans (if_neg hkey)
      noLogPath := hmade.lookup_decisionLogPath.mpr (hparams result params hfrom.found hselected)
      sameConfig := fun key => rfl
      scriptLoaded := by
        rw [hfrom.scripts]
        exact formats.script.load_dump _ }⟩⟩

theorem prepared_run_validates_iff_sol : ∃ path : RunDirectory File,
    prepare File.formats "/repo" (fun _ => some "5f") false solArgs = .ok path ∧
      ∃ manifest, validatePrepared File.formats path "e2_mm1" ["SOL"] true 5000 (.text "a7") =
        .ok manifest := by
  obtain ⟨path, hpath⟩ := exists_ok_of_isOk
    (show (prepare File.formats "/repo" (fun _ => some "5f") false solArgs).isOk = true by
      decide +kernel)
  have hrecent : Recent solArgs.report 5000 :=
    ⟨1000, by decide +kernel, by decide +kernel, by decide +kernel⟩
  have hparams : ∀ result params, solArgs.report.resultFor (.text "SOL") = .ok result →
      result.selected = some params → params.lookup "decision_log_path" = none := by
    intro result params hresult hparams
    have hfound : solArgs.report.resultFor (.text "SOL") = .ok solResult := by rfl
    obtain rfl := Except.ok.inj (hfound.symm.trans hresult)
    obtain rfl := Option.some.inj hparams
    decide +kernel
  exact ⟨path, hpath, (prepared_run_validates_iff hpath true 5000 (.text "a7")).mpr
    ⟨fun _ => ⟨rfl, hrecent⟩, by decide +kernel, hparams⟩⟩

/-! ## Launching -/

end RoundTrip

end Opms.Deploy

import Opms.Foundation.Checks
import Opms.PortfolioStop.Book

/-! # Launching

The launcher's checks come before any controller is created: two controllers may
not share a market of a net venue, each connector must trade the account that
its controllers declare, and a basket must have every controller as a leg.
-/

namespace Opms.Deploy

open Foundation PortfolioStop

/-! ## Controllers and connectors -/

/-- A controller's configuration, as far as deployment reads it. -/
structure ControllerConfig where
  id : String
  connectorName : String
  tradingPair : String
  accountId : String := "default"
  targetInventory : ℚ := 0
  leverage : ℤ := 1
  regimeStop : Bool := true
  toxicMarkoutBps : Option ℚ := some (-1)
  shadowMode : Bool := false
  updateInterval : ℚ := 5
  deriving DecidableEq

/-- The pair up to its first dash. -/
def ControllerConfig.coin (cfg : ControllerConfig) : String :=
  String.ofList (cfg.tradingPair.toList.takeWhile (· ≠ '-'))

structure Connector where
  hyperliquidPerpetualAddress : Option String

/-- What a deployment finds: the venue table, the connectors, and the variables
of the credentials file and of the process. -/
structure Site where
  positionMode : String → Option String
  connectors : String → Option Connector
  dotenv : String → Option String
  environ : String → Option String

/-- The process's variables go before those of the file. -/
def Site.env (site : Site) (name : String) : Option String :=
  (site.environ name).or (site.dotenv name)

/-! ## Topology -/

def removeSuffix (text suffix : String) : String :=
  if suffix.toList.isSuffixOf text.toList then
    String.ofList (text.toList.take (text.toList.length - suffix.toList.length))
  else
    text

def venueOf (connectorName : String) : String :=
  removeSuffix (removeSuffix connectorName.toLower "_testnet") "_perpetual"

/-- The position mode of the connector's venue. -/
def getVenueCapabilities (site : Site) (connectorName : String) : Except String String :=
  orError (site.positionMode (venueOf connectorName))
    ("Unknown connector '" ++ connectorName ++ "' — add venue '" ++ venueOf connectorName ++
      "' to perp_bot.venue_capabilities")

structure Market where
  connectorName : String
  coin : String
  accountId : String
  deriving DecidableEq

def ControllerConfig.market (cfg : ControllerConfig) : Market where
  connectorName := cfg.connectorName
  coin := cfg.coin
  accountId := cfg.accountId

/-- `validate_controller_topology`, after the markets already taken. -/
def validateTopology (site : Site) : List Market → List ControllerConfig → Except String Unit
  | _, [] => .ok ()
  | taken, cfg :: rest => do
      let mode ← getVenueCapabilities site cfg.connectorName
      require (!(cfg.market ∈ taken && mode = "net"))
        ("Netted venue '" ++ cfg.connectorName ++ "' cannot run two controllers on " ++ cfg.coin ++
          "/" ++ cfg.accountId ++ " — use separate subaccounts")
      validateTopology site (taken ++ [cfg.market]) rest

def validateControllerTopology (site : Site) (configs : List ControllerConfig) :
    Except String Unit :=
  validateTopology site [] configs

/-- The connectors that only serve native pairs, whose HIP-3 markets are turned
off. -/
def restrictHyperliquidMarketScope (site : Site) (configs : List ControllerConfig) :
    Except String (List String) :=
  let native := (configs.map ControllerConfig.connectorName).eraseDups.filter fun name =>
    "hyperliquid_perpetual".toList.isPrefixOf name.toList &&
      (configs.filter fun cfg => cfg.connectorName = name).all fun cfg => ':' ∉ cfg.tradingPair.toList
  native.mapM fun name => (orError (site.connectors name) ("KeyError: " ++ name)).map fun _ => name

/-! ## Routing -/

def accountVariable (accountId : String) : String :=
  "HYPERLIQUID_" ++ accountId.toUpper ++ "_ACCOUNT_ADDRESS"

/-- A name that is not empty. -/
def named (text : Option String) : Option String := text.filter (· ≠ "")

def repr? : Option String → String
  | none => "None"
  | some text => "'" ++ text ++ "'"

/-- The credentials of the connector are those of the controller's account. -/
def checkAccountRouting (site : Site) (cfg : ControllerConfig) (connector : Connector) :
    Except String Unit := do
  let key := accountVariable cfg.accountId
  let address := connector.hyperliquidPerpetualAddress
  let expected ← orError (named (site.env key))
    ("controller " ++ cfg.id ++ ": " ++ key ++ " not set — cannot verify credential routing")
  require ((named address).any fun actual => actual.toLower = expected.toLower)
    ("controller " ++ cfg.id ++ " declares account " ++ cfg.accountId ++ " but the " ++
      cfg.connectorName ++ " credentials route to " ++ repr? address ++
      "; re-run import_hl_mainnet_credentials.py --account-id " ++ cfg.accountId)

def checkRouting (site : Site) (cfg : ControllerConfig) : Except String Unit := do
  let connector ← orError (site.connectors cfg.connectorName) ("KeyError: " ++ cfg.connectorName)
  checkAccountRouting site cfg connector

/-! ## Baskets -/

/-- `account:coin`. -/
def Leg.ofMember? (member : String) : Option Leg :=
  match member.toList.span (· ≠ ':') with
  | (_, []) => none
  | (account, _ :: coin) => some ⟨String.ofList account, String.ofList coin⟩

/-- The legs of a comma-separated list. -/
def parseMembers (raw : String) : Except String (Finset Leg) :=
  let members := (raw.toList.splitOn ',').map String.ofList
  (orError (members.mapM Leg.ofMember?) "ValueError: not enough values to unpack").map List.toFinset

def ControllerConfig.leg (cfg : ControllerConfig) : Leg := ⟨cfg.accountId, cfg.coin⟩

/-- The basket of the process, if it has one, with every controller as a leg. -/
def checkBasket (site : Site) (configs : List ControllerConfig) : Except String Unit := do
  let dbPath := named (site.environ "OPMS_PORTFOLIO_STOP_DB")
  let membersRaw := named (site.environ "OPMS_PORTFOLIO_MEMBERS")
  require (dbPath.isSome = membersRaw.isSome)
    "set both OPMS_PORTFOLIO_STOP_DB and OPMS_PORTFOLIO_MEMBERS"
  match dbPath, membersRaw with
  | some dbPath, some membersRaw =>
      let members ← parseMembers membersRaw
      let _ ← PortfolioStopBook.create dbPath members (some 20)
      configs.forM fun cfg => require (cfg.leg ∈ members)
        ("controller " ++ cfg.id ++ " is missing from OPMS_PORTFOLIO_MEMBERS")
  | _, _ => pure ()

/-- The launcher's checks; the connectors without HIP-3 markets. -/
def launch (site : Site) (configs : List ControllerConfig) : Except String (List String) := do
  validateControllerTopology site configs
  let native ← restrictHyperliquidMarketScope site configs
  configs.forM (checkRouting site)
  checkBasket site configs
  pure native

/-! ## What is launched -/

/-- The controller trades on a net venue. -/
def Netted (site : Site) (cfg : ControllerConfig) : Prop :=
  site.positionMode (venueOf cfg.connectorName) = some "net"

/-- The controller's connector trades its account. -/
def Routed (site : Site) (cfg : ControllerConfig) : Prop :=
  ∃ connector expected actual, site.connectors cfg.connectorName = some connector ∧
    named (site.env (accountVariable cfg.accountId)) = some expected ∧
    named connector.hyperliquidPerpetualAddress = some actual ∧ actual.toLower = expected.toLower

/-- Neither variable of the basket is set, or both are: an absolute path, and legs of
at least two accounts among which is every controller's. -/
def InBasket (site : Site) (configs : List ControllerConfig) : Prop :=
  (named (site.environ "OPMS_PORTFOLIO_STOP_DB") = none ∧
    named (site.environ "OPMS_PORTFOLIO_MEMBERS") = none) ∨
  ∃ dbPath membersRaw members, named (site.environ "OPMS_PORTFOLIO_STOP_DB") = some dbPath ∧
    named (site.environ "OPMS_PORTFOLIO_MEMBERS") = some membersRaw ∧
    parseMembers membersRaw = .ok members ∧ dbPath.toList.head? = some '/' ∧
    2 ≤ members.card ∧ 2 ≤ (members.image Leg.account).card ∧ ∀ cfg ∈ configs, cfg.leg ∈ members

structure Launchable (site : Site) (configs : List ControllerConfig) : Prop where
  venues : ∀ cfg ∈ configs, ∃ mode, site.positionMode (venueOf cfg.connectorName) = some mode
  separate : configs.Pairwise fun first second => Netted site second → first.market ≠ second.market
  routed : ∀ cfg ∈ configs, Routed site cfg
  basket : InBasket site configs

variable {site : Site} {configs : List ControllerConfig}

theorem validateTopology_eq_ok_iff {taken : List Market} {answer : Unit} :
    validateTopology site taken configs = .ok answer ↔
      (∀ cfg ∈ configs, ∃ mode, site.positionMode (venueOf cfg.connectorName) = some mode) ∧
        (∀ cfg ∈ configs, Netted site cfg → cfg.market ∉ taken) ∧
        configs.Pairwise fun first second => Netted site second → first.market ≠ second.market := by
  induction configs generalizing taken with
  | nil => simp [validateTopology]
  | cons cfg rest ih =>
      rw [validateTopology, List.forall_mem_cons, List.forall_mem_cons, List.pairwise_cons,
        bind_eq_ok_iff]
      simp only [getVenueCapabilities, orError_eq_ok_iff, bind_eq_ok_iff, require_eq_ok_iff, ih]
      constructor
      · rintro ⟨mode, hmode, _, hfree, hvenues, htaken, hpairs⟩
        refine ⟨⟨⟨mode, hmode⟩, hvenues⟩, ⟨fun hnet hmem => ?_, fun other hother hnet hmem => ?_⟩,
          fun other hother hnet hsame => ?_, hpairs⟩
        · rw [Netted, hmode] at hnet
          simp [hmem, Option.some.inj hnet] at hfree
        · exact htaken other hother hnet (List.mem_append_left _ hmem)
        · exact htaken other hother hnet (by simp [hsame])
      · rintro ⟨⟨⟨mode, hmode⟩, hvenues⟩, ⟨hfirst, htaken⟩, hsame, hpairs⟩
        refine ⟨mode, hmode, .unit, ?_, hvenues, fun other hother hnet hmem => ?_, hpairs⟩
        · by_cases hnet : mode = "net"
          · subst hnet
            simp [hfirst hmode]
          · simp [hnet]
        · rcases List.mem_append.mp hmem with hmem | hmem
          · exact htaken other hother hnet hmem
          · exact hsame other hother hnet (List.mem_singleton.mp hmem).symm

theorem checkRouting_eq_ok_iff {cfg : ControllerConfig} {answer : Unit} :
    checkRouting site cfg = .ok answer ↔ Routed site cfg := by
  simp only [checkRouting, checkAccountRouting, bind_eq_ok_iff, orError_eq_ok_iff,
    require_eq_ok_iff, Option.any_eq_true, decide_eq_true_eq]
  constructor
  · rintro ⟨connector, hconnector, expected, hexpected, actual, hactual, hsame⟩
    exact ⟨connector, expected, actual, hconnector, hexpected, hactual, hsame⟩
  · rintro ⟨connector, expected, actual, hconnector, hexpected, hactual, hsame⟩
    exact ⟨connector, hconnector, expected, hexpected, actual, hactual, hsame⟩

theorem create_isOk_iff {dbPath : String} {members : Finset Leg} :
    (∃ book, PortfolioStopBook.create dbPath members (some 20) = .ok book) ↔
      dbPath.toList.head? = some '/' ∧ 2 ≤ members.card ∧ 2 ≤ (members.image Leg.account).card := by
  unfold PortfolioStopBook.create
  constructor
  · rintro ⟨book, hbook⟩
    split at hbook
    next => cases hbook
    next hpath =>
      split at hbook
      next => cases hbook
      next hmany =>
        rw [not_or, not_lt, not_lt] at hmany
        exact ⟨not_not.mp hpath, hmany⟩
  · rintro ⟨hpath, hlegs, haccounts⟩
    rw [if_neg (not_not.mpr hpath), dif_neg (by omega)]
    dsimp only
    rw [dif_neg (by norm_num)]
    exact ⟨_, rfl⟩

theorem checkBasket_eq_ok_iff {answer : Unit} :
    checkBasket site configs = .ok answer ↔ InBasket site configs := by
  unfold checkBasket InBasket
  dsimp only
  simp only [bind_eq_ok_iff, require_eq_ok_iff, decide_eq_true_eq]
  cases hdb : named (site.environ "OPMS_PORTFOLIO_STOP_DB") with
  | none =>
      cases hraw : named (site.environ "OPMS_PORTFOLIO_MEMBERS") with
      | none => exact iff_of_true ⟨.unit, rfl, rfl⟩ (.inl ⟨rfl, rfl⟩)
      | some membersRaw => simp
  | some dbPath =>
      cases hraw : named (site.environ "OPMS_PORTFOLIO_MEMBERS") with
      | none => simp
      | some membersRaw =>
          simp only [bind_eq_ok_iff, forM_eq_ok_iff, require_eq_ok_iff, decide_eq_true_eq]
          constructor
          · rintro ⟨_, _, members, hmembers, book, hbook, hlegs⟩
            obtain ⟨hpath, hcard, haccounts⟩ := create_isOk_iff.mp ⟨book, hbook⟩
            exact .inr ⟨dbPath, membersRaw, members, rfl, rfl, hmembers, hpath, hcard, haccounts,
              hlegs⟩
          · rintro (⟨hnone, _⟩ | ⟨path, raw, members, hpath, hraw, hmembers, habsolute, hcard,
              haccounts, hlegs⟩)
            · cases hnone
            · obtain rfl := Option.some.inj hpath
              obtain rfl := Option.some.inj hraw
              obtain ⟨book, hbook⟩ := create_isOk_iff.mpr ⟨habsolute, hcard, haccounts⟩
              exact ⟨.unit, rfl, members, hmembers, book, hbook, hlegs⟩

/-- The HIP-3 restriction fails only for want of a connector. -/
theorem exists_restrict (hrouted : ∀ cfg ∈ configs, Routed site cfg) :
    ∃ native, restrictHyperliquidMarketScope site configs = .ok native := by
  refine exists_mapM_eq_ok_iff.mpr fun name hname => ?_
  obtain ⟨cfg, hcfg, rfl⟩ := List.mem_map.mp
    (List.mem_eraseDups.mp (List.mem_filter.mp hname).1)
  obtain ⟨connector, _, _, hconnector, _⟩ := hrouted cfg hcfg
  rw [hconnector]
  exact ⟨cfg.connectorName, rfl⟩

theorem launchable_of_launch {native : List String} (hlaunch : launch site configs = .ok native) :
    Launchable site configs := by
  simp only [launch, validateControllerTopology, bind_eq_ok_iff, validateTopology_eq_ok_iff,
    forM_eq_ok_iff, checkRouting_eq_ok_iff, checkBasket_eq_ok_iff] at hlaunch
  obtain ⟨_, ⟨hvenues, _, hseparate⟩, _, _, _, hrouted, _, hbasket, _⟩ := hlaunch
  exact ⟨hvenues, hseparate, hrouted, hbasket⟩

theorem exists_launch (h : Launchable site configs) : ∃ native, launch site configs = .ok native := by
  obtain ⟨native, hnative⟩ := exists_restrict h.routed
  simp only [launch, validateControllerTopology, bind_eq_ok_iff, validateTopology_eq_ok_iff,
    forM_eq_ok_iff, checkRouting_eq_ok_iff, checkBasket_eq_ok_iff]
  exact ⟨native, .unit, ⟨h.venues, fun _ _ _ hmem => (by simp at hmem), h.separate⟩, native, hnative,
    .unit, h.routed, .unit, h.basket, rfl⟩

/-- The launcher starts exactly the controllers on known venues of which no two
share a market of a net venue, each of whose connectors trades the account that
the controller declares, and which are all legs of the basket unless neither of
its variables is set: both are, the database has an absolute path, and the
members are legs of at least two accounts. -/
theorem launch_accepts_iff (site : Site) (configs : List ControllerConfig) :
    (∃ native, launch site configs = .ok native) ↔ Launchable site configs := by
  constructor
  · rintro ⟨native, hlaunch⟩
    exact launchable_of_launch hlaunch
  · exact exists_launch

/-- Two controllers on one connector trade one address. -/
theorem Routed.same_address {first second : ControllerConfig} (hfirst : Routed site first)
    (hsecond : Routed site second) (hconnector : first.connectorName = second.connectorName) :
    ∃ address other, named (site.env (accountVariable first.accountId)) = some address ∧
      named (site.env (accountVariable second.accountId)) = some other ∧
      address.toLower = other.toLower := by
  obtain ⟨connector, expected, actual, hfound, hexpected, hactual, hsame⟩ := hfirst
  obtain ⟨connector', expected', actual', hfound', hexpected', hactual', hsame'⟩ := hsecond
  rw [← hconnector, hfound] at hfound'
  obtain rfl := Option.some.inj hfound'
  obtain rfl := Option.some.inj (hactual.symm.trans hactual')
  exact ⟨expected, expected', hexpected, hexpected', hsame.symm.trans hsame'⟩

/-- Where different accounts have different addresses, the controllers that are
launched on one connector are all of one account, and no two of them on a net
venue trade the same coin: each position has one owner. -/
theorem launched_controllers_own_their_market {native : List String}
    (hlaunch : launch site configs = .ok native)
    (hdistinct : ∀ first ∈ configs, ∀ second ∈ configs, ∀ address other,
      named (site.env (accountVariable first.accountId)) = some address →
        named (site.env (accountVariable second.accountId)) = some other →
          address.toLower = other.toLower → first.accountId = second.accountId) :
    (∀ first ∈ configs, ∀ second ∈ configs, first.connectorName = second.connectorName →
      first.accountId = second.accountId) ∧
      configs.Pairwise fun first second => Netted site second →
        first.connectorName = second.connectorName → first.coin ≠ second.coin := by
  have h := launchable_of_launch hlaunch
  have howner : ∀ first ∈ configs, ∀ second ∈ configs,
      first.connectorName = second.connectorName → first.accountId = second.accountId := by
    intro first hfirst second hsecond hconnector
    obtain ⟨address, other, haddress, hother, hsame⟩ :=
      (h.routed first hfirst).same_address (h.routed second hsecond) hconnector
    exact hdistinct first hfirst second hsecond address other haddress hother hsame
  refine ⟨howner, h.separate.imp_of_mem ?_⟩
  intro first second hfirst hsecond hseparate hnet hconnector hcoin
  have haccount := howner first hfirst second hsecond hconnector
  exact hseparate hnet (by rw [ControllerConfig.market, ControllerConfig.market, hconnector, hcoin,
    haccount])

/-- Mainnet credentials of one account. -/
def mainnetSite : Site where
  positionMode := fun venue => if venue = "hyperliquid" then some "net" else none
  connectors := fun _ => some ⟨some "0xA1"⟩
  dotenv := fun name => if name = "HYPERLIQUID_E2_MM1_ACCOUNT_ADDRESS" then some "0xa1" else none
  environ := fun _ => none

def ethAndSol : List ControllerConfig :=
  [{ id := "eth", connectorName := "hyperliquid_perpetual", tradingPair := "ETH-USD"
     accountId := "e2_mm1" },
   { id := "sol", connectorName := "hyperliquid_perpetual", tradingPair := "SOL-USD"
     accountId := "e2_mm1" }]

theorem ethAndSol_launchable : Launchable mainnetSite ethAndSol where
  venues cfg hcfg := by
    have hconnector : cfg.connectorName = "hyperliquid_perpetual" := by
      revert cfg
      decide
    rw [hconnector]
    exact ⟨"net", by decide +kernel⟩
  separate := by
    have hcoins : (ethAndSol.map ControllerConfig.coin).Nodup := by decide +kernel
    refine (List.pairwise_map.mp hcoins).imp ?_
    intro first second hcoin _ hmarket
    exact hcoin (congrArg Market.coin hmarket)
  routed cfg hcfg := by
    have haccount : cfg.accountId = "e2_mm1" := by
      revert cfg
      decide
    have hupper : "0xA1".toLower = "0xa1" := by decide +kernel
    have hlower : "0xa1".toLower = "0xa1" := by decide +kernel
    have hvariable : accountVariable "e2_mm1" = "HYPERLIQUID_E2_MM1_ACCOUNT_ADDRESS" := by
      decide +kernel
    refine ⟨⟨some "0xA1"⟩, "0xa1", "0xA1", rfl, ?_, by decide +kernel, hupper.trans hlower.symm⟩
    rw [haccount, hvariable]
    decide +kernel
  basket := .inl ⟨rfl, rfl⟩

theorem launched_controllers_own_their_market_ethAndSol :
    (∀ first ∈ ethAndSol, ∀ second ∈ ethAndSol, first.connectorName = second.connectorName →
      first.accountId = second.accountId) ∧
      ethAndSol.Pairwise fun first second => Netted mainnetSite second →
        first.connectorName = second.connectorName → first.coin ≠ second.coin := by
  have haccount : ∀ cfg ∈ ethAndSol, cfg.accountId = "e2_mm1" := by decide
  obtain ⟨native, hlaunch⟩ := exists_launch ethAndSol_launchable
  refine launched_controllers_own_their_market hlaunch ?_
  intro first hfirst second hsecond _ _ _ _ _
  rw [haccount first hfirst, haccount second hsecond]

end Opms.Deploy

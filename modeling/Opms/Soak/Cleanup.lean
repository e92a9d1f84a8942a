import Opms.Foundation.Log
import Opms.Soak.AccountCheck
import Mathlib.Data.List.Sort

/-! # The cleanup after a run

The cleanup cancels and closes what the run left in its coins, round by round
until a snapshot is clean or the time is up. What others do to the account in
the meantime is in the accounts that its requests meet.
-/

namespace Opms.Soak

open Foundation

/-! ## Arguments -/

structure CleanupArgs where
  accountId : String := "e2_mm1"
  coins : List String := ["ETH", "SOL"]
  timeout : ℚ := 30
  allowCleanup : Bool := false
  deriving DecidableEq

/-- The arguments as the loop uses them. -/
structure Cleanup extends CleanupArgs where
  address : String
  deadline : ℚ
  deriving DecidableEq

/-- The checks before the loop. -/
def CleanupArgs.start (args : CleanupArgs) (environ : String → Option String) (now : ℚ) :
    Except String Cleanup :=
  if ¬ args.allowCleanup then
    .error "refusing cleanup without --allow-cleanup"
  else if environ "OPMS_HB_MAINNET" ≠ some "confirm" then
    .error "refusing cleanup without OPMS_HB_MAINNET=confirm"
  else if environ "OPMS_HB_PLACE_ORDERS" ≠ some "confirm" then
    .error "refusing cleanup without OPMS_HB_PLACE_ORDERS=confirm"
  else
    match resolveAccount environ args.accountId with
    | .error message => .error message
    | .ok (address, isTestnet) =>
        if ¬ explicitMainnet isTestnet then
          .error "cleanup refuses a non-mainnet credential environment"
        else
          .ok { args with address, deadline := now + args.timeout }

/-! ## Signing -/

/-- Whom the signing client acts for. -/
inductive Signer
  | wallet
  | vault (master address : String)
  deriving DecidableEq

/-- `_exchange`, up to the connection; `fromKey` is what a private key raises. -/
def exchange (environ : String → Option String) (fromKey : String → Option Raised)
    (accountId address : String) : Except Abort Signer :=
  let key := "HYPERLIQUID_" ++ accountId.toUpper ++ "_PRIVATE_KEY"
  match (environ key).filter (· ≠ "") with
  | none => .error (.systemExit ("missing " ++ key))
  | some privateKey =>
      let family := (String.ofList (accountId.toList.takeWhile (· ≠ '_'))).toUpper
      let main := (environ ("HYPERLIQUID_" ++ family ++ "_MAIN_ACCOUNT_ADDRESS")).filter (· ≠ "")
      let master := ((main.or (environ "HYPERLIQUID_MASTER_ACCOUNT_ADDRESS")).getD "").toLower
      match fromKey privateKey with
      | some error => .error (.raised error)
      | none =>
          if address = master then .ok .wallet
          else if master = "" then .error (.systemExit "missing master address for vault cleanup")
          else .ok (.vault master address)

inductive Action
  | cancel (coin : String) (oid : ℤ) (response : String)
  | marketClose (coin : String) (szi : Option ℚ) (response : String)
  deriving DecidableEq

def SignedRequest.action (response : String) : SignedRequest → Action
  | .cancel coin oid => .cancel coin oid response
  | .marketClose coin szi => .marketClose coin szi response

def SignedRequest.failure (error : Raised) : SignedRequest → String
  | .cancel coin oid => "cancel " ++ coin ++ "/" ++ toString oid ++ ": " ++ error.text
  | .marketClose coin _ => "market_close " ++ coin ++ ": " ++ error.text

structure Report where
  accountId : String
  address : String
  coins : List String
  actions : List Action
  failures : List String
  finalState : Snapshot
  passed : Bool
  deriving DecidableEq

structure Progress where
  log : List Entry := []
  signer : Option Signer := none
  actions : List Action := []
  failures : List String := []
  deriving DecidableEq

/-- How the cleanup ends, and the requests it has made. -/
inductive CleanupExit
  | aborted (abort : Abort) (log : List Entry)
  | finished (report : Report) (log : List Entry)
  deriving DecidableEq

def CleanupExit.log : CleanupExit → List Entry
  | .aborted _ log | .finished _ log => log

namespace Cleanup

section Requests

variable (environ : String → Option String) (fromKey : String → Option Raised)
  (moments : ℕ → Moment) (c : Cleanup)

def send (s : Progress) (request : SignedRequest) : Progress :=
  let moment := moments s.log.length
  let log := ask moments s.log (.signed request)
  match moment.error with
  | some error => { s with log, failures := s.failures ++ [request.failure error] }
  | none => { s with log, actions := s.actions ++ [request.action moment.response] }

/-- Sign one request; an exception of it is noted, and the cleanup goes on. -/
def sign (s : Progress) (request : SignedRequest) : Except CleanupExit Progress :=
  if s.signer.isSome then
    .ok (send moments s request)
  else
    match exchange environ fromKey c.accountId c.address with
    | .error (.systemExit message) => .error (.aborted (.systemExit message) s.log)
    | .error (.raised error) =>
        .ok { s with failures := s.failures ++ [request.failure error] }
    | .ok signer =>
        let log := ask moments s.log .connect
        match (moments s.log.length).error with
        | some error => .ok { s with log, failures := s.failures ++ [request.failure error] }
        | none => .ok (send moments { s with log, signer := some signer } request)

/-- The cancel of an order of the scope. -/
def cancelRequest (coins : List String) (order : OpenOrder) : Option SignedRequest :=
  (order.coin.filter (· ∈ coins)).map fun coin => .cancel coin order.oid

/-- The close of a position of the scope. -/
def closeRequest (coins : List String) (position : AssetPosition) : Option SignedRequest :=
  (position.coin.filter fun coin => coin ∈ coins ∧ sizeable position.size).map fun coin =>
    .marketClose coin position.szi

/-- Read the account, and sign what is wanted of it. -/
def sweep (request : Request) (wanted : Account → List SignedRequest) (s : Progress) :
    Except CleanupExit Progress :=
  match read moments s.log request wanted with
  | .error (abort, log) => .error (.aborted abort log)
  | .ok (requests, log) => loop (c.sign environ fromKey moments) { s with log } requests

def cancels (account : Account) : List SignedRequest :=
  account.orders.filterMap (cancelRequest c.coins)

def closes (account : Account) : List SignedRequest :=
  account.state.assetPositions.filterMap (closeRequest c.coins)

def cancelOpenOrders (s : Progress) : Except CleanupExit Progress :=
  c.sweep environ fromKey moments .openOrders c.cancels s

def closePositions (s : Progress) : Except CleanupExit Progress :=
  c.sweep environ fromKey moments .userState c.closes s

/-! ## The loop -/

def report (s : Progress) (current : Snapshot) (failures : List String) : Report where
  accountId := c.accountId
  address := redacted c.address
  coins := c.coins.dedup.insertionSort (· ≤ ·)
  actions := s.actions
  failures := failures
  finalState := current
  passed := failures = []

/-- The snapshot that a round ends with. -/
def snapshot (s : Progress) : Except CleanupExit (Snapshot × Progress) :=
  match snapshotAccount moments c.address c.coins s.log with
  | .error (abort, log) => .error (.aborted abort log)
  | .ok (current, log) => .ok (current, { s with log })

/-- One pass of the loop, with the clock it reads. -/
def round (s : Progress) (now : ℚ) : Except CleanupExit Progress :=
  if now < c.deadline then do
    let s ← c.cancelOpenOrders environ fromKey moments s
    let s ← c.closePositions environ fromKey moments s
    let (current, s) ← c.snapshot moments s
    if current.clean then
      .error (.finished (c.report s current s.failures) s.log)
    else
      .ok s
  else do
    let (current, s) ← c.snapshot moments s
    .error (.finished (c.report s current
      (s.failures ++ ["scoped orders or positions remained after cleanup timeout"])) s.log)

/-- The cleanup over the rounds it gets to. -/
def run (times : List ℚ) : Except CleanupExit Progress :=
  loop (c.round environ fromKey moments) {} times

end Requests

end Cleanup

/-- The script over the rounds its loop gets to. -/
def CleanupArgs.main (args : CleanupArgs) (environ : String → Option String)
    (fromKey : String → Option Raised) (moments : ℕ → Moment) (startedAt : ℚ)
    (times : List ℚ) : Except CleanupExit Progress :=
  match args.start environ startedAt with
  | .error message => .error (.aborted (.systemExit message) [])
  | .ok c => c.run environ fromKey moments times

/-- The requests made so far. -/
def made : Except CleanupExit Progress → List Entry
  | .ok s => s.log
  | .error exit => exit.log

namespace Cleanup

/-! ## What the requests log -/

/-- The requests made for `requests`, between two states of the cleanup. -/
structure Attempts (requests : List SignedRequest) (s t : Progress) (made : List Entry) :
    Prop where
  log : t.log = s.log ++ made
  only : ∀ entry ∈ made, entry.request = .connect ∨
    ∃ request ∈ requests, entry.request = .signed request
  /-- Without a failure, all of them are made and answered. -/
  clean : t.failures = [] → s.failures = [] ∧ (∀ entry ∈ made, entry.answered) ∧
    ∀ request ∈ requests, ∃ entry ∈ made, entry.request = .signed request

section Logged

variable {environ : String → Option String} {fromKey : String → Option Raised}
  {moments : ℕ → Moment} {c : Cleanup} {s t : Progress} {request : SignedRequest}
  {requests : List SignedRequest}

theorem send_attempts (moments : ℕ → Moment) (s : Progress) (request : SignedRequest) :
    ∃ entry : Entry, entry.request = .signed request ∧
      (send moments s request).log = s.log ++ [entry] ∧
        ((send moments s request).failures = [] → s.failures = [] ∧ entry.answered) := by
  refine ⟨{ moments s.log.length with request := .signed request }, rfl, ?_⟩
  unfold send
  dsimp only
  split
  next => exact ⟨rfl, fun hnone => absurd hnone (by simp)⟩
  next hnone => exact ⟨rfl, fun hclean => ⟨hclean, hnone⟩⟩

theorem sign_attempts (hsign : c.sign environ fromKey moments s request = .ok t) :
    ∃ made, Attempts [request] s t made := by
  unfold sign at hsign
  split at hsign
  next =>
    obtain rfl := Except.ok.inj hsign
    obtain ⟨entry, hentry, hlog, hclean⟩ := send_attempts moments s request
    refine ⟨[entry], hlog, by simp [hentry], fun hnone => ?_⟩
    obtain ⟨hstart, hanswered⟩ := hclean hnone
    exact ⟨hstart, by simp [hanswered], by simp [hentry]⟩
  next =>
    split at hsign
    next => cases hsign
    next =>
      obtain rfl := Except.ok.inj hsign
      exact ⟨[], (List.append_nil _).symm, by simp, fun hnone => absurd hnone (by simp)⟩
    next signer _ =>
      dsimp only at hsign
      split at hsign
      next error _ =>
        obtain rfl := Except.ok.inj hsign
        exact ⟨[{ moments s.log.length with request := .connect }], rfl, by simp,
          fun hnone => absurd hnone (by simp)⟩
      next hconnected =>
        obtain rfl := Except.ok.inj hsign
        obtain ⟨entry, hentry, hlog, hclean⟩ := send_attempts moments
          { s with log := ask moments s.log .connect, signer := some signer } request
        refine ⟨[{ moments s.log.length with request := .connect }, entry], ?_,
          by simp [hentry], fun hnone => ?_⟩
        · rw [hlog]
          simp [ask]
        · obtain ⟨hstart, hanswered⟩ := hclean hnone
          exact ⟨hstart, List.forall_mem_cons.mpr ⟨hconnected, by simpa using hanswered⟩,
            by simp [hentry]⟩

/-- A client that cannot be built ends the cleanup before it signs. -/
theorem sign_aborts {exit : CleanupExit}
    (hsign : c.sign environ fromKey moments s request = .error exit) :
    ∃ message, exit = .aborted (.systemExit message) s.log := by
  unfold sign at hsign
  split at hsign
  next => cases hsign
  next =>
    split at hsign
    next message _ => exact ⟨message, (Except.error.inj hsign).symm⟩
    next => cases hsign
    next =>
      dsimp only at hsign
      split at hsign <;> cases hsign

theorem loop_sign_attempts (hloop : loop (c.sign environ fromKey moments) s requests = .ok t) :
    ∃ made, Attempts requests s t made := by
  induction requests generalizing s with
  | nil =>
      obtain rfl := Except.ok.inj hloop
      exact ⟨[], (List.append_nil _).symm, by simp, fun hnone => ⟨hnone, by simp⟩⟩
  | cons request rest ih =>
      rw [loop] at hloop
      split at hloop
      next => cases hloop
      next next hnext =>
        obtain ⟨first, hfirst⟩ := sign_attempts hnext
        obtain ⟨later, hlater⟩ := ih hloop
        refine ⟨first ++ later, by rw [hlater.log, hfirst.log, List.append_assoc], ?_, ?_⟩
        · intro entry hentry
          rcases List.mem_append.mp hentry with hmem | hmem
          · rcases hfirst.only entry hmem with hconnect | ⟨signed, hsigned, heq⟩
            · exact .inl hconnect
            · rw [List.mem_singleton.mp hsigned] at heq
              exact .inr ⟨request, List.mem_cons_self, heq⟩
          · rcases hlater.only entry hmem with hconnect | ⟨signed, hsigned, heq⟩
            · exact .inl hconnect
            · exact .inr ⟨signed, List.mem_cons_of_mem _ hsigned, heq⟩
        · intro hnone
          obtain ⟨hclean, hanswered, hrest⟩ := hlater.clean hnone
          obtain ⟨hstart, hfirstAnswered, hmade⟩ := hfirst.clean hclean
          refine ⟨hstart, List.forall_mem_append.mpr ⟨hfirstAnswered, hanswered⟩,
            List.forall_mem_cons.mpr ⟨?_, fun signed hsigned => ?_⟩⟩
          · obtain ⟨entry, hmem, hentry⟩ := hmade request List.mem_cons_self
            exact ⟨entry, List.mem_append_left _ hmem, hentry⟩
          · obtain ⟨entry, hmem, hentry⟩ := hrest signed hsigned
            exact ⟨entry, List.mem_append_right _ hmem, hentry⟩

/-- Where the loop of requests aborts, it has attempted those before. -/
theorem loop_sign_aborts {exit : CleanupExit}
    (hloop : loop (c.sign environ fromKey moments) s requests = .error exit) :
    ∃ message made, exit = .aborted (.systemExit message) (s.log ++ made) ∧
      ∀ entry ∈ made, entry.request = .connect ∨
        ∃ request ∈ requests, entry.request = .signed request := by
  obtain ⟨before, request, after, next, rfl, hbefore, hstep⟩ := loop_stops hloop
  obtain ⟨made, hmade⟩ := loop_sign_attempts hbefore
  obtain ⟨message, rfl⟩ := sign_aborts hstep
  refine ⟨message, made, by rw [hmade.log], fun entry hentry => ?_⟩
  rcases hmade.only entry hentry with hconnect | ⟨signed, hsigned, heq⟩
  · exact .inl hconnect
  · exact .inr ⟨signed, List.mem_append_left _ hsigned, heq⟩

variable {read : Request} {wanted : Account → List SignedRequest}

theorem sweep_attempts (hsweep : c.sweep environ fromKey moments read wanted s = .ok t) :
    ∃ seen made, seen.request = read ∧ seen.answered ∧
      Attempts (wanted seen.account) { s with log := s.log ++ [seen] } t made := by
  unfold sweep at hsweep
  split at hsweep
  next => cases hsweep
  next requests log hread =>
    obtain ⟨seen, hrequest, hseen, rfl, rfl⟩ := read_eq_ok hread
    obtain ⟨made, hmade⟩ := loop_sign_attempts hsweep
    exact ⟨seen, made, hrequest, hseen, hmade⟩

theorem sweep_aborts {exit : CleanupExit}
    (hsweep : c.sweep environ fromKey moments read wanted s = .error exit) :
    ∃ abort seen made, exit = .aborted abort (s.log ++ seen :: made) ∧ seen.request = read ∧
      ∀ entry ∈ made, entry.request = .connect ∨
        seen.answered ∧ ∃ request ∈ wanted seen.account, entry.request = .signed request := by
  unfold sweep at hsweep
  split at hsweep
  next abort log hread =>
    obtain ⟨seen, hrequest, rfl⟩ := read_eq_error hread
    exact ⟨abort, seen, [], (Except.error.inj hsweep).symm, hrequest, by simp⟩
  next requests log hread =>
    obtain ⟨seen, hrequest, hseen, rfl, rfl⟩ := read_eq_ok hread
    obtain ⟨message, made, rfl, honly⟩ := loop_sign_aborts hsweep
    refine ⟨.systemExit message, seen, made, by simp, hrequest, fun entry hentry => ?_⟩
    exact (honly entry hentry).imp_right fun hsigned => ⟨hseen, hsigned⟩

theorem snapshot_eq_ok {current : Snapshot} (hsnapshot : c.snapshot moments s = .ok (current, t)) :
    ∃ state spot orders : Entry, state.request = .userState ∧ spot.request = .spotUserState ∧
      orders.request = .openOrders ∧ (∀ entry ∈ [state, spot, orders], entry.answered) ∧
      t = { s with log := s.log ++ [state, spot, orders] } ∧
      current = .ofReplies c.address c.coins state.account.state spot.account.spot
        orders.account.orders := by
  unfold snapshot at hsnapshot
  split at hsnapshot
  next => cases hsnapshot
  next snapshot log hread =>
    obtain ⟨rfl, rfl⟩ := Prod.mk.inj (Except.ok.inj hsnapshot)
    obtain ⟨state, spot, orders, hstate, hspot, horders, hanswered, rfl, hcurrent⟩ :=
      snapshotAccount_eq_ok hread
    exact ⟨state, spot, orders, hstate, hspot, horders, hanswered, rfl, hcurrent⟩

theorem snapshot_eq_error {exit : CleanupExit} (hsnapshot : c.snapshot moments s = .error exit) :
    ∃ abort reads, exit = .aborted abort (s.log ++ reads) ∧
      ∀ entry ∈ reads, entry.request.IsRead := by
  unfold snapshot at hsnapshot
  split at hsnapshot
  next abort log hread =>
    obtain ⟨reads, rfl, hreads⟩ := snapshotAccount_eq_error hread
    exact ⟨abort, reads, (Except.error.inj hsnapshot).symm, hreads⟩
  next => cases hsnapshot

end Logged

/-! ## How a round goes -/

section Rounds

variable (environ : String → Option String) (fromKey : String → Option Raised)
  (moments : ℕ → Moment) (c : Cleanup) (s : Progress) (now : ℚ)

/-- The result of a round, by how far it gets. -/
inductive Round : Except CleanupExit Progress → Prop
  | uncanceled (exit : CleanupExit)
      (hcancel : c.cancelOpenOrders environ fromKey moments s = .error exit) : Round (.error exit)
  | unclosed (canceled : Progress) (exit : CleanupExit)
      (hcancel : c.cancelOpenOrders environ fromKey moments s = .ok canceled)
      (hclose : c.closePositions environ fromKey moments canceled = .error exit) :
      Round (.error exit)
  | unread (canceled closed : Progress) (exit : CleanupExit)
      (hcancel : c.cancelOpenOrders environ fromKey moments s = .ok canceled)
      (hclose : c.closePositions environ fromKey moments canceled = .ok closed)
      (hread : c.snapshot moments closed = .error exit) : Round (.error exit)
  | clean (canceled closed t : Progress) (current : Snapshot)
      (hcancel : c.cancelOpenOrders environ fromKey moments s = .ok canceled)
      (hclose : c.closePositions environ fromKey moments canceled = .ok closed)
      (hread : c.snapshot moments closed = .ok (current, t)) (hclean : current.clean) :
      Round (.error (.finished (c.report t current t.failures) t.log))
  | remaining (canceled closed t : Progress) (current : Snapshot)
      (hcancel : c.cancelOpenOrders environ fromKey moments s = .ok canceled)
      (hclose : c.closePositions environ fromKey moments canceled = .ok closed)
      (hread : c.snapshot moments closed = .ok (current, t)) (hdirty : ¬ current.clean) :
      Round (.ok t)
  | unreadLate (exit : CleanupExit) (hlate : ¬ now < c.deadline)
      (hread : c.snapshot moments s = .error exit) : Round (.error exit)
  | late (t : Progress) (current : Snapshot) (hlate : ¬ now < c.deadline)
      (hread : c.snapshot moments s = .ok (current, t)) :
      Round (.error (.finished (c.report t current
        (t.failures ++ ["scoped orders or positions remained after cleanup timeout"])) t.log))

theorem round_cases : Round environ fromKey moments c s now
    (c.round environ fromKey moments s now) := by
  unfold round
  split
  next =>
    cases hcancel : c.cancelOpenOrders environ fromKey moments s with
    | error exit => exact .uncanceled exit hcancel
    | ok canceled =>
        dsimp only [bind, Except.bind]
        cases hclose : c.closePositions environ fromKey moments canceled with
        | error exit => exact .unclosed canceled exit hcancel hclose
        | ok closed =>
            dsimp only
            cases hread : c.snapshot moments closed with
            | error exit => exact .unread canceled closed exit hcancel hclose hread
            | ok result =>
                dsimp only
                split
                next hclean =>
                  exact .clean canceled closed result.2 result.1 hcancel hclose hread hclean
                next hdirty =>
                  exact .remaining canceled closed result.2 result.1 hcancel hclose hread hdirty
  next hlate =>
    cases hread : c.snapshot moments s with
    | error exit => exact .unreadLate exit hlate hread
    | ok result => exact .late result.2 result.1 hlate hread

end Rounds

end Cleanup

end Opms.Soak

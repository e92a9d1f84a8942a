import Opms.Soak.LeftFlat

/-! # The dual session

One script checks both accounts, starts a launcher for each and one monitor over
both, watches them until the deadline, and tears everything down whatever ends
the watch. Its exit status is the verdict on the whole run.
-/

namespace Opms.Soak

open Foundation

/-- What the script is given. -/
structure Session where
  duration : ℕ := 3600
  coins : List String := ["ETH", "SOL"]
  minCollateral : ℚ := 300
  dryRun : Bool := false

inductive Signal
  | int
  | term
  deriving DecidableEq

/-- What the trap of the signal exits with. -/
def Signal.status : Signal → ℕ
  | .int => 130
  | .term => 143

/-- The exit code of a cleanup that has ended. -/
def CleanupExit.code : CleanupExit → ℕ
  | .finished report _ => if report.passed then 0 else 1
  | .aborted _ _ => 1

/-- The exit code of a check. -/
def checkCode : Except (Abort × List Entry) (CheckResult × List Entry) → ℕ
  | .ok (result, _) => if result.passed then 0 else 1
  | .error _ => 1

/-- The requests a check has made, with those before. -/
def checkLog : Except (Abort × List Entry) (CheckResult × List Entry) → List Entry
  | .ok (_, log) | .error (_, log) => log

namespace Session

def accounts : List String := ["e2_mm1", "e3_sub1"]

section Gates

variable (session : Session) (environ : String → Option String)

end Gates

/-! ## The watch -/

/-- How one account's part is torn down: a launcher that was started has ended, the
cleanup has run to its end, and the check after it goes on from there. -/
structure Teardown (session : Session) (environ : String → Option String)
    (fromKey : String → Option Raised) where
  account : String
  hbStatus : Option ℕ
  moments : ℕ → Moment
  startedAt : ℚ
  times : List ℚ
  cleanup : CleanupExit
  ended : CleanupArgs.main { accountId := account, coins := session.coins, allowCleanup := true }
    environ fromKey moments startedAt times = .error cleanup
  startedLine : Bool
  logged : String → Bool

variable {session : Session} {environ : String → Option String}
  {fromKey : String → Option Raised}

def Teardown.postflight (t : Teardown session environ fromKey) :
    Except (Abort × List Entry) (CheckResult × List Entry) :=
  CheckArgs.main { accountId := t.account, coins := session.coins, requireClean := true } environ
    t.moments t.cleanup.log

/-- Stopped by itself, by its time limit or by a signal. -/
def expectedStop (status : ℕ) : Prop := status ∈ [0, 124, 130, 143]

instance : DecidablePred expectedStop := fun _ => inferInstanceAs (Decidable (_ ∈ _))

/-- `status`, or 1 when the condition does not hold. -/
def failUnless (status : ℕ) (condition : Bool) : ℕ := if condition then status else 1

/-- The status after one account's teardown. -/
def Teardown.note (t : Teardown session environ fromKey) (status : ℕ) : ℕ :=
  let status := failUnless status (t.cleanup.code = 0 ∧ checkCode t.postflight = 0)
  let status := failUnless status t.startedLine
  session.coins.foldl (fun status coin => failUnless status (t.logged coin)) status

variable (session environ fromKey)

/-- `finish`, once the processes are started. -/
def finish (status : ℕ) (monStatus : Option ℕ)
    (teardowns : List (Teardown session environ fromKey)) : ℕ :=
  let status := teardowns.foldl (fun status t =>
    failUnless status (t.hbStatus.all (expectedStop ·))) status
  let status := failUnless status (monStatus.all (· = 0))
  teardowns.foldl (fun status t => t.note status) status

section Watch

variable {session : Session} {startTs : ℤ} {checked : Bool} {second : Second}

end Watch

section Finish

variable {session : Session} {environ : String → Option String}
  {fromKey : String → Option Raised}

/-- One account is torn down in order. -/
structure Teardown.InOrder (t : Teardown session environ fromKey) : Prop where
  cleanup : t.cleanup.code = 0
  postflight : checkCode t.postflight = 0
  startedLine : t.startedLine = true
  logged : ∀ coin ∈ session.coins, t.logged coin = true

/-- A check that exits with 0 has read the account and passed. -/
theorem checkCode_eq_zero {args : CheckArgs} {moments : ℕ → Moment} {log : List Entry}
    (hcode : checkCode (args.main environ moments log) = 0) :
    ∃ address isTestnet state reads,
      resolveAccount environ args.accountId = .ok (address, isTestnet) ∧
        args.main environ moments log = .ok (args.result isTestnet state, log ++ reads) ∧
          (args.result isTestnet state).passed ∧ ∀ entry ∈ reads, entry.request.IsRead := by
  unfold CheckArgs.main at hcode ⊢
  split at hcode
  next => cases hcode
  next address isTestnet hresolve =>
    cases hread : snapshotAccount moments address args.coins log with
    | error failed =>
        rw [hread] at hcode
        cases hcode
    | ok answer =>
        obtain ⟨state, spot, orders, hstate, hspot, horders, _, hlog, _⟩ :=
          snapshotAccount_eq_ok hread
        refine ⟨address, isTestnet, answer.1, [state, spot, orders], hresolve, ?_, ?_, ?_⟩
        · rw [← hlog]
          rfl
        · rw [hread] at hcode
          by_contra hfailed
          simp [checkCode, bind, Except.bind, hfailed] at hcode
        · simp [hstate, hspot, horders]

/-- A cleanup that exits with 0 has passed. -/
theorem code_eq_zero {exit : CleanupExit} (hcode : exit.code = 0) :
    ∃ report log, exit = .finished report log ∧ report.passed = true := by
  cases exit with
  | aborted abort log => cases hcode
  | finished report log =>
      refine ⟨report, log, rfl, ?_⟩
      by_contra hfailed
      simp [CleanupExit.code, hfailed] at hcode

/-- A teardown in order leaves the account flat where nobody else trades its coins. -/
theorem Teardown.InOrder.flat {t : Teardown session environ fromKey}
    (h : t.InOrder) (hquiet : (checkLog t.postflight).IsChain (Quiet session.coins)) :
    ∀ entry ∈ (checkLog t.postflight).getLast?, entry.account.Flat session.coins := by
  obtain ⟨report, log, hexit, hpassed⟩ := code_eq_zero h.cleanup
  obtain ⟨_, isTestnet, state, reads, _, hcheck, _, hreads⟩ := checkCode_eq_zero h.postflight
  have hended := t.ended
  rw [hexit] at hended
  obtain ⟨c, hcoins, hrun⟩ := CleanupArgs.run_of_finished hended
  have hlog : checkLog t.postflight = log ++ reads := by
    rw [Teardown.postflight, hcheck, hexit]
    rfl
  rw [hlog, ← show c.coins = session.coins from hcoins] at hquiet ⊢
  have hflat := Cleanup.flat_after hrun hpassed hreads hquiet
  intro entry hentry
  rw [Option.mem_def, List.getLast?_append, Option.or_eq_some_iff] at hentry
  rcases hentry with hread | ⟨_, hlast⟩
  · exact hflat entry (List.mem_append_right _ (List.mem_of_getLast? hread))
  · exact hflat entry (List.mem_append_left _ (by simp [hlast]))

end Finish

def sampleSession : Session := { duration := 1 }

def sampleEnviron : String → Option String
  | "OPMS_HB_MAINNET" => some "confirm"
  | "OPMS_HB_PLACE_ORDERS" => some "confirm"
  | "HYPERLIQUID_E2_MM1_ACCOUNT_ADDRESS" => some "0xabcdef0123"
  | "HYPERLIQUID_E2_MM1_PRIVATE_KEY" => some "first"
  | "HYPERLIQUID_E2_MM1_IS_TESTNET" => some "false"
  | "HYPERLIQUID_E3_SUB1_ACCOUNT_ADDRESS" => some "0xabcdef0456"
  | "HYPERLIQUID_E3_SUB1_PRIVATE_KEY" => some "second"
  | "HYPERLIQUID_E3_SUB1_IS_TESTNET" => some "false"
  | _ => none

end Session

end Opms.Soak

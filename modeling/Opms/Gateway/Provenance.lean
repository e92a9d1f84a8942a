import Opms.Foundation.Log
import Opms.Foundation.Run
import Opms.Gateway.PositionBook

/-! # Where added liquidity goes

Over any run of verbs, liquidity is only added to a position that an earlier
deposit to the same pool returned, and that no answered full withdrawal has
closed since.
-/

namespace Opms.Gateway

open Foundation

universe u

variable {K : Type u}

/-! ## Requests and answers -/

/-- The write of a deposit to the pool. -/
structure DepositsTo (pool : String) (request : Request K) : Prop where
  method : request.method = .post
  path : request.path = clmm ++ "/open-position" ∨ request.path = clmm ++ "/add-liquidity"
  pool : request.payload.get? "poolAddress" = some (.string pool)

/-- A deposit to the pool that adds to a position. -/
structure AddsLiquidity (pool : String) (position : Json K) (request : Request K) : Prop where
  path : request.path = clmm ++ "/add-liquidity"
  pool : request.payload.get? "poolAddress" = some (.string pool)
  position : request.payload.get? "positionAddress" = some position

/-- The full withdrawal of a position. -/
structure ClosesPosition (positionId : String) (request : Request K) : Prop where
  path : request.path = clmm ++ "/close-position"
  position : request.payload.get? "positionAddress" = some (.string positionId)

theorem close_ne_add : clmm ++ "/close-position" ≠ clmm ++ "/add-liquidity" := by decide +kernel

theorem open_ne_add : clmm ++ "/open-position" ≠ clmm ++ "/add-liquidity" := by decide +kernel

theorem open_ne_close : clmm ++ "/open-position" ≠ clmm ++ "/close-position" := by decide +kernel

variable [Field K] [LinearOrder K]

/-- The position that the result of a deposit reports. -/
def ExecResult.reported (result : ExecResult K) : Option (Json K) :=
  if result.ok && result.data.truthy then
    (result.data.fields?.map fun data =>
      (data.get? "positionAddress").getD ((data.get? "position_id").getD .null)).filter Json.truthy
  else
    none

section Answers

variable (lib : Library K) (net : ℕ → Outcome K)

/-- The result of the request at a position of the log; nothing when reading the
answer raises. -/
def answer (i : ℕ) : Option (ExecResult K) :=
  match net i with
  | .status code text => some (.failure s!"HTTP {code}: {text.take 200}")
  | .raised message => some (.failure message)
  | .reply raw => raw.fields?.bind (Session.resultOf lib)

/-- A deposit to the pool is answered with the position. -/
def Opens (pool : String) (position : Json K) (i : ℕ) (request : Request K) : Prop :=
  DepositsTo pool request ∧ (answer lib net i).bind ExecResult.reported = some position

/-- A full withdrawal of the position is answered, whether it succeeds or not. -/
def Drops (position : Json K) (i : ℕ) (request : Request K) : Prop :=
  (∃ positionId, ClosesPosition positionId request ∧ position.isString positionId = true) ∧
    (answer lib net i).isSome

/-- A deposit to the pool has returned the position, and it was not closed since. -/
def Backed (pool : String) (position : Json K) : List (Request K) → ℕ → Prop :=
  InForce (Opens lib net pool position) (Drops lib net position)

namespace Session

/-- A request with a client is answered as the log says; without one it raises. -/
theorem request_answer (method : Method) (path : String) (payload : Fields K) (s : Session K) :
    s.request lib net method path payload =
      if s.started then
        (answer lib net s.sent.length, { s with sent := s.sent ++ [⟨method, path, payload⟩] })
      else (none, s) := by
  unfold request answer
  split
  next =>
    dsimp only
    cases net s.sent.length <;> rfl
  next => rfl

/-- Noting a deposit changes the book only by the position it reports. -/
theorem recordPosition_cases (pool : String) (result : ExecResult K) (s : Session K) :
    (recordPosition pool result s).2 = s ∨ ∃ position, result.reported = some position ∧
      (recordPosition pool result s).2 = { s with positions := s.positions.set pool position } := by
  unfold recordPosition ExecResult.reported
  split
  next =>
    cases result.data.fields? with
    | none => exact .inl rfl
    | some data =>
        dsimp only
        split
        next htruthy =>
          exact .inr ⟨_, Option.filter_eq_some_iff.mpr ⟨rfl, htruthy⟩, rfl⟩
        next => exact .inl rfl
  next => exact .inl rfl

/-- Every position of the book, and every position that liquidity was added to,
is backed by an earlier answer. -/
structure Grounded (s : Session K) : Prop where
  book : ∀ pool position, s.positions.lookup pool = some position →
    Backed lib net pool position s.sent s.sent.length
  log : ∀ i request pool position, s.sent[i]? = some request →
    AddsLiquidity pool position request → Backed lib net pool position s.sent i

namespace Grounded

variable {lib net} {s : Session K} (h : Grounded lib net s)

include h

/-- A request that adds only to the book's positions, and drops none of them. -/
theorem sends (request : Request K)
    (hadds : ∀ pool position, AddsLiquidity pool position request →
      s.positions.lookup pool = some position)
    (hkeeps : ∀ pool position, s.positions.lookup pool = some position →
      ¬ Drops lib net position s.sent.length request) :
    Grounded lib net { s with sent := s.sent ++ [request] } := by
  refine ⟨fun pool position hlook => (h.book pool position hlook).keep (hkeeps pool position hlook),
    fun i later pool position hlater hadd => ?_⟩
  rcases Nat.lt_or_ge i s.sent.length with hbefore | hlast
  · rw [List.getElem?_append_left hbefore] at hlater
    exact (h.log i later pool position hlater hadd).append hbefore.le [request]
  · have hi : i < (s.sent ++ [request]).length := (List.getElem?_eq_some_iff.mp hlater).1
    rw [List.length_append, List.length_singleton] at hi
    obtain rfl : i = s.sent.length := by omega
    rw [List.getElem?_concat_length] at hlater
    obtain rfl := Option.some.inj hlater
    exact (h.book pool position (hadds pool position hadd)).append (le_refl _) [request]

/-- A request to any other endpoint, if there is a client. -/
theorem asks (method : Method) {path : String} (payload : Fields K)
    (hadd : path ≠ clmm ++ "/add-liquidity") (hclose : path ≠ clmm ++ "/close-position") :
    Grounded lib net (s.request lib net method path payload).2 := by
  rw [request_session]
  split
  next =>
    refine h.sends _ (fun pool position hadds => absurd hadds.path hadd) fun pool position _ hdrop => ?_
    obtain ⟨⟨positionId, hcloses, -⟩, -⟩ := hdrop
    exact hclose hcloses.path
  next =>
    rw [List.append_nil]
    exact h

theorem records {pool : String} {position : Json K}
    (hbacked : Backed lib net pool position s.sent s.sent.length) :
    Grounded lib net { s with positions := s.positions.set pool position } := by
  refine ⟨fun other position' hlook => ?_, h.log⟩
  dsimp only at hlook
  rw [Registry.lookup_set] at hlook
  split at hlook
  next heq =>
    rw [heq, ← Option.some.inj hlook]
    exact hbacked
  next => exact h.book other position' hlook

theorem forgets (test : String → Json K → Bool) :
    Grounded lib net { s with positions := s.positions.filter test } := by
  refine ⟨fun pool position hlook => ?_, h.log⟩
  rw [Registry.lookup_filter, Option.filter_eq_some_iff] at hlook
  exact h.book pool position hlook.1

end Grounded

end Session

end Answers

/-! ## The verbs -/

namespace Session

section Verbs

variable (lib : Library K) (cfg : GatewayConfig) (net : ℕ → Outcome K) {s : Session K}

theorem Grounded.get (h : Grounded lib net s) {path : String} (params : Fields K)
    (hadd : path ≠ clmm ++ "/add-liquidity") (hclose : path ≠ clmm ++ "/close-position") :
    Grounded lib net (s.get lib cfg net path params).2 :=
  h.asks .get _ hadd hclose

theorem Grounded.getPosition (h : Grounded lib net s) (positionId : Json K) :
    Grounded lib net (getPosition lib cfg net positionId s).2 := by
  have hread : Grounded lib net (s.get lib cfg net (clmm ++ "/position-info")
      [("positionAddress", positionId)]).2 :=
    h.get lib cfg net _ (by decide +kernel) (by decide +kernel)
  apply Returned.andThen_rule (Grounded lib net) hread
  intro result _
  split <;> exact hread

theorem Grounded.poolInfo (h : Grounded lib net s) (pool : String) :
    Grounded lib net
      (s.get lib cfg net (clmm ++ "/pool-info") [("poolAddress", .string pool)]).2 :=
  h.get lib cfg net _ (by decide +kernel) (by decide +kernel)

theorem Grounded.getState (h : Grounded lib net s) (pool : String) :
    Grounded lib net (getState lib cfg net pool s).2 := by
  have hread := h.poolInfo lib cfg net pool
  apply Returned.andThen_rule (Grounded lib net) hread
  intro poolR _
  split
  next =>
    split
    next => exact hread
    next =>
      split
      next => exact hread
      next posId _ =>
        have hposition := hread.getPosition lib cfg net posId
        apply Returned.andThen_rule (Grounded lib net) hposition
        intro posR _
        split <;> exact hposition
  next => exact hread

/-- A deposit's write that is answered with a position backs it. -/
theorem Grounded.deposits {pool : String} {path : String} {payload : Fields K}
    (hwrite : DepositsTo pool (⟨.post, path, payload⟩ : Request K))
    (hsent : s.started = true →
      Grounded lib net { s with sent := s.sent ++ [⟨.post, path, payload⟩] })
    (h : Grounded lib net s) :
    Grounded lib net ((s.request lib net .post path payload).andThen fun result s =>
      recordPosition pool result s).2 := by
  rw [request_answer]
  split
  next hstarted =>
    have hgrounded := hsent hstarted
    apply Returned.andThen_rule (Grounded lib net) hgrounded
    intro result hresult
    dsimp only at hresult ⊢
    rcases recordPosition_cases pool result { s with
        sent := s.sent ++ [⟨.post, path, payload⟩] } with hsame | ⟨position, hreported, hset⟩
    · rw [hsame]
      exact hgrounded
    · rw [hset]
      refine hgrounded.records (InForce.of_made ⟨hwrite, ?_⟩)
      rw [hresult]
      exact hreported
  next => exact h

theorem Grounded.writeDeposit (h : Grounded lib net s) (anchor : Anchor K) (d : Deposit K) :
    Grounded lib net (writeDeposit lib cfg net anchor d s).2 := by
  unfold Session.writeDeposit
  split
  next lowerPrice upperPrice _ _ =>
    dsimp only
    cases hknown : s.known d.pool with
    | none =>
        refine Grounded.deposits lib net ⟨rfl, .inl rfl, rfl⟩ (fun _ => ?_) h
        refine h.sends _ (fun pool position hadds => ?_) fun pool position _ hdrop => ?_
        · exact absurd hadds.path open_ne_add
        · obtain ⟨⟨positionId, hcloses, -⟩, -⟩ := hdrop
          exact open_ne_close hcloses.path
    | some existingPos =>
        refine Grounded.deposits lib net ⟨rfl, .inr rfl, rfl⟩ (fun _ => ?_) h
        refine h.sends _ (fun pool position hadds => ?_) fun pool position _ hdrop => ?_
        · obtain rfl : d.pool = pool := Json.string.inj (Option.some.inj hadds.pool)
          obtain rfl : existingPos = position := Option.some.inj hadds.position
          exact (Option.filter_eq_some_iff.mp hknown).1
        · obtain ⟨⟨positionId, hcloses, -⟩, -⟩ := hdrop
          exact close_ne_add hcloses.path.symm
  next => exact h

theorem Grounded.depositSingleSided [FloorRing K] (h : Grounded lib net s) (d : Deposit K) :
    Grounded lib net (depositSingleSided lib cfg net d s).2 := by
  unfold Session.depositSingleSided
  split
  next => exact h
  next =>
    split
    next => exact h
    next =>
      split
      next => exact h
      next =>
        have hread := h.poolInfo lib cfg net d.pool
        have hanchored : Grounded lib net (binPriceFn lib cfg net d.pool s).2 := by
          apply Returned.andThen_rule (Grounded lib net) hread
          intro anchor _
          split <;> exact hread
        apply Returned.andThen_rule (Grounded lib net) hanchored
        rintro (failed | anchor) _
        · exact hanchored
        · dsimp only
          unfold depositAt
          dsimp only
          split
          next => exact hanchored
          next =>
            split
            next => exact hanchored
            next =>
              split
              next => exact hanchored
              next => exact hanchored.writeDeposit lib cfg net anchor d

/-- A full withdrawal drops the position once it is answered. -/
theorem Grounded.withdraw (h : Grounded lib net s) (positionId : String) (percent : ℤ) :
    Grounded lib net (withdraw lib cfg net positionId percent s).2 := by
  unfold Session.withdraw
  split
  next =>
    set payload : Fields K := ("network", .string cfg.network) ::
      ("walletAddress", .string cfg.wallet) :: [("positionAddress", .string positionId)]
      with hpayload
    set close : Request K := ⟨.post, clmm ++ "/close-position", payload⟩ with hclose
    have hadds : ∀ pool position, ¬ AddsLiquidity pool position close :=
      fun pool position hadds => close_ne_add hadds.path
    rw [post, request_answer]
    split
    next =>
      cases hread : answer lib net s.sent.length with
      | none =>
          refine h.sends close (fun pool position hadd => absurd hadd (hadds pool position))
            fun pool position _ hdrop => ?_
          rw [Drops, hread] at hdrop
          cases hdrop.2
      | some result =>
          refine (h.forgets fun _ v => !v.isString positionId).sends close
            (fun pool position hadd => absurd hadd (hadds pool position))
            fun pool position hlook hdrop => ?_
          obtain ⟨⟨other, hcloses, hstring⟩, -⟩ := hdrop
          obtain rfl : positionId = other := Json.string.inj (Option.some.inj hcloses.position)
          rw [Registry.lookup_filter, Option.filter_eq_some_iff, hstring] at hlook
          cases hlook.2
    next => exact h
  next => exact h.asks .post _ (by decide +kernel) (by decide +kernel)

theorem Grounded.swap (h : Grounded lib net s) (inMint outMint : String) (amount : K)
    (pool : Option String) (maxSlippageBps : ℤ) :
    Grounded lib net (swap lib cfg net inMint outMint amount pool maxSlippageBps s).2 :=
  h.asks .post _ (by decide +kernel) (by decide +kernel)

variable [FloorRing K]

theorem Grounded.depositStep (h : Grounded lib net s) (d : Deposit K)
    (steps : List (ExecResult K)) : Grounded lib net (depositStep lib cfg net d steps s).2 := by
  unfold Session.depositStep
  split
  next => exact h
  next =>
    have hdeposit := h.depositSingleSided lib cfg net d
    apply Returned.andThen_rule (Grounded lib net) hdeposit
    intro r _
    split <;> exact hdeposit

theorem Grounded.redeposit (h : Grounded lib net s) (pool : String) (spec : DepositSpec K)
    (steps : List (ExecResult K)) :
    Grounded lib net (redeposit lib cfg net pool spec steps s).2 := by
  unfold Session.redeposit
  split
  next =>
    dsimp only
    have hbid := fun d => h.depositStep lib cfg net d steps
    refine Returned.andThen_rule (Grounded lib net) (hbid _) ?_
    rintro (failed | afterBid) _
    · exact hbid _
    · have hask := fun bid ask => (hbid bid).depositStep lib cfg net ask afterBid
      refine Returned.andThen_rule (Grounded lib net) (hask _ _) ?_
      rintro (failed | afterAsk) _
      · exact hask _ _
      · exact hask _ _
  next => exact h

theorem Grounded.refreshBundle (h : Grounded lib net s) (withdrawPositionId : String)
    (swapSpec : Option (SwapSpec K)) (depositSpec : DepositSpec K) :
    Grounded lib net
      (refreshBundle lib cfg net withdrawPositionId swapSpec depositSpec s).2 := by
  have hwithdraw := h.withdraw lib cfg net withdrawPositionId 100
  apply Returned.andThen_rule (Grounded lib net) hwithdraw
  intro withdrawR _
  split
  next =>
    split
    next => exact hwithdraw
    next pool _ => exact hwithdraw.redeposit lib cfg net pool depositSpec _
    next pool spec _ =>
      have hswap := hwithdraw.swap lib cfg net spec.inMint spec.outMint spec.amount
        (some (spec.pool.getD pool)) spec.maxSlippageBps
      apply Returned.andThen_rule (Grounded lib net) hswap
      intro swapR _
      exact hswap.redeposit lib cfg net pool depositSpec _
  next => exact hwithdraw

theorem Grounded.perform (h : Grounded lib net s) (verb : Verb K) :
    Grounded lib net (s.perform lib cfg net verb).2 := by
  cases verb with
  | getPosition positionId => exact h.getPosition lib cfg net positionId
  | getState pool => exact h.getState lib cfg net pool
  | depositSingleSided d => exact h.depositSingleSided lib cfg net d
  | withdraw positionId percent => exact h.withdraw lib cfg net positionId percent
  | swap inMint outMint amount pool maxSlippageBps =>
      exact h.swap lib cfg net inMint outMint amount pool maxSlippageBps
  | refreshBundle withdrawPositionId swapSpec depositSpec =>
      exact h.refreshBundle lib cfg net withdrawPositionId swapSpec depositSpec

end Verbs

end Session

/-! ## Runs -/

omit [Field K] [LinearOrder K] in
/-- What the keeper does with the bridge. -/
inductive Command (K : Type u)
  | start
  | stop
  | verb (verb : Verb K)

namespace Session

variable [FloorRing K] (lib : Library K) (cfg : GatewayConfig) (net : ℕ → Outcome K)

def command (s : Session K) : Command K → Session K
  | .start => s.start
  | .stop => s.stop
  | .verb verb => (s.perform lib cfg net verb).2

/-- In every run of a new bridge, over any network and through any failures and
restarts, liquidity is added only to a position that an earlier deposit to the
same pool was answered with, and of which no full withdrawal has been answered
since. The same holds of every position in the book. -/
theorem added_liquidity_is_backed (commands : List (Command K)) :
    let s := run (command lib cfg net) { started := false, positions := Registry.empty } commands
    (∀ i request pool position, s.sent[i]? = some request →
        AddsLiquidity pool position request → Backed lib net pool position s.sent i) ∧
      ∀ pool position, s.positions.lookup pool = some position →
        Backed lib net pool position s.sent s.sent.length := by
  intro s
  have hgrounded : Grounded lib net s := by
    refine run_invariant_always (Grounded lib net) (fun s command h => ?_) ?_ commands
    · cases command with
      | start => exact ⟨h.book, h.log⟩
      | stop => exact ⟨h.book, h.log⟩
      | verb verb => exact h.perform lib cfg net verb
    · refine ⟨fun pool position hlook => ?_, fun i request pool position hrequest _ => ?_⟩
      · rw [Registry.lookup_empty] at hlook
        cases hlook
      · cases hrequest
  exact ⟨hgrounded.log, hgrounded.book⟩

example : (run (command sampleLibrary {} sampleNetwork)
    { started := false, positions := Registry.empty }
    [.verb (.getState "pool"), .start, .verb (.depositSingleSided sampleDeposit),
      .verb (.withdraw "first" 50), .verb (.depositSingleSided sampleDeposit)]).sent.map
        Request.path =
      [clmm ++ "/pool-info", clmm ++ "/open-position", clmm ++ "/remove-liquidity",
        clmm ++ "/pool-info", clmm ++ "/add-liquidity"] := by
  decide +kernel

end Session

end Opms.Gateway

import Opms.Soak.Cleanup

/-! # What the cleanup signs

Whatever the account does in the meantime, the cleanup signs nothing that the
last read before did not show in its coins.
-/

namespace Opms.Soak

open Foundation

/-- The read shows what the request is for, in the coins. -/
def Entry.Shows (coins : List String) (seen : Entry) : SignedRequest → Prop
  | .cancel coin oid => seen.request = .openOrders ∧ coin ∈ coins ∧
      ∃ order ∈ seen.account.orders, order.coin = some coin ∧ order.oid = oid
  | .marketClose coin szi => seen.request = .userState ∧ coin ∈ coins ∧
      ∃ position ∈ seen.account.state.assetPositions, position.coin = some coin ∧
        position.szi = szi ∧ sizeable position.size

/-- The last read before the position was answered with what the request is for. -/
def Shown (coins : List String) (request : SignedRequest) : List Entry → ℕ → Prop :=
  InForce (fun _ seen => seen.answered ∧ seen.Shows coins request)
    (fun _ entry => entry.request.IsRead)

/-- Every signed request of the log was shown. -/
def Warranted (coins : List String) (log : List Entry) : Prop :=
  ∀ i entry request, log[i]? = some entry → entry.request = .signed request →
    Shown coins request log i

namespace Warranted

variable {coins : List String} {log : List Entry}

theorem nil : Warranted coins [] := by
  intro i entry request hentry
  simp at hentry

/-- What follows the log needs a warrant of its own. -/
theorem append (h : Warranted coins log) {rest : List Entry}
    (hrest : ∀ i entry request, rest[i]? = some entry → entry.request = .signed request →
      Shown coins request (log ++ rest) (log.length + i)) : Warranted coins (log ++ rest) := by
  intro i entry request hentry hsigned
  by_cases hi : i < log.length
  · rw [List.getElem?_append_left hi] at hentry
    exact (h i entry request hentry hsigned).append hi.le rest
  · have hfrom := not_lt.mp hi
    rw [List.getElem?_append_right hfrom] at hentry
    have hshown := hrest _ entry request hentry hsigned
    rwa [Nat.add_sub_cancel' hfrom] at hshown

theorem append_reads (h : Warranted coins log) {reads : List Entry}
    (hreads : ∀ entry ∈ reads, entry.request.IsRead) : Warranted coins (log ++ reads) := by
  apply h.append
  intro i entry request hentry hsigned
  have hread := hreads entry (List.mem_of_getElem? hentry)
  rw [hsigned] at hread
  exact absurd hread id

/-- A read, and requests that it shows. -/
theorem append_sweep (h : Warranted coins log) {seen : Entry} (hseen : seen.request.IsRead)
    {signed : List Entry} (hsigned : ∀ entry ∈ signed, entry.request = .connect ∨
      ∃ request, entry.request = .signed request ∧ seen.answered ∧ seen.Shows coins request) :
    Warranted coins (log ++ seen :: signed) := by
  have hquiet : ∀ entry ∈ signed, ¬ entry.request.IsRead := by
    intro entry hentry
    rcases hsigned entry hentry with hconnect | ⟨request, hrequest, _⟩
    · simp [hconnect]
    · simp [hrequest]
  have hread : Warranted coins (log ++ [seen]) := h.append_reads (by simpa using hseen)
  rw [List.append_cons]
  apply hread.append
  intro i entry request hentry hrequest
  rcases hsigned entry (List.mem_of_getElem? hentry) with hconnect | ⟨other, hother, hshows⟩
  · rw [hconnect] at hrequest
    cases hrequest
  · rw [hother] at hrequest
    obtain rfl := Request.signed.inj hrequest
    exact (InForce.of_made hshows).keep_all (fun _ => hquiet) (Nat.le_add_right _ _)

end Warranted

namespace Cleanup

variable {environ : String → Option String} {fromKey : String → Option Raised}
  {moments : ℕ → Moment} {c : Cleanup} {s : Progress}

theorem shows_cancels {seen : Entry} (hread : seen.request = .openOrders)
    {request : SignedRequest} (hmem : request ∈ c.cancels seen.account) :
    seen.Shows c.coins request := by
  obtain ⟨order, horder, hrequest⟩ := List.mem_filterMap.mp hmem
  obtain ⟨coin, hcoin, rfl⟩ := Option.map_eq_some_iff.mp hrequest
  obtain ⟨hcoin, hscope⟩ := Option.filter_eq_some_iff.mp hcoin
  exact ⟨hread, of_decide_eq_true hscope, order, horder, hcoin, rfl⟩

theorem shows_closes {seen : Entry} (hread : seen.request = .userState)
    {request : SignedRequest} (hmem : request ∈ c.closes seen.account) :
    seen.Shows c.coins request := by
  obtain ⟨position, hposition, hrequest⟩ := List.mem_filterMap.mp hmem
  obtain ⟨coin, hcoin, rfl⟩ := Option.map_eq_some_iff.mp hrequest
  obtain ⟨hcoin, hscope⟩ := Option.filter_eq_some_iff.mp hcoin
  obtain ⟨hscope, hsize⟩ := of_decide_eq_true hscope
  exact ⟨hread, hscope, position, hposition, hcoin, rfl, hsize⟩

theorem warranted_sweep (h : Warranted c.coins s.log) (read : Request) (hread : read.IsRead)
    {wanted : Account → List SignedRequest}
    (hshows : ∀ seen : Entry, seen.request = read → ∀ request ∈ wanted seen.account,
      seen.Shows c.coins request) :
    Warranted c.coins (made (c.sweep environ fromKey moments read wanted s)) := by
  cases hsweep : c.sweep environ fromKey moments read wanted s with
  | ok t =>
      obtain ⟨seen, signed, hseen, hanswered, hattempts⟩ := sweep_attempts hsweep
      rw [made, hattempts.log, List.append_assoc]
      refine h.append_sweep (hseen ▸ hread) fun entry hentry => ?_
      exact (hattempts.only entry hentry).imp_right fun ⟨request, hmem, hrequest⟩ =>
        ⟨request, hrequest, hanswered, hshows seen hseen request hmem⟩
  | error exit =>
      obtain ⟨abort, seen, signed, rfl, hseen, honly⟩ := sweep_aborts hsweep
      refine h.append_sweep (hseen ▸ hread) fun entry hentry => ?_
      exact (honly entry hentry).imp_right fun ⟨hanswered, request, hmem, hrequest⟩ =>
        ⟨request, hrequest, hanswered, hshows seen hseen request hmem⟩

theorem warranted_cancelOpenOrders (h : Warranted c.coins s.log) :
    Warranted c.coins (made (c.cancelOpenOrders environ fromKey moments s)) := by
  unfold cancelOpenOrders
  exact warranted_sweep h .openOrders trivial fun _ hseen _ hmem => shows_cancels hseen hmem

theorem warranted_closePositions (h : Warranted c.coins s.log) :
    Warranted c.coins (made (c.closePositions environ fromKey moments s)) := by
  unfold closePositions
  exact warranted_sweep h .userState trivial fun _ hseen _ hmem => shows_closes hseen hmem

theorem warranted_snapshot (h : Warranted c.coins s.log) {current : Snapshot} {t : Progress}
    (hread : c.snapshot moments s = .ok (current, t)) : Warranted c.coins t.log := by
  obtain ⟨state, spot, orders, hstate, hspot, horders, _, rfl, _⟩ := snapshot_eq_ok hread
  exact h.append_reads (by simp [hstate, hspot, horders])

theorem warranted_unread (h : Warranted c.coins s.log) {exit : CleanupExit}
    (hread : c.snapshot moments s = .error exit) : Warranted c.coins exit.log := by
  obtain ⟨abort, reads, rfl, hreads⟩ := snapshot_eq_error hread
  exact h.append_reads hreads

theorem warranted_round (h : Warranted c.coins s.log) (now : ℚ) :
    Warranted c.coins (made (c.round environ fromKey moments s now)) := by
  have hcanceled : Warranted c.coins (made (c.cancelOpenOrders environ fromKey moments s)) :=
    warranted_cancelOpenOrders h
  have hclosed : ∀ {canceled result}, c.cancelOpenOrders environ fromKey moments s = .ok canceled →
      c.closePositions environ fromKey moments canceled = result →
        Warranted c.coins (made result) := by
    rintro canceled _ hcancel rfl
    rw [hcancel] at hcanceled
    exact warranted_closePositions hcanceled
  have hround := round_cases environ fromKey moments c s now
  generalize c.round environ fromKey moments s now = result at hround
  cases hround with
  | uncanceled exit hcancel => rwa [hcancel] at hcanceled
  | unclosed canceled exit hcancel hclose => exact hclosed hcancel hclose
  | unread canceled closed exit hcancel hclose hread =>
      exact warranted_unread (hclosed hcancel hclose) hread
  | clean canceled closed t current hcancel hclose hread hclean =>
      exact warranted_snapshot (hclosed hcancel hclose) hread
  | remaining canceled closed t current hcancel hclose hread hdirty =>
      exact warranted_snapshot (hclosed hcancel hclose) hread
  | unreadLate exit hlate hread => exact warranted_unread h hread
  | late t current hlate hread => exact warranted_snapshot h hread

theorem warranted_rounds (times : List ℚ) (h : Warranted c.coins s.log) :
    Warranted c.coins (made (loop (c.round environ fromKey moments) s times)) := by
  induction times generalizing s with
  | nil => exact h
  | cons now rest ih =>
      have hround : Warranted c.coins (made (c.round environ fromKey moments s now)) :=
        warranted_round h now
      rw [loop]
      cases hresult : c.round environ fromKey moments s now with
      | error exit => rwa [hresult] at hround
      | ok t =>
          rw [hresult] at hround
          exact ih hround

end Cleanup

/-- What the script insists on before it acts. -/
structure Confirmed (args : CleanupArgs) (environ : String → Option String) : Prop where
  allowed : args.allowCleanup = true
  mainnet : environ "OPMS_HB_MAINNET" = some "confirm"
  placeOrders : environ "OPMS_HB_PLACE_ORDERS" = some "confirm"
  network : ∃ address isTestnet, resolveAccount environ args.accountId = .ok (address, isTestnet) ∧
    explicitMainnet isTestnet

theorem CleanupArgs.start_eq_ok {args : CleanupArgs} {environ : String → Option String} {now : ℚ}
    {c : Cleanup} (hstart : args.start environ now = .ok c) :
    Confirmed args environ ∧ c.coins = args.coins := by
  unfold CleanupArgs.start at hstart
  split at hstart
  next => cases hstart
  next hallowed =>
    split at hstart
    next => cases hstart
    next hmainnet =>
      split at hstart
      next => cases hstart
      next hplace =>
        split at hstart
        next => cases hstart
        next address isTestnet hresolve =>
          split at hstart
          next => cases hstart
          next hnetwork =>
            rw [← Except.ok.inj hstart]
            exact ⟨⟨not_not.mp hallowed, not_not.mp hmainnet, not_not.mp hplace, address,
              isTestnet, hresolve, not_not.mp hnetwork⟩, rfl⟩

/-- In every run, a request is signed only with all confirmations, and only for an
order or a position of the coins that the last read before it has shown. -/
theorem cleanup_signs_what_it_saw (args : CleanupArgs) (environ : String → Option String)
    (fromKey : String → Option Raised) (moments : ℕ → Moment) (startedAt : ℚ) (times : List ℚ)
    {i : ℕ} {entry : Entry} {request : SignedRequest}
    (hentry : (made (args.main environ fromKey moments startedAt times))[i]? = some entry)
    (hsigned : entry.request = .signed request) :
    Confirmed args environ ∧
      Shown args.coins request (made (args.main environ fromKey moments startedAt times)) i := by
  unfold CleanupArgs.main at hentry ⊢
  split at hentry
  next => simp [made, CleanupExit.log] at hentry
  next c hstart =>
    obtain ⟨hconfirmed, hcoins⟩ := CleanupArgs.start_eq_ok hstart
    have hrun : Warranted c.coins (made (c.run environ fromKey moments times)) :=
      Cleanup.warranted_rounds times .nil
    rw [hcoins] at hrun
    exact ⟨hconfirmed, hrun i entry request hentry hsigned⟩

/-- An account with something in the coins and something beside them. -/
def sampleAccount : Account where
  orders := [{ oid := 6, coin := some "BTC" }, { oid := 7, coin := some "ETH" }]
  state :=
    { assetPositions :=
        [{ coin := some "BTC", szi := some 1 }, { coin := some "ETH", szi := some 2 }] }

/-- The account as a cleanup finds it whose requests are all honoured. -/
def sampleMoments (i : ℕ) : Moment where
  account :=
    { orders := if i < 3 then sampleAccount.orders else sampleAccount.orders.take 1
      state :=
        { assetPositions := if i < 5 then sampleAccount.state.assetPositions
            else sampleAccount.state.assetPositions.take 1 } }

def sampleEnviron : String → Option String
  | "OPMS_HB_MAINNET" => some "confirm"
  | "OPMS_HB_PLACE_ORDERS" => some "confirm"
  | "HYPERLIQUID_E2_MM1_ACCOUNT_ADDRESS" => some "0xabcdef0123"
  | "HYPERLIQUID_E2_MM1_IS_TESTNET" => some "false"
  | "HYPERLIQUID_E2_MM1_PRIVATE_KEY" => some "key"
  | "HYPERLIQUID_MASTER_ACCOUNT_ADDRESS" => some "0xabcdef0123"
  | _ => none

def sampleCleanup : CleanupArgs := { allowCleanup := true }

/-- The close, as the log has it. -/
def sampleClosing : Entry :=
  { sampleMoments 4 with request := .signed (.marketClose "ETH" (some 2)) }

theorem cleanup_signs_what_it_saw_close :
    let run := sampleCleanup.main sampleEnviron (fun _ => none) sampleMoments 0 [1]
    (made run)[4]? = some sampleClosing ∧ Confirmed sampleCleanup sampleEnviron ∧
      Shown sampleCleanup.coins (.marketClose "ETH" (some 2)) (made run) 4 :=
  have hclosing :
      (made (sampleCleanup.main sampleEnviron (fun _ => none) sampleMoments 0 [1]))[4]? =
        some sampleClosing := by decide +kernel
  ⟨hclosing, cleanup_signs_what_it_saw sampleCleanup sampleEnviron (fun _ => none) sampleMoments 0
    [1] hclosing rfl⟩

end Opms.Soak

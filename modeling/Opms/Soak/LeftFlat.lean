import Opms.Soak.Scope

/-! # What the cleanup leaves behind

Where nobody else trades the coins and an answered cancel takes its order off the
book, a cleanup that passes leaves them flat. Where closes are honoured too, its
first round passes.
-/

namespace Opms.Soak

open Foundation

namespace Account

/-- An order of the coin is open. -/
def Rests (account : Account) (coin : String) (oid : ℤ) : Prop :=
  ∃ order ∈ account.orders, order.coin = some coin ∧ order.oid = oid

/-- A position in the coin is open. -/
def Holds (account : Account) (coin : String) : Prop :=
  ∃ position ∈ account.state.assetPositions, position.coin = some coin ∧ sizeable position.size

instance (account : Account) (coin : String) (oid : ℤ) : Decidable (account.Rests coin oid) :=
  inferInstanceAs (Decidable (∃ _ ∈ _, _))

instance (account : Account) (coin : String) : Decidable (account.Holds coin) :=
  inferInstanceAs (Decidable (∃ _ ∈ _, _))

/-- Nothing is open in the coins. -/
def Flat (account : Account) (coins : List String) : Prop :=
  ∀ coin ∈ coins, (∀ oid, ¬ account.Rests coin oid) ∧ ¬ account.Holds coin

end Account

/-- The request closes the coin. -/
def Request.Closes (coin : String) : Request → Prop
  | .signed (.marketClose other _) => other = coin
  | _ => False

instance (coin : String) : ∀ request : Request, Decidable (request.Closes coin)
  | .signed (.marketClose _ _) => inferInstanceAs (Decidable (_ = _))
  | .signed (.cancel _ _) => inferInstanceAs (Decidable False)
  | .userState => inferInstanceAs (Decidable False)
  | .spotUserState => inferInstanceAs (Decidable False)
  | .openOrders => inferInstanceAs (Decidable False)
  | .connect => inferInstanceAs (Decidable False)

/-- Between two requests, nobody else trades the coins: no order of them is
placed, an answered cancel takes its order off the book, and a position comes
only from an order that rested or from a close. -/
structure Quiet (coins : List String) (entry next : Entry) : Prop where
  placed : ∀ order ∈ next.account.orders, ∀ coin ∈ order.coin, coin ∈ coins →
    entry.account.Rests coin order.oid ∧
      ¬ (entry.answered ∧ entry.request = .signed (.cancel coin order.oid))
  held : ∀ coin ∈ coins, next.account.Holds coin → entry.account.Holds coin ∨
    (∃ order ∈ entry.account.orders, order.coin = some coin) ∨ entry.request.Closes coin

instance (coins : List String) (entry next : Entry) : Decidable (Quiet coins entry next) :=
  decidable_of_iff (_ ∧ _) ⟨fun ⟨hplaced, hheld⟩ => ⟨hplaced, hheld⟩,
    fun h => ⟨h.placed, h.held⟩⟩

/-- An answered close leaves no position in its coin. -/
def Honoured (coins : List String) (entry next : Entry) : Prop :=
  ∀ coin ∈ coins, entry.answered → entry.request.Closes coin → ¬ next.account.Holds coin

instance (coins : List String) (entry next : Entry) : Decidable (Honoured coins entry next) :=
  inferInstanceAs (Decidable (∀ _ ∈ _, _))

section Kept

variable {coins : List String} {coin : String} {entry next : Entry}

theorem Quiet.stays_gone (h : Quiet coins entry next) (hcoin : coin ∈ coins) {oid : ℤ}
    (hgone : ¬ entry.account.Rests coin oid) : ¬ next.account.Rests coin oid := by
  rintro ⟨order, horder, hsome, rfl⟩
  exact hgone (h.placed order horder coin hsome hcoin).1

theorem Quiet.canceled (h : Quiet coins entry next) (hcoin : coin ∈ coins) {oid : ℤ}
    (hanswered : entry.answered) (hcancel : entry.request = .signed (.cancel coin oid)) :
    ¬ next.account.Rests coin oid := by
  rintro ⟨order, horder, hsome, rfl⟩
  exact (h.placed order horder coin hsome hcoin).2 ⟨hanswered, hcancel⟩

/-- A coin with no order and no position gets one only from a close. -/
theorem Quiet.closes_of_holds (h : Quiet coins entry next) (hcoin : coin ∈ coins)
    (hgone : ∀ oid, ¬ entry.account.Rests coin oid) (hnone : ¬ entry.account.Holds coin)
    (hholds : next.account.Holds coin) : entry.request.Closes coin := by
  rcases h.held coin hcoin hholds with hheld | ⟨order, horder, hsome⟩ | hclose
  · exact absurd hheld hnone
  · exact absurd ⟨order, horder, hsome, rfl⟩ (hgone order.oid)
  · exact hclose

/-- A flat account stays flat, unless by a close. -/
theorem Quiet.stays_flat (h : Quiet coins entry next) (hread : entry.request.IsRead)
    (hflat : entry.account.Flat coins) : next.account.Flat coins := by
  intro coin hcoin
  obtain ⟨hgone, hnone⟩ := hflat coin hcoin
  refine ⟨fun oid => h.stays_gone hcoin (hgone oid), fun hholds => ?_⟩
  have hclose := h.closes_of_holds hcoin hgone hnone hholds
  cases hrequest : entry.request with
  | signed request =>
      rw [hrequest] at hread
      exact hread
  | userState | spotUserState | openOrders | connect =>
      rw [hrequest] at hclose
      exact hclose

/-- Where closes are honoured, a coin with nothing in it stays so through them too. -/
theorem Quiet.stays_empty (h : Quiet coins entry next) (hhonoured : Honoured coins entry next)
    (hanswered : entry.answered) (hcoin : coin ∈ coins)
    (hgone : ∀ oid, ¬ entry.account.Rests coin oid) (hnone : ¬ entry.account.Holds coin) :
    ¬ next.account.Holds coin := by
  intro hholds
  exact hhonoured coin hcoin hanswered (h.closes_of_holds hcoin hgone hnone hholds) hholds

theorem clean_ofReplies_iff {address : String} {state spot orders : Entry} :
    (Snapshot.ofReplies address coins state.account.state spot.account.spot
      orders.account.orders).clean ↔
      ∀ coin ∈ coins, (∀ oid, ¬ orders.account.Rests coin oid) ∧ ¬ state.account.Holds coin := by
  simp only [Snapshot.clean, Snapshot.ofReplies, List.filter_eq_nil_iff, decide_eq_true_eq]
  constructor
  · rintro ⟨horders, hpositions⟩ coin hcoin
    refine ⟨?_, ?_⟩
    · rintro oid ⟨order, horder, hsome, _⟩
      exact horders order horder ⟨coin, hsome, hcoin⟩
    · rintro ⟨position, hposition, hsome, hsize⟩
      exact hpositions position hposition ⟨⟨coin, hsome, hcoin⟩, hsize⟩
  · intro hflat
    refine ⟨?_, ?_⟩
    · rintro order horder ⟨coin, hsome, hcoin⟩
      exact (hflat coin hcoin).1 order.oid ⟨order, horder, hsome, rfl⟩
    · rintro position hposition ⟨⟨coin, hsome, hcoin⟩, hsize⟩
      exact (hflat coin hcoin).2 ⟨position, hposition, hsome, hsize⟩

end Kept

/-- The step keeps the coin empty, and empties it by a close. -/
def Empties (coin : String) (entry next : Entry) : Prop :=
  (¬ entry.account.Holds coin → ¬ next.account.Holds coin) ∧
    (entry.request.Closes coin → ¬ next.account.Holds coin)

namespace Cleanup

variable {environ : String → Option String} {fromKey : String → Option Raised}
  {moments : ℕ → Moment} {c : Cleanup} {s t : Progress} {current : Snapshot}

/-! ## The log of a round -/

theorem mem_cancels {account : Account} {coin : String} {oid : ℤ} (hcoin : coin ∈ c.coins)
    (hrests : account.Rests coin oid) : .cancel coin oid ∈ c.cancels account := by
  obtain ⟨order, horder, hsome, rfl⟩ := hrests
  refine List.mem_filterMap.mpr ⟨order, horder, ?_⟩
  simp [cancelRequest, hsome, hcoin]

theorem mem_closes {account : Account} {coin : String} (hcoin : coin ∈ c.coins)
    (hholds : account.Holds coin) : ∃ szi, .marketClose coin szi ∈ c.closes account := by
  obtain ⟨position, hposition, hsome, hsize⟩ := hholds
  refine ⟨position.szi, List.mem_filterMap.mpr ⟨position, hposition, ?_⟩⟩
  simp [closeRequest, hsome, hcoin, hsize]

/-- What a round logs that gets to its snapshot: the orders and their cancels, the
positions and their closes, and the reads of the snapshot. -/
structure Swept (c : Cleanup) (s t : Progress) (current : Snapshot) (orders : Entry)
    (cancels : List Entry) (positions : Entry) (closes : List Entry)
    (state spot resting : Entry) : Prop where
  log : t.log = s.log ++ (orders :: cancels ++ positions :: closes ++ [state, spot, resting])
  requests : state.request = .userState ∧ spot.request = .spotUserState ∧
    resting.request = .openOrders
  snapshot : current = .ofReplies c.address c.coins state.account.state spot.account.spot
    resting.account.orders
  clean : t.failures = [] → s.failures = [] ∧
    (∀ entry ∈ orders :: cancels ++ positions :: closes ++ [state, spot, resting],
      entry.answered) ∧
    (∀ request ∈ c.cancels orders.account, ∃ entry ∈ cancels, entry.request = .signed request) ∧
    ∀ request ∈ c.closes positions.account, ∃ entry ∈ closes, entry.request = .signed request

theorem swept {canceled closed : Progress}
    (hcancel : c.cancelOpenOrders environ fromKey moments s = .ok canceled)
    (hclose : c.closePositions environ fromKey moments canceled = .ok closed)
    (hread : c.snapshot moments closed = .ok (current, t)) :
    ∃ orders cancels positions closes state spot resting,
      Swept c s t current orders cancels positions closes state spot resting := by
  obtain ⟨orders, cancels, _, horders, hcancels⟩ := sweep_attempts hcancel
  obtain ⟨positions, closes, _, hpositions, hcloses⟩ := sweep_attempts hclose
  obtain ⟨state, spot, resting, hstate, hspot, hresting, hreads, rfl, hcurrent⟩ :=
    snapshot_eq_ok hread
  refine ⟨orders, cancels, positions, closes, state, spot, resting, ?_,
    ⟨hstate, hspot, hresting⟩, hcurrent, fun hnone => ?_⟩
  · simp [hcloses.log, hcancels.log]
  · obtain ⟨hclosed, hclosesAnswered, hclosesMade⟩ := hcloses.clean hnone
    obtain ⟨hcanceled, hcancelsAnswered, hcancelsMade⟩ := hcancels.clean hclosed
    refine ⟨hcanceled, fun entry hentry => ?_, hcancelsMade, hclosesMade⟩
    simp only [List.cons_append, List.mem_cons, List.mem_append] at hentry
    rcases hentry with rfl | (hmem | rfl | hmem) | hmem
    · exact horders
    · exact hcancelsAnswered entry hmem
    · exact hpositions
    · exact hclosesAnswered entry hmem
    · exact hreads entry (by simpa using hmem)

section Log

variable {orders positions state spot resting : Entry} {cancels closes : List Entry}

/-- After the cancels no order of the coins is open. -/
theorem Swept.gone (h : Swept c s t current orders cancels positions closes state spot resting)
    (hclean : t.failures = []) (hquiet : t.log.IsChain (Quiet c.coins)) {coin : String}
    (hcoin : coin ∈ c.coins) (oid : ℤ) :
    ∀ entry ∈ positions :: closes ++ [state, spot, resting], ¬ entry.account.Rests coin oid := by
  obtain ⟨_, hanswered, hcancels, _⟩ := h.clean hclean
  rw [h.log] at hquiet
  by_cases hrests : orders.account.Rests coin oid
  · obtain ⟨cancel, hmem, hrequest⟩ := hcancels _ (mem_cancels hcoin hrests)
    have hdone : cancel.answered := hanswered cancel (by simp [hmem])
    obtain ⟨before, after, rfl⟩ := List.append_of_mem hmem
    have hlater : ((s.log ++ orders :: before) ++
        cancel :: (after ++ (positions :: closes ++ [state, spot, resting]))).IsChain
          (Quiet c.coins) := by simpa using hquiet
    have hgone := holds_after hlater
      (fun _ hnext => hnext.canceled hcoin hdone hrequest)
      (fun _ _ hstep hgone => hstep.stays_gone hcoin hgone)
    exact fun entry hentry => hgone entry (List.mem_append_right _ hentry)
  · have hlater : (s.log ++ orders :: (cancels ++ (positions :: closes ++
        [state, spot, resting]))).IsChain (Quiet c.coins) := by simpa using hquiet
    have hgone := holds_after hlater
      (fun _ hnext => hnext.stays_gone hcoin hrests)
      (fun _ _ hstep hgone => hstep.stays_gone hcoin hgone)
    exact fun entry hentry => hgone entry (List.mem_append_right _ hentry)

/-- A clean snapshot is still right when its last read arrives. -/
theorem Swept.flat (h : Swept c s t current orders cancels positions closes state spot resting)
    (hclean : t.failures = []) (hcurrent : current.clean)
    (hquiet : t.log.IsChain (Quiet c.coins)) : resting.account.Flat c.coins := by
  have hstate : state.account.Flat c.coins := by
    intro coin hcoin
    refine ⟨fun oid => h.gone hclean hquiet hcoin oid state (by simp), ?_⟩
    rw [h.snapshot] at hcurrent
    exact (clean_ofReplies_iff.mp hcurrent coin hcoin).2
  rw [h.log, ← List.append_assoc] at hquiet
  have hreads := hquiet.right_of_append
  simp only [List.isChain_cons_cons] at hreads
  obtain ⟨hspot, hresting, _⟩ := hreads
  have hflat := hspot.stays_flat (by simp [h.requests.1]) hstate
  exact hresting.stays_flat (by simp [h.requests.2.1]) hflat

/-- With the closes honoured as well, the snapshot is clean. -/
theorem Swept.clean_of_honoured
    (h : Swept c s t current orders cancels positions closes state spot resting)
    (hclean : t.failures = [])
    (hquiet : t.log.IsChain fun entry next =>
      Quiet c.coins entry next ∧ Honoured c.coins entry next) : current.clean := by
  obtain ⟨_, hanswered, _, hcloses⟩ := h.clean hclean
  rw [h.snapshot, clean_ofReplies_iff]
  intro coin hcoin
  have hgone := h.gone hclean (hquiet.imp fun _ _ hstep => hstep.1) hcoin
  refine ⟨fun oid => hgone oid resting (by simp), ?_⟩
  -- from the read of the positions on, a close empties the coin and it stays empty
  have hsteps : (positions :: closes ++ [state, spot, resting]).IsChain (Empties coin) := by
    rw [h.log] at hquiet
    have hsuffix : (positions :: closes ++ [state, spot, resting]).IsChain
        (fun entry next => Quiet c.coins entry next ∧ Honoured c.coins entry next) :=
      hquiet.suffix ⟨s.log ++ orders :: cancels, by simp⟩
    refine hsuffix.imp_of_mem_imp fun entry next hentry _ hstep => ?_
    have hdone := hanswered entry (by
      rw [List.append_assoc]
      exact List.mem_append_right _ hentry)
    exact ⟨hstep.1.stays_empty hstep.2 hdone hcoin fun oid => hgone oid entry hentry,
      hstep.2 coin hcoin hdone⟩
  by_cases hholds : positions.account.Holds coin
  · obtain ⟨szi, hwanted⟩ := mem_closes hcoin hholds
    obtain ⟨close, hmem, hrequest⟩ := hcloses _ hwanted
    obtain ⟨before, after, rfl⟩ := List.append_of_mem hmem
    have hclosed : ((positions :: before) ++ close :: (after ++ [state, spot, resting])).IsChain
        (Empties coin) := by simpa using hsteps
    have hcloses : close.request.Closes coin := by
      rw [hrequest]
      rfl
    exact holds_after hclosed (fun _ hnext => hnext.2 hcloses) (fun _ _ hstep => hstep.1)
      state (by simp)
  · have hopen : ([] ++ positions :: (closes ++ [state, spot, resting])).IsChain
        (Empties coin) := by simpa using hsteps
    exact holds_after hopen (fun _ hnext => hnext.1 hholds) (fun _ _ hstep => hstep.1)
      state (by simp)

end Log

/-! ## Passing -/

/-- Without a failure, every request so far was answered. -/
def Trusted (s : Progress) : Prop := s.failures = [] → ∀ entry ∈ s.log, entry.answered

theorem Trusted.swept {orders positions state spot resting : Entry} {cancels closes : List Entry}
    (hs : Trusted s)
    (h : Swept c s t current orders cancels positions closes state spot resting) :
    Trusted t := by
  intro hclean
  obtain ⟨hstart, hanswered, _⟩ := h.clean hclean
  rw [h.log]
  exact List.forall_mem_append.mpr ⟨hs hstart, hanswered⟩

theorem trusted_rounds (times : List ℚ) (hs : Trusted s)
    (hloop : loop (c.round environ fromKey moments) s times = .ok t) : Trusted t := by
  induction times generalizing s with
  | nil =>
      rw [← Except.ok.inj hloop]
      exact hs
  | cons now rest ih =>
      rw [loop] at hloop
      split at hloop
      next => cases hloop
      next next hnext =>
        have hround := round_cases environ fromKey moments c s now
        rw [hnext] at hround
        cases hround with
        | remaining canceled closed _ current hcancel hclose hread hdirty =>
            obtain ⟨_, _, _, _, _, _, _, h⟩ := Cleanup.swept hcancel hclose hread
            exact ih (hs.swept h) hloop

/-- A cleanup passes by a clean snapshot, with every request answered. -/
theorem passed_spec {times : List ℚ} {report : Report} {log : List Entry}
    (hexit : c.run environ fromKey moments times = .error (.finished report log))
    (hpassed : report.passed = true) :
    ∃ s t current orders cancels positions closes state spot resting,
      Swept c s t current orders cancels positions closes state spot resting ∧
        t.failures = [] ∧ current.clean ∧ log = t.log ∧ ∀ entry ∈ log, entry.answered := by
  obtain ⟨before, now, after, s, _, hbefore, hround⟩ := loop_stops hexit
  have htrusted : Trusted s := trusted_rounds before (fun _ => by simp) hbefore
  have hcases := round_cases environ fromKey moments c s now
  rw [hround] at hcases
  generalize hresult : CleanupExit.finished report log = exit at hcases
  cases hcases with
  | uncanceled _ hcancel =>
      obtain ⟨_, _, _, rfl, _⟩ := sweep_aborts hcancel
      cases hresult
  | unclosed canceled _ hcancel hclose =>
      obtain ⟨_, _, _, rfl, _⟩ := sweep_aborts hclose
      cases hresult
  | unread canceled closed _ hcancel hclose hread =>
      obtain ⟨_, _, rfl, _⟩ := snapshot_eq_error hread
      cases hresult
  | clean canceled closed t current hcancel hclose hread hcurrent =>
      obtain ⟨rfl, rfl⟩ := CleanupExit.finished.inj hresult
      have hclean : t.failures = [] := of_decide_eq_true hpassed
      obtain ⟨orders, cancels, positions, closes, state, spot, resting, h⟩ :=
        Cleanup.swept hcancel hclose hread
      exact ⟨s, t, current, orders, cancels, positions, closes, state, spot, resting, h, hclean,
        hcurrent, rfl, htrusted.swept h hclean⟩
  | unreadLate _ hlate hread =>
      obtain ⟨_, _, rfl, _⟩ := snapshot_eq_error hread
      cases hresult
  | late t current hlate hread =>
      obtain ⟨rfl, rfl⟩ := CleanupExit.finished.inj hresult
      simp [report] at hpassed

/-- The account is flat when the last read of a passing cleanup arrives, and after. -/
theorem flat_after {times : List ℚ} {report : Report} {log : List Entry}
    (hexit : c.run environ fromKey moments times = .error (.finished report log))
    (hpassed : report.passed = true) {later : List Entry}
    (hreads : ∀ entry ∈ later, entry.request.IsRead)
    (hquiet : (log ++ later).IsChain (Quiet c.coins)) :
    ∀ entry ∈ log.getLast?.toList ++ later, entry.account.Flat c.coins := by
  obtain ⟨s, t, current, orders, cancels, positions, closes, state, spot, resting, h, hclean,
    hcurrent, rfl, _⟩ := passed_spec hexit hpassed
  have hflat := h.flat hclean hcurrent hquiet.left_of_append
  have hlast : t.log = (s.log ++ (orders :: cancels ++ positions :: closes ++ [state, spot])) ++
      [resting] := by simp [h.log]
  rw [hlast, List.append_assoc] at hquiet
  rw [hlast, List.getLast?_concat]
  have hsteps : (resting :: later).IsChain fun entry next =>
      entry.account.Flat c.coins → next.account.Flat c.coins := by
    refine hquiet.right_of_append.imp_of_mem_imp fun entry next hentry _ hstep => ?_
    rcases List.mem_cons.mp hentry with rfl | hmem
    · exact hstep.stays_flat (by simp [h.requests.2.2])
    · exact hstep.stays_flat (hreads entry hmem)
  have hlater := hsteps.cons_induction (fun entry => entry.account.Flat c.coins) later
    (fun _ _ hstep => hstep) hflat
  exact List.forall_mem_cons.mpr ⟨hflat, hlater⟩

end Cleanup

/-- What a script that passes has run. -/
theorem CleanupArgs.run_of_finished {args : CleanupArgs} {environ : String → Option String}
    {fromKey : String → Option Raised} {moments : ℕ → Moment} {startedAt : ℚ} {times : List ℚ}
    {report : Report} {log : List Entry}
    (hexit : args.main environ fromKey moments startedAt times = .error (.finished report log)) :
    ∃ c : Cleanup, c.coins = args.coins ∧
      c.run environ fromKey moments times = .error (.finished report log) := by
  unfold CleanupArgs.main at hexit
  split at hexit
  next => cases hexit
  next c hstart => exact ⟨c, (CleanupArgs.start_eq_ok hstart).2, hexit⟩

/-- A cleanup that passes has had every request answered. Where nobody else trades
the coins and an answered cancel takes its order off the book, it leaves them flat
for whoever reads the account afterwards. -/
theorem passed_cleanup_leaves_flat (args : CleanupArgs) (environ : String → Option String)
    (fromKey : String → Option Raised) (moments : ℕ → Moment) (startedAt : ℚ) (times : List ℚ)
    {report : Report} {log : List Entry}
    (hexit : args.main environ fromKey moments startedAt times = .error (.finished report log))
    (hpassed : report.passed = true) :
    (∀ entry ∈ log, entry.answered) ∧
      ∀ later, (∀ entry ∈ later, entry.request.IsRead) →
        (log ++ later).IsChain (Quiet args.coins) →
        ∀ entry ∈ log.getLast?.toList ++ later, entry.account.Flat args.coins := by
  obtain ⟨c, hcoins, hrun⟩ := CleanupArgs.run_of_finished hexit
  obtain ⟨_, _, _, _, _, _, _, _, _, _, _, _, _, _, hanswered⟩ := Cleanup.passed_spec hrun hpassed
  rw [← hcoins]
  exact ⟨hanswered, fun later hreads hquiet => Cleanup.flat_after hrun hpassed hreads hquiet⟩

/-- The log of a cleanup that has one order to cancel and one position to close. -/
def sampleLog (moments : ℕ → Moment) : List Entry :=
  [ .openOrders, .connect, .signed (.cancel "ETH" 7), .userState,
    .signed (.marketClose "ETH" (some 2)), .userState, .spotUserState, .openOrders ].mapIdx
    fun i request => { moments i with request }

/-- Its report. -/
def sampleReport : Report where
  accountId := "e2_mm1"
  address := "0xabcdef..0123"
  coins := ["ETH", "SOL"]
  actions := [.cancel "ETH" 7 "", .marketClose "ETH" (some 2) ""]
  failures := []
  finalState := .ofReplies "0xabcdef0123" ["ETH", "SOL"] {} {} []
  passed := true

theorem passed_cleanup_leaves_flat_sample :
    sampleCleanup.main sampleEnviron (fun _ => none) sampleMoments 0 [1] =
        .error (.finished sampleReport (sampleLog sampleMoments)) ∧
      (∀ entry ∈ sampleLog sampleMoments, entry.answered) ∧
        ∀ entry ∈ (sampleLog sampleMoments).getLast?.toList ++
            [{ sampleMoments 8 with request := .userState }],
          entry.account.Flat ["ETH", "SOL"] :=
  have hexit : sampleCleanup.main sampleEnviron (fun _ => none) sampleMoments 0 [1] =
      .error (.finished sampleReport (sampleLog sampleMoments)) := by decide +kernel
  have hpassed := passed_cleanup_leaves_flat sampleCleanup sampleEnviron (fun _ => none)
    sampleMoments 0 [1] hexit rfl
  ⟨hexit, hpassed.1, hpassed.2 [_] (by simp) (by decide +kernel)⟩

/-- An answered cancel that does not take its order off: the order fills after the
snapshot has read the positions, and the cleanup passes over a position. -/
def missedMoments (i : ℕ) : Moment where
  account :=
    { orders := if i < 6 then [{ oid := 7, coin := some "ETH" }] else []
      state := { assetPositions := if i < 6 then [] else [{ coin := some "ETH", szi := some 2 }] } }

theorem missed_fill_passes : ∃ report log,
    sampleCleanup.main sampleEnviron (fun _ => none) missedMoments 0 [1] =
        .error (.finished report log) ∧
      report.passed = true ∧ ∃ last ∈ log.getLast?, last.account.Holds "ETH" :=
  ⟨{ sampleReport with actions := [.cancel "ETH" 7 ""] },
    [ .openOrders, .connect, .signed (.cancel "ETH" 7), .userState, .userState, .spotUserState,
      .openOrders ].mapIdx fun i request => { missedMoments i with request },
    by decide +kernel, rfl, by decide +kernel⟩

/-! ## A round that is answered -/

namespace Cleanup

section Answered

variable {environ : String → Option String} {fromKey : String → Option Raised}
  {moments : ℕ → Moment} {c : Cleanup} {signer : Signer}

theorem send_failures (hanswered : ∀ i, (moments i).error = none) (s : Progress)
    (request : SignedRequest) : (send moments s request).failures = s.failures := by
  simp [send, hanswered]

theorem sign_answered (hanswered : ∀ i, (moments i).error = none)
    (hsigner : exchange environ fromKey c.accountId c.address = .ok signer) (s : Progress)
    (request : SignedRequest) :
    ∃ t, c.sign environ fromKey moments s request = .ok t ∧ t.failures = s.failures := by
  unfold sign
  split
  next => exact ⟨_, rfl, send_failures hanswered s request⟩
  next =>
    simp only [hsigner, hanswered]
    exact ⟨_, rfl, send_failures hanswered _ request⟩

theorem loop_sign_answered (hanswered : ∀ i, (moments i).error = none)
    (hsigner : exchange environ fromKey c.accountId c.address = .ok signer)
    (requests : List SignedRequest) (s : Progress) :
    ∃ t, loop (c.sign environ fromKey moments) s requests = .ok t ∧ t.failures = s.failures := by
  induction requests generalizing s with
  | nil => exact ⟨s, rfl, rfl⟩
  | cons request rest ih =>
      obtain ⟨next, hnext, hfailures⟩ := sign_answered hanswered hsigner s request
      obtain ⟨t, hrest, hsame⟩ := ih next
      refine ⟨t, ?_, hsame.trans hfailures⟩
      rw [loop, hnext]
      exact hrest

theorem sweep_answered (hanswered : ∀ i, (moments i).error = none)
    (hsigner : exchange environ fromKey c.accountId c.address = .ok signer) (read : Request)
    (wanted : Account → List SignedRequest) (s : Progress) :
    ∃ t, c.sweep environ fromKey moments read wanted s = .ok t ∧ t.failures = s.failures := by
  simp only [sweep, Soak.read, hanswered]
  exact loop_sign_answered hanswered hsigner _ _

theorem snapshot_answered (hanswered : ∀ i, (moments i).error = none) (s : Progress) :
    ∃ current t, c.snapshot moments s = .ok (current, t) ∧ t.failures = s.failures := by
  simp only [snapshot, snapshotAccount, Soak.read, hanswered]
  exact ⟨_, _, rfl, rfl⟩

/-- The first round of an answered cleanup passes where its requests are honoured. -/
theorem round_honoured (hanswered : ∀ i, (moments i).error = none)
    (hsigner : exchange environ fromKey c.accountId c.address = .ok signer) {s : Progress}
    (hstart : s.failures = []) {now : ℚ} (hnow : now < c.deadline)
    (hquiet : (made (c.round environ fromKey moments s now)).IsChain fun entry next =>
      Quiet c.coins entry next ∧ Honoured c.coins entry next) :
    ∃ report log, c.round environ fromKey moments s now = .error (.finished report log) ∧
      report.passed = true ∧ report.finalState.clean := by
  obtain ⟨canceled, hcancel, hcanceled⟩ :=
    sweep_answered hanswered hsigner .openOrders c.cancels s
  obtain ⟨closed, hclose, hclosed⟩ :=
    sweep_answered hanswered hsigner .userState c.closes canceled
  obtain ⟨current, t, hread, ht⟩ := snapshot_answered (c := c) hanswered closed
  have hfailures : t.failures = [] := by rw [ht, hclosed, hcanceled, hstart]
  have hround : c.round environ fromKey moments s now =
      if current.clean then .error (.finished (c.report t current t.failures) t.log)
      else .ok t := by
    rw [round, if_pos hnow, cancelOpenOrders, hcancel]
    dsimp only [bind, Except.bind]
    rw [closePositions, hclose]
    dsimp only
    rw [hread]
  have hlog : made (c.round environ fromKey moments s now) = t.log := by
    rw [hround]
    split <;> rfl
  rw [hlog] at hquiet
  obtain ⟨orders, cancels, positions, closes, state, spot, resting, h⟩ :=
    Cleanup.swept hcancel hclose hread
  have hcurrent := h.clean_of_honoured hfailures hquiet
  rw [hround, if_pos hcurrent]
  exact ⟨_, _, rfl, decide_eq_true hfailures, hcurrent⟩

end Answered

end Cleanup

/-- Where credentials are usable, every request is answered and honoured, and nobody
else trades the coins, the cleanup passes in its first round, whatever the account
held. -/
theorem honoured_cleanup_passes_at_once (args : CleanupArgs) (environ : String → Option String)
    (fromKey : String → Option Raised) (moments : ℕ → Moment) (startedAt : ℚ) {c : Cleanup}
    (hstart : args.start environ startedAt = .ok c) {signer : Signer}
    (hsigner : exchange environ fromKey c.accountId c.address = .ok signer)
    (hanswered : ∀ i, (moments i).error = none) {now : ℚ} (hnow : now < c.deadline)
    (times : List ℚ)
    (hquiet : (made (args.main environ fromKey moments startedAt [now])).IsChain
      fun entry next => Quiet args.coins entry next ∧ Honoured args.coins entry next) :
    ∃ report log, args.main environ fromKey moments startedAt (now :: times) =
      .error (.finished report log) ∧ report.passed = true ∧ report.finalState.clean := by
  have hmain : ∀ times, args.main environ fromKey moments startedAt times =
      c.run environ fromKey moments times := by
    intro times
    rw [CleanupArgs.main, hstart]
  rw [hmain, ← (CleanupArgs.start_eq_ok hstart).2, Cleanup.run, loop_singleton] at hquiet
  obtain ⟨report, log, hround, hpassed⟩ :=
    Cleanup.round_honoured hanswered hsigner rfl hnow hquiet
  refine ⟨report, log, ?_, hpassed⟩
  rw [hmain, Cleanup.run, loop, hround]

theorem honoured_cleanup_passes_at_once_sample : ∃ report log,
    sampleCleanup.main sampleEnviron (fun _ => none) sampleMoments 0 [1] =
      .error (.finished report log) ∧ report.passed = true ∧ report.finalState.clean :=
  honoured_cleanup_passes_at_once sampleCleanup sampleEnviron (fun _ => none) sampleMoments 0
    (show sampleCleanup.start sampleEnviron 0 =
      .ok { sampleCleanup with address := "0xabcdef0123", deadline := 30 } by decide +kernel)
    (show exchange sampleEnviron (fun _ => none) "e2_mm1" "0xabcdef0123" = .ok .wallet by
      decide +kernel) (fun _ => rfl) (by decide +kernel) []
    (by decide +kernel)

end Opms.Soak

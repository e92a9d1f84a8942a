import Opms.Analytics.FillObserver
import Mathlib.Data.List.Infix
import Mathlib.Data.List.TakeWhile
import Mathlib.Tactic.Linarith

/-! # Delayed fills

A fill event may be delivered long after its own time. The mid in force at that
time is still found while it is in the buffer, since every later mid lies after
the event; so the ledger is given the same fill and the slippage is the same.
-/

namespace Opms.Analytics

open Foundation

/-- One call of `update_mid`, with the clock when it is made. -/
structure MidUpdate where
  clock : ℚ
  mid : Reading
  ts : Option ℚ := none
  deriving DecidableEq

namespace MidUpdate

/-- The time a mid is buffered under. -/
def time (update : MidUpdate) : ℚ := update.ts.getD update.clock

def input (update : MidUpdate) : Input := .updateMid update.clock update.mid update.ts

def entry (update : MidUpdate) : ℚ × Reading := (update.time, update.mid)

end MidUpdate

/-- Times never decrease from one update to the next. -/
def TimesOrdered (updates : List MidUpdate) : Prop :=
  updates.Pairwise fun first second => first.time ≤ second.time

instance (updates : List MidUpdate) : Decidable (TimesOrdered updates) :=
  inferInstanceAs (Decidable (List.Pairwise _ _))

/-- The updates made by the time `ts`. -/
def onTime (ts : ℚ) (updates : List MidUpdate) : List MidUpdate :=
  updates.takeWhile fun update => update.time ≤ ts

/-- The updates made after the time `ts`. -/
def late (ts : ℚ) (updates : List MidUpdate) : List MidUpdate :=
  updates.dropWhile fun update => update.time ≤ ts

theorem onTime_append_late (ts : ℚ) (updates : List MidUpdate) :
    onTime ts updates ++ late ts updates = updates :=
  List.takeWhile_append_dropWhile

theorem le_of_mem_onTime {ts : ℚ} {updates : List MidUpdate} {update : MidUpdate}
    (hmem : update ∈ onTime ts updates) : update.time ≤ ts := by
  have htaken := List.mem_takeWhile_imp hmem
  exact of_decide_eq_true htaken

/-- In an ordered history no late update is by the time. -/
theorem lt_of_mem_late {ts : ℚ} {updates : List MidUpdate} (hordered : TimesOrdered updates)
    {update : MidUpdate} (hmem : update ∈ late ts updates) : ts < update.time := by
  induction updates with
  | nil => cases hmem
  | cons first rest ih =>
      obtain ⟨hfirst, hrest⟩ := List.pairwise_cons.mp hordered
      by_cases hle : first.time ≤ ts
      · rw [late, List.dropWhile_cons_of_pos (by simpa using hle)] at hmem
        exact ih hrest hmem
      · rw [late, List.dropWhile_cons_of_neg (by simpa using hle)] at hmem
        rcases List.mem_cons.mp hmem with rfl | hlater
        · exact not_le.mp hle
        · exact (not_le.mp hle).trans_le (hfirst update hlater)

theorem onTime_ne_nil {ts : ℚ} {updates : List MidUpdate} (hordered : TimesOrdered updates)
    (hsome : ∃ update ∈ updates, update.time ≤ ts) : onTime ts updates ≠ [] := by
  obtain ⟨update, hmem, hle⟩ := hsome
  intro hnil
  rw [← onTime_append_late ts updates, hnil, List.nil_append] at hmem
  exact absurd (lt_of_mem_late hordered hmem) (not_lt.mpr hle)

namespace FillObserver

variable {Ledger Markout : Type*} (ledgers : PnLLedger Ledger) (markouts : MarkoutTracker Markout)
variable {observer : FillObserver Ledger Markout}

/-! ## The buffer -/

/-- What is at the end of the buffer stays there, while it fits. -/
theorem suffix_pushMid {buffer recent : List (ℚ × Reading)} {entry : ℚ × Reading}
    (hrecent : recent <:+ buffer) (hfits : recent.length < midBufferMaxlen) :
    recent ++ [entry] <:+ pushMid buffer entry := by
  obtain ⟨front, rfl⟩ := hrecent
  have hend : recent ++ [entry] <:+ front ++ recent ++ [entry] :=
    ⟨front, by rw [List.append_assoc]⟩
  apply List.suffix_of_suffix_length_le hend (List.drop_suffix _ _)
  simp only [List.length_drop, List.length_append, List.length_singleton]
  omega

theorem step_midBuffer (update : MidUpdate) :
    (observer.step ledgers markouts update.input).midBuffer =
      pushMid observer.midBuffer update.entry := by
  simp only [step, MidUpdate.input, updateMid, MidUpdate.entry, MidUpdate.time]

/-- The last update and the ones after it are the end of the buffer. -/
theorem suffix_midBuffer (latest : MidUpdate) (later : List MidUpdate)
    (hfits : later.length < midBufferMaxlen) (hlatest : [latest.entry] <:+ observer.midBuffer) :
    latest.entry :: later.map MidUpdate.entry <:+
      (run (step ledgers markouts) observer (later.map MidUpdate.input)).midBuffer := by
  induction later using List.reverseRecOn with
  | nil => exact hlatest
  | append_singleton before update ih =>
      rw [List.length_append, List.length_singleton] at hfits
      rw [List.map_append, List.map_append, run_append, ← List.cons_append, List.map_singleton,
        List.map_singleton, run_cons, run_nil, step_midBuffer]
      refine suffix_pushMid (ih (by omega)) ?_
      rw [List.length_cons, List.length_map]
      exact hfits

/-- The buffer is searched from its end. -/
theorem midAt_of_suffix {latest : ℚ × Reading} {later : List (ℚ × Reading)} {ts : ℚ}
    (hsuffix : latest :: later <:+ observer.midBuffer) (hlatest : latest.1 ≤ ts)
    (hlater : ∀ entry ∈ later, ts < entry.1) : observer.midAt ts = some latest.2 := by
  obtain ⟨front, hbuffer⟩ := hsuffix
  have hskip : later.reverse.find? (fun entry => entry.1 ≤ ts) = none := by
    rw [List.find?_eq_none]
    intro entry hentry
    simpa using hlater entry (List.mem_reverse.mp hentry)
  rw [midAt, ← hbuffer, List.reverse_append, List.reverse_cons, List.append_assoc,
    List.find?_append, hskip, Option.none_or, List.singleton_append,
    List.find?_cons_of_pos (by simpa using hlatest)]

/-! ## What a fill event reads -/

/-- Mids leave the symbol, the ledger and the slippages alone. -/
theorem run_updateMid_frame (observer : FillObserver Ledger Markout) (updates : List MidUpdate) :
    (run (step ledgers markouts) observer (updates.map MidUpdate.input)).symbol =
        observer.symbol ∧
      (run (step ledgers markouts) observer (updates.map MidUpdate.input)).ledger =
        observer.ledger ∧
      (run (step ledgers markouts) observer (updates.map MidUpdate.input)).slippageBps =
        observer.slippageBps := by
  induction updates generalizing observer with
  | nil => exact ⟨rfl, rfl, rfl⟩
  | cons update rest ih =>
      rw [List.map_cons, run_cons]
      exact ih _

/-- The event is attributed to the mid: what the ledger accepts is booked with it,
and appends the slippage from it if it is positive; anything else is dropped. -/
structure AttributedTo (mid : Reading) (event : FillEvent)
    (before after : FillObserver Ledger Markout) : Prop where
  accepted : ∀ ledger, event.tradingPair = before.symbol →
    ledgers.onFill before.ledger (event.fill (some mid)) = .ok ledger →
      after.ledger = ledger ∧ after.slippageBps = before.slippageBps ++
        ((mid.filter (0 < ·)).map (slippage event.tradeType event.price)).toList
  dropped : (event.tradingPair ≠ before.symbol ∨
      ∃ message, ledgers.onFill before.ledger (event.fill (some mid)) = .error message) →
    after.ledger = before.ledger ∧ after.slippageBps = before.slippageBps

theorem attributedTo_midAt {event : FillEvent} {mid : Reading}
    (hmid : observer.midAt event.timestamp = some mid) (clock : ℚ) :
    AttributedTo ledgers mid event observer
      (observer.onFillEvent ledgers markouts clock event) := by
  have hfill : event.fill (some mid) = observer.fillOf event := by rw [fillOf, hmid]
  constructor
  · intro ledger hsymbol haccepted
    rw [hfill] at haccepted
    have hbooked := onFillEvent_accepted ledgers markouts clock hsymbol haccepted
    rw [hmid] at hbooked
    exact hbooked
  · rw [hfill]
    exact onFillEvent_dropped ledgers markouts clock

end FillObserver

open FillObserver

/-- Delivering a fill event right after the last mid by its own time, or after
any later mids that leave this one in the buffer, attributes it to that mid: the
ledger is the same, and the same slippage is added. -/
theorem delayed_fill_as_on_time {Ledger Markout : Type*} (ledgers : PnLLedger Ledger)
    (markouts : MarkoutTracker Markout) (observer : FillObserver Ledger Markout)
    (updates : List MidUpdate) (hordered : TimesOrdered updates) (event : FillEvent)
    (hsome : ∃ update ∈ updates, update.time ≤ event.timestamp)
    (delay : List MidUpdate) (hdelay : delay <+: late event.timestamp updates)
    (hfits : delay.length < midBufferMaxlen) (clock clock' : ℚ) :
    let prompt := run (step ledgers markouts) observer
      ((onTime event.timestamp updates).map MidUpdate.input)
    let delayed := run (step ledgers markouts) prompt (delay.map MidUpdate.input)
    ∃ latest, (onTime event.timestamp updates).getLast? = some latest ∧
      latest.time ≤ event.timestamp ∧
      (∀ update ∈ late event.timestamp updates, event.timestamp < update.time) ∧
      (delayed.symbol = prompt.symbol ∧ delayed.ledger = prompt.ledger ∧
        delayed.slippageBps = prompt.slippageBps) ∧
      AttributedTo ledgers latest.mid event prompt
        (prompt.onFillEvent ledgers markouts clock event) ∧
      AttributedTo ledgers latest.mid event delayed
        (delayed.onFillEvent ledgers markouts clock' event) ∧
      (delayed.onFillEvent ledgers markouts clock' event).ledger =
        (prompt.onFillEvent ledgers markouts clock event).ledger ∧
      (delayed.onFillEvent ledgers markouts clock' event).slippageBps =
        (prompt.onFillEvent ledgers markouts clock event).slippageBps := by
  intro prompt delayed
  obtain ⟨before, latest, hbefore⟩ :=
    List.eq_nil_or_concat' (onTime event.timestamp updates) |>.resolve_left
      (onTime_ne_nil hordered hsome)
  have hlatest : latest.time ≤ event.timestamp :=
    le_of_mem_onTime (hbefore ▸ List.mem_append_right before List.mem_cons_self)
  have hlate : ∀ update ∈ late event.timestamp updates, event.timestamp < update.time :=
    fun update => lt_of_mem_late hordered
  have hprompt : [latest.entry] <:+ prompt.midBuffer := by
    simp only [prompt, hbefore, List.map_append, run_append, List.map_singleton, run_cons, run_nil,
      step_midBuffer]
    exact suffix_pushMid List.nil_suffix (by decide)
  have hpromptMid : prompt.midAt event.timestamp = some latest.mid :=
    midAt_of_suffix hprompt hlatest fun entry hentry => by cases hentry
  have hdelayedMid : delayed.midAt event.timestamp = some latest.mid := by
    apply midAt_of_suffix (suffix_midBuffer ledgers markouts latest delay hfits hprompt) hlatest
    intro entry hentry
    obtain ⟨update, hupdate, rfl⟩ := List.mem_map.mp hentry
    exact hlate update (hdelay.subset hupdate)
  have hframe := run_updateMid_frame ledgers markouts prompt delay
  have hattributed := attributedTo_midAt ledgers markouts hpromptMid clock
  have hattributed' := attributedTo_midAt ledgers markouts hdelayedMid clock'
  refine ⟨latest, by rw [hbefore, List.getLast?_concat], hlatest, hlate, hframe, hattributed,
    hattributed', ?_⟩
  obtain ⟨hsymbol, hledger, hslippage⟩ := hframe
  by_cases hpair : event.tradingPair = prompt.symbol
  · cases hfill : ledgers.onFill prompt.ledger (event.fill (some latest.mid)) with
    | ok ledger =>
        obtain ⟨hbooked, hadded⟩ := hattributed.accepted ledger hpair hfill
        obtain ⟨hbooked', hadded'⟩ := hattributed'.accepted ledger (hpair.trans hsymbol.symm)
          (hledger ▸ hfill)
        exact ⟨hbooked'.trans hbooked.symm, by rw [hadded', hadded, hslippage]⟩
    | error message =>
        obtain ⟨hkept, hsame⟩ := hattributed.dropped (.inr ⟨message, hfill⟩)
        obtain ⟨hkept', hsame'⟩ := hattributed'.dropped (.inr ⟨message, hledger ▸ hfill⟩)
        exact ⟨by rw [hkept', hkept, hledger], by rw [hsame', hsame, hslippage]⟩
  · obtain ⟨hkept, hsame⟩ := hattributed.dropped (.inl hpair)
    obtain ⟨hkept', hsame'⟩ := hattributed'.dropped (.inl fun heq => hpair (heq.trans hsymbol))
    exact ⟨by rw [hkept', hkept, hledger], by rw [hsame', hsame, hslippage]⟩

/-! ## A delivery after two later mids -/

/-- Mids at 1, 5 and 6; the fill of time 3 was made at the first. -/
def sampleMids : List MidUpdate :=
  [⟨1, some 100, none⟩, ⟨5, some 110, none⟩, ⟨6, some 120, none⟩]

def sampleFill : FillEvent where
  tradingPair := "SOL-PERP"
  orderId := some "ordA"
  timestamp := 3
  tradeType := .buy
  price := some 101
  amount := some 1
  feeInQuoteToken := some (some 0)

/-- A ledger that lists the fills it is given. -/
def listingLedger : PnLLedger (List Fill) := ⟨fun fills fill => .ok (fills ++ [fill]), fun _ => 0⟩

/-- At whichever time the event comes, the fill is booked with the mid of 100, at one
percent of slippage. -/
theorem delayed_fill_as_on_time_sample :
    let observer : FillObserver (List Fill) Unit :=
      { symbol := "SOL-PERP", ledger := [], markout := () }
    let prompt := run (step listingLedger idleTracker) observer
      ((onTime 3 sampleMids).map MidUpdate.input)
    let delayed := run (step listingLedger idleTracker) prompt
      ((late 3 sampleMids).map MidUpdate.input)
    (delayed.onFillEvent listingLedger idleTracker 7 sampleFill).ledger =
        [sampleFill.fill (some (some 100))] ∧
      (delayed.onFillEvent listingLedger idleTracker 7 sampleFill).slippageBps = [some 100] ∧
      (prompt.onFillEvent listingLedger idleTracker 3 sampleFill).ledger =
        [sampleFill.fill (some (some 100))] ∧
      (prompt.onFillEvent listingLedger idleTracker 3 sampleFill).slippageBps = [some 100] := by
  intro observer prompt delayed
  obtain ⟨latest, hlast, _, _, _, _, hdelayed, hledger, hslippage⟩ :=
    delayed_fill_as_on_time listingLedger idleTracker observer sampleMids (by decide +kernel)
      sampleFill (by decide +kernel) (late 3 sampleMids) List.prefix_rfl (by decide +kernel) 3 7
  obtain rfl : ⟨1, some 100, none⟩ = latest := Option.some.inj hlast
  obtain ⟨hbooked, hadded⟩ := hdelayed.accepted [sampleFill.fill (some (some 100))] rfl rfl
  have hadded : (delayed.onFillEvent listingLedger idleTracker 7 sampleFill).slippageBps =
      [some 100] := hadded.trans (by decide +kernel)
  exact ⟨hbooked, hadded, hledger.symm.trans hbooked, hslippage.symm.trans hadded⟩

end Opms.Analytics

import Opms.PerpMM.QuotableSides

/-! # Maker quotes and their retries

A quote leaves the controller with its amount on the size step and its price a
buffer off the touch. Its executor derives the price again for every retry, from
the touch of that moment. Both take the intent's price and the buffered touch
and keep the more passive of the two.
-/

namespace Opms.PerpMM

open PerpMMController

/-- `BufferedMakerExecutor.get_order_price`, for what `current_market_price`
reports. `none` is the error raised without a usable touch: nothing is priced. -/
def getOrderPrice (config : BufferedMakerExecutorConfig) (touch : Option ℚ) : Option ℚ :=
  (touch.filter (0 < ·)).map fun touch =>
    let edge := config.makerBufferBps / 10000
    let buffered := touch * (if config.side = .buy then 1 - edge else 1 + edge)
    match config.price with
    | none => buffered
    | some price => if config.side = .buy then min price buffered else max price buffered

/-! ## The passive side -/

/-- An order at `price` is no more aggressive than one at `bound`. -/
def Passive (side : TradeType) (price bound : ℚ) : Prop :=
  match side with
  | .buy => price ≤ bound
  | .sell => bound ≤ price

def mostPassive (side : TradeType) (price bound : ℚ) : ℚ :=
  match side with
  | .buy => min price bound
  | .sell => max price bound

/-- The touch moved away by the buffer. -/
def bufferedTouch (bufferBps : ℚ) (side : TradeType) (touch : ℚ) : ℚ :=
  match side with
  | .buy => touch * (1 - bufferBps / 10000)
  | .sell => touch * (1 + bufferBps / 10000)

/-- The side of the book that an order rests on. -/
def Cycle.touch (cycle : Cycle) (side : TradeType) : Option ℚ :=
  match side with
  | .buy => cycle.bestBid
  | .sell => cycle.bestAsk

variable {side : TradeType} {price bound other : ℚ}

theorem Passive.trans (hfirst : Passive side price bound) (hsecond : Passive side bound other) :
    Passive side price other := by
  cases side with
  | buy => exact le_trans hfirst hsecond
  | sell => exact le_trans hsecond hfirst

theorem mostPassive_left : Passive side (mostPassive side price bound) price := by
  cases side with
  | buy => exact min_le_left _ _
  | sell => exact le_max_left _ _

theorem mostPassive_right : Passive side (mostPassive side price bound) bound := by
  cases side with
  | buy => exact min_le_right _ _
  | sell => exact le_max_right _ _

theorem mostPassive_of_passive (hprice : Passive side price bound) :
    mostPassive side price bound = price := by
  cases side with
  | buy => exact min_eq_left hprice
  | sell => exact max_eq_left hprice

/-! ## The two prices -/

variable {cfg : PerpMMControllerConfig} {cycle : Cycle} {spec : OrderSpec}

theorem bufferedMakerPrice_eq (hside : spec.side = some side) :
    bufferedMakerPrice cfg cycle spec = ((cycle.touch side).filter (0 < ·)).bind fun touch =>
      spec.price.map fun price =>
        mostPassive side price (bufferedTouch cfg.quotePostOnlyBufferBps side touch) := by
  cases side with
  | buy => rw [bufferedMakerPrice, if_pos hside]; rfl
  | sell => rw [bufferedMakerPrice, if_neg (by simp [hside])]; rfl

theorem getOrderPrice_eq {config : BufferedMakerExecutorConfig}
    (hprice : config.price = some price) (touch : Option ℚ) :
    getOrderPrice config touch = (touch.filter (0 < ·)).map fun touch =>
      mostPassive config.side price
        (bufferedTouch config.makerBufferBps config.side touch) := by
  unfold getOrderPrice
  rw [hprice]
  congr 1
  funext touch
  cases hside : config.side <;> simp [mostPassive, bufferedTouch]

theorem getOrderPrice_eq_none {config : BufferedMakerExecutorConfig} {touch : Option ℚ}
    (hinvalid : ∀ t ∈ touch, t ≤ 0) : getOrderPrice config touch = none := by
  cases touch with
  | none => rfl
  | some t =>
      have hle : t ≤ 0 := hinvalid t rfl
      simp [getOrderPrice, Option.filter, not_lt.mpr hle]

/-! ## Quotes as created -/

/-- What the quote of a leg keeps of the leg and of the venue's rules. -/
structure WithinIntent (cfg : PerpMMControllerConfig) (cycle : Cycle) (spec : OrderSpec)
    (config : BufferedMakerExecutorConfig) (intended touch price : ℚ) : Prop where
  side_eq : spec.side = some config.side
  intended_eq : spec.price = some intended
  touch_eq : cycle.touch config.side = some touch
  touch_pos : 0 < touch
  price_eq : config.price = some price
  buffer_eq : config.makerBufferBps = cfg.quotePostOnlyBufferBps
  amount_le : config.amount ≤ spec.amount
  step : ∃ k : ℤ, config.amount = k * cycle.rules.minBaseAmountIncrement
  size : cycle.rules.minOrderSize ≤ config.amount
  notional : cycle.rules.minNotionalSize ≤ config.amount * price
  passive_intended : Passive config.side price intended
  passive_touch : Passive config.side price
    (bufferedTouch cfg.quotePostOnlyBufferBps config.side touch)

/-- Rounding down to a step gives a multiple of it, and no more than before. -/
theorem quantized_step (hstep : 0 < cycle.rules.minBaseAmountIncrement) (amount : ℚ) :
    quantized cycle amount ≤ amount ∧
      ∃ k : ℤ, quantized cycle amount = k * cycle.rules.minBaseAmountIncrement := by
  rw [quantized, if_pos hstep]
  exact ⟨(le_div_iff₀ hstep).mp (Int.floor_le _), _, rfl⟩

theorem quoteConfig_withinIntent (hstep : 0 < cycle.rules.minBaseAmountIncrement)
    {config : BufferedMakerExecutorConfig} (hconfig : quoteConfig cfg cycle spec = some config) :
    ∃ intended touch price, WithinIntent cfg cycle spec config intended touch price := by
  unfold quoteConfig at hconfig
  obtain ⟨side, hside, hconfig⟩ := Option.bind_eq_some_iff.mp hconfig
  split at hconfig
  next => cases hconfig
  next =>
    obtain ⟨price, hprice, hconfig⟩ := Option.bind_eq_some_iff.mp hconfig
    dsimp only at hconfig
    split at hconfig
    next => cases hconfig
    next hminimums =>
      rw [not_or, not_lt, not_lt] at hminimums
      obtain rfl := Option.some.inj hconfig
      rw [bufferedMakerPrice_eq hside] at hprice
      obtain ⟨touch, htouch, hprice⟩ := Option.bind_eq_some_iff.mp hprice
      obtain ⟨htouch, hpos⟩ := Option.filter_eq_some_iff.mp htouch
      obtain ⟨intended, hintended, rfl⟩ := Option.map_eq_some_iff.mp hprice
      have hamount := quantized_step hstep spec.amount
      exact ⟨intended, touch, _, {
        side_eq := hside
        intended_eq := hintended
        touch_eq := htouch
        touch_pos := by simpa using hpos
        price_eq := rfl
        buffer_eq := rfl
        amount_le := hamount.1
        step := hamount.2
        size := hminimums.1
        notional := hminimums.2
        passive_intended := mostPassive_left
        passive_touch := mostPassive_right }⟩

/-! ## Quotes as retried -/

/-- A price asked for later is again passive to the intended price, and to the
buffered touch of its own moment. -/
theorem WithinIntent.retry {config : BufferedMakerExecutorConfig} {intended touch : ℚ}
    (h : WithinIntent cfg cycle spec config intended touch price) {later : Option ℚ} {retried : ℚ}
    (hretried : getOrderPrice config later = some retried) :
    ∃ moved, later = some moved ∧ 0 < moved ∧ Passive config.side retried intended ∧
      Passive config.side retried
        (bufferedTouch cfg.quotePostOnlyBufferBps config.side moved) := by
  rw [getOrderPrice_eq h.price_eq, h.buffer_eq] at hretried
  obtain ⟨moved, hmoved, rfl⟩ := Option.map_eq_some_iff.mp hretried
  obtain ⟨hmoved, hpos⟩ := Option.filter_eq_some_iff.mp hmoved
  exact ⟨moved, hmoved, by simpa using hpos, mostPassive_left.trans h.passive_intended,
    mostPassive_right⟩

/-- On an unmoved touch the executor asks for the price it was created with. -/
theorem WithinIntent.retry_unmoved {config : BufferedMakerExecutorConfig} {intended touch : ℚ}
    (h : WithinIntent cfg cycle spec config intended touch price) :
    getOrderPrice config (some touch) = some price := by
  rw [getOrderPrice_eq h.price_eq, h.buffer_eq, Option.filter_some,
    if_pos (by simpa using h.touch_pos)]
  exact congrArg some (mostPassive_of_passive h.passive_touch)

/-- Every quote a leg turns into is no larger and no more aggressive than the
leg, clears the venue's rules, and stays so whenever its executor prices it
again; without a valid touch the executor prices nothing. -/
theorem quoteCreateActions_withinIntent (cfg : PerpMMControllerConfig) (cycle : Cycle)
    (specs : List OrderSpec) (hstep : 0 < cycle.rules.minBaseAmountIncrement)
    (action : ExecutorAction) (haction : action ∈ quoteCreateActions cfg cycle specs) :
    ∃ spec ∈ specs, ∃ config intended touch price,
      action = .create cfg.id (.bufferedMaker config) ∧
      WithinIntent cfg cycle spec config intended touch price ∧
      getOrderPrice config (some touch) = some price ∧
      (∀ later retried, getOrderPrice config later = some retried →
        ∃ moved, later = some moved ∧ 0 < moved ∧ Passive config.side retried intended ∧
          Passive config.side retried
            (bufferedTouch cfg.quotePostOnlyBufferBps config.side moved)) ∧
      ∀ later : Option ℚ, (∀ moved ∈ later, moved ≤ 0) → getOrderPrice config later = none := by
  obtain ⟨config, hconfig, rfl⟩ := List.mem_map.mp haction
  obtain ⟨spec, hspec, hconfig⟩ := List.mem_filterMap.mp hconfig
  obtain ⟨intended, touch, price, hwithin⟩ := quoteConfig_withinIntent hstep hconfig
  exact ⟨spec, hspec, config, intended, touch, price, rfl, hwithin, hwithin.retry_unmoved,
    fun _ _ => hwithin.retry, fun _ => getOrderPrice_eq_none⟩

/-- The bid of the sample quote, priced eight basis points under the best bid. -/
theorem quoteCreateActions_withinIntent_of_bid :
    let config : BufferedMakerExecutorConfig :=
      { timestamp := 0, tradingPair := "ETH-USD", connectorName := "hyperliquid_perpetual"
        side := .buy, amount := 1, price := some (99 * (1 - 8 / 10000))
        executionStrategy := .limitMaker, positionAction := .open, leverage := 1 }
    ∃ spec ∈ specs notionalCycle, ∃ intended touch price,
      WithinIntent sampleConfig notionalCycle spec config intended touch price ∧
      getOrderPrice config (some touch) = some price := by
  intro config
  obtain ⟨spec, hspec, made, intended, touch, price, heq, hwithin, hunmoved, _⟩ :=
    quoteCreateActions_withinIntent sampleConfig notionalCycle (specs notionalCycle)
      (by decide +kernel) (.create "mm" (.bufferedMaker config)) (by decide +kernel)
  obtain rfl := ExecutorConfig.bufferedMaker.inj (ExecutorAction.create.inj heq).2
  exact ⟨spec, hspec, intended, touch, price, hwithin, hunmoved⟩

end Opms.PerpMM

import Opms.PerpMM.Bridge

/-! # The stop latch

A non-quoting intent stays latched until the fed position reaches its target.
Until then only a stop of at least the same rank replaces it.
-/

namespace Opms.PerpMM

open Foundation InProcessClient

/-- A call on `coin` while the position last fed is away from the latched target. -/
def Apart (coin : String) (client : InProcessClient) : ClientCall → Prop
  | .setPositions positions => ∃ position ∈ positions.lookup coin,
      ∀ latched ∈ client.lastIntent, reached latched position = false
  | .sendIntent intent => intent.coin = coin ∧ ∃ position ∈ client.positions.lookup coin,
      ∀ latched ∈ client.lastIntent, reached latched position = false

instance (coin : String) (client : InProcessClient) :
    DecidablePred (Apart coin client)
  | .setPositions positions =>
      inferInstanceAs (Decidable (∃ position ∈ positions.lookup coin,
        ∀ latched ∈ client.lastIntent, reached latched position = false))
  | .sendIntent intent =>
      inferInstanceAs (Decidable (intent.coin = coin ∧
        ∃ position ∈ client.positions.lookup coin,
          ∀ latched ∈ client.lastIntent, reached latched position = false))

/-- A stop of the coin is latched, of at least the given rank. -/
def Stopped (coin : String) (rank : ℕ) (client : InProcessClient) : Prop :=
  ∃ intent, client.lastIntent = some intent ∧ intent.coin = coin ∧ intent.quote = none ∧
    rank ≤ priority intent.urgency

section Latch

variable {coin : String} {rank : ℕ} {client : InProcessClient}

theorem setPositions_of_apart {positions : Registry String Position} {position : Position}
    {intent : ExecIntent} (hintent : client.lastIntent = some intent)
    (hposition : positions.lookup intent.coin = some position)
    (hapart : reached intent position = false) :
    (client.setPositions positions).lastIntent = some intent := by
  simp [setPositions, hintent, hposition, hapart, Option.filter]

theorem setPositions_of_reached {positions : Registry String Position} {position : Position}
    {intent : ExecIntent} (hintent : client.lastIntent = some intent)
    (hstop : intent.quote = none) (hposition : positions.lookup intent.coin = some position)
    (hreached : reached intent position = true) :
    (client.setPositions positions).lastIntent = none := by
  simp [setPositions, hintent, hposition, hreached, hstop, Option.filter]

/-- What a sent intent can do: nothing, or replace the last intent unrefused. -/
theorem handle_sendIntent_cases (validationErrors : ExecIntent → List String)
    (client : InProcessClient) (intent : ExecIntent) :
    client.handle validationErrors (.sendIntent intent) = client ∨
      client.refuses intent = false ∧
        client.handle validationErrors (.sendIntent intent) =
          { client with lastIntent := some intent } := by
  simp only [handle, sendIntent]
  by_cases hvalid : validationErrors intent = []
  · cases hrefuses : client.refuses intent with
    | true => simp [hvalid]
    | false => simp [hvalid]
  · simp [hvalid]

/-- An intent that an unreached stop does not refuse is a stop of its rank. -/
theorem not_refuses {intent latched : ExecIntent} {position : Position}
    (hlatched : client.lastIntent = some latched) (hstop : latched.quote = none)
    (hposition : client.positions.lookup latched.coin = some position)
    (hapart : reached latched position = false) (hrefuses : client.refuses intent = false) :
    intent.quote = none ∧ priority latched.urgency ≤ priority intent.urgency := by
  simpa [refuses, hlatched, hstop, positionOf, hposition, hapart] using hrefuses

theorem Stopped.handle {validationErrors : ExecIntent → List String}
    (h : Stopped coin rank client) {call : ClientCall} (hcall : Apart coin client call) :
    Stopped coin rank (client.handle validationErrors call) := by
  obtain ⟨latched, hlatched, hcoin, hstop, hrank⟩ := h
  cases call with
  | setPositions positions =>
      obtain ⟨position, hposition, hapart⟩ := hcall
      have hlookup : positions.lookup latched.coin = some position := by
        rw [hcoin]
        exact hposition
      exact ⟨latched, setPositions_of_apart hlatched hlookup (hapart latched hlatched),
        hcoin, hstop, hrank⟩
  | sendIntent intent =>
      obtain ⟨hintent, position, hposition, hapart⟩ := hcall
      have hlookup : client.positions.lookup latched.coin = some position := by
        rw [hcoin]
        exact hposition
      rcases handle_sendIntent_cases validationErrors client intent with heq | ⟨hrefuses, heq⟩
      · rw [heq]
        exact ⟨latched, hlatched, hcoin, hstop, hrank⟩
      · obtain ⟨hquote, hle⟩ :=
          not_refuses hlatched hstop hlookup (hapart latched hlatched) hrefuses
        rw [heq]
        exact ⟨intent, rfl, hintent, hquote, hrank.trans hle⟩

end Latch

/-- From any state with a latched stop, and as long as the position last fed is
away from the latched target, the last intent is a stop whose rank has not
decreased; the first position fed at that target retires it. -/
theorem stop_latch_never_weakens (validationErrors : ExecIntent → List String) (coin : String)
    (client : InProcessClient) (latched : ExecIntent)
    (hlatched : client.lastIntent = some latched) (hcoin : latched.coin = coin)
    (hstop : latched.quote = none) (calls : List ClientCall)
    (hcalls : Along (handle validationErrors) (Apart coin) client calls) :
    let final := run (handle validationErrors) client calls
    ∃ intent, final.lastIntent = some intent ∧ intent.quote = none ∧
      priority latched.urgency ≤ priority intent.urgency ∧
      ∀ positions position, positions.lookup coin = some position →
        |position.position - intent.targetInventory| < flatTolerance →
          (final.handle validationErrors (.setPositions positions)).lastIntent = none := by
  intro final
  have hfinal : Stopped coin (priority latched.urgency) final :=
    run_invariant (Stopped coin (priority latched.urgency)) (fun _ _ h hcall => h.handle hcall)
      ⟨latched, hlatched, hcoin, hstop, le_refl _⟩ hcalls
  obtain ⟨intent, hintent, hsame, hquote, hrank⟩ := hfinal
  refine ⟨intent, hintent, hquote, hrank, fun positions position hposition hreached => ?_⟩
  have hlookup : positions.lookup intent.coin = some position := by
    rw [hsame]
    exact hposition
  exact setPositions_of_reached hintent hquote hlookup (by simpa [reached] using hreached)

/-- A flatten outlives a quoting intent and a partial fill, then retires at flat. -/
theorem stop_latch_never_weakens_partialFill :
    let flatten : ExecIntent :=
      { coin := "ETH", targetInventory := 0, currentInventory := some (1 / 10),
        urgency := .emergency }
    let quote : ExecIntent :=
      { coin := "ETH", targetInventory := 2 / 5, quote := some {}, urgency := .passive }
    let final := run (handle fun _ => [])
      { positions := fed "ETH" (1 / 10), lastIntent := some flatten }
      [.sendIntent quote, .setPositions (fed "ETH" (1 / 20))]
    ∃ intent, final.lastIntent = some intent ∧ intent.quote = none ∧
      priority .emergency ≤ priority intent.urgency ∧
      ∀ positions position, positions.lookup "ETH" = some position →
        |position.position - intent.targetInventory| < flatTolerance →
          (final.handle (fun _ => []) (.setPositions positions)).lastIntent = none := by
  intro flatten quote final
  exact stop_latch_never_weakens (fun _ => []) "ETH"
    { positions := fed "ETH" (1 / 10), lastIntent := some flatten } flatten rfl rfl rfl
    [.sendIntent quote, .setPositions (fed "ETH" (1 / 20))] (by decide +kernel)

end Opms.PerpMM

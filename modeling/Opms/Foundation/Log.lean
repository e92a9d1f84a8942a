import Mathlib.Data.List.Chain

/-! # What a log supports

Something made at a position of a log is still in force later on if nothing
between the two positions has broken it. Whether it was made or broken depends
on the event and on its position, since answers to events are read by position.
-/

namespace Foundation

universe u

variable {Event : Type u}

/-- Something was made before position `i` of the log, and not broken since. -/
def InForce (made broken : ℕ → Event → Prop) (log : List Event) (i : ℕ) : Prop :=
  ∃ j event, j < i ∧ log[j]? = some event ∧ made j event ∧
    ∀ k later, j < k → k < i → log[k]? = some later → ¬ broken k later

namespace InForce

variable {made broken : ℕ → Event → Prop} {log : List Event} {event : Event} {i : ℕ}

/-- What the log says of a position is not changed by what comes after it. -/
theorem append (h : InForce made broken log i) (hi : i ≤ log.length) (rest : List Event) :
    InForce made broken (log ++ rest) i := by
  obtain ⟨j, event, hj, hevent, hmade, hsince⟩ := h
  refine ⟨j, event, hj, ?_, hmade, fun k later hjk hki hlater => ?_⟩
  · rw [List.getElem?_append_left (Nat.lt_of_lt_of_le hj hi), hevent]
  · rw [List.getElem?_append_left (Nat.lt_of_lt_of_le hki hi)] at hlater
    exact hsince k later hjk hki hlater

/-- An event that does not break it keeps it in force. -/
theorem keep (h : InForce made broken log log.length) (hkeep : ¬ broken log.length event) :
    InForce made broken (log ++ [event]) (log ++ [event]).length := by
  obtain ⟨j, earlier, hj, hearlier, hmade, hsince⟩ := h
  rw [List.length_append, List.length_singleton]
  refine ⟨j, earlier, Nat.lt_succ_of_lt hj, ?_, hmade, fun k later hjk hk hlater => ?_⟩
  · rw [List.getElem?_append_left hj, hearlier]
  · rcases Nat.lt_succ_iff_lt_or_eq.mp hk with hbefore | rfl
    · rw [List.getElem?_append_left hbefore] at hlater
      exact hsince k later hjk hbefore hlater
    · rw [List.getElem?_concat_length] at hlater
      obtain rfl := Option.some.inj hlater
      exact hkeep

/-- Events that do not break it keep it in force at every position up to the end. -/
theorem keep_all (h : InForce made broken log log.length) {rest : List Event}
    (hkeep : ∀ k, ∀ event ∈ rest, ¬ broken k event) (hfrom : log.length ≤ i) :
    InForce made broken (log ++ rest) i := by
  obtain ⟨j, earlier, hj, hearlier, hmade, hsince⟩ := h
  refine ⟨j, earlier, hj.trans_le hfrom, ?_, hmade, fun k later hjk hk hlater => ?_⟩
  · rw [List.getElem?_append_left hj, hearlier]
  · by_cases hbefore : k < log.length
    · rw [List.getElem?_append_left hbefore] at hlater
      exact hsince k later hjk hbefore hlater
    · rw [List.getElem?_append_right (not_lt.mp hbefore)] at hlater
      exact hkeep k later (List.mem_of_getElem? hlater)

theorem of_made (hmade : made log.length event) :
    InForce made broken (log ++ [event]) (log ++ [event]).length := by
  rw [List.length_append, List.length_singleton]
  refine ⟨log.length, event, Nat.lt_succ_self _, List.getElem?_concat_length, hmade,
    fun k _ hafter hbefore _ => ?_⟩
  omega

end InForce

/-- What an event brings about and every step of the log keeps holds of all
later events. -/
theorem holds_after {R : Event → Event → Prop} {holds : Event → Prop} {before after : List Event}
    {event : Event} (hchain : (before ++ event :: after).IsChain R)
    (hmakes : ∀ next, R event next → holds next)
    (hkeeps : ∀ ⦃x y⦄, R x y → holds x → holds y) : ∀ later ∈ after, holds later := by
  have hafter := hchain.right_of_append
  cases after with
  | nil => simp
  | cons next rest =>
      rw [List.isChain_cons_cons] at hafter
      exact hafter.2.induction holds _ hkeeps fun _ => hmakes next hafter.1

end Foundation

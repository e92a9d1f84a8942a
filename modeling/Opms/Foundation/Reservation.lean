import Opms.Foundation.Registry
import Opms.Foundation.Run
import Mathlib.Algebra.Order.Group.Defs
import Mathlib.Tactic.Linarith

/-! # Budgets under reservations

A reservation claims part of a budget. While it is live its whole amount counts
against the budget; once settled only what it spent counts, and spending that
arrives after settlement is late: no discipline on reserving can absorb it.
A book of reservations stays within a limit plus the late spending as long as
each new reservation fits when it is made, in whatever order moves arrive.
-/

namespace Foundation

universe u v w

/-- A claim of `owner` on `amount`, with the part already `spent`. -/
structure Reservation (Owner : Type u) (Amount : Type v) where
  owner : Owner
  amount : Amount
  spent : Amount
  live : Bool

/-- What can happen to a book of reservations. -/
inductive Move (Key : Type w) (Owner : Type u) (Amount : Type v)
  | reserve (key : Key) (owner : Owner) (amount : Amount)
  | spend (key : Key) (amount : Amount)
  | settle (key : Key)

namespace Reservation

variable {Owner : Type u} {Amount : Type v} [AddCommGroup Amount] [LinearOrder Amount]

/-- What a live reservation may still spend. -/
def unspent (r : Reservation Owner Amount) : Amount :=
  if r.live then max (r.amount - r.spent) 0 else 0

/-- What the reservation counts against the budget. -/
def exposure (r : Reservation Owner Amount) : Amount := r.spent + r.unspent

theorem unspent_nonneg (r : Reservation Owner Amount) : 0 ≤ r.unspent := by
  unfold unspent
  split
  · exact le_max_right _ _
  · exact le_refl 0

theorem exposure_new (owner : Owner) (amount : Amount) :
    (Reservation.mk owner amount 0 true).exposure = max amount 0 := by
  simp [exposure, unspent]

theorem exposure_spend_settled {r : Reservation Owner Amount} (hlive : r.live = false)
    (amount : Amount) :
    ({ r with spent := r.spent + amount } : Reservation Owner Amount).exposure =
      r.exposure + amount := by
  simp [exposure, unspent, hlive]

variable [IsOrderedAddMonoid Amount]

/-- Spending within a live reservation does not change its exposure. -/
theorem exposure_spend_live {r : Reservation Owner Amount} (hlive : r.live = true)
    {amount : Amount} (hpos : 0 ≤ amount) (hfits : r.spent + amount ≤ r.amount) :
    ({ r with spent := r.spent + amount } : Reservation Owner Amount).exposure = r.exposure := by
  have hbefore : 0 ≤ r.amount - r.spent :=
    sub_nonneg.mpr ((le_add_of_nonneg_right hpos).trans hfits)
  have hafter : 0 ≤ r.amount - (r.spent + amount) := sub_nonneg.mpr hfits
  simp only [exposure, unspent, hlive, ↓reduceIte, max_eq_left hbefore, max_eq_left hafter]
  abel

theorem exposure_settle_le (r : Reservation Owner Amount) :
    ({ r with live := false } : Reservation Owner Amount).exposure ≤ r.exposure := by
  simpa [exposure, unspent] using r.unspent_nonneg

end Reservation

/-- Reservations by key. -/
abbrev Book (Key : Type w) (Owner : Type u) (Amount : Type v) :=
  Registry Key (Reservation Owner Amount)

namespace Book

variable {Key : Type w} {Owner : Type u} {Amount : Type v} [DecidableEq Key]
variable [AddCommGroup Amount] [LinearOrder Amount]

/-- The effect of one move; moves on unknown keys do nothing. -/
def apply (book : Book Key Owner Amount) : Move Key Owner Amount → Book Key Owner Amount
  | .reserve key owner amount => book.set key ⟨owner, amount, 0, true⟩
  | .spend key amount => book.modify key fun r => { r with spent := r.spent + amount }
  | .settle key => book.modify key fun r => { r with live := false }

/-- A new key is reserved, and no live reservation spends beyond its amount. -/
def Proper (book : Book Key Owner Amount) : Move Key Owner Amount → Prop
  | .reserve key _ amount => book.lookup key = none ∧ 0 ≤ amount
  | .spend key amount => 0 ≤ amount ∧
      ∀ r, book.lookup key = some r → r.live = true → r.spent + amount ≤ r.amount
  | .settle _ => True

section Selected

variable (selected : Owner → Bool)

/-- The exposure of the selected owners' reservations. -/
def exposureIn (book : Book Key Owner Amount) : Amount :=
  book.total fun _ r => if selected r.owner then r.exposure else 0

/-- What the selected owners' reservations spent. -/
def spentIn (book : Book Key Owner Amount) : Amount :=
  book.total fun _ r => if selected r.owner then r.spent else 0

/-- What the selected owners' live reservations may still spend. -/
def unspentIn (book : Book Key Owner Amount) : Amount :=
  book.total fun _ r => if selected r.owner then r.unspent else 0

/-- A reservation of a selected owner fits under the limit when it is made. -/
def Within (limit : Amount) (book : Book Key Owner Amount) : Move Key Owner Amount → Prop
  | .reserve _ owner amount => selected owner = true → book.exposureIn selected + amount ≤ limit
  | _ => True

/-- Spending on a settled reservation of a selected owner. -/
def late (book : Book Key Owner Amount) : Move Key Owner Amount → Amount
  | .spend key amount => match book.lookup key with
      | some r => if r.live = false ∧ selected r.owner = true then amount else 0
      | none => 0
  | .reserve _ _ _ => 0
  | .settle _ => 0

variable {selected}

omit [DecidableEq Key] in
theorem exposureIn_eq (book : Book Key Owner Amount) :
    book.exposureIn selected = book.spentIn selected + book.unspentIn selected := by
  rw [exposureIn, spentIn, unspentIn, ← Registry.total_add]
  congr 1
  funext _ r
  split <;> simp [Reservation.exposure]

theorem late_nonneg {book : Book Key Owner Amount} {move : Move Key Owner Amount}
    (hproper : book.Proper move) : 0 ≤ book.late selected move := by
  cases move with
  | reserve | settle => exact le_refl 0
  | spend key amount =>
      simp only [late]
      split
      · split
        · exact hproper.1
        · exact le_refl 0
      · exact le_refl 0

variable [IsOrderedAddMonoid Amount]

theorem unspentIn_nonneg (book : Book Key Owner Amount) : 0 ≤ book.unspentIn selected := by
  apply Registry.total_nonneg
  intro _ r _
  split
  · exact r.unspent_nonneg
  · exact le_refl 0

theorem spentIn_le_exposureIn (book : Book Key Owner Amount) :
    book.spentIn selected ≤ book.exposureIn selected := by
  rw [exposureIn_eq]
  exact le_add_of_nonneg_right book.unspentIn_nonneg

/-- A selection's unspent part is at most everybody's. -/
theorem unspentIn_le_all (book : Book Key Owner Amount) :
    book.unspentIn selected ≤ book.unspentIn fun _ => true := by
  apply Registry.total_le_total
  intro _ r _
  by_cases hselected : selected r.owner = true
  · simp [hselected]
  · simpa [hselected] using r.unspent_nonneg

omit [LinearOrder Amount] [IsOrderedAddMonoid Amount] in
theorem spentIn_settle (book : Book Key Owner Amount) (key : Key) :
    (book.apply (.settle key)).spentIn selected = book.spentIn selected := by
  apply Registry.total_modify_of_keep
  intro r _
  rfl

theorem spentIn_le_spend (book : Book Key Owner Amount) (key : Key) {amount : Amount}
    (hpos : 0 ≤ amount) :
    book.spentIn selected ≤ (book.apply (.spend key amount)).spentIn selected := by
  rw [apply, spentIn, spentIn, Registry.modify, Registry.total_mapEntries]
  apply Registry.total_le_total
  intro k r _
  by_cases hselected : selected r.owner = true
  · by_cases hkey : k = key
    · simpa [hselected, hkey] using hpos
    · simp [hkey]
  · by_cases hkey : k = key
    · simp [hselected, hkey]
    · simp [hkey]

omit [IsOrderedAddMonoid Amount] in
/-- A new reservation adds its amount, or nothing when that is negative. -/
theorem exposureIn_reserve {book : Book Key Owner Amount} {key : Key}
    (habsent : book.lookup key = none) (owner : Owner) (amount : Amount) :
    (book.apply (.reserve key owner amount)).exposureIn selected =
      book.exposureIn selected + if selected owner then max amount 0 else 0 := by
  rw [apply, exposureIn, Registry.total_set_of_absent _ habsent, Reservation.exposure_new]
  rfl

/-- Spending within live reservations moves no exposure. -/
theorem exposureIn_spend_live {book : Book Key Owner Amount} {key : Key} {amount : Amount}
    (hpos : 0 ≤ amount) {r : Reservation Owner Amount} (hlook : book.lookup key = some r)
    (hlive : r.live = true) (hfits : r.spent + amount ≤ r.amount) :
    (book.apply (.spend key amount)).exposureIn selected = book.exposureIn selected := by
  have hmove := book.total_modify hlook (fun r => { r with spent := r.spent + amount })
    (fun _ r => if selected r.owner then r.exposure else 0)
  rw [Reservation.exposure_spend_live hlive hpos hfits] at hmove
  exact add_right_cancel hmove

theorem exposureIn_spend_settled {book : Book Key Owner Amount} {key : Key} (amount : Amount)
    {r : Reservation Owner Amount} (hlook : book.lookup key = some r) (hlive : r.live = false) :
    (book.apply (.spend key amount)).exposureIn selected =
      book.exposureIn selected + if selected r.owner then amount else 0 := by
  have hmove := book.total_modify hlook (fun r => { r with spent := r.spent + amount })
    (fun _ r => if selected r.owner then r.exposure else 0)
  change (book.apply (.spend key amount)).exposureIn selected + _ =
    book.exposureIn selected + _ at hmove
  by_cases howner : selected r.owner = true
  · simp only [howner, ↓reduceIte, Reservation.exposure_spend_settled hlive] at hmove ⊢
    apply add_right_cancel (b := r.exposure)
    rw [hmove]
    abel
  · simp only [howner, Bool.false_eq_true, ↓reduceIte, add_zero] at hmove ⊢
    exact hmove

theorem exposureIn_settle_le (book : Book Key Owner Amount) (key : Key) :
    (book.apply (.settle key)).exposureIn selected ≤ book.exposureIn selected := by
  cases hlook : book.lookup key with
  | none => simp [apply, book.modify_of_absent hlook]
  | some r =>
      have hmove := book.total_modify hlook (fun r => { r with live := false })
        (fun _ r => if selected r.owner then r.exposure else 0)
      change (book.apply (.settle key)).exposureIn selected + _ =
        book.exposureIn selected + _ at hmove
      by_cases howner : selected r.owner = true
      · simp only [howner, ↓reduceIte] at hmove
        by_contra hnot
        have hlt := add_lt_add_of_lt_of_le (not_le.mp hnot) r.exposure_settle_le
        exact absurd hmove.symm (ne_of_lt hlt)
      · simp only [howner, Bool.false_eq_true, ↓reduceIte, add_zero] at hmove
        exact hmove.le

/-- One move raises the exposure only by a fitting reservation or late spending. -/
theorem exposureIn_apply_le {limit extra : Amount} {book : Book Key Owner Amount}
    {move : Move Key Owner Amount} (hproper : book.Proper move)
    (hwithin : book.Within selected limit move) (hextra : 0 ≤ extra)
    (hbook : book.exposureIn selected ≤ limit + extra) :
    (book.apply move).exposureIn selected ≤ limit + (extra + book.late selected move) := by
  cases move with
  | reserve key owner amount =>
      rw [exposureIn_reserve hproper.1, late, add_zero]
      split
      next howner =>
        rw [max_eq_left hproper.2]
        exact (hwithin howner).trans (le_add_of_nonneg_right hextra)
      next =>
        rw [add_zero]
        exact hbook
  | spend key amount =>
      cases hlook : book.lookup key with
      | none => simpa [apply, late, hlook, book.modify_of_absent hlook] using hbook
      | some r =>
          simp only [late, hlook]
          cases hlive : r.live with
          | true =>
              rw [exposureIn_spend_live hproper.1 hlook hlive (hproper.2 r hlook hlive)]
              simpa using hbook
          | false =>
              rw [exposureIn_spend_settled amount hlook hlive]
              by_cases howner : selected r.owner = true
              · simp only [howner, and_self, ↓reduceIte]
                rw [← add_assoc]
                exact add_le_add_left hbook amount
              · simpa [howner] using hbook
  | settle key =>
      rw [late, add_zero]
      exact (exposureIn_settle_le book key).trans hbook

/-- The limit holds up to late spending over any run of proper, fitting moves. -/
theorem exposureIn_run_le {limit extra : Amount} {book : Book Key Owner Amount}
    {moves : List (Move Key Owner Amount)} (hproper : Along apply Proper book moves)
    (hwithin : Along apply (Within selected limit) book moves) (hextra : 0 ≤ extra)
    (hbook : book.exposureIn selected ≤ limit + extra) :
    (run apply book moves).exposureIn selected ≤
      limit + (extra + total apply (late selected) book moves) := by
  induction moves generalizing book extra with
  | nil => simpa using hbook
  | cons move rest ih =>
      have hstep := exposureIn_apply_le hproper.1 hwithin.1 hextra hbook
      have hextra' : 0 ≤ extra + book.late selected move :=
        add_nonneg hextra (late_nonneg hproper.1)
      simpa [add_assoc] using ih hproper.2 hwithin.2 hextra' hstep

theorem total_late_nonneg {book : Book Key Owner Amount} {moves : List (Move Key Owner Amount)}
    (hproper : Along apply Proper book moves) :
    0 ≤ total apply (late selected) book moves := by
  induction moves generalizing book with
  | nil => exact le_refl 0
  | cons move rest ih => exact add_nonneg (late_nonneg hproper.1) (ih hproper.2)

/-! ## Drawing a book down

The exposure is exactly the spending the live reservations can still lead to.
-/

/-- Spend an amount under a key. -/
def draw (book : Book Key Owner Amount) (d : Key × Amount) : Book Key Owner Amount :=
  book.apply (.spend d.1 d.2)

/-- A live reservation has room for the draw. -/
def Draws (book : Book Key Owner Amount) (d : Key × Amount) : Prop :=
  0 ≤ d.2 ∧ ∃ r ∈ book.lookup d.1, r.live = true ∧ r.spent + d.2 ≤ r.amount

instance (book : Book Key Owner Amount) (d : Key × Amount) : Decidable (book.Draws d) :=
  inferInstanceAs (Decidable (_ ∧ ∃ r ∈ book.lookup d.1, _))

theorem exposureIn_draw {book : Book Key Owner Amount} {d : Key × Amount}
    (hdraws : book.Draws d) :
    (book.draw d).exposureIn selected = book.exposureIn selected := by
  obtain ⟨hpos, r, hlook, hlive, hfits⟩ := hdraws
  exact exposureIn_spend_live hpos hlook hlive hfits

theorem exposureIn_run_draw {book : Book Key Owner Amount} {draws : List (Key × Amount)}
    (hdraws : Along draw Draws book draws) :
    (run draw book draws).exposureIn selected = book.exposureIn selected := by
  induction draws generalizing book with
  | nil => rfl
  | cons d rest ih => rw [run_cons, ih hdraws.2, exposureIn_draw hdraws.1]

/-- Nothing is left to draw under the key. -/
def Exhausted (book : Book Key Owner Amount) (key : Key) : Prop :=
  ∀ r ∈ book.lookup key, r.unspent = 0

omit [IsOrderedAddMonoid Amount] in
/-- Some draw, or none, exhausts a key and revives no other. -/
theorem exists_draws_exhausted (book : Book Key Owner Amount) (key : Key) :
    ∃ draws, Along draw Draws book draws ∧ (run draw book draws).Exhausted key ∧
      (∀ other, book.Exhausted other → (run draw book draws).Exhausted other) ∧
        (run draw book draws).keys = book.keys := by
  by_cases hdone : book.Exhausted key
  · exact ⟨[], trivial, hdone, fun _ h => h, rfl⟩
  · simp only [Exhausted, not_forall] at hdone
    obtain ⟨r, hlook, hunspent⟩ := hdone
    have hpos : 0 < r.unspent := lt_of_le_of_ne r.unspent_nonneg (Ne.symm hunspent)
    have hlive : r.live = true := by
      by_contra hnot
      simp [Reservation.unspent, hnot] at hpos
    have hroom : r.unspent = r.amount - r.spent := by
      simp only [Reservation.unspent, hlive, ↓reduceIte, lt_max_iff, lt_irrefl, or_false] at hpos ⊢
      exact max_eq_left hpos.le
    have hfits : r.spent + r.unspent ≤ r.amount := by
      rw [hroom]
      simp
    have hkey : (book.draw (key, r.unspent)).Exhausted key := by
      rintro r' hr'
      rw [Option.mem_def, draw, apply, Registry.lookup_modify_self, Option.mem_def.mp hlook,
        Option.map_some, Option.some.injEq] at hr'
      subst hr'
      have hzero : r.amount - (r.spent + r.unspent) = 0 := by
        rw [hroom]
        abel
      simp only [Reservation.unspent] at hzero ⊢
      rw [hzero, max_self, ite_self]
    -- one draw of all that is left; it touches no other key
    refine ⟨[(key, r.unspent)], ⟨⟨hpos.le, r, hlook, hlive, hfits⟩, trivial⟩, hkey, ?_, ?_⟩
    · intro other hother
      by_cases heq : other = key
      · exact heq ▸ hkey
      · intro r' hr'
        refine hother r' ?_
        rwa [Option.mem_def, run_cons, run_nil, draw, apply,
          Registry.lookup_modify_ne _ heq] at hr'
    · rw [run_cons, run_nil, draw, apply, Registry.keys_modify]

omit [IsOrderedAddMonoid Amount] in
theorem exists_draws_exhausting (book : Book Key Owner Amount) (keys : List Key) :
    ∃ draws, Along draw Draws book draws ∧
      (∀ key ∈ keys, (run draw book draws).Exhausted key) ∧
        (run draw book draws).keys = book.keys := by
  induction keys with
  | nil => exact ⟨[], trivial, by simp, rfl⟩
  | cons key rest ih =>
      obtain ⟨draws, hdraws, hrest, hkeys⟩ := ih
      obtain ⟨more, hmore, hkey, hkeep, hkeys'⟩ :=
        exists_draws_exhausted (run draw book draws) key
      refine ⟨draws ++ more, Along.append_iff.mpr ⟨hdraws, hmore⟩, ?_, ?_⟩
      · intro other hother
        rw [run_append]
        rcases List.mem_cons.mp hother with rfl | hmem
        · exact hkey
        · exact hkeep other (hrest other hmem)
      · rw [run_append, hkeys', hkeys]

/-- The exposure is within a limit iff no drawing exceeds it. -/
theorem exposureIn_le_iff_draws {limit : Amount} (book : Book Key Owner Amount) :
    book.exposureIn selected ≤ limit ↔
      ∀ draws, Along draw Draws book draws → (run draw book draws).spentIn selected ≤ limit := by
  constructor
  · intro hle draws hdraws
    refine (spentIn_le_exposureIn _).trans ?_
    rwa [exposureIn_run_draw hdraws]
  · intro hall
    obtain ⟨draws, hdraws, hexhausted, hkeys⟩ := exists_draws_exhausting book book.keys
    -- with every key exhausted, what is exposed has been spent
    have hunspent : (run draw book draws).unspentIn selected = 0 := by
      refine (Registry.total_congr _ fun key r hlook => ?_).trans (Registry.total_const_zero _)
      have hmem : key ∈ book.keys := by
        rw [← hkeys]
        exact Registry.mem_keys_of_lookup _ hlook
      rw [hexhausted key hmem r hlook, ite_self]
    have heq : (run draw book draws).exposureIn selected =
        (run draw book draws).spentIn selected + (run draw book draws).unspentIn selected :=
      exposureIn_eq _
    rw [exposureIn_run_draw hdraws, hunspent, add_zero] at heq
    exact heq ▸ hall draws hdraws

variable (selected) in
/-- `after` is reached from `before` by proper moves whose reservations fit
under the limit, spending `charge` late. -/
def Reaches (limit : Amount) (before : Book Key Owner Amount) (charge : Amount)
    (after : Book Key Owner Amount) : Prop :=
  ∃ moves, run apply before moves = after ∧ Along apply Proper before moves ∧
    Along apply (Within selected limit) before moves ∧
      total apply (late selected) before moves = charge

namespace Reaches

variable {limit : Amount} {first middle last : Book Key Owner Amount} {charge charge' : Amount}

omit [IsOrderedAddMonoid Amount] in
theorem refl (limit : Amount) (book : Book Key Owner Amount) :
    Reaches selected limit book 0 book := ⟨[], rfl, trivial, trivial, rfl⟩

omit [IsOrderedAddMonoid Amount] in
theorem move {book : Book Key Owner Amount} (move : Move Key Owner Amount)
    (hproper : book.Proper move) (hwithin : book.Within selected limit move) :
    Reaches selected limit book (book.late selected move) (book.apply move) :=
  ⟨[move], rfl, ⟨hproper, trivial⟩, ⟨hwithin, trivial⟩, add_zero _⟩

omit [IsOrderedAddMonoid Amount] in
theorem trans (h : Reaches selected limit first charge middle)
    (h' : Reaches selected limit middle charge' last) :
    Reaches selected limit first (charge + charge') last := by
  obtain ⟨moves, rfl, hproper, hwithin, rfl⟩ := h
  obtain ⟨moves', rfl, hproper', hwithin', rfl⟩ := h'
  exact ⟨moves ++ moves', run_append apply first moves moves',
    Along.append_iff.mpr ⟨hproper, hproper'⟩, Along.append_iff.mpr ⟨hwithin, hwithin'⟩,
    total_append apply _ first moves moves'⟩

theorem charge_nonneg (h : Reaches selected limit first charge last) : 0 ≤ charge := by
  obtain ⟨moves, _, hproper, _, rfl⟩ := h
  exact total_late_nonneg hproper

theorem exposureIn_le (h : Reaches selected limit first charge last) {extra : Amount}
    (hextra : 0 ≤ extra) (hfirst : first.exposureIn selected ≤ limit + extra) :
    last.exposureIn selected ≤ limit + (extra + charge) := by
  obtain ⟨moves, rfl, hproper, hwithin, rfl⟩ := h
  exact exposureIn_run_le hproper hwithin hextra hfirst

end Reaches

end Selected

end Book

end Foundation

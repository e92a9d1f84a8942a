import Mathlib.Algebra.BigOperators.Intervals
import Mathlib.Algebra.Ring.Periodic

/-! # Sums of periodic sequences

A periodic sequence has the same sum over every window of one period, wherever
the window starts. A sequence that is constant on blocks of one length sums up
each block's value that many times.
-/

namespace Foundation

universe u

/-- Moving the window by one drops a term and takes in an equal one. -/
theorem sum_window_succ {Sum : Type u} [AddCancelCommMonoid Sum] {f : ℤ → Sum} {period : ℕ}
    (hperiodic : Function.Periodic f period) (start : ℤ) :
    ∑ j ∈ Finset.range period, f (start + 1 + j) = ∑ j ∈ Finset.range period, f (start + j) := by
  have hboth : ∑ j ∈ Finset.range (period + 1), f (start + j) =
      ∑ j ∈ Finset.range (period + 1), f (start + j) := rfl
  conv_lhs at hboth => rw [Finset.sum_range_succ']
  rw [Finset.sum_range_succ, hperiodic start] at hboth
  simp only [Nat.cast_succ, Nat.cast_zero, add_zero, add_comm _ (1 : ℤ), ← add_assoc] at hboth
  simpa only [add_comm start 1] using add_right_cancel hboth

theorem sum_window {Sum : Type u} [AddCancelCommMonoid Sum] {f : ℤ → Sum} {period : ℕ}
    (hperiodic : Function.Periodic f period) (start : ℤ) :
    ∑ j ∈ Finset.range period, f (start + j) = ∑ j ∈ Finset.range period, f j := by
  induction start with
  | zero => simp only [zero_add]
  | succ start ih => rw [sum_window_succ hperiodic, ih]
  | pred start ih =>
      have hmove := sum_window_succ hperiodic (-(start : ℤ) - 1)
      rw [sub_add_cancel, ih] at hmove
      exact hmove.symm

theorem sum_blocks {Sum : Type u} [AddCommMonoid Sum] (f : ℕ → Sum) (blocks : ℕ) {size : ℕ}
    (hsize : 0 < size) :
    ∑ j ∈ Finset.range (blocks * size), f (j / size) = size • ∑ i ∈ Finset.range blocks, f i := by
  induction blocks with
  | zero => simp
  | succ blocks ih =>
      have hblock : ∀ j ∈ Finset.range size, f ((blocks * size + j) / size) = f blocks := by
        intro j hj
        have hlt := Finset.mem_range.mp hj
        congr 1
        rw [mul_comm, Nat.mul_add_div hsize, Nat.div_eq_of_lt hlt, add_zero]
      rw [Nat.succ_mul, Finset.sum_range_add, ih, Finset.sum_congr rfl hblock,
        Finset.sum_const, Finset.card_range, Finset.sum_range_succ, nsmul_add]

end Foundation

import GeoAssets.Compute.Backoff
import Mathlib.Algebra.Order.Floor.Div
import Mathlib.Algebra.Order.Ring.Nat
import Mathlib.GroupTheory.GroupAction.Ring
import Mathlib.Logic.Function.Iterate

/-!
# How far attempts reduce a number

Halving a number again and again, rounded up each time, is one division by a power of two that is
rounded up once (`Backoff.iterate_halveUp`). So only the number of attempts that ran out of memory
decides how far a number of cores or processes is reduced (`Backoff.ReducesByCount`).
-/

namespace GeoAssets

namespace Backoff

/-! ## Quotients that are rounded up -/

theorem halveUp_eq (n : Nat) : halveUp n = n ⌈/⌉ 2 :=
  rfl

/-- Rounding up in between makes no difference. -/
theorem ceilDiv_ceilDiv (n : Nat) {a b : Nat} (ha : 0 < a) (hb : 0 < b) :
    n ⌈/⌉ a ⌈/⌉ b = n ⌈/⌉ (a * b) := by
  refine eq_of_forall_ge_iff fun m => ?_
  rw [ceilDiv_le_iff_le_mul hb, ceilDiv_le_iff_le_mul ha, ceilDiv_le_iff_le_mul (Nat.mul_pos ha hb),
    Nat.mul_assoc]

theorem ceilDiv_mono {n m : Nat} (h : n ≤ m) {d : Nat} (hd : 0 < d) : n ⌈/⌉ d ≤ m ⌈/⌉ d :=
  (gc_mul_ceilDiv hd).monotone_l h

/-- A larger divisor gives a smaller quotient. -/
theorem ceilDiv_anti (n : Nat) {d e : Nat} (hd : 0 < d) (h : d ≤ e) : n ⌈/⌉ e ≤ n ⌈/⌉ d := by
  rw [ceilDiv_le_iff_le_mul (Nat.lt_of_lt_of_le hd h)]
  have hn : n ≤ d * (n ⌈/⌉ d) := le_smul_ceilDiv hd
  exact hn.trans (Nat.mul_le_mul_right _ h)

theorem ceilDiv_le_self (n : Nat) {d : Nat} (hd : 0 < d) : n ⌈/⌉ d ≤ n := by
  rw [ceilDiv_le_iff_le_mul hd]
  exact Nat.le_mul_of_pos_left n hd

/-- Keeping one before a division is keeping one after it. -/
theorem max_one_ceilDiv (n : Nat) {d : Nat} (hd : 0 < d) :
    max 1 (max 1 n ⌈/⌉ d) = max 1 (n ⌈/⌉ d) := by
  have hsplit : max 1 n ⌈/⌉ d = max (1 ⌈/⌉ d) (n ⌈/⌉ d) := (gc_mul_ceilDiv hd).l_sup
  rw [hsplit, ← max_assoc, max_eq_left (ceilDiv_le_self 1 hd)]

/-- Halving again and again is one division. -/
theorem iterate_halveUp (n k : Nat) : halveUp^[k] n = n ⌈/⌉ 2 ^ k := by
  induction k with
  | zero => rw [Function.iterate_zero_apply, Nat.pow_zero, ceilDiv_one]
  | succ k ih =>
    rw [Function.iterate_succ_apply', ih, halveUp_eq, ceilDiv_ceilDiv n (Nat.two_pow_pos k)
      Nat.two_pos, Nat.pow_succ]

/-! ## Reduced numbers -/

variable {signal : ExhaustionSignal}

/-- A number is divided by two for each attempt that shows the signal, rounded up, and at least one
is left. -/
theorem toNat_reduced (signal : ExhaustionSignal) (current : UInt32) (history : List JobAttempt) :
    (reduced signal current history).toNat =
      max 1 (current.toNat ⌈/⌉ 2 ^ history.countP signal.shownBy) := by
  have hfits : max (current.toNat ⌈/⌉ 2 ^ history.countP signal.shownBy) 1 < 2 ^ 32 := by
    have hle := ceilDiv_le_self current.toNat (Nat.two_pow_pos (history.countP signal.shownBy))
    have hlt := current.toNat_lt
    omega
  rw [reduced, List.foldl_const, iterate_halveUp, ← List.countP_eq_length_filter,
    UInt32.toNat_ofNat_of_lt' hfits, max_comm]

theorem reduced_mono {c d : UInt32} (h : c ≤ d) (history : List JobAttempt) :
    reduced signal c history ≤ reduced signal d history := by
  rw [UInt32.le_iff_toNat_le, toNat_reduced, toNat_reduced]
  exact max_le_max_left 1 (ceilDiv_mono (UInt32.le_iff_toNat_le.mp h) (Nat.two_pow_pos _))

theorem reduced_le (current : UInt32) (history : List JobAttempt) :
    (reduced signal current history).toNat ≤ max 1 current.toNat := by
  rw [toNat_reduced]
  exact max_le_max_left 1 (ceilDiv_le_self _ (Nat.two_pow_pos _))

/-- Reducing a number after one part of a history and then after the rest is reducing it after the
whole history. -/
theorem reduced_append (current : UInt32) (history later : List JobAttempt) :
    reduced signal (reduced signal current history) later =
      reduced signal current (history ++ later) := by
  rw [← UInt32.toNat_inj]
  simp only [toNat_reduced, List.countP_append, Nat.pow_add]
  rw [max_one_ceilDiv _ (Nat.two_pow_pos _), ceilDiv_ceilDiv _ (Nat.two_pow_pos _)
    (Nat.two_pow_pos _)]

/-- Whatever shows the stricter signal shows the other one. -/
theorem shownBy_reasonOrExitCode {a : JobAttempt}
    (h : ExhaustionSignal.reason.shownBy a = true) :
    ExhaustionSignal.reasonOrExitCode.shownBy a = true :=
  Bool.or_eq_true_iff.mpr (Or.inl h)

theorem processes_le_cores (current : UInt32) (history : List JobAttempt) :
    processes current history ≤ cores current history := by
  have hcount : history.countP ExhaustionSignal.reason.shownBy ≤
      history.countP ExhaustionSignal.reasonOrExitCode.shownBy :=
    List.countP_mono_left fun _ _ => shownBy_reasonOrExitCode
  rw [UInt32.le_iff_toNat_le, processes, cores, toNat_reduced, toNat_reduced]
  refine max_le_max_left 1 (ceilDiv_anti _ (Nat.two_pow_pos _) ?_)
  exact Nat.pow_le_pow_right Nat.two_pos hcount

/-- How the attempts that show a signal reduce a number. -/
structure ReducesByCount (signal : ExhaustionSignal) : Prop where
  /-- Each of them halves the number; it is rounded up once, and at least one is left. -/
  eq_ceilDiv : ∀ current history, (reduced signal current history).toNat =
    max 1 (current.toNat ⌈/⌉ 2 ^ history.countP signal.shownBy)
  /-- Neither their order nor their places among the others matter. -/
  congr : ∀ current history history',
    history.countP signal.shownBy = history'.countP signal.shownBy →
      reduced signal current history = reduced signal current history'
  perm : ∀ current history history', history.Perm history' →
    reduced signal current history = reduced signal current history'
  /-- More is left of more. -/
  mono : ∀ c d history, c ≤ d → reduced signal c history ≤ reduced signal d history
  le_max : ∀ current history, (reduced signal current history).toNat ≤ max 1 current.toNat
  /-- A history may be taken into account part by part. -/
  append : ∀ current history later,
    reduced signal (reduced signal current history) later =
      reduced signal current (history ++ later)

/-- By both signals, the number of attempts that ran out of memory decides how far a number is
reduced; there are never more processes than cores. -/
theorem reducesByCount (signal : ExhaustionSignal) :
    ReducesByCount signal ∧
      ∀ current history, processes current history ≤ cores current history := by
  have hcongr : ∀ current (history history' : List JobAttempt),
      history.countP signal.shownBy = history'.countP signal.shownBy →
        reduced signal current history = reduced signal current history' := by
    intro current history history' h
    rw [← UInt32.toNat_inj, toNat_reduced, toNat_reduced, h]
  refine ⟨?_, processes_le_cores⟩
  constructor
  case eq_ceilDiv => exact toNat_reduced signal
  case congr => exact hcongr
  case perm => exact fun current _ _ h => hcongr current _ _ (h.countP_eq _)
  case mono => exact fun _ _ history h => reduced_mono h history
  case le_max => exact reduced_le
  case append => exact reduced_append

/-- Two of three attempts ran out of memory. -/
example : [96, 5, 0].map (cores · [⟨some JobAttempt.exhaustionReason, none⟩,
    ⟨some "Essential container in task exited", some 1⟩,
    ⟨some JobAttempt.exhaustionReason, none⟩]) = [24, 2, 1] := by
  decide

end Backoff

end GeoAssets

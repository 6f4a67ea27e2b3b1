import GeoAssets.Error

/-!
# Dividing files among load jobs

A job that follows all load jobs may wait for a limited number of jobs only. So the files are
divided into consecutive chunks, one for each load job, which are just large enough for the limit.
-/

namespace GeoAssets.Plan

/-! ## Chunks -/

/-- Consecutive chunks of a given size; only the last one may be shorter. There are none of size
zero. -/
def chunks {α : Type} (size : Nat) (items : List α) : List (List α) :=
  if size = 0 ∨ items = [] then []
  else items.take size :: chunks size (items.drop size)
termination_by items.length
decreasing_by
  next h =>
    have : items ≠ [] := fun e => h (Or.inr e)
    have := List.length_pos_iff.mpr this
    rw [List.length_drop]
    omega

theorem chunks_nil {α : Type} (size : Nat) : chunks size ([] : List α) = [] := by
  rw [chunks]; simp

theorem chunks_of_ne_nil {α : Type} {size : Nat} {items : List α} (hs : 0 < size)
    (hi : items ≠ []) : chunks size items = items.take size :: chunks size (items.drop size) := by
  rw [chunks, if_neg (by simp [hi]; omega)]

/-- The chunks in order are the items in order. -/
theorem flatten_chunks {α : Type} {size : Nat} (hs : 0 < size) (items : List α) :
    (chunks size items).flatten = items := by
  fun_induction chunks size items with
  | case1 items h => rcases h with h | h <;> simp_all
  | case2 items _ ih => simp [ih]

/-- No chunk is empty. -/
theorem ne_nil_of_mem_chunks {α : Type} {size : Nat} {items chunk : List α}
    (h : chunk ∈ chunks size items) : chunk ≠ [] := by
  fun_induction chunks size items with
  | case1 => simp at h
  | case2 items hn ih =>
    rcases List.mem_cons.mp h with h | h
    · subst h; simpa using hn
    · exact ih h

/-- No chunk is larger than asked for. -/
theorem length_le_of_mem_chunks {α : Type} {size : Nat} {items chunk : List α}
    (h : chunk ∈ chunks size items) : chunk.length ≤ size := by
  fun_induction chunks size items with
  | case1 => simp at h
  | case2 items hn ih =>
    rcases List.mem_cons.mp h with h | h
    · subst h; exact List.length_take_le _ _
    · exact ih h

/-! ## Size -/

/-- A quotient, rounded up. -/
def ceilDiv (n d : Nat) : Nat :=
  (n + d - 1) / d

/-- How many of a number of files a load job takes, if at most `jobs` jobs share them. -/
def filesPerJob (files : Nat) (jobs : UInt64) : Except Error Nat :=
  if jobs = 0 then .error .divisionByZero
  else .ok (max (ceilDiv files jobs.toNat) 1)

end GeoAssets.Plan

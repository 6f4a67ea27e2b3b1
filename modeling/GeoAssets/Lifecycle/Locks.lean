import GeoAssets.Directory
import GeoAssets.Identifier.Basic

/-!
# Locks of assets

Who settles an asset holds its lock. Those who want a lock stand in line for it; the first in the
line is the one who holds it. An asset is in the table only while somebody stands in its line.
-/

namespace GeoAssets

/-- The lines for the locks of assets. -/
structure LockTable (κ : Type) where
  lines : Directory AssetId (List κ) := {}
  deriving Repr

namespace LockTable

variable {κ : Type} [DecidableEq κ]

/-- The line for the lock of an asset. -/
def line (t : LockTable κ) (a : AssetId) : List κ :=
  (t.lines.get? a).getD []

/-- Who holds the lock of an asset. -/
def holder? (t : LockTable κ) (a : AssetId) : Option κ :=
  (t.line a).head?

/-- Stands in line for the lock of an asset, unless one does already. -/
def request (t : LockTable κ) (a : AssetId) (k : κ) : LockTable κ :=
  if k ∈ t.line a then t else ⟨t.lines.insert a (t.line a ++ [k])⟩

/-- Leaves every line: releases the locks that one holds and gives up waiting for others. -/
def leave (t : LockTable κ) (k : κ) : LockTable κ :=
  let lines := t.lines.mapValues fun _ line => line.filter (· ≠ k)
  ⟨⟨lines.entries.filter fun entry => !entry.2.isEmpty⟩⟩

/-- Everybody who holds a lock. -/
def holders (t : LockTable κ) : List κ :=
  t.lines.values.filterMap (·.head?)

/-- Everybody who waits for a lock. -/
def waiting (t : LockTable κ) : List κ :=
  t.lines.values.flatMap (·.tail)

/-- The number of assets whose lock somebody stands in line for. -/
def tracked (t : LockTable κ) : Nat :=
  t.lines.size

/-! ## Lines -/

theorem line_request (t : LockTable κ) (a b : AssetId) (k : κ) :
    (t.request a k).line b =
      if a = b ∧ k ∉ t.line a then t.line a ++ [k] else t.line b := by
  by_cases hk : k ∈ t.line a
  · simp [request, hk]
  · rw [request, if_neg hk]
    have hget : ∀ l,
        (⟨t.lines.insert a l⟩ : LockTable κ).line b = if a = b then l else t.line b := by
      intro l
      by_cases hab : a = b <;> simp [line, Directory.get?_insert, hab]
    simp [hget, hk]

/-- Who holds a lock keeps it, whoever else stands in line. -/
theorem holder?_request_of_some {t : LockTable κ} {a b : AssetId} {k h : κ}
    (hh : t.holder? b = some h) : (t.request a k).holder? b = some h := by
  rw [holder?, line_request]
  split
  · next hab =>
    obtain ⟨rfl, _⟩ := hab
    rw [holder?] at hh
    cases hl : t.line a with
    | nil => simp [hl] at hh
    | cons x rest => simpa [hl] using hh
  · exact hh

end LockTable

end GeoAssets

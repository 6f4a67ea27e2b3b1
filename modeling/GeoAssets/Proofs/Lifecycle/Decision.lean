import GeoAssets.Proofs.Lifecycle.Commit
import GeoAssets.Proofs.Lifecycle.Settlement

/-!
# What becomes of an asset

An asset that is settled takes the status of the outcome if it is pending, and stays as it is
otherwise (`Asset.Settled`). What becomes of an asset that is decided over by its tasks follows from
its status, the number of tasks that it expects, and its tasks (`Asset.Decided`).
-/

namespace GeoAssets

/-- What becomes of an asset that is settled with a status. -/
inductive Asset.Settled (a : Asset) (s : Status) : Asset → Prop where
  | final (h : a.status.isTerminal = true) : Settled a s a
  | pending {b : Asset} (h : a.status = .pending) (hstatus : b.status = s)
    (hexpected : b.expectedTasks = a.expectedTasks) : Settled a s b

/-- What becomes of an asset over which its tasks decide. -/
inductive Asset.Decided (a : Asset) (ts : List Task) : Asset → Prop where
  | final (h : a.status.isTerminal = true) : Decided a ts a
  | failed {b : Asset} (h : a.status = .pending) (hfailed : ∃ t ∈ ts, t.progress = .failed)
    (hstatus : b.status = .failed) (hexpected : b.expectedTasks = a.expectedTasks) :
    Decided a ts b
  | saved {b : Asset} {n : UInt32} (h : a.status = .pending) (hn : a.expectedTasks = some n)
    (hcomplete : Decision.isComplete n ts = true) (hall : ∀ t ∈ ts, t.progress = .success)
    (hstatus : b.status = .saved) (hexpected : b.expectedTasks = a.expectedTasks) :
    Decided a ts b
  | waits (h : a.status = .pending) (hnone : ∀ t ∈ ts, t.progress ≠ .failed)
    (hopen : ∀ n, a.expectedTasks = some n → Decision.isComplete n ts = true →
      ∃ t ∈ ts, t.progress = .pending) : Decided a ts a

/-! ## Decisions -/

namespace Decision

variable {time : Timestamp} {a b : Asset} {ts : List Task} {o : Outcome}

theorem decided_of_finish (hd : ofTasks time a ts = .finish o) (hs : a.Settled o.status b) :
    a.Decided ts b := by
  cases hs with
  | final h => exact .final h
  | pending h hstatus hexpected =>
    unfold ofTasks at hd
    rw [if_neg (by rw [h]; decide)] at hd
    -- the first failed task decides; otherwise all tasks have to be there
    cases hf : ts.find? (·.progress == .failed) with
    | some t =>
      rw [hf] at hd
      cases hd
      have hfailed := List.find?_some (p := fun t : Task => t.progress == .failed) hf
      exact .failed h ⟨t, List.mem_of_find?_eq_some hf, beq_iff_eq.mp hfailed⟩ hstatus hexpected
    | none =>
      rw [hf] at hd
      dsimp only at hd
      split at hd
      · cases hd
      · next n hn =>
        split at hd
        · next hall =>
          cases hd
          rw [Bool.and_eq_true, List.all_eq_true] at hall
          exact .saved h hn hall.1 (fun t ht => beq_iff_eq.mp (hall.2 t ht)) hstatus hexpected
        · cases hd

theorem decided_of_not_finish (hd : ∀ o, ofTasks time a ts ≠ .finish o) : a.Decided ts a := by
  cases hfinal : a.status.isTerminal with
  | true => exact .final hfinal
  | false =>
    unfold ofTasks at hd
    rw [if_neg (by rw [hfinal]; decide)] at hd
    cases hf : ts.find? (·.progress == .failed) with
    | some t =>
      rw [hf] at hd
      exact absurd rfl (hd _)
    | none =>
      rw [hf] at hd
      have hnone : ∀ t ∈ ts, t.progress ≠ .failed := by
        intro t ht
        have hne := List.find?_eq_none.mp hf t ht
        exact fun h => hne (beq_iff_eq.mpr h)
      refine .waits (Status.isTerminal_eq_false_iff.mp hfinal) hnone fun n hn hcomplete => ?_
      rw [hn] at hd
      dsimp only at hd
      by_contra hno
      -- no task is open and none has failed, so the asset would be saved
      have hall : ts.all (·.progress == .success) = true := by
        refine List.all_eq_true.mpr fun t ht => beq_iff_eq.mpr ?_
        cases hp : t.progress with
        | success => rfl
        | failed => exact absurd hp (hnone t ht)
        | pending => exact absurd ⟨t, ht, hp⟩ hno
      rw [hcomplete, hall, Bool.and_self, if_pos rfl] at hd
      exact hd _ rfl

end Decision

/-! ## Operations -/

namespace World

variable {w : World} {x z : AssetId} {o : Outcome} {ops : List Store.Operation}

namespace Settlement

/-- The operations that settle an asset, as far as they go. -/
theorem eq_settling (hw : w.store.WellFormed) (h : w.Settlement z o ops) :
    (ops = [] ∧ ∀ a, w.store.assets.get? z = some a → a.status.isTerminal = true) ∨
      ∃ (a : Asset) (t : Transition) (notes : List LogEntry), a.id = z ∧
        w.store.assets.get? z = some a ∧ a.status = .pending ∧
        t.Settles a ∧ t.status = o.status ∧ ops = Store.Operation.settling [] a t notes := by
  cases h with
  | nothing h => exact Or.inl ⟨rfl, h⟩
  | @commit a t ha hpending ht hstatus =>
    exact Or.inr ⟨a, t, [], hw.asset_id z a ha, ha, hpending, ht, hstatus, rfl⟩
  | @unserved a t e ha hpending ht hstatus =>
    obtain rfl := hw.asset_id z a ha
    exact Or.inr ⟨a, t, [w.redeployFailedEntry e], rfl, ha, hpending, ht, hstatus, rfl⟩

theorem onAsset (hw : w.store.WellFormed) (h : w.Settlement x o ops) {a : Asset}
    (ha : w.store.assets.get? x = some a) :
    a.Settled o.status (ops.foldl (fun a (op : Store.Operation) => op.onAsset x a) a) := by
  rcases h.eq_settling hw with ⟨rfl, hfinal⟩ | ⟨b, t, notes, rfl, hb, hpending, ht, hstatus, rfl⟩
  · exact .final (hfinal a ha)
  · rw [hb] at ha
    cases ha
    rw [Store.Operation.foldl_settling (Or.inl rfl) ht, Store.only_self]
    exact .pending hpending hstatus rfl

/-- Settling an asset leaves all others alone. -/
theorem onAsset_of_ne (hw : w.store.WellFormed) (h : w.Settlement z o ops) (hx : x ≠ z)
    (a : Asset) : ops.foldl (fun a (op : Store.Operation) => op.onAsset x a) a = a := by
  rcases h.eq_settling hw with ⟨rfl, _⟩ | ⟨b, t, notes, rfl, _, _, ht, _, rfl⟩
  · rfl
  · rw [Store.Operation.foldl_settling (Or.inl rfl) ht, Store.only_of_ne hx]

theorem onTasks (hw : w.store.WellFormed) (h : w.Settlement z o ops) (ts : List Task) :
    ops.foldl (fun ts (op : Store.Operation) => op.onTasks x ts) ts = ts := by
  rcases h.eq_settling hw with ⟨rfl, _⟩ | ⟨b, t, notes, rfl, _, _, _, _, rfl⟩
  · rfl
  · exact Store.Operation.foldl_settling_onTasks x ts

theorem isRequest (hw : w.store.WellFormed) (h : w.Settlement z o ops) :
    ∀ op ∈ ops, op.isRequest = false := by
  rcases h.eq_settling hw with ⟨rfl, _⟩ | ⟨b, t, notes, rfl, _, _, _, _, rfl⟩
  · intro op hop
    cases hop
  · exact Store.Operation.isRequest_of_settling (Or.inl rfl)

end Settlement

namespace Deciding

theorem onAsset (hw : w.store.WellFormed) (h : w.Deciding x ops) {a : Asset}
    (ha : w.store.assets.get? x = some a) : a.Decided (w.store.tasksOf x)
      (ops.foldl (fun a (op : Store.Operation) => op.onAsset x a) a) := by
  cases h with
  | finish hb hd hs =>
    rw [hb] at ha
    cases ha
    exact Decision.decided_of_finish hd (hs.onAsset hw hb)
  | wait hd => exact Decision.decided_of_not_finish (hd a ha)

theorem onAsset_of_ne (hw : w.store.WellFormed) (h : w.Deciding z ops) (hx : x ≠ z) (a : Asset) :
    ops.foldl (fun a (op : Store.Operation) => op.onAsset x a) a = a := by
  cases h with
  | finish _ _ hs => exact hs.onAsset_of_ne hw hx a
  | wait => rfl

theorem onTasks (hw : w.store.WellFormed) (h : w.Deciding z ops) (ts : List Task) :
    ops.foldl (fun ts (op : Store.Operation) => op.onTasks x ts) ts = ts := by
  cases h with
  | finish _ _ hs => exact hs.onTasks hw ts
  | wait => rfl

theorem isRequest (hw : w.store.WellFormed) (h : w.Deciding z ops) :
    ∀ op ∈ ops, op.isRequest = false := by
  cases h with
  | finish _ _ hs => exact hs.isRequest hw
  | wait =>
    intro op hop
    cases hop

end Deciding

end World

end GeoAssets

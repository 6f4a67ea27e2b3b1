import GeoAssets.Proofs.Lifecycle.Commit
import GeoAssets.Proofs.Run.Invariant

/-!
# What it means to settle an asset

An event settles at most one asset. That asset was pending, and one commit applies the transition
that settles it, to the asset and to its version if the asset is the default one
(`Orchestrator.Settles`). No event changes a status in any other way (`settles_cases`).
-/

namespace GeoAssets

/-! ## What events do to statuses -/

/-- What an event does to the store, as far as statuses are concerned: it serves a request, leaves
all statuses alone, or settles one asset. -/
inductive World.Settling (w : World) : List Store.Operation → Prop where
  | request {op : Store.Operation} (hop : op.isRequest = true) : Settling w [op]
  | calm {ops : List Store.Operation}
    (h : ∀ op ∈ ops, op.isRequest = false ∧ op.settlements = []) : Settling w ops
  | settles {before : List Store.Operation} {a : Asset} {t : Transition} {notes : List LogEntry}
    (hbefore : before = [] ∨ ∃ id e, before = [.appendTaskLog id e])
    (ha : w.store.assets.get? a.id = some a) (hpending : a.status = .pending) (ht : t.Settles a)
    (hnotes : notes = [] ∨ ∃ e, w.services.tiles.redeploy = .error e ∧
      notes = [w.redeployFailedEntry e]) :
    Settling w (Store.Operation.settling before a t notes)

theorem World.Settlement.settling {w : World} {x : AssetId} {o : Outcome}
    {ops : List Store.Operation} (hw : w.store.WellFormed) (h : w.Settlement x o ops) :
    w.Settling ops := by
  cases h with
  | commit ha hpending ht =>
    obtain rfl := hw.asset_id _ _ ha
    exact @Settling.settles w [] _ _ [] (Or.inl rfl) ha hpending ht (Or.inl rfl)
  | @unserved a t e ha hpending ht _ _ _ hdown =>
    obtain rfl := hw.asset_id _ _ ha
    exact @Settling.settles w [] a t [w.redeployFailedEntry e] (Or.inl rfl) ha hpending ht
      (Or.inr ⟨e, hdown, rfl⟩)
  | nothing => exact .calm fun _ h => by cases h

theorem World.Deciding.settling {w : World} {x : AssetId} {ops : List Store.Operation}
    (hw : w.store.WellFormed) (h : w.Deciding x ops) : w.Settling ops := by
  cases h with
  | finish _ _ hs => exact hs.settling hw
  | wait => exact .calm fun _ h => by cases h

/-- A report is recorded first; what is settled then was pending before. -/
theorem World.Settling.of_appendTaskLog {w : World} {id : TaskId} {entry : LogEntry} {t : Task}
    {s : Store} {x : AssetId} {ops : List Store.Operation}
    (hs : w.store.appendTaskLog id entry = .ok (t, s))
    (h : World.Deciding { w with store := s } x ops) (hw : s.WellFormed) :
    w.Settling (.appendTaskLog id entry :: ops) := by
  have hassets : s.assets = w.store.assets := by
    obtain ⟨_, _, _, rfl⟩ := Store.appendTaskLog_eq_ok hs
    rfl
  cases h with
  | wait =>
    refine .calm fun op hop => ?_
    rw [List.mem_singleton.mp hop]
    exact ⟨rfl, rfl⟩
  | finish _ _ hsettle =>
    cases hsettle with
    | commit ha hpending ht =>
      obtain rfl := hw.asset_id _ _ ha
      rw [hassets] at ha
      exact @Settling.settles w [.appendTaskLog id entry] _ _ [] (Or.inr ⟨id, entry, rfl⟩)
        ha hpending ht (Or.inl rfl)
    | @unserved a u e ha hpending ht _ _ _ hdown =>
      obtain rfl := hw.asset_id _ _ ha
      rw [hassets] at ha
      exact @Settling.settles w [.appendTaskLog id entry] a u [w.redeployFailedEntry e]
        (Or.inr ⟨id, entry, rfl⟩) ha hpending ht (Or.inr ⟨e, hdown, rfl⟩)
    | nothing =>
      refine .calm fun op hop => ?_
      rw [List.mem_singleton.mp hop]
      exact ⟨rfl, rfl⟩

theorem Activity.Moves.settling {w : World} {a : Activity} {ops : List Store.Operation}
    {rest? : Option Activity} (hw : w.store.WellFormed) (hm : a.Moves w ops rest?) :
    w.Settling ops := by
  cases hm with
  | abandoned h => exact h.settling hw
  | settled h => exact h.settling hw
  | evaluated h => exact h.settling hw
  | recorded ht h =>
    exact .of_appendTaskLog ht h ((Store.PerformsAll.single (.appendTaskLog ht)).wellFormed hw)
  | registered => exact .request rfl
  | unregistered h =>
    rcases h with rfl | ⟨e, rfl⟩
    · exact .calm fun _ h => by cases h
    · refine .calm fun op hop => ?_
      rw [List.mem_singleton.mp hop]
      exact ⟨rfl, rfl⟩
  | submitted | expected | inspected =>
    refine .calm fun op hop => ?_
    rw [List.mem_singleton.mp hop]
    exact ⟨rfl, rfl⟩
  | refused | counted | uncounted | vanished | received | rejected | lost | tornDown =>
    exact .calm fun _ h => by cases h

theorem Orchestrator.Handles.settling {o o' : Orchestrator} {e : Event}
    {ops : List Store.Operation} (hw : o.world.store.WellFormed) (hh : o.Handles e ops o') :
    o.world.Settling ops := by
  cases hh with
  | obeyed h =>
    cases h with
    | nothing => exact .calm fun _ h => by cases h
    | changes hop => exact .request hop
  | begun h =>
    cases h with
    | changes hop => exact .request hop
    | creates hop => exact .request hop
  | reported | idled => exact .calm fun _ h => by cases h
  | stepped _ hm => exact hm.settling hw

/-! ## What events settle -/

namespace Orchestrator

/-- What an event does that settles an asset. -/
structure Settles (o o' : Orchestrator) (a b : Asset) (t : Transition) : Prop where
  pending : a.status = .pending
  /-- The transition is final, and the version follows if the asset is the default one. -/
  transition : t.Settles a
  /-- One commit applies it; before it a report may be recorded, and after it only the log of the
  asset grows. -/
  commit : ∃ (s s' : Store) (notes : List LogEntry), s.assets = o.world.store.assets ∧
    s.versions = o.world.store.versions ∧ s.Commits a t s' ∧
    s'.PerformsAll (notes.map (.appendAssetLog a.id)) o'.world.store
  status : b.status = t.status
  /-- The entry of the transition is added; a second one if the tile service could not be told. -/
  log : b.log = a.log ++ [t.entry] ∨ ∃ e, o.world.services.tiles.redeploy = .error e ∧
    b.log = a.log ++ [t.entry, o.world.redeployFailedEntry e]
  /-- The version of a default asset takes the status and the entry, and no other version
  changes. -/
  versions : ∀ k v, o.world.store.versions.get? k = some v →
    ∃ v', o'.world.store.versions.get? k = some v' ∧
      if a.isDefault = true ∧ a.key = k then v'.status = t.status ∧ v'.log = v.log ++ [t.entry]
      else v'.status = v.status ∧ v'.log = v.log
  /-- No other asset changes its status. -/
  others : ∀ x c c', o.world.store.assets.get? x = some c → x ≠ a.id →
    o'.world.store.assets.get? x = some c' → c'.status = c.status

variable {o o' : Orchestrator} {ops : List Store.Operation}

/-- An asset that appears is new. -/
theorem isNew_of_none (hs : o.Sound) (he : o.world.Evolves ops o'.world)
    (h : o.world.Settling ops) {x : AssetId} {b : Asset}
    (hnone : o.world.store.assets.get? x = none) (hb : o'.world.store.assets.get? x = some b) :
    b.IsNew := by
  have hw := hs.world.wellFormed
  obtain ⟨op, hop, c, hf, _⟩ := he.store.exists_files_of_none hw hnone hb
  have hreq := Store.Operation.isRequest_of_files? hf
  cases h with
  | request => exact (he.store.asset_of_single hw hnone hb).2.1
  | calm hcalm =>
    rw [(hcalm op hop).1] at hreq
    cases hreq
  | settles hbefore =>
    rw [Store.Operation.isRequest_of_settling hbefore op hop] at hreq
    cases hreq

/-- Where nothing is settled, all statuses stay. -/
theorem statuses_stay (hs : o.Sound) (he : o.world.Evolves ops o'.world)
    (hd : o'.world.ids.Distinct) (hnone : ∀ op ∈ ops, op.settlements = [])
    (hops : (∃ op, ops = [op]) ∨ ∀ op ∈ ops, op.isRequest = false) :
    (∀ x a b, o.world.store.assets.get? x = some a → o'.world.store.assets.get? x = some b →
        b.status = a.status) ∧
      (∀ k v v', o.world.store.versions.get? k = some v →
        o'.world.store.versions.get? k = some v' → v'.status = v.status) := by
  have hw := hs.world.wellFormed
  constructor
  · intro x a b ha hb
    obtain ⟨rfl, _, _⟩ := he.asset_of_some hd hs.world ha hb
    exact Store.Operation.status_foldl_onAsset hnone x a
  · intro k v v' hv hv'
    rcases hops with ⟨op, rfl⟩ | hreq
    · -- a request may remove the version, which then is not there afterwards
      rw [he.store.version_of_single hw hv hv']
      exact Store.Operation.status_onVersion (hnone op List.mem_cons_self) k v
    · obtain ⟨u, hu, hstatus, _⟩ := he.store.version_of_some hw hreq hv
      rw [hv'] at hu
      cases hu
      rw [hstatus]
      exact Store.Operation.status_foldl_onVersion hnone k v

/-- What settles an asset does so as it should. -/
theorem exists_settles (hs : o.Sound) (hd : o'.world.ids.Distinct)
    {before : List Store.Operation} {a : Asset} {t : Transition} {notes : List LogEntry}
    (he : o.world.Evolves (Store.Operation.settling before a t notes) o'.world)
    (hbefore : before = [] ∨ ∃ id e, before = [.appendTaskLog id e])
    (ha : o.world.store.assets.get? a.id = some a) (hpending : a.status = .pending)
    (ht : t.Settles a)
    (hnotes : notes = [] ∨ ∃ e, o.world.services.tiles.redeploy = .error e ∧
      notes = [o.world.redeployFailedEntry e]) :
    ∃ b, o'.world.store.assets.get? a.id = some b ∧ o.Settles o' a b t := by
  have hw := hs.world.wellFormed
  have hreq : ∀ op ∈ Store.Operation.settling before a t notes, op.isRequest = false :=
    Store.Operation.isRequest_of_settling hbefore
  obtain ⟨b, hb⟩ := he.store.asset_stays hw hreq ha
  obtain ⟨hbeq, _, _⟩ := he.asset_of_some hd hs.world ha hb
  rw [Store.Operation.foldl_settling hbefore ht, Store.only_self] at hbeq
  refine ⟨b, hb, ⟨hpending, ht, ?_, by rw [hbeq]; rfl, ?_, ?_, ?_⟩⟩
  · -- the commit stands between a report that may have been recorded and the notes
    obtain ⟨s, s', hbef, hcommit, haft⟩ := he.store.exists_of_append
    obtain ⟨hassets, hversions⟩ := hbef.catalog_eq hbefore
    exact ⟨s, s', notes, hassets, hversions, hcommit.commits, haft⟩
  · rw [hbeq]
    rcases hnotes with rfl | ⟨e, hdown, rfl⟩
    · exact Or.inl (List.append_nil _)
    · exact Or.inr ⟨e, hdown, List.append_assoc _ _ _⟩
  · intro k v hv
    obtain ⟨v', hv', hstatus, hlog⟩ := he.store.version_of_some hw hreq hv
    rw [Store.Operation.foldl_settling_onVersion hbefore] at hstatus hlog
    refine ⟨v', hv', ?_⟩
    by_cases hk : a.key = k
    · rw [hk, Store.only_self, ht.version] at hstatus hlog
      by_cases hdefault : a.isDefault = true
      · rw [if_pos hdefault] at hstatus hlog
        rw [if_pos ⟨hdefault, hk⟩]
        exact ⟨hstatus, hlog⟩
      · rw [if_neg hdefault] at hstatus hlog
        rw [if_neg fun h => hdefault h.1]
        exact ⟨hstatus, hlog⟩
    · rw [Store.only_of_ne (Ne.symm hk)] at hstatus hlog
      rw [if_neg fun h => hk h.2]
      exact ⟨hstatus, hlog⟩
  · intro x c c' hc hx hc'
    obtain ⟨rfl, _, _⟩ := he.asset_of_some hd hs.world hc hc'
    rw [Store.Operation.foldl_settling hbefore ht, Store.only_of_ne hx]

/-- Statuses change only where an asset is settled, and then as they should. -/
theorem settles_cases (hs : o.Sound) (he : o.world.Evolves ops o'.world)
    (hd : o'.world.ids.Distinct) (h : o.world.Settling ops) :
    ((∀ x a b, o.world.store.assets.get? x = some a → o'.world.store.assets.get? x = some b →
        b.status = a.status) ∧
      (∀ k v v', o.world.store.versions.get? k = some v →
        o'.world.store.versions.get? k = some v' → v'.status = v.status) ∧
      ops.flatMap (·.settlements) = []) ∨
    ∃ a b t, o.world.store.assets.get? a.id = some a ∧ o'.world.store.assets.get? a.id = some b ∧
      o.Settles o' a b t ∧ ops.flatMap (·.settlements) = .assetSettled a.type t.status ::
        if a.isDefault then [.versionSettled t.status] else [] := by
  cases h with
  | @request op hop =>
    left
    have hnone : ∀ op' ∈ [op], op'.settlements = [] := by
      intro op' hop'
      rw [List.mem_singleton.mp hop']
      exact Store.Operation.settlements_of_isRequest hop
    obtain ⟨hassets, hversions⟩ := statuses_stay hs he hd hnone (Or.inl ⟨op, rfl⟩)
    exact ⟨hassets, hversions, List.flatMap_eq_nil_iff.mpr hnone⟩
  | calm hcalm =>
    left
    have hnone : ∀ op ∈ ops, op.settlements = [] := fun op hop => (hcalm op hop).2
    obtain ⟨hassets, hversions⟩ :=
      statuses_stay hs he hd hnone (Or.inr fun op hop => (hcalm op hop).1)
    exact ⟨hassets, hversions, List.flatMap_eq_nil_iff.mpr hnone⟩
  | @settles before a t notes hbefore ha hpending ht hnotes =>
    right
    obtain ⟨b, hb, hsettles⟩ := exists_settles hs hd he hbefore ha hpending ht hnotes
    exact ⟨a, b, t, ha, hb, hsettles, Store.Operation.settlements_of_settling hbefore ht⟩

end Orchestrator

end GeoAssets

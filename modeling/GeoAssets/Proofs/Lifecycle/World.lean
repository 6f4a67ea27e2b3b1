import GeoAssets.Lifecycle.World
import GeoAssets.Proofs.Catalog.DefaultsLead

/-!
# How worlds change

`World.Evolves` says what happened between two worlds: which operations were performed on the store,
which ids were drawn, and that settlements were counted. What stays true of every world is
`World.Sound`: the store is well-formed, every version has the status of its default asset, and
every id in the store was drawn.
-/

namespace GeoAssets

/-! ## Ids -/

namespace IdSupply

/-- The ids that were drawn are distinct. -/
structure Distinct (s : IdSupply) : Prop where
  asset : ∀ i < s.assetsDrawn, ∀ j < s.assetsDrawn, s.asset i = s.asset j → i = j
  task : ∀ i < s.tasksDrawn, ∀ j < s.tasksDrawn, s.task i = s.task j → i = j

instance (s : IdSupply) : Decidable s.Distinct :=
  decidable_of_iff
    ((∀ i < s.assetsDrawn, ∀ j < s.assetsDrawn, s.asset i = s.asset j → i = j) ∧
      ∀ i < s.tasksDrawn, ∀ j < s.tasksDrawn, s.task i = s.task j → i = j)
    ⟨fun h => ⟨h.1, h.2⟩, fun h => ⟨h.1, h.2⟩⟩

/-- Ids are only drawn. -/
structure Extends (s s' : IdSupply) : Prop where
  asset : s'.asset = s.asset
  task : s'.task = s.task
  assetsDrawn : s.assetsDrawn ≤ s'.assetsDrawn
  tasksDrawn : s.tasksDrawn ≤ s'.tasksDrawn

def HasDrawnAsset (s : IdSupply) (x : AssetId) : Prop :=
  ∃ i < s.assetsDrawn, s.asset i = x

def HasDrawnTask (s : IdSupply) (t : TaskId) : Prop :=
  ∃ i < s.tasksDrawn, s.task i = t

/-- The id was drawn on the way from one supply to another. -/
def DrawsAsset (s s' : IdSupply) (x : AssetId) : Prop :=
  ∃ i, s.assetsDrawn ≤ i ∧ i < s'.assetsDrawn ∧ s.asset i = x

def DrawsTask (s s' : IdSupply) (t : TaskId) : Prop :=
  ∃ i, s.tasksDrawn ≤ i ∧ i < s'.tasksDrawn ∧ s.task i = t

variable {s s' s'' : IdSupply}

namespace Extends

theorem refl (s : IdSupply) : s.Extends s := ⟨rfl, rfl, Nat.le_refl _, Nat.le_refl _⟩

/-- The next id of a task is drawn. -/
theorem drawTask (s : IdSupply) : s.Extends { s with tasksDrawn := s.tasksDrawn + 1 } :=
  ⟨rfl, rfl, Nat.le_refl _, Nat.le_succ _⟩

theorem trans (h : s.Extends s') (h' : s'.Extends s'') : s.Extends s'' where
  asset := h'.asset.trans h.asset
  task := h'.task.trans h.task
  assetsDrawn := Nat.le_trans h.assetsDrawn h'.assetsDrawn
  tasksDrawn := Nat.le_trans h.tasksDrawn h'.tasksDrawn

theorem distinct (h : s.Extends s') (hd : s'.Distinct) : s.Distinct where
  asset := fun i hi j hj he => by
    have hi' := Nat.lt_of_lt_of_le hi h.assetsDrawn
    have hj' := Nat.lt_of_lt_of_le hj h.assetsDrawn
    exact hd.asset i hi' j hj' (by rw [h.asset]; exact he)
  task := fun i hi j hj he => by
    have hi' := Nat.lt_of_lt_of_le hi h.tasksDrawn
    have hj' := Nat.lt_of_lt_of_le hj h.tasksDrawn
    exact hd.task i hi' j hj' (by rw [h.task]; exact he)

theorem hasDrawnAsset (h : s.Extends s') {x : AssetId} (hx : s.HasDrawnAsset x) :
    s'.HasDrawnAsset x := by
  obtain ⟨i, hi, rfl⟩ := hx
  exact ⟨i, Nat.lt_of_lt_of_le hi h.assetsDrawn, by rw [h.asset]⟩

theorem hasDrawnTask (h : s.Extends s') {t : TaskId} (ht : s.HasDrawnTask t) :
    s'.HasDrawnTask t := by
  obtain ⟨i, hi, rfl⟩ := ht
  exact ⟨i, Nat.lt_of_lt_of_le hi h.tasksDrawn, by rw [h.task]⟩

theorem hasDrawnAsset_of_draws (h : s.Extends s') {x : AssetId} (hx : s.DrawsAsset s' x) :
    s'.HasDrawnAsset x := by
  obtain ⟨i, _, hi, rfl⟩ := hx
  exact ⟨i, hi, by rw [h.asset]⟩

theorem hasDrawnTask_of_draws (h : s.Extends s') {t : TaskId} (ht : s.DrawsTask s' t) :
    s'.HasDrawnTask t := by
  obtain ⟨i, _, hi, rfl⟩ := ht
  exact ⟨i, hi, by rw [h.task]⟩

/-- A new id is none of those that were drawn before. -/
theorem not_hasDrawnAsset (h : s.Extends s') (hd : s'.Distinct) {x : AssetId}
    (hx : s.DrawsAsset s' x) : ¬ s.HasDrawnAsset x := by
  rintro ⟨j, hj, he⟩
  obtain ⟨i, hle, hi, rfl⟩ := hx
  have hij := hd.asset j (Nat.lt_of_lt_of_le hj h.assetsDrawn) i hi (by rw [h.asset]; exact he)
  omega

theorem not_hasDrawnTask (h : s.Extends s') (hd : s'.Distinct) {t : TaskId}
    (ht : s.DrawsTask s' t) : ¬ s.HasDrawnTask t := by
  rintro ⟨j, hj, he⟩
  obtain ⟨i, hle, hi, rfl⟩ := ht
  have hij := hd.task j (Nat.lt_of_lt_of_le hj h.tasksDrawn) i hi (by rw [h.task]; exact he)
  omega

end Extends

theorem DrawsAsset.mono {s₁ s₂ : IdSupply} {x : AssetId} (h : s.Extends s₁)
    (h' : s₂.assetsDrawn ≤ s'.assetsDrawn) (hx : s₁.DrawsAsset s₂ x) : s.DrawsAsset s' x := by
  obtain ⟨i, hle, hi, rfl⟩ := hx
  exact ⟨i, Nat.le_trans h.assetsDrawn hle, Nat.lt_of_lt_of_le hi h', by rw [h.asset]⟩

theorem DrawsTask.mono {s₁ s₂ : IdSupply} {t : TaskId} (h : s.Extends s₁)
    (h' : s₂.tasksDrawn ≤ s'.tasksDrawn) (ht : s₁.DrawsTask s₂ t) : s.DrawsTask s' t := by
  obtain ⟨i, hle, hi, rfl⟩ := ht
  exact ⟨i, Nat.le_trans h.tasksDrawn hle, Nat.lt_of_lt_of_le hi h', by rw [h.task]⟩

theorem DrawsTask.next (s : IdSupply) :
    s.DrawsTask { s with tasksDrawn := s.tasksDrawn + 1 } (s.task s.tasksDrawn) :=
  ⟨_, Nat.le_refl _, Nat.lt_succ_self _, rfl⟩

end IdSupply

/-! ## Settlements -/

/-- Decides whether an asset or a version that reached its final status is counted. -/
def Measurement.isSettlement : Measurement → Bool
  | .assetSettled .. | .versionSettled _ => true
  | _ => false

/-- What is counted of an operation: a transition, and the version that followed it. -/
def Store.Operation.settlements : Store.Operation → List Measurement
  | .commit a t =>
    .assetSettled a.type t.status :: (t.version.map fun change =>
      Measurement.versionSettled change.1).toList
  | _ => []

/-! ## Changes -/

namespace World

/-- What happened between two worlds. -/
structure Evolves (w : World) (ops : List Store.Operation) (w' : World) : Prop where
  ids : w.ids.Extends w'.ids
  store : w.store.PerformsAll ops w'.store
  files : ∀ op ∈ ops, ∀ a, op.files? = some a → w.ids.DrawsAsset w'.ids a.id
  records : ∀ op ∈ ops, ∀ t, op.records? = some t → w.ids.DrawsTask w'.ids t.id
  settlements : ∀ m : Measurement, m.isSettlement = true → w'.measurements.count m =
    w.measurements.count m + (ops.flatMap (·.settlements)).count m

namespace Evolves

variable {w w' w'' : World} {ops ops' : List Store.Operation}

theorem refl (w : World) : w.Evolves [] w where
  ids := .refl w.ids
  store := .nil w.store
  files := fun _ h => by cases h
  records := fun _ h => by cases h
  settlements := fun _ _ => rfl

theorem trans (h : w.Evolves ops w') (h' : w'.Evolves ops' w'') :
    w.Evolves (ops ++ ops') w'' where
  ids := h.ids.trans h'.ids
  store := h.store.append h'.store
  files := fun op hop a ha => by
    rcases List.mem_append.mp hop with hop | hop
    · exact (h.files op hop a ha).mono (.refl _) h'.ids.assetsDrawn
    · exact (h'.files op hop a ha).mono h.ids (Nat.le_refl _)
  records := fun op hop t ht => by
    rcases List.mem_append.mp hop with hop | hop
    · exact (h.records op hop t ht).mono (.refl _) h'.ids.tasksDrawn
    · exact (h'.records op hop t ht).mono h.ids (Nat.le_refl _)
  settlements := fun m hm => by
    rw [h'.settlements m hm, h.settlements m hm, List.flatMap_append, List.count_append,
      Nat.add_assoc]

/-- A change of anything but the store, the ids and the measurements. -/
theorem of_eq (hids : w'.ids = w.ids) (hstore : w'.store = w.store)
    (hmeasured : w'.measurements = w.measurements) : w.Evolves [] w' where
  ids := by
    rw [hids]
    exact .refl w.ids
  store := by
    rw [hstore]
    exact .nil w.store
  files := fun _ h => by cases h
  records := fun _ h => by cases h
  settlements := fun m _ => by
    rw [hmeasured]
    rfl

/-- Something else than a settlement is counted. -/
theorem measure {m : Measurement} (hm : m.isSettlement = false) (w : World) :
    w.Evolves [] (w.measure m) where
  ids := .refl w.ids
  store := .nil w.store
  files := fun _ h => by cases h
  records := fun _ h => by cases h
  settlements := fun m' hm' => by
    have hne : m ≠ m' := by
      rintro rfl
      rw [hm] at hm'
      cases hm'
    show (m :: w.measurements).count m' = _
    rw [List.count_cons_of_ne hne]
    rfl

/-- An operation that neither files, records nor settles. -/
theorem perform {op : Store.Operation} {s' : Store} (h : w.store.Performs op s')
    (hf : op.files? = none) (hr : op.records? = none) (hs : op.settlements = []) :
    w.Evolves [op] { w with store := s' } where
  ids := .refl w.ids
  store := .single h
  files := fun op' hop a ha => by
    rw [List.mem_singleton.mp hop, hf] at ha
    cases ha
  records := fun op' hop t ht => by
    rw [List.mem_singleton.mp hop, hr] at ht
    cases ht
  settlements := fun m _ => by
    rw [List.flatMap_singleton, hs]
    rfl

theorem drawAsset (w : World) :
    w.Evolves [] { w with ids := { w.ids with assetsDrawn := w.ids.assetsDrawn + 1 } } where
  ids := ⟨rfl, rfl, Nat.le_succ _, Nat.le_refl _⟩
  store := .nil w.store
  files := fun _ h => by cases h
  records := fun _ h => by cases h
  settlements := fun _ _ => rfl

/-- An asset is filed under an id that was drawn for it. -/
theorem fileDrawn {op : Store.Operation} {s' : Store} {a : Asset} (h : w.store.Performs op s')
    (hf : op.files? = some a) (hid : a.id = w.ids.asset w.ids.assetsDrawn) :
    w.Evolves [op] { w with
      ids := { w.ids with assetsDrawn := w.ids.assetsDrawn + 1 }, store := s' } where
  ids := ⟨rfl, rfl, Nat.le_succ _, Nat.le_refl _⟩
  store := .single h
  files := fun op' hop b hb => by
    rw [List.mem_singleton.mp hop, hf] at hb
    cases hb
    exact ⟨_, Nat.le_refl _, Nat.lt_succ_self _, hid.symm⟩
  records := fun op' hop t ht => by
    rw [List.mem_singleton.mp hop] at ht
    cases h with
    | createTask => cases hf
    | _ => cases ht
  settlements := fun m _ => by
    have hs : op.settlements = [] := by
      cases h with
      | commit => cases hf
      | _ => rfl
    rw [List.flatMap_singleton, hs]
    rfl

theorem reject (w : World) (count : Nat) :
    w.Evolves [] { w with store := w.store.rejectTaskWrites count } where
  ids := .refl w.ids
  store := .reject count (.nil _)
  files := fun _ h => by cases h
  records := fun _ h => by cases h
  settlements := fun _ _ => rfl

end Evolves

/-! ## Sound worlds -/

/-- What is true of every world. -/
structure Sound (w : World) : Prop where
  wellFormed : w.store.WellFormed
  defaultsLead : w.store.DefaultsLead
  asset : ∀ x a, w.store.assets.get? x = some a → w.ids.HasDrawnAsset x
  task : ∀ id t, w.store.tasks.get? id = some t → w.ids.HasDrawnTask id

/-- A sound world stays sound, whatever happens. -/
theorem Sound.evolve {w w' : World} {ops : List Store.Operation} (hw : w.Sound)
    (h : w.Evolves ops w') : w'.Sound where
  wellFormed := h.store.wellFormed hw.wellFormed
  defaultsLead := h.store.defaultsLead hw.wellFormed hw.defaultsLead
  asset := fun x b hb => by
    cases ha : w.store.assets.get? x with
    | some a => exact h.ids.hasDrawnAsset (hw.asset x a ha)
    | none =>
      obtain ⟨op, hop, a, hf, rfl⟩ := h.store.exists_files_of_none hw.wellFormed ha hb
      exact h.ids.hasDrawnAsset_of_draws (h.files op hop a hf)
  task := fun id u hu => by
    cases ht : w.store.tasks.get? id with
    | some t => exact h.ids.hasDrawnTask (hw.task id t ht)
    | none =>
      obtain ⟨op, hop, t, hr, rfl⟩ := h.store.exists_records_of_none hw.wellFormed ht hu
      exact h.ids.hasDrawnTask_of_draws (h.records op hop t hr)

/-- What files no asset under a drawn id leaves assets and tasks as the operations say. -/
theorem Evolves.asset_of_some {w w' : World} {ops : List Store.Operation} (h : w.Evolves ops w')
    (hd : w'.ids.Distinct) (hw : w.Sound) {x : AssetId} {a b : Asset}
    (ha : w.store.assets.get? x = some a) (hb : w'.store.assets.get? x = some b) :
    b = ops.foldl (fun a op => op.onAsset x a) a ∧ a.Becomes b ∧
      w'.store.tasksOf x = ops.foldl (fun ts op => op.onTasks x ts) (w.store.tasksOf x) := by
  refine h.store.asset_of_some hw.wellFormed ha hb ?_
  rintro op hop c hc rfl
  exact h.ids.not_hasDrawnAsset hd (h.files op hop c hc) (hw.asset _ a ha)

/-- An asset is filed under an id that was not drawn before. -/
theorem Evolves.not_hasDrawnAsset {w w' : World} {ops : List Store.Operation}
    (h : w.Evolves ops w') (hd : w'.ids.Distinct) (hw : w.Sound) {x : AssetId} {b : Asset}
    (hx : w.store.assets.get? x = none) (hb : w'.store.assets.get? x = some b) :
    ¬ w.ids.HasDrawnAsset x := by
  obtain ⟨op, hop, a, hf, rfl⟩ := h.store.exists_files_of_none hw.wellFormed hx hb
  exact h.ids.not_hasDrawnAsset hd (h.files op hop a hf)

end World

end GeoAssets

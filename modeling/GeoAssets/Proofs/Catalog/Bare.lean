import GeoAssets.Catalog.Store.Assets
import GeoAssets.Catalog.Store.Tasks
import GeoAssets.Catalog.Store.Versions
import GeoAssets.Proofs.Directory
import Mathlib.Data.List.Basic

/-!
# Bare records

When something was noted, and whether the tile service could be told about a tile cache, has no
effect on what the store does. A record is bare without its times and without the notes on failures
to tell the tile service (`Store.bare`). Every operation does to bare records what it does to the
records as they are.
-/

namespace GeoAssets

/-! ## Records -/

namespace LogEntry

/-- The entry without its time. -/
def bare (e : LogEntry) : LogEntry :=
  { e with time := ⟨0, 0⟩ }

/-- The entry says that the tile service could not be told about a tile cache. -/
def isRedeployFailure (e : LogEntry) : Bool :=
  e.progress == .failed && e.message == "Failed to redeploy tile cache service"

end LogEntry

namespace ChangeLog

/-- The log without times. -/
def bare (log : ChangeLog) : ChangeLog :=
  log.map LogEntry.bare

theorem bare_append (log : ChangeLog) (e : LogEntry) :
    bare (log ++ [e]) = bare log ++ [e.bare] :=
  List.map_append

/-- The log without times, and without the entries about the tile service. -/
def bareNotes (log : ChangeLog) : ChangeLog :=
  bare (log.filter (!·.isRedeployFailure))

theorem bareNotes_append (log : ChangeLog) (e : LogEntry) :
    bareNotes (log ++ [e]) = bareNotes log ++ bareNotes [e.bare] := by
  have hentry : bareNotes [e] = bareNotes [e.bare] := by
    have he : e.bare.isRedeployFailure = e.isRedeployFailure := rfl
    rw [bareNotes, bareNotes, List.filter_cons, List.filter_cons, he]
    split <;> rfl
  rw [← hentry, bareNotes, List.filter_append]
  exact List.map_append

/-- What a log reports has nothing to do with times. -/
theorem progress_bare (log : ChangeLog) : progress (bare log) = progress log := by
  have hfinal : (fun e : LogEntry => e.progress.isTerminal) ∘ LogEntry.bare =
      fun e => e.progress.isTerminal := rfl
  unfold progress bare
  rw [← List.map_reverse, List.find?_map, hfinal]
  cases log.reverse.find? fun e => e.progress.isTerminal <;> rfl

end ChangeLog

/-- The dataset without times. -/
def Dataset.bare (d : Dataset) : Dataset :=
  { d with log := ChangeLog.bare d.log, created := ⟨0, 0⟩ }

/-- The version without times. -/
def Version.bare (v : Version) : Version :=
  { v with log := ChangeLog.bare v.log, created := ⟨0, 0⟩ }

/-- The asset without times, and without the entries about the tile service in its log. -/
def Asset.bare (a : Asset) : Asset :=
  { a with
    log := ChangeLog.bareNotes a.log
    created := ⟨0, 0⟩ }

/-- The task without times. -/
def Task.bare (t : Task) : Task :=
  { t with log := ChangeLog.bare t.log }

section

variable {a b : Asset}

theorem Asset.id_of_bare (h : a.bare = b.bare) : a.id = b.id :=
  (congrArg Asset.id h : a.bare.id = b.bare.id)

theorem Asset.key_of_bare (h : a.bare = b.bare) : a.key = b.key :=
  (congrArg Asset.key h : a.bare.key = b.bare.key)

theorem Asset.status_of_bare (h : a.bare = b.bare) : a.status = b.status :=
  (congrArg Asset.status h : a.bare.status = b.bare.status)

theorem Task.asset_of_bare {t u : Task} (h : t.bare = u.bare) : t.asset = u.asset :=
  (congrArg Task.asset h : t.bare.asset = u.bare.asset)

end

theorem Task.progress_bare (t : Task) : t.bare.progress = t.progress :=
  ChangeLog.progress_bare t.log

/-- The store with bare records. -/
def Store.bare (s : Store) : Store where
  datasets := s.datasets.mapValues fun _ => Dataset.bare
  versions := s.versions.mapValues fun _ => Version.bare
  assets := s.assets.mapValues fun _ => Asset.bare
  places := s.places
  tasks := s.tasks.mapValues fun _ => Task.bare
  assetTasks := s.assetTasks
  rejectedTaskWrites := s.rejectedTaskWrites

theorem orElseFail_map {α β : Type} (e : Error) (f : α → β) (a? : Option α) :
    orElseFail e (a?.map f) = f <$> orElseFail e a? := by
  cases a? <;> rfl

namespace Store

/-! ## Looking up -/

theorem bare_version (s : Store) (k : VersionKey) :
    s.bare.version k = Version.bare <$> s.version k := by
  show orElseFail _ ((s.versions.mapValues fun _ => Version.bare).get? k) = _
  rw [Directory.get?_mapValues, orElseFail_map]
  rfl

theorem bare_asset (s : Store) (x : AssetId) : s.bare.asset x = Asset.bare <$> s.asset x := by
  show orElseFail _ ((s.assets.mapValues fun _ => Asset.bare).get? x) = _
  rw [Directory.get?_mapValues, orElseFail_map]
  rfl

theorem bare_task (s : Store) (t : TaskId) : s.bare.task t = Task.bare <$> s.task t := by
  show orElseFail _ ((s.tasks.mapValues fun _ => Task.bare).get? t) = _
  rw [Directory.get?_mapValues, orElseFail_map]
  rfl

theorem bare_hasVersions (s : Store) (name : String) :
    s.bare.hasVersions name = s.hasVersions name := by
  unfold hasVersions
  rw [show s.bare.versions.keys = s.versions.keys from Directory.keys_mapValues _ _]

theorem bare_assetsOf (s : Store) (k : VersionKey) :
    s.bare.assetsOf k = (s.assetsOf k).map Asset.bare := by
  show ((s.assets.mapValues fun _ => Asset.bare).values.filter _).mergeSort _ = _
  rw [Directory.values_mapValues, List.filter_map]
  exact (List.map_mergeSort (f := Asset.bare) fun _ _ _ _ => rfl).symm

theorem bare_tasksOf (s : Store) (x : AssetId) :
    s.bare.tasksOf x = (s.tasksOf x).map Task.bare := by
  show ((s.assetTasks.get? x).getD []).filterMap (s.tasks.mapValues fun _ => Task.bare).get? = _
  unfold tasksOf
  rw [List.map_filterMap]
  exact List.filterMap_congr fun t _ => Directory.get?_mapValues _ _ t

/-! ## Filing and removing records -/

theorem bare_insertVersion (s : Store) (k : VersionKey) (v : Version) :
    ({ s with versions := s.versions.insert k v } : Store).bare =
      { s.bare with versions := s.bare.versions.insert k v.bare } := by
  rw [bare, Directory.mapValues_insert]
  rfl

theorem bare_insertAsset (s : Store) (x : AssetId) (a : Asset) :
    ({ s with assets := s.assets.insert x a } : Store).bare =
      { s.bare with assets := s.bare.assets.insert x a.bare } := by
  rw [bare, Directory.mapValues_insert]
  rfl

theorem bare_insertTask (s : Store) (id : TaskId) (t : Task) :
    ({ s with tasks := s.tasks.insert id t } : Store).bare =
      { s.bare with tasks := s.bare.tasks.insert id t.bare } := by
  rw [bare, Directory.mapValues_insert]
  rfl

theorem bare_fileAsset (s : Store) (a : Asset) :
    (s.fileAsset a).bare = s.bare.fileAsset a.bare := by
  rw [bare, fileAsset, Directory.mapValues_insert]
  rfl

theorem bare_removeAsset (s : Store) (a : Asset) :
    (s.removeAsset a).bare = s.bare.removeAsset a.bare := by
  rw [bare, removeAsset, Directory.mapValues_erase, Directory.mapValues_foldl_erase]
  rfl

theorem bare_foldl_removeAsset (as : List Asset) (s : Store) :
    (as.foldl removeAsset s).bare = (as.map Asset.bare).foldl removeAsset s.bare := by
  induction as generalizing s with
  | nil => rfl
  | cons a as ih => rw [List.foldl_cons, ih, bare_removeAsset, List.map_cons, List.foldl_cons]

/-! ## Datasets -/

theorem bare_createDataset (s : Store) (d : Dataset) :
    bare <$> s.createDataset d = s.bare.createDataset d.bare := by
  have hfree : s.bare.datasets.contains d.bare.name = s.datasets.contains d.name :=
    Directory.contains_mapValues _ _ _
  unfold createDataset
  rw [hfree, map_bind]
  refine bind_congr fun _ => congrArg Except.ok ?_
  rw [bare, Directory.mapValues_insert]
  rfl

theorem bare_deleteDataset (s : Store) (name : String) :
    Prod.map Dataset.bare bare <$> s.deleteDataset name = s.bare.deleteDataset name := by
  have hd : s.bare.datasets.get? name = (s.datasets.get? name).map Dataset.bare :=
    Directory.get?_mapValues _ _ _
  unfold deleteDataset
  rw [hd, orElseFail_map, bare_hasVersions, map_bind, bind_map_left]
  refine bind_congr fun d => ?_
  rw [map_bind]
  refine bind_congr fun _ => congrArg Except.ok (Prod.ext rfl ?_)
  show bare _ = _
  rw [bare, Directory.mapValues_erase]
  rfl

/-! ## Versions -/

theorem bare_demoteOthers (s : Store) (k : VersionKey) :
    (s.demoteOthers k).bare = s.bare.demoteOthers k := by
  rw [bare, demoteOthers, demoteOthers, Directory.mapValues_mapValues]
  congr 1
  show _ = (s.versions.mapValues fun _ => Version.bare).mapValues _
  rw [Directory.mapValues_mapValues]
  congr 1
  funext k' v
  split <;> rfl

theorem bare_setLatest (s : Store) (k : VersionKey) :
    Prod.map Version.bare bare <$> s.setLatest k = s.bare.setLatest k := by
  unfold setLatest
  rw [bare_version, map_bind, bind_map_left]
  refine bind_congr fun v => congrArg Except.ok (Prod.ext rfl ?_)
  show bare _ = _
  rw [bare_insertVersion, bare_demoteOthers]
  rfl

theorem bare_createVersion (s : Store) (v : Version) (a : Asset) :
    bare <$> s.createVersion v a = s.bare.createVersion v.bare a.bare := by
  have hdataset : s.bare.datasets.contains v.bare.key.dataset =
      s.datasets.contains v.key.dataset := Directory.contains_mapValues _ _ _
  have hfree : s.bare.versions.contains v.bare.key = s.versions.contains v.key :=
    Directory.contains_mapValues _ _ _
  unfold createVersion
  rw [hdataset, hfree, map_bind]
  refine bind_congr fun _ => ?_
  rw [map_bind]
  refine bind_congr fun _ => ?_
  rw [map_bind]
  refine bind_congr fun _ => congrArg Except.ok ?_
  rw [bare_fileAsset, bare_insertVersion]
  cases hlatest : v.isLatest with
  | false =>
    have : v.bare.isLatest = false := hlatest
    rw [this]
    rfl
  | true =>
    have : v.bare.isLatest = true := hlatest
    rw [this, if_pos rfl, if_pos rfl, bare_demoteOthers]
    rfl

theorem bare_appendVersionLog (s : Store) (k : VersionKey) (e : LogEntry) :
    bare <$> s.appendVersionLog k e = s.bare.appendVersionLog k e.bare := by
  unfold appendVersionLog
  rw [bare_version, map_bind, bind_map_left]
  refine bind_congr fun v => congrArg Except.ok ?_
  rw [bare_insertVersion, Version.bare, ChangeLog.bare_append]
  rfl

theorem bare_deleteVersion (s : Store) (k : VersionKey) :
    Prod.map Version.bare bare <$> s.deleteVersion k = s.bare.deleteVersion k := by
  have hkeys : s.bare.versions.keys = s.versions.keys := Directory.keys_mapValues _ _
  have howned : s.bare.assets.values.filter (·.key == k) =
      (s.assets.values.filter (·.key == k)).map Asset.bare := by
    show (s.assets.mapValues fun _ => Asset.bare).values.filter _ = _
    rw [Directory.values_mapValues, List.filter_map]
    rfl
  unfold deleteVersion
  rw [bare_version, map_bind, bind_map_left]
  refine bind_congr fun v => ?_
  rw [hkeys, howned, map_bind]
  refine bind_congr fun _ => congrArg Except.ok (Prod.ext rfl ?_)
  show bare _ = _
  rw [← bare_foldl_removeAsset, bare, Directory.mapValues_erase]
  rfl

/-! ## Assets -/

theorem bare_createAsset (s : Store) (a : Asset) :
    bare <$> s.createAsset a = s.bare.createAsset a.bare := by
  have hversion : s.bare.versions.contains a.bare.key = s.versions.contains a.key :=
    Directory.contains_mapValues _ _ _
  have hfree : s.bare.assets.contains a.bare.id = s.assets.contains a.id :=
    Directory.contains_mapValues _ _ _
  have hdefault : (s.bare.assets.values.any fun b => b.isDefault && b.key == a.bare.key) =
      s.assets.values.any fun b => b.isDefault && b.key == a.key := by
    show (s.assets.mapValues fun _ => Asset.bare).values.any _ = _
    rw [Directory.values_mapValues, List.any_map]
    rfl
  unfold createAsset
  rw [hversion, hfree, hdefault, map_bind]
  refine bind_congr fun _ => ?_
  rw [map_bind]
  refine bind_congr fun _ => ?_
  rw [map_bind]
  refine bind_congr fun _ => ?_
  rw [map_bind]
  exact bind_congr fun _ => congrArg Except.ok (bare_fileAsset s a)

theorem bare_setExpectedTasks (s : Store) (x : AssetId) (count : UInt32) :
    bare <$> s.setExpectedTasks x count = s.bare.setExpectedTasks x count := by
  unfold setExpectedTasks updateAsset
  rw [bare_asset, map_bind, bind_map_left]
  refine bind_congr fun a => congrArg Except.ok ?_
  rw [bare_insertAsset]
  rfl

theorem bare_deleteAsset (s : Store) (x : AssetId) :
    Prod.map Asset.bare bare <$> s.deleteAsset x = s.bare.deleteAsset x := by
  unfold deleteAsset
  rw [bare_asset, map_bind, bind_map_left]
  refine bind_congr fun a => ?_
  rw [map_bind]
  exact bind_congr fun _ => congrArg Except.ok (Prod.ext rfl (bare_removeAsset s a))

/-- A note that the tile service could not be told leaves the bare records alone. -/
theorem bare_appendAssetLog {s s' : Store} {x : AssetId} {e : LogEntry}
    (he : e.isRedeployFailure = true) (h : s.appendAssetLog x e = .ok s') : s'.bare = s.bare := by
  simp only [appendAssetLog, updateAsset, bind_eq_ok_iff] at h
  obtain ⟨a, ha, h⟩ := h
  cases h
  have hlog : ({ a with log := a.log ++ [e] } : Asset).bare = a.bare := by
    rw [Asset.bare, ChangeLog.bareNotes, List.filter_append,
      List.filter_cons_of_neg (by simp [he]), List.filter_nil, List.append_nil]
    rfl
  have hbare : s.bare.assets.get? x = some a.bare := by
    show (s.assets.mapValues fun _ => Asset.bare).get? x = _
    rw [Directory.get?_mapValues, orElseFail_eq_ok_iff.mp ha]
    rfl
  rw [bare_insertAsset, hlog, Directory.insert_of_get? hbare]

/-! ## Tasks -/

theorem bare_createTask (s : Store) (t : Task) :
    Prod.map id bare (s.createTask t) = s.bare.createTask t.bare := by
  have hasset : s.bare.assets.contains t.asset = s.assets.contains t.asset :=
    Directory.contains_mapValues _ _ _
  have hfree : s.bare.tasks.contains t.id = s.tasks.contains t.id :=
    Directory.contains_mapValues _ _ _
  show _ = if 0 < s.rejectedTaskWrites then _
    else if !s.bare.assets.contains t.asset then _
    else if s.bare.tasks.contains t.id then _
    else _
  rw [hasset, hfree, createTask]
  split
  · rfl
  split
  · rfl
  split
  · rfl
  · refine Prod.ext rfl ?_
    show bare _ = _
    rw [bare, Directory.mapValues_insert]
    rfl

theorem bare_appendTaskLog (s : Store) (id : TaskId) (e : LogEntry) :
    Prod.map Task.bare bare <$> s.appendTaskLog id e = s.bare.appendTaskLog id e.bare := by
  have happend : ∀ t : Task, ({ t with log := t.log ++ [e] } : Task).bare =
      { t.bare with log := t.bare.log ++ [e.bare] } := fun t => by
    rw [Task.bare, ChangeLog.bare_append]
    rfl
  unfold appendTaskLog
  rw [bare_task, map_bind, bind_map_left]
  refine bind_congr fun t => congrArg Except.ok (Prod.ext (happend t) ?_)
  show bare _ = _
  rw [bare_insertTask, happend]

end Store

/-! ## Transitions -/

/-- The transition without times. -/
def Transition.bare (t : Transition) : Transition :=
  { t with entry := t.entry.bare, version := t.version.map (Prod.map id LogEntry.bare) }

/-- What became of a transition, with bare records. -/
def CommitResult.bare : CommitResult → CommitResult
  | .applied a v => .applied a.bare (v.map Version.bare)
  | .settled status => .settled status
  | .missing => .missing

theorem Transition.bare_applyAsset (t : Transition) (a : Asset) : (t.applyAsset a).bare =
    { t.bare.applyAsset a.bare with
      log := a.bare.log ++ ChangeLog.bareNotes [t.bare.entry] } := by
  rw [Asset.bare, applyAsset, ChangeLog.bareNotes_append]
  rfl

theorem Transition.bare_applyVersion (change : Status × LogEntry) (v : Version) :
    (applyVersion change v).bare = applyVersion (Prod.map id LogEntry.bare change) v.bare := by
  rw [Version.bare, applyVersion, ChangeLog.bare_append]
  rfl

namespace Store

variable {s s' : Store}

theorem asset_bare (hs : s.bare = s'.bare) (x : AssetId) :
    (s.assets.get? x).map Asset.bare = (s'.assets.get? x).map Asset.bare := by
  have := congrArg (fun s : Store => s.assets.get? x) hs
  simpa only [bare, Directory.get?_mapValues] using this

theorem version_bare (hs : s.bare = s'.bare) (k : VersionKey) :
    (s.versions.get? k).map Version.bare = (s'.versions.get? k).map Version.bare := by
  have := congrArg (fun s : Store => s.versions.get? k) hs
  simpa only [bare, Directory.get?_mapValues] using this

/-- What becomes of a version once its asset has changed. -/
def commitVersion (s : Store) (a : Asset) (change? : Option (Status × LogEntry)) :
    CommitResult × Store :=
  match change?, s.versions.get? a.key with
  | some change, some v =>
    let v := Transition.applyVersion change v
    (.applied a (some v), { s with versions := s.versions.insert a.key v })
  | _, _ => (.applied a none, s)

theorem commit_eq_commitVersion {t : Transition} {a : Asset} (ha : s.assets.get? t.asset = some a)
    (hpending : a.status.isTerminal = false) : s.commit t =
      ({ s with assets := s.assets.insert t.asset (t.applyAsset a) } : Store).commitVersion
        (t.applyAsset a) t.version := by
  unfold commit
  rw [ha]
  dsimp only
  rw [if_neg (by simp [hpending])]
  rfl

theorem bare_commitVersion {a a' : Asset} {change? change?' : Option (Status × LogEntry)}
    (hs : s.bare = s'.bare) (ha : a.bare = a'.bare)
    (hc : change?.map (Prod.map id LogEntry.bare) = change?'.map (Prod.map id LogEntry.bare)) :
    Prod.map CommitResult.bare bare (s.commitVersion a change?) =
      Prod.map CommitResult.bare bare (s'.commitVersion a' change?') := by
  have hkey := Asset.key_of_bare ha
  have hnothing : Prod.map CommitResult.bare bare (.applied a none, s) =
      Prod.map CommitResult.bare bare (.applied a' none, s') :=
    Prod.ext (congrArg (CommitResult.applied · none) ha) hs
  have hv := version_bare hs a.key
  unfold commitVersion
  rw [← hkey]
  rcases change? with _ | change <;> rcases change?' with _ | change'
  · exact hnothing
  · cases hc
  · cases hc
  rcases hget : s.versions.get? a.key with _ | v <;>
    rcases hget' : s'.versions.get? a.key with _ | v' <;> rw [hget, hget'] at hv
  · exact hnothing
  · cases hv
  · cases hv
  have happly : (Transition.applyVersion change v).bare =
      (Transition.applyVersion change' v').bare := by
    rw [Transition.bare_applyVersion, Transition.bare_applyVersion, Option.some.inj hv,
      Option.some.inj hc]
  refine Prod.ext (congrArg₂ CommitResult.applied ha (congrArg some happly)) ?_
  show bare _ = bare _
  rw [bare_insertVersion, bare_insertVersion, hs, happly]

/-- Transitions that differ in times do the same to stores that differ in times and in notes on the
tile service. -/
theorem bare_commit {t t' : Transition} (hs : s.bare = s'.bare) (ht : t.bare = t'.bare) :
    Prod.map CommitResult.bare bare (s.commit t) =
      Prod.map CommitResult.bare bare (s'.commit t') := by
  have hx : t.asset = t'.asset := (congrArg Transition.asset ht : t.bare.asset = t'.bare.asset)
  have hget := asset_bare hs t.asset
  rcases ha : s.assets.get? t.asset with _ | a <;>
    rcases ha' : s'.assets.get? t.asset with _ | a' <;> rw [ha, ha'] at hget
  · unfold commit
    rw [← hx, ha, ha']
    exact Prod.ext rfl hs
  · cases hget
  · cases hget
  have hbare : a.bare = a'.bare := Option.some.inj hget
  have hstatus := Asset.status_of_bare hbare
  by_cases hfinal : a.status.isTerminal = true
  · unfold commit
    rw [← hx, ha, ha']
    dsimp only
    rw [← hstatus, if_pos hfinal, if_pos hfinal]
    exact Prod.ext rfl hs
  have happly : (t.applyAsset a).bare = (t'.applyAsset a').bare := by
    rw [Transition.bare_applyAsset, Transition.bare_applyAsset, hbare, ht]
  rw [hx] at ha'
  rw [commit_eq_commitVersion ha (by simpa using hfinal),
    commit_eq_commitVersion ha' (by simpa [← hstatus] using hfinal)]
  refine bare_commitVersion ?_ happly (congrArg Transition.version ht)
  rw [bare_insertAsset, bare_insertAsset, hs, hx, happly]

end Store

end GeoAssets

import GeoAssets.Compute.Cluster
import GeoAssets.Options.Basic
import GeoAssets.Proofs.Json.Codec

/-!
# Values on the wire

Creation options, metadata, attempts, jobs, requests to the cluster and settings persist: what is
written of them, by way of JSON text or without it, is read back as it was. Options that were
accepted without their kind are read back with it, and are still valid.
-/

namespace GeoAssets

/-! ## Fields and metadata -/

instance : Column.codec.WritesPlain :=
  Layout.codec_writesPlain (by unfold Column.layout; infer_instance) (by decide)

instance : Field.codec.WritesPlain :=
  Layout.codec_writesPlain (by unfold Field.layout; infer_instance) (by decide)

instance : AssetMetadata.codec.WritesPlain :=
  Layout.codec_writesPlain (by unfold AssetMetadata.layout; infer_instance) (by decide)

theorem AssetMetadata.codec_persists : codec.Persists :=
  Codec.persists (Layout.codec_roundTrips layout_reads)

/-! ## Jobs -/

instance : TaskId.codec.WritesPlain :=
  inferInstanceAs (Codec.via ..).WritesPlain

instance : JobKind.codec.WritesPlain :=
  inferInstanceAs (Codec.namedBy ..).WritesPlain

instance : Resources.codec.WritesPlain :=
  Layout.codec_writesPlain (by unfold Resources.layout; infer_instance) (by decide)

instance : EnvVar.codec.WritesPlain :=
  Layout.codec_writesPlain (by unfold EnvVar.layout; infer_instance) (by decide)

instance : JobAttempt.codec.WritesPlain :=
  Layout.codec_writesPlain (by unfold JobAttempt.layout; infer_instance) (by decide)

instance : Job.codec.WritesPlain :=
  Layout.codec_writesPlain (by unfold Job.layout; infer_instance) (by decide)

instance : SubmitRequest.codec.WritesPlain :=
  Layout.codec_writesPlain (by unfold SubmitRequest.layout; infer_instance) (by decide)

theorem JobAttempt.codec_persists : codec.Persists :=
  Codec.persists (Layout.codec_roundTrips layout_reads)

theorem Job.codec_persists : codec.Persists :=
  Codec.persists (Layout.codec_roundTrips layout_reads)

theorem SubmitRequest.codec_persists : codec.Persists :=
  Codec.persists (Layout.codec_roundTrips layout_reads)

/-! ## Settings -/

instance : JobTarget.codec.WritesPlain :=
  Layout.codec_writesPlain (by unfold JobTarget.layout; infer_instance) (by decide)

instance : Connection.codec.WritesPlain :=
  Layout.codec_writesPlain (by unfold Connection.layout; infer_instance) (by decide)

/-- The members of job targets are in the order of the kinds. -/
theorem JobTargets.names_sublist (targets : JobTargets) (kinds : List JobKind) :
    ((kinds.filterMap fun kind => (targets.get? kind).map fun target =>
        (kind.name, JobTarget.codec.encode target)).map Prod.fst).Sublist
      (kinds.map JobKind.name) := by
  induction kinds with
  | nil => exact .slnil
  | cons kind kinds ih =>
    cases h : targets.get? kind with
    | none => simpa [h] using ih.cons kind.name
    | some target => simpa [h] using ih.cons_cons kind.name

instance : JobTargets.codec.WritesPlain where
  plain targets := by
    refine .object ((targets.names_sublist JobKind.all).nodup (by decide)) fun m hm => ?_
    obtain ⟨kind, _, hkind⟩ := List.mem_filterMap.mp hm
    obtain ⟨target, _, rfl⟩ := Option.map_eq_some_iff.mp hkind
    exact Codec.WritesPlain.plain (c := JobTarget.codec) target

instance : Settings.codec.WritesPlain :=
  Layout.codec_writesPlain (by unfold Settings.layout; infer_instance) (by decide)

theorem Settings.codec_persists : codec.Persists :=
  Codec.persists (Layout.codec_roundTrips layout_reads)

/-! ## Creation options -/

section Names

variable {rule : Codec.NameRule}

instance : (IndexMethod.codec rule).WritesPlain :=
  inferInstanceAs (Codec.namedBy ..).WritesPlain

instance : (IndexSpec.codec rule).WritesPlain :=
  Layout.codec_writesPlain (by unfold IndexSpec.layout; infer_instance) (by cases rule <;> decide)

instance : (VectorDriver.codec rule).WritesPlain :=
  inferInstanceAs (Codec.namedBy ..).WritesPlain

instance : (TableDriver.codec rule).WritesPlain :=
  inferInstanceAs (Codec.namedBy ..).WritesPlain

instance : (Delimiter.codec rule).WritesPlain :=
  inferInstanceAs (Codec.namedBy ..).WritesPlain

instance : ListPartition.layout.codec.WritesPlain :=
  Layout.codec_writesPlain (by unfold ListPartition.layout; infer_instance) (by decide)

instance : RangePartition.layout.codec.WritesPlain :=
  Layout.codec_writesPlain (by unfold RangePartition.layout; infer_instance) (by decide)

instance : PartitionScheme.hashLayout.codec.WritesPlain :=
  Layout.codec_writesPlain (by unfold PartitionScheme.hashLayout; infer_instance) (by decide)

theorem PartitionScheme.encodeBody_plain (s : PartitionScheme) : s.encodeBody.Plain := by
  cases s with
  | hash count => exact Codec.WritesPlain.plain (c := hashLayout.codec) count
  | list parts => exact Codec.WritesPlain.plain (c := ListPartition.layout.codec.list) parts
  | range parts => exact Codec.WritesPlain.plain (c := RangePartition.layout.codec.list) parts

instance : (PartitionScheme.codec rule).WritesPlain where
  plain s := by
    refine .object (by simp) fun m hm => ?_
    simp only [List.mem_cons, List.not_mem_nil, or_false] at hm
    rcases hm with rfl | rfl
    · exact .string s.kind
    · exact s.encodeBody_plain

instance : (Partitions.codec rule).WritesPlain :=
  Layout.codec_writesPlain (by unfold Partitions.layout; infer_instance) (by cases rule <;> decide)

instance : (TileStrategy.codec rule).WritesPlain :=
  inferInstanceAs (Codec.namedBy ..).WritesPlain

end Names

instance : CreationOptions.codec.WritesPlain where
  plain options := by
    have hkind := Json.Plain.string options.kind
    show (Json.object (("kind", .string options.kind) :: options.writeBody)).Plain
    cases options with
    | vectorSource s =>
      exact Layout.plain_beside (l := VectorSource.layout .lenient)
        (by unfold VectorSource.layout; infer_instance) (by decide) hkind s
    | tableSource s =>
      exact Layout.plain_beside (l := TableSource.layout .lenient)
        (by unfold TableSource.layout; infer_instance) (by decide) hkind s
    | rasterSource g | rasterTileSet g =>
      exact Layout.plain_beside (l := RasterGrid.layout)
        (by unfold RasterGrid.layout; infer_instance) (by decide) hkind g
    | dynamicTiles t =>
      exact Layout.plain_beside (l := DynamicTiles.layout)
        (by unfold DynamicTiles.layout; infer_instance) (by decide) hkind t
    | staticTiles t =>
      exact Layout.plain_beside (l := StaticTiles.layout .lenient)
        (by unfold StaticTiles.layout; infer_instance) (by decide) hkind t
    | vectorFile f =>
      exact Layout.plain_beside (l := VectorFile.layout)
        (by unfold VectorFile.layout; infer_instance) (by decide) hkind f
    | rasterTiles t =>
      exact Layout.plain_beside (l := RasterTiles.layout)
        (by unfold RasterTiles.layout; infer_instance) (by decide) hkind t

theorem CreationOptions.codec_persists : codec.Persists :=
  Codec.persists codec_roundTrips

/-! ## Accepted options -/

namespace CreationOptions

/-- What is checked is valid if it passes. -/
theorem validate_of_checked {read : Option CreationOptions} {options : CreationOptions}
    (h : checked read = .ok options) : options.validate = .ok () := by
  obtain ⟨found, _, h⟩ := bind_eq_ok_iff.mp h
  obtain ⟨_, hvalid, h⟩ := bind_eq_ok_iff.mp h
  cases h
  exact hvalid

theorem validate_of_forSource {sourceType : String} {body : Json} {options : CreationOptions}
    (h : forSource sourceType body = .ok options) : options.validate = .ok () := by
  obtain ⟨type, _, h⟩ := bind_eq_ok_iff.mp h
  cases type with
  | vector | table | raster => exact validate_of_checked h

theorem validate_of_forAssetType {type : AssetType} {body : Json} {options : CreationOptions}
    (h : forAssetType type body = .ok options) : options.validate = .ok () := by
  unfold forAssetType at h
  split at h
  case h_7 => cases h
  all_goals exact validate_of_checked h

/-- Options that are written with their kind, read back with it, and valid. -/
structure KeptValid (options : CreationOptions) : Prop where
  tagged : (codec.encode options).member? "kind" = some (.string options.kind)
  decode_encode : codec.decode (codec.encode options) = some options
  parse?_text : codec.parse? (codec.text options) = some options
  valid : options.validate = .ok ()

theorem keptValid {options : CreationOptions} (h : options.validate = .ok ()) :
    options.KeptValid where
  tagged := rfl
  decode_encode := codec_persists.decode_encode options
  parse?_text := codec_persists.parse?_text options
  valid := h

end CreationOptions

/-! ## All values -/

/-- Every type that goes over the wire persists, and whatever options are accepted for a source or a
derived asset are read back with their kind and are still valid. -/
theorem wire_persists :
    CreationOptions.codec.Persists ∧ AssetMetadata.codec.Persists ∧ JobAttempt.codec.Persists
      ∧ Job.codec.Persists ∧ SubmitRequest.codec.Persists ∧ Settings.codec.Persists
      ∧ (∀ sourceType body options, CreationOptions.forSource sourceType body = .ok options →
          options.KeptValid)
      ∧ ∀ type body options, CreationOptions.forAssetType type body = .ok options →
          options.KeptValid :=
  ⟨CreationOptions.codec_persists, AssetMetadata.codec_persists, JobAttempt.codec_persists,
    Job.codec_persists, SubmitRequest.codec_persists, Settings.codec_persists,
    fun _ _ _ h => CreationOptions.keptValid (CreationOptions.validate_of_forSource h),
    fun _ _ _ h => CreationOptions.keptValid (CreationOptions.validate_of_forAssetType h)⟩

/-- The options of a table that is split by lists of values, without their kind. -/
def splitTableBody : Json :=
  .object [("source_uri", .array [.string "s3://bucket/points.csv"]),
    ("partitions", .object [("partition_column", .string "year"),
      ("schema", .object [("partition_type", .string "list"),
        ("partition_schema", .array [.object [("partition_suffix", .string "early"),
          ("value_list", .array [.string "2000", .string "2001"])]])])])]

/-- The options of a table that is split by lists of values. -/
def splitTable : CreationOptions :=
  .tableSource {
    files := ["s3://bucket/points.csv"]
    partitions := some ⟨"year", .list [⟨"early", ["2000", "2001"]⟩]⟩ }

/-- A split table and a tile cache without any options are accepted and kept. -/
theorem splitTable_keptValid :
    CreationOptions.forSource "table" splitTableBody = .ok splitTable ∧ splitTable.KeptValid
      ∧ CreationOptions.forAssetType .dynamicVectorTileCache (.object []) = .ok (.dynamicTiles {})
      ∧ (CreationOptions.dynamicTiles {}).KeptValid :=
  have forSource : CreationOptions.forSource "table" splitTableBody = .ok splitTable := by rfl
  have forAssetType :
      CreationOptions.forAssetType .dynamicVectorTileCache (.object []) = .ok (.dynamicTiles {}) :=
    by rfl
  have ⟨_, _, _, _, _, _, source, asset⟩ := wire_persists
  ⟨forSource, source _ _ _ forSource, forAssetType, asset _ _ _ forAssetType⟩

end GeoAssets

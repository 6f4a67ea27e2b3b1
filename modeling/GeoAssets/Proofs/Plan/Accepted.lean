import GeoAssets.Plan.Basic
import GeoAssets.Proofs.Plan.Sources

/-!
# Which plans are accepted

The plan for a source is accepted if the options are valid, no two indices have the same name, and
no job would wait for more indices than a job may wait for. How much there is to load does not
matter. An accepted plan follows the template of its options.
-/

namespace GeoAssets

/-- Settings are valid if a job may wait for others, and for the ends of all load queues. -/
theorem Settings.validate_eq_ok_iff {s : Settings} :
    s.validate = .ok () ↔ 1 ≤ s.maxParents.toNat ∧ 1 ≤ s.maxLoadQueues.toNat ∧
      s.maxLoadQueues.toNat ≤ s.maxParents.toNat := by
  unfold Settings.validate
  simp only [bind_eq_ok_iff, require_eq_ok_iff, Bool.and_eq_true, bne_iff_ne, decide_eq_true_eq,
    Plan.one_le_toNat_iff, UInt64.le_iff_toNat_le, exists_const]

/-- No job waits for more indices than it may: neither the jobs that cluster the table, nor the one
that waits for these, too. -/
def CreationOptions.FansIn (limit : Nat) : CreationOptions → Prop
  | .vectorSource s =>
    ¬(s.cluster.isSome ∧ limit < s.indices.length) ∧
      ¬(s.addToGeostore ∧ limit < s.indices.length + if s.cluster.isSome then 1 else 0)
  | .tableSource s => ¬(s.partitions.isSome ∧ limit < s.indices.length)
  | _ => True

instance (limit : Nat) : (options : CreationOptions) → Decidable (options.FansIn limit)
  | .vectorSource _ => inferInstanceAs (Decidable (_ ∧ _))
  | .tableSource _ => inferInstanceAs (Decidable (¬_))
  | .rasterSource _ | .dynamicTiles _ | .staticTiles _ | .vectorFile _ | .rasterTileSet _
  | .rasterTiles _ => .isTrue trivial

/-- The same source with other files, and with other layers if it has layers. -/
def CreationOptions.withFiles (files : List String) (layers : Option (List String)) :
    CreationOptions → CreationOptions
  | .vectorSource s => .vectorSource { s with files, layers }
  | .tableSource s => .tableSource { s with files }
  | options => options

/-- Options of every kind are refused with a reason. -/
theorem CreationOptions.refusesOptions_validate (options : CreationOptions) :
    RefusesOptions options.validate := by
  cases options with
  | vectorSource s => exact s.refusesOptions_validate
  | tableSource s => exact s.refusesOptions_validate
  | vectorFile f => exact refusesOptions_ok ()
  | rasterSource g => exact refusesOptions_require _ _
  | dynamicTiles t => exact refusesOptions_require _ _
  | staticTiles t => exact refusesOptions_require _ _
  | rasterTileSet g => exact refusesOptions_require _ _
  | rasterTiles t => exact refusesOptions_require _ _

namespace Plan

/-- The brief for other options. -/
def Brief.withOptions (b : Brief) (options : CreationOptions) : Brief :=
  { b with asset := { b.asset with options := some options } }

/-! ## Templates of sources -/

/-- The template of the plan for a source. -/
def template? (limit : Nat) : CreationOptions → Option Template
  | .vectorSource s => some (Vector.template limit s)
  | .tableSource s => some (Table.template limit s)
  | _ => none

theorem Template.nodup_iff {limit : Nat} {options : CreationOptions} {t : Template}
    (ht : template? limit options = some t) (hv : options.validate = .ok ()) :
    t.names.Nodup ↔ (options.indices.map (·.slug)).Nodup := by
  cases options <;> cases ht
  · exact Vector.nodup_template limit _
  · exact Table.nodup_template limit hv

theorem Template.fansIn_iff {limit : Nat} {options : CreationOptions} {t : Template}
    (ht : template? limit options = some t) (hv : options.validate = .ok ()) :
    t.FansIn limit ↔ options.FansIn limit := by
  cases options <;> cases ht
  · next s =>
    cases hcluster : s.cluster <;> cases hgeostore : s.addToGeostore <;>
      simp [Template.FansIn, CreationOptions.FansIn, Vector.template, hcluster, hgeostore]
  · next s =>
    have hsplit : s.partitionSuffixes = [] ↔ s.partitions = none :=
      TableSource.partitionSuffixes_eq_nil_iff hv
    cases hpartitions : s.partitions <;>
      simp [Template.FansIn, CreationOptions.FansIn, Table.template, hsplit, hpartitions]

variable {b : Brief} {options : CreationOptions} {t : Template}

/-- The plan for a valid source consists of wired parts with the names of the template. -/
theorem exists_parts (hparents : 1 ≤ b.settings.maxParents.toNat)
    (hqueues : 1 ≤ b.settings.maxLoadQueues.toNat)
    (hle : b.settings.maxLoadQueues.toNat ≤ b.settings.maxParents.toNat)
    (ht : template? b.settings.maxParents.toNat options = some t) (hv : options.validate = .ok ()) :
    ∃ (p : Parts) (queues : Nat), jobs b options = .ok p.jobs ∧ p.Wired queues ∧
      queues ≤ b.settings.maxParents.toNat ∧ p.template = t := by
  cases options <;> cases ht
  · next s =>
    obtain ⟨loaded, queues, hload, hqueued, hwithin, hnames⟩ :=
      Vector.loadsInQueues hv hparents hqueues hle
    exact ⟨Vector.parts b s loaded, queues, Vector.jobs_eq hload, Vector.parts_wired hqueued,
      hwithin, Vector.template_parts hnames⟩
  · next s =>
    exact ⟨Table.parts b s, _, Table.jobs_eq hparents,
      Table.parts_wired (TableSource.files_ne_nil hv), chunkCount_le hparents _,
      Table.template_parts b s⟩

/-! ## Building -/

/-- What is left once the options have been checked. -/
theorem build_eq_bind (hoptions : b.asset.options = some options) (hv : options.validate = .ok ())
    (hfits : options.fits b.asset.type = true) :
    build b = (jobs b options >>= fun js => JobGraph.ofJobs js >>= fun g =>
      checkFanIn b.settings g >>= fun _ => .ok g) := by
  unfold build
  rw [hoptions]
  simp only [orElseFail, bind, Except.bind, hv, hfits, require, if_true]
  rfl

theorem build_eq (hoptions : b.asset.options = some options) (hv : options.validate = .ok ())
    (hfits : options.fits b.asset.type = true) {js : List Job} (hjobs : jobs b options = .ok js) :
    build b = (JobGraph.ofJobs js >>= fun g => checkFanIn b.settings g >>= fun _ => .ok g) := by
  rw [build_eq_bind hoptions hv hfits, hjobs]
  rfl

theorem checkFanIn_of_le {settings : Settings} {g : JobGraph}
    (h : g.maxFanIn ≤ settings.maxParents.toNat) : checkFanIn settings g = .ok () :=
  if_pos (decide_eq_true h)

theorem checkFanIn_of_not_le {settings : Settings} {g : JobGraph}
    (h : ¬g.maxFanIn ≤ settings.maxParents.toNat) :
    ∃ reason, checkFanIn settings g = .error (.invalidOptions reason) :=
  ⟨_, if_neg (by simpa using h)⟩

/-- The plan for a valid source is accepted, and follows its template, if the template has distinct
names and no fan-in that is too large; it is refused otherwise. -/
theorem build_cases (hparents : 1 ≤ b.settings.maxParents.toNat)
    (hqueues : 1 ≤ b.settings.maxLoadQueues.toNat)
    (hle : b.settings.maxLoadQueues.toNat ≤ b.settings.maxParents.toNat)
    (hoptions : b.asset.options = some options) (hv : options.validate = .ok ())
    (hfits : options.fits b.asset.type = true)
    (ht : template? b.settings.maxParents.toNat options = some t) :
    (t.names.Nodup ∧ t.FansIn b.settings.maxParents.toNat ∧ ∃ g, build b = .ok g ∧ Follows g t) ∨
      (¬(t.names.Nodup ∧ t.FansIn b.settings.maxParents.toNat) ∧
        ∃ reason, build b = .error (.invalidOptions reason)) := by
  obtain ⟨p, queues, hjobs, hw, hwithin, rfl⟩ := exists_parts hparents hqueues hle ht hv
  rw [build_eq hoptions hv hfits hjobs]
  by_cases hn : (names p.jobs).Nodup
  · obtain ⟨g, hg, hall, horder⟩ := hw.exists_graph hn
    have hfan : g.maxFanIn ≤ b.settings.maxParents.toNat ↔
        p.template.FansIn b.settings.maxParents.toNat := by
      rw [JobGraph.maxFanIn_le_iff, hall, hw.fanIn_iff hwithin]
    rw [hg]
    by_cases hlimit : p.template.FansIn b.settings.maxParents.toNat
    · refine Or.inl ⟨p.names_jobs ▸ hn, hlimit, g, ?_, hw.follows hn hall horder⟩
      simp only [bind, Except.bind, checkFanIn_of_le (hfan.mpr hlimit)]
    · obtain ⟨reason, hreason⟩ := checkFanIn_of_not_le (mt hfan.mp hlimit)
      refine Or.inr ⟨fun h => hlimit h.2, reason, ?_⟩
      simp only [bind, Except.bind, hreason]
  · obtain ⟨reason, hreason⟩ := JobGraph.ofJobs_of_not_nodup hn
    refine Or.inr ⟨fun h => hn (p.names_jobs ▸ h.1), reason, ?_⟩
    rw [hreason]
    rfl

/-- A plan is accepted only if the options are valid and fit the type of the asset. -/
theorem valid_of_build {g : JobGraph} (hoptions : b.asset.options = some options)
    (h : build b = .ok g) : options.validate = .ok () ∧ options.fits b.asset.type = true := by
  obtain ⟨_, hsome, h⟩ := bind_eq_ok_iff.mp h
  obtain rfl : options = _ := Option.some.inj (hoptions.symm.trans (orElseFail_eq_ok_iff.mp hsome))
  obtain ⟨_, hv, h⟩ := bind_eq_ok_iff.mp h
  obtain ⟨_, hfits, _⟩ := bind_eq_ok_iff.mp h
  exact ⟨hv, require_eq_ok_iff.mp hfits⟩

/-- An accepted plan is the graph of the jobs for the options. -/
theorem ofJobs_of_build {g : JobGraph} (hoptions : b.asset.options = some options)
    (h : build b = .ok g) : ∃ js, jobs b options = .ok js ∧ JobGraph.ofJobs js = .ok g := by
  obtain ⟨_, hsome, h⟩ := bind_eq_ok_iff.mp h
  obtain rfl : options = _ := Option.some.inj (hoptions.symm.trans (orElseFail_eq_ok_iff.mp hsome))
  simp only [bind_eq_ok_iff] at h
  obtain ⟨_, _, _, _, js, hjs, g', hg, _, _, h⟩ := h
  cases h
  exact ⟨js, hjs, hg⟩

/-- Options that are not valid are refused for the reason that is found. -/
theorem build_of_invalid (hoptions : b.asset.options = some options) {e : Error}
    (hv : options.validate = .error e) : build b = .error e := by
  unfold build
  rw [hoptions]
  simp only [orElseFail, bind, Except.bind, hv]

theorem exists_template? {limit : Nat}
    (hsource : (∃ s, options = .vectorSource s) ∨ ∃ s, options = .tableSource s) :
    ∃ t, template? limit options = some t := by
  rcases hsource with ⟨s, rfl⟩ | ⟨s, rfl⟩ <;> exact ⟨_, rfl⟩

/-- Sources become tables in the database. -/
theorem fits_of_isDatabase {type : AssetType} (htype : type.isDatabase = true)
    (hsource : (∃ s, options = .vectorSource s) ∨ ∃ s, options = .tableSource s) :
    options.fits type = true := by
  rcases hsource with ⟨s, rfl⟩ | ⟨s, rfl⟩ <;> exact htype

/-! ## Acceptance -/

/-- The plan for a source is accepted if and only if the options are valid, no two indices have the
same name, and no job waits for more indices than it may. -/
theorem exists_build_iff (hparents : 1 ≤ b.settings.maxParents.toNat)
    (hqueues : 1 ≤ b.settings.maxLoadQueues.toNat)
    (hle : b.settings.maxLoadQueues.toNat ≤ b.settings.maxParents.toNat)
    (htype : b.asset.type.isDatabase = true) (hoptions : b.asset.options = some options)
    (hsource : (∃ s, options = .vectorSource s) ∨ ∃ s, options = .tableSource s) :
    (∃ g, build b = .ok g) ↔ options.validate = .ok () ∧ (options.indices.map (·.slug)).Nodup ∧
      options.FansIn b.settings.maxParents.toNat := by
  obtain ⟨t, ht⟩ := exists_template? hsource
  have hfits := fits_of_isDatabase htype hsource
  constructor
  · rintro ⟨g, hg⟩
    have hv := (valid_of_build hoptions hg).1
    rw [← Template.nodup_iff ht hv, ← Template.fansIn_iff ht hv]
    rcases build_cases hparents hqueues hle hoptions hv hfits ht with
      ⟨hn, hfan, _⟩ | ⟨_, reason, hreason⟩
    · exact ⟨hv, hn, hfan⟩
    · cases hg.symm.trans hreason
  · rintro ⟨hv, hn, hfan⟩
    rw [← Template.nodup_iff ht hv] at hn
    rw [← Template.fansIn_iff ht hv] at hfan
    rcases build_cases hparents hqueues hle hoptions hv hfits ht with
      ⟨_, _, g, hg, _⟩ | ⟨hnot, _⟩
    · exact ⟨g, hg⟩
    · exact absurd ⟨hn, hfan⟩ hnot

/-- The plan for a source is refused with a reason only. -/
theorem refusesOptions_build (hparents : 1 ≤ b.settings.maxParents.toNat)
    (hqueues : 1 ≤ b.settings.maxLoadQueues.toNat)
    (hle : b.settings.maxLoadQueues.toNat ≤ b.settings.maxParents.toNat)
    (htype : b.asset.type.isDatabase = true) (hoptions : b.asset.options = some options)
    (hsource : (∃ s, options = .vectorSource s) ∨ ∃ s, options = .tableSource s) :
    RefusesOptions (build b) := by
  intro e he
  obtain ⟨t, ht⟩ := exists_template? hsource
  cases hv : options.validate with
  | error e' =>
    obtain rfl : e' = e := Except.error.inj ((build_of_invalid hoptions hv).symm.trans he)
    exact options.refusesOptions_validate e' hv
  | ok u =>
    rcases build_cases hparents hqueues hle hoptions hv (fits_of_isDatabase htype hsource) ht with
      ⟨_, _, g, hg, _⟩ | ⟨_, reason, hreason⟩
    · cases he.symm.trans hg
    · exact ⟨reason, Except.error.inj (he.symm.trans hreason)⟩

/-- The plan for a source is accepted if and only if the options are valid, no two indices have the
same name, and no job waits for more indices than it may. It is refused with a reason only, and how
many files and layers there are to load decides nothing. -/
theorem build_decided (hparents : 1 ≤ b.settings.maxParents.toNat)
    (hqueues : 1 ≤ b.settings.maxLoadQueues.toNat)
    (hle : b.settings.maxLoadQueues.toNat ≤ b.settings.maxParents.toNat)
    (htype : b.asset.type.isDatabase = true) (hoptions : b.asset.options = some options)
    (hsource : (∃ s, options = .vectorSource s) ∨ ∃ s, options = .tableSource s) :
    ((∃ g, build b = .ok g) ↔ options.validate = .ok () ∧
        (options.indices.map (·.slug)).Nodup ∧ options.FansIn b.settings.maxParents.toNat) ∧
      (∀ e, build b = .error e → ∃ reason, e = .invalidOptions reason) ∧
      ∀ files layers, options.validate = .ok () →
        (options.withFiles files layers).validate = .ok () →
        ((∃ g, build (b.withOptions (options.withFiles files layers)) = .ok g) ↔
          ∃ g, build b = .ok g) := by
  have haccepted := exists_build_iff hparents hqueues hle htype hoptions hsource
  refine ⟨haccepted, refusesOptions_build hparents hqueues hle htype hoptions hsource, ?_⟩
  intro files layers hv hv'
  have hsource' : (∃ s, options.withFiles files layers = .vectorSource s) ∨
      ∃ s, options.withFiles files layers = .tableSource s := by
    rcases hsource with ⟨s, rfl⟩ | ⟨s, rfl⟩
    · exact Or.inl ⟨_, rfl⟩
    · exact Or.inr ⟨_, rfl⟩
  have hsame : (options.withFiles files layers).indices = options.indices ∧
      ((options.withFiles files layers).FansIn b.settings.maxParents.toNat ↔
        options.FansIn b.settings.maxParents.toNat) := by
    rcases hsource with ⟨s, rfl⟩ | ⟨s, rfl⟩ <;> exact ⟨rfl, Iff.rfl⟩
  have haccepted' := exists_build_iff (b := b.withOptions (options.withFiles files layers))
    hparents hqueues hle htype rfl hsource'
  refine haccepted'.trans (Iff.trans ?_ haccepted.symm)
  rw [hsame.1]
  exact ⟨fun h => ⟨hv, h.2.1, hsame.2.mp h.2.2⟩, fun h => ⟨hv', h.2.1, hsame.2.mpr h.2.2⟩⟩

namespace Sample

/-- Settings under which a job may wait for three others, and two layers are loaded at a time. -/
def settings : Settings :=
  { Settings.standard with maxParents := 3, maxLoadQueues := 2 }

/-- A brief for a table. -/
def brief (options : CreationOptions) : Brief :=
  ⟨settings, .create ⟨⟨0⟩⟩ ⟨"d", "v"⟩ .geoDatabaseTable "" options ⟨0, 0⟩, []⟩

/-- Five layers of a file that become a table with two indices, clustered by the first. -/
def layers : VectorSource where
  driver := .gpkg
  files := ["a.gpkg"]
  layers := some ["a", "b", "c", "d", "e"]
  indices := [⟨.gist, ["geom"]⟩, ⟨.hash, ["id"]⟩]
  cluster := some ⟨.gist, ["geom"]⟩

/-- The same with another index, so that the job that waits for all indices would have too many
parents. -/
def indexed : VectorSource :=
  { layers with indices := layers.indices ++ [⟨.btree, ["name"]⟩] }

end Sample

set_option maxRecDepth 100000 in
theorem layers_decided : (∃ g, build (Sample.brief (.vectorSource Sample.layers)) = .ok g) ∧
    ¬∃ g, build (Sample.brief (.vectorSource Sample.indexed)) = .ok g := by
  constructor
  · refine (build_decided (by decide) (by decide) (by decide) rfl rfl (Or.inl ⟨_, rfl⟩)).1.mpr ?_
    exact ⟨by decide, by decide, by decide⟩
  · refine mt (build_decided (by decide) (by decide) (by decide) rfl rfl (Or.inl ⟨_, rfl⟩)).1.mp ?_
    rintro ⟨_, _, _, h⟩
    exact h ⟨rfl, by decide⟩

/-! ## Order -/

/-- Under valid settings, every accepted plan for a source follows its template. -/
theorem build_follows {g : JobGraph} (hsettings : b.settings.validate = .ok ())
    (hoptions : b.asset.options = some options)
    (ht : template? b.settings.maxParents.toNat options = some t) (h : build b = .ok g) :
    Follows g t := by
  obtain ⟨hparents, hqueues, hle⟩ := Settings.validate_eq_ok_iff.mp hsettings
  obtain ⟨hv, hfits⟩ := valid_of_build hoptions h
  rcases build_cases hparents hqueues hle hoptions hv hfits ht with
    ⟨_, _, g', hg, hfollows⟩ | ⟨_, reason, hreason⟩
  · cases h.symm.trans hg
    exact hfollows
  · cases h.symm.trans hreason

set_option maxRecDepth 100000 in
theorem layers_follows : ∃ g, build (Sample.brief (.vectorSource Sample.layers)) = .ok g ∧
    names g.order = ["create_vector_schema", "load_vector_data_layer_0", "load_vector_data_layer_1",
      "load_vector_data_layer_2", "load_vector_data_layer_3", "load_vector_data_layer_4",
      "add_gfw_fields", "create_index_geom_gist", "create_index_id_hash", "cluster_table",
      "inherit_from_geostore"] ∧ Follows g (Vector.template 3 Sample.layers) := by
  obtain ⟨g, hg⟩ : ∃ g, build (Sample.brief (.vectorSource Sample.layers)) = .ok g := by
    refine (exists_build_iff (by decide) (by decide) (by decide) rfl rfl (Or.inl ⟨_, rfl⟩)).mpr ?_
    exact ⟨by decide, by decide, by decide⟩
  have hfollows := build_follows (by decide) rfl rfl hg
  refine ⟨g, hg, hfollows.order.trans ?_, hfollows⟩
  decide

end Plan

end GeoAssets

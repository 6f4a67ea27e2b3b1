import GeoAssets.Proofs.Plan.Accepted
import GeoAssets.Proofs.Text.Tidy
import GeoAssets.Settings.Variables

/-!
# Settings from variables

Settings that were read from variables allow at least one load queue and no more of them than
parents of a job, have a target for every kind of jobs, and name everything by a tidy text. Blanks
are cut off a location before the slashes at its end are; so what is left of a location may be empty
or end with a blank, and nothing else can be wrong with the settings
(`Settings.WellFormedUnlessLoose`).
-/

namespace GeoAssets

open Text

/-! ## Well-formed settings -/

/-- The texts of a connection but for the password. -/
def Connection.texts (c : Connection) : List String :=
  [c.host, c.database, c.user]

/-- The texts of a target. -/
def JobTarget.texts (t : JobTarget) : List String :=
  [t.queue, t.definition]

namespace Settings

/-- The texts in settings but for locations and passwords. -/
def texts (s : Settings) : List String :=
  [s.dataLakeBucket, s.tileCacheBucket, s.cdnDistribution, s.region]
    ++ (JobKind.all.filterMap s.jobTargets.get?).flatMap (·.texts)
    ++ s.writer.texts ++ s.reader.texts

/-- The locations in settings. -/
def locations (s : Settings) : List String :=
  [s.tileCacheUrl, s.statusUrl]

/-- There are load queues and no more of them than a job may have parents, every kind of jobs has a
target, all texts but locations are tidy, and locations do not end with a slash. -/
structure Usable (s : Settings) : Prop where
  queues_pos : 1 ≤ s.maxLoadQueues.toNat
  queues_le : s.maxLoadQueues.toNat ≤ s.maxParents.toNat
  targets : ∀ kind, ∃ target, s.jobTarget kind = .ok target
  texts : ∀ text ∈ s.texts, Tidy text
  slashes : ∀ location ∈ s.locations, ∀ c ∈ location.toList.getLast?, c ≠ '/'

/-- Settings are usable, and their locations are tidy, too. -/
structure WellFormed (s : Settings) : Prop extends Usable s where
  locations : ∀ location ∈ s.locations, Tidy location

end Settings

/-! ## Single values -/

namespace Variables

variable {vars : Variables} {name fallback v : String}

/-- The location in a variable consists of slashes, or has a blank in front of those at its end. -/
def EndsLoosely (vars : Variables) (name : String) : Prop :=
  ∃ v, vars.text? name = some v ∧ Text.EndsLoosely '/' v

theorem tidy_of_text? (h : vars.text? name = some v) : Tidy v := by
  unfold text? at h
  split at h
  · split at h
    · cases h
    · next hsome =>
      cases h
      exact tidy_trim hsome
  · cases h

theorem tidy_text (vars : Variables) (name : String) (hf : Tidy fallback) :
    Tidy (vars.text name fallback) := by
  unfold text
  cases h : vars.text? name with
  | none => exact hf
  | some v => exact tidy_of_text? h

theorem tidy_location_iff (vars : Variables) (name : String) (hf : Tidy fallback) :
    Tidy (vars.location name fallback) ↔ ¬ vars.EndsLoosely name := by
  unfold location EndsLoosely
  cases h : vars.text? name with
  | none => simpa using hf
  | some v => simpa using tidy_dropEnding_iff (by decide) (tidy_of_text? h)

theorem ne_slash_of_location (vars : Variables) (name : String)
    (hf : ∀ c ∈ fallback.toList.getLast?, c ≠ '/') :
    ∀ c ∈ (vars.location name fallback).toList.getLast?, c ≠ '/' := by
  unfold location
  cases vars.text? name with
  | none => exact hf
  | some v => exact fun c => ne_of_getLast?_dropEnding

theorem head_location (vars : Variables) (name : String) (hf : Tidy fallback) :
    ∀ c ∈ (vars.location name fallback).toList.head?, isBlank c = false := by
  unfold location
  cases h : vars.text? name with
  | none => exact hf.head
  | some v => exact head_dropEnding (tidy_of_text? h)

/-! ## Groups of values -/

theorem get?_jobTargets (vars : Variables) (kind : JobKind) :
    vars.jobTargets.get? kind = some (vars.jobTarget kind) := by
  cases kind <;> rfl

theorem tidy_of_mem_jobTarget (vars : Variables) (kind : JobKind) :
    ∀ text ∈ (vars.jobTarget kind).texts, Tidy text := by
  have hstandard : Tidy (JobTarget.ofKind kind).queue ∧
      Tidy (JobTarget.ofKind kind).definition := by
    cases kind <;> decide
  intro text htext
  rcases List.mem_pair.mp htext with rfl | rfl
  · exact tidy_text _ _ hstandard.1
  · exact tidy_text _ _ hstandard.2

theorem tidy_of_mem_connection {role : String} {standard c : Connection}
    (hf : ∀ text ∈ standard.texts, Tidy text) (h : vars.connection role standard = .ok c) :
    ∀ text ∈ c.texts, Tidy text := by
  obtain ⟨tcpPort, -, h⟩ := bind_eq_ok_iff.mp h
  cases h
  simp only [Connection.texts, List.forall_mem_cons] at hf ⊢
  exact ⟨tidy_text _ _ hf.1, tidy_text _ _ hf.2.1, tidy_text _ _ hf.2.2.1, nofun⟩

end Variables

/-! ## All settings -/

namespace Settings

variable {vars : Variables} {s : Settings}

/-- Where the texts in settings were read. -/
structure ReadFrom (vars : Variables) (s : Settings) : Prop where
  dataLakeBucket : s.dataLakeBucket = vars.text "STRATA_DATA_LAKE_BUCKET" standard.dataLakeBucket
  tileCacheBucket :
    s.tileCacheBucket = vars.text "STRATA_TILE_CACHE_BUCKET" standard.tileCacheBucket
  cdnDistribution :
    s.cdnDistribution = vars.text "STRATA_CDN_DISTRIBUTION_ID" standard.cdnDistribution
  tileCacheUrl : s.tileCacheUrl = vars.location "STRATA_TILE_CACHE_URL" standard.tileCacheUrl
  statusUrl : s.statusUrl = vars.location "STRATA_STATUS_URL" standard.statusUrl
  region : s.region = vars.text "STRATA_REGION" standard.region
  jobTargets : s.jobTargets = vars.jobTargets
  writer : vars.connection "WRITER" standard.writer = .ok s.writer
  reader : vars.connection "READER" standard.reader = .ok s.reader

theorem readFrom_of_ofVariables (h : ofVariables vars = .ok s) :
    ReadFrom vars s ∧ s.validate = .ok () := by
  obtain ⟨maxParents, -, h⟩ := bind_eq_ok_iff.mp h
  obtain ⟨maxLoadQueues, -, h⟩ := bind_eq_ok_iff.mp h
  obtain ⟨writer, hwriter, h⟩ := bind_eq_ok_iff.mp h
  obtain ⟨reader, hreader, h⟩ := bind_eq_ok_iff.mp h
  obtain ⟨_, hvalid, h⟩ := bind_eq_ok_iff.mp h
  cases h
  exact ⟨⟨rfl, rfl, rfl, rfl, rfl, rfl, rfl, hwriter, hreader⟩, hvalid⟩

namespace ReadFrom

theorem get?_jobTargets (hs : ReadFrom vars s) (kind : JobKind) :
    s.jobTargets.get? kind = some (vars.jobTarget kind) :=
  hs.jobTargets ▸ vars.get?_jobTargets kind

theorem tidy_of_mem_texts (hs : ReadFrom vars s) : ∀ text ∈ s.texts, Tidy text := by
  have htargets : ∀ text ∈ (JobKind.all.filterMap s.jobTargets.get?).flatMap (·.texts),
      Tidy text := by
    intro text htext
    obtain ⟨target, htarget, htext⟩ := List.mem_flatMap.mp htext
    obtain ⟨kind, -, hkind⟩ := List.mem_filterMap.mp htarget
    rw [hs.get?_jobTargets] at hkind
    cases hkind
    exact vars.tidy_of_mem_jobTarget kind text htext
  have hwriter := Variables.tidy_of_mem_connection (by decide) hs.writer
  have hreader := Variables.tidy_of_mem_connection (by decide) hs.reader
  simp only [texts, List.forall_mem_append, List.forall_mem_cons]
  rw [hs.dataLakeBucket, hs.tileCacheBucket, hs.cdnDistribution, hs.region]
  refine ⟨⟨⟨⟨?lake, ?tiles, ?cdn, ?region, nofun⟩, htargets⟩, hwriter⟩, hreader⟩
  all_goals exact vars.tidy_text _ (by decide)

/-- The settings are usable if they pass their check. -/
theorem usable (hs : ReadFrom vars s) (hv : s.validate = .ok ()) : s.Usable := by
  obtain ⟨-, hqueues, hle⟩ := validate_eq_ok_iff.mp hv
  constructor
  case queues_pos => exact hqueues
  case queues_le => exact hle
  case targets =>
    intro kind
    refine ⟨vars.jobTarget kind, ?_⟩
    rw [jobTarget, hs.get?_jobTargets]
    rfl
  case texts => exact hs.tidy_of_mem_texts
  case slashes =>
    simp only [locations, List.forall_mem_cons]
    rw [hs.tileCacheUrl, hs.statusUrl]
    refine ⟨?tiles, ?status, nofun⟩
    all_goals exact vars.ne_slash_of_location _ (by simp [standard])

end ReadFrom

/-- Settings that were read from variables are usable, and a location among them is tidy unless the
variable that holds it ends loosely. -/
structure WellFormedUnlessLoose (vars : Variables) (s : Settings) : Prop where
  usable : s.Usable
  /-- No location begins with a blank. -/
  heads : ∀ location ∈ s.locations, ∀ c ∈ location.toList.head?, isBlank c = false
  tileCacheUrl : Tidy s.tileCacheUrl ↔ ¬ vars.EndsLoosely "STRATA_TILE_CACHE_URL"
  statusUrl : Tidy s.statusUrl ↔ ¬ vars.EndsLoosely "STRATA_STATUS_URL"
  wellFormed_iff : s.WellFormed ↔
    ¬ vars.EndsLoosely "STRATA_TILE_CACHE_URL" ∧ ¬ vars.EndsLoosely "STRATA_STATUS_URL"

/-- Whatever the variables are, settings that were read from them are well-formed, unless a location
loses slashes that had a blank or nothing in front of them. -/
theorem ofVariables_wellFormedUnlessLoose (h : ofVariables vars = .ok s) :
    WellFormedUnlessLoose vars s := by
  obtain ⟨hs, hv⟩ := readFrom_of_ofVariables h
  have htile : Tidy s.tileCacheUrl ↔ ¬ vars.EndsLoosely "STRATA_TILE_CACHE_URL" := by
    rw [hs.tileCacheUrl]
    exact vars.tidy_location_iff _ (by decide)
  have hstatus : Tidy s.statusUrl ↔ ¬ vars.EndsLoosely "STRATA_STATUS_URL" := by
    rw [hs.statusUrl]
    exact vars.tidy_location_iff _ (by decide)
  constructor
  case usable => exact hs.usable hv
  case heads =>
    simp only [locations, List.forall_mem_cons]
    rw [hs.tileCacheUrl, hs.statusUrl]
    refine ⟨?tiles, ?status, nofun⟩
    all_goals exact vars.head_location _ (by decide)
  case tileCacheUrl => exact htile
  case statusUrl => exact hstatus
  case wellFormed_iff =>
    rw [← htile, ← hstatus]
    constructor
    · intro hwell
      exact ⟨hwell.locations _ (by simp [locations]), hwell.locations _ (by simp [locations])⟩
    · intro htidy
      refine ⟨hs.usable hv, ?_⟩
      simpa [locations] using htidy

namespace Sample

/-- Variables that override a bucket and two locations. -/
def named : Variables
  | "STRATA_DATA_LAKE_BUCKET" => some " lake "
  | "STRATA_TILE_CACHE_URL" => some "http://tiles//"
  | "STRATA_STATUS_URL" => some "http://status /"
  | _ => none

/-- A variable that holds a slash. -/
def slashed : Variables
  | "STRATA_TILE_CACHE_URL" => some "/"
  | _ => none

end Sample

theorem named_wellFormedUnlessLoose : ∃ s, ofVariables Sample.named = .ok s ∧
    s.dataLakeBucket = "lake" ∧ s.tileCacheUrl = "http://tiles" ∧ s.statusUrl = "http://status " ∧
    WellFormedUnlessLoose Sample.named s := by
  obtain ⟨s, hs, hread⟩ : ∃ s, ofVariables Sample.named = .ok s ∧
      (s.dataLakeBucket, s.tileCacheUrl, s.statusUrl) =
        ("lake", "http://tiles", "http://status ") :=
    exists_ok_of_map_toOption (by decide +kernel)
  simp only [Prod.mk.injEq] at hread
  obtain ⟨hlake, htile, hstatus⟩ := hread
  exact ⟨s, hs, hlake, htile, hstatus, ofVariables_wellFormedUnlessLoose hs⟩

/-- The tiles of these settings are served nowhere. -/
theorem slashed_not_wellFormed :
    ∃ s, ofVariables Sample.slashed = .ok s ∧ s.tileCacheUrl = "" ∧ ¬ s.WellFormed := by
  obtain ⟨s, hs, hempty⟩ : ∃ s, ofVariables Sample.slashed = .ok s ∧ s.tileCacheUrl = "" :=
    exists_ok_of_map_toOption (by decide +kernel)
  exact ⟨s, hs, hempty, fun h => (h.locations _ (by simp [locations])).ne_empty hempty⟩

end Settings

end GeoAssets

import GeoAssets.Proofs.Plan.Files

/-!
# Divisions

The files of a source that is loaded file by file are divided by the number of jobs that a job may
wait for. Settings that were read without a check may allow none at all. Then such a source has
neither a plan nor a refusal, and this is the only way to have neither
(`Plan.AnswersUnlessNoParents`): files are never put into chunks of no files, and slots are never
counted among no queues.
-/

namespace GeoAssets

/-! ## Refusals -/

/-- The asset cannot be made as it is asked for, and the error says why. -/
def Error.IsRefusal (e : Error) : Prop :=
  (∃ reason, e = .invalidOptions reason) ∨ ∃ what, e = .notImplemented what

/-- Whatever fails is a refusal. -/
def Refuses {α : Type} (x : Except Error α) : Prop :=
  ∀ e, x = .error e → e.IsRefusal

theorem RefusesOptions.refuses {α : Type} {x : Except Error α} (h : RefusesOptions x) : Refuses x :=
  fun e he => Or.inl (h e he)

theorem refuses_of_eq_ok {α : Type} {x : Except Error α} {a : α} (h : x = .ok a) : Refuses x := by
  subst h
  exact nofun

theorem refuses_notImplemented {α : Type} (what : String) :
    Refuses (.error (.notImplemented what) : Except Error α) := by
  rintro _ ⟨⟩
  exact Or.inr ⟨what, rfl⟩

theorem Refuses.bind {α β : Type} {x : Except Error α} {f : α → Except Error β} (hx : Refuses x)
    (hf : ∀ a, x = .ok a → Refuses (f a)) : Refuses (x >>= f) := by
  intro e h
  cases x with
  | error _ =>
    cases h
    exact hx e rfl
  | ok a => exact hf a rfl e h

/-- There is a result, or a reason why there is none. -/
def Answers {α : Type} (x : Except Error α) : Prop :=
  (∃ a, x = .ok a) ∨ ∃ e, x = .error e ∧ e.IsRefusal

theorem Refuses.answers {α : Type} {x : Except Error α} (h : Refuses x) : Answers x := by
  cases x with
  | ok a => exact Or.inl ⟨a, rfl⟩
  | error e => exact Or.inr ⟨e, rfl, h e rfl⟩

/-- A division by zero is no answer. -/
theorem Answers.ne_divisionByZero {α : Type} {x : Except Error α} (h : Answers x) :
    x ≠ .error .divisionByZero := by
  rcases h with ⟨a, rfl⟩ | ⟨_, rfl, ⟨reason, rfl⟩ | ⟨what, rfl⟩⟩ <;> exact nofun

namespace Plan

open JobGraph

variable {b : Brief} {options : CreationOptions} {js : List Job}

/-! ## Slots -/

/-- Lines up jobs like `lineUp`, but counts slots among the queues only if there are queues. -/
def countedLineUp (root : String) : Nat → List (Option String) → List Job →
    Except Error (List Job × List (Option String))
  | _, tails, [] => .ok ([], tails)
  | slot, tails, j :: rest =>
    if tails.length = 0 then .error .divisionByZero
    else do
      let parent := (tails.getD slot none).getD root
      let lined ← countedLineUp root ((slot + 1) % tails.length) (tails.set slot (some j.name)) rest
      pure (j.withParents [parent] :: lined.1, lined.2)

/-- No job takes a queue away, so slots are counted to the end if there are queues. -/
theorem countedLineUp_eq (root : String) (slot : Nat) {tails : List (Option String)}
    (h : tails ≠ []) (jobs : List Job) :
    countedLineUp root slot tails jobs = .ok (lineUp root slot tails jobs) := by
  induction jobs generalizing slot tails with
  | nil => rfl
  | cons j rest ih =>
    have hnext : tails.set slot (some j.name) ≠ [] := by simpa using h
    rw [countedLineUp, if_neg (mt List.length_eq_zero_iff.mp h), ih _ hnext]
    rfl

/-- There is always a queue. -/
theorem queueCount_pos (queues jobs : Nat) : 0 < queueCount queues jobs := by
  unfold queueCount
  omega

/-! ## Sizes of chunks -/

/-- No chunk of files is asked to be empty. -/
theorem filesPerJob_pos {files size : Nat} {limit : UInt64}
    (h : filesPerJob files limit = .ok size) : 0 < size := by
  rw [filesPerJob_eq (one_le_of_filesPerJob h)] at h
  exact Except.ok.inj h ▸ chunkSize_pos _ _

/-! ## Jobs in the order of submission -/

theorem steady_nil : Steady [] where
  parents := by simp
  inTurn := fun _ _ => List.Pairwise.nil

theorem steady_singleton {j : Job} (h : j.parents = []) : Steady [j] :=
  steady_nil.concat (by simp [h]) nofun

/-- A job that waits for the one before it. -/
theorem steady_pair {first second : Job} (hfirst : first.parents = [])
    (hsecond : second.parents = [first.name]) : Steady [first, second] := by
  refine (steady_singleton hfirst).concat (by simp [hsecond]) ?_
  intro l hl done _ _
  obtain rfl : first = l := by simpa using hl
  rw [hfirst]
  exact List.nil_subset _

/-- Whatever the settings are, the load jobs of a valid vector source stand in queues. -/
theorem Vector.queued_of_loadJobs {s : VectorSource} (hv : s.validate = .ok ())
    {loaded : List Job × List String} (h : loadJobs b s = .ok loaded) :
    ∃ queues, Queued (createJob b s).name queues loaded.1 loaded.2 := by
  rcases loadJobs_cases h with ⟨_, _, rfl⟩ | ⟨_, rfl⟩
  · exact ⟨_, chunkJobs_queued (VectorSource.files_ne_nil hv)⟩
  · exact ⟨_, layerJobs_queued hv _⟩

/-- Whatever the settings are, the jobs for valid options are in the order of submission. -/
theorem steady_of_jobs (hv : options.validate = .ok ()) (h : jobs b options = .ok js)
    (hn : (names js).Nodup) : Steady js := by
  cases options
  case vectorSource s =>
    obtain ⟨loaded, hload, _⟩ := bind_eq_ok_iff.mp h
    obtain rfl := Except.ok.inj (h.symm.trans (Vector.jobs_eq hload))
    obtain ⟨queues, hqueued⟩ := Vector.queued_of_loadJobs hv hload
    exact (Vector.parts_wired hqueued).steady hn
  case tableSource s =>
    obtain ⟨size, hsize, _⟩ := bind_eq_ok_iff.mp h
    obtain rfl := Except.ok.inj (h.symm.trans (Table.jobs_eq (one_le_of_filesPerJob hsize)))
    exact (Table.parts_wired (TableSource.files_ne_nil hv)).steady hn
  case staticTiles t =>
    obtain ⟨fields, _, h⟩ := bind_eq_ok_iff.mp h
    cases h
    exact steady_pair rfl rfl
  case vectorFile f =>
    obtain ⟨format, _, h⟩ := bind_eq_ok_iff.mp h
    obtain ⟨fields, _, h⟩ := bind_eq_ok_iff.mp h
    cases h
    exact steady_singleton rfl
  case dynamicTiles t =>
    cases h
    exact steady_nil
  all_goals cases h

/-- Jobs that are in the order of submission make a graph unless two have one name. -/
theorem refusesOptions_ofJobs (hs : (names js).Nodup → Steady js) :
    RefusesOptions (JobGraph.ofJobs js) := by
  intro e he
  by_cases hn : (names js).Nodup
  · cases he.symm.trans ((hs hn).ofJobs hn)
  · obtain ⟨reason, hreason⟩ := ofJobs_of_not_nodup hn
    exact ⟨reason, Except.error.inj (he.symm.trans hreason)⟩

/-! ## Refused jobs -/

theorem refusesOptions_exportedFields (b : Brief) (requested : Option (List String)) :
    RefusesOptions (exportedFields b requested) := by
  unfold exportedFields
  dsimp only
  split
  · exact refusesOptions_error _
  · exact refusesOptions_ok _

/-- Files that are loaded by no job at all cannot be divided. -/
theorem jobs_of_noParents (hlimit : b.settings.maxParents = 0)
    (hl : (loading? options).isSome = true) : jobs b options = .error .divisionByZero := by
  cases options
  case vectorSource s =>
    have hcsv : s.driver = .csv := by
      by_contra h
      simp [loading?, h] at hl
    change Vector.jobs b s = _
    rw [Vector.jobs, Vector.loadJobs, hcsv, hlimit]
    rfl
  case tableSource s =>
    change Table.jobs b s = _
    rw [Table.jobs, hlimit]
    rfl
  all_goals cases hl

/-- Otherwise there are jobs unless the asset is refused. -/
theorem refuses_jobs (h : ¬(b.settings.maxParents = 0 ∧ (loading? options).isSome = true)) :
    Refuses (jobs b options) := by
  cases options
  case vectorSource s =>
    by_cases hcsv : s.driver = .csv
    · have hparents : 1 ≤ b.settings.maxParents.toNat :=
        one_le_toNat_iff.mpr fun hzero => h ⟨hzero, by simp [loading?, hcsv]⟩
      exact refuses_of_eq_ok (Vector.jobs_eq (Vector.loadJobs_of_csv hcsv hparents))
    · exact refuses_of_eq_ok (Vector.jobs_eq (Vector.loadJobs_of_layers hcsv))
  case tableSource s =>
    have hparents : 1 ≤ b.settings.maxParents.toNat :=
      one_le_toNat_iff.mpr fun hzero => h ⟨hzero, rfl⟩
    exact refuses_of_eq_ok (Table.jobs_eq hparents)
  case staticTiles t =>
    exact ((refusesOptions_exportedFields _ _).bind fun _ => refusesOptions_ok _).refuses
  case vectorFile f =>
    refine Refuses.bind ?_ fun _ _ =>
      ((refusesOptions_exportedFields _ _).bind fun _ => refusesOptions_ok _).refuses
    cases fileFormat? b.asset.type with
    | none => exact refuses_notImplemented _
    | some format => exact refuses_of_eq_ok rfl
  case dynamicTiles t => exact refuses_of_eq_ok rfl
  -- rasters
  all_goals exact refuses_notImplemented _

/-! ## Plans -/

/-- The asset is made from files that are divided among load jobs, and nothing is wrong with its
options. -/
def Brief.DividesFiles (b : Brief) : Prop :=
  ∃ options, b.asset.options = some options ∧ options.validate = .ok () ∧
    options.fits b.asset.type = true ∧ (loading? options).isSome = true

/-- What is left of a plan once its jobs are known is refused with a reason only. -/
theorem refusesOptions_of_jobs (settings : Settings) (hs : (names js).Nodup → Steady js) :
    RefusesOptions (JobGraph.ofJobs js >>= fun g => checkFanIn settings g >>= fun _ => .ok g) :=
  (refusesOptions_ofJobs hs).bind fun _ => (refusesOptions_require _ _).bind fun _ =>
    refusesOptions_ok _

theorem build_of_noParents (hlimit : b.settings.maxParents = 0) (h : b.DividesFiles) :
    build b = .error .divisionByZero := by
  obtain ⟨options, hoptions, hv, hfits, hl⟩ := h
  rw [build_eq_bind hoptions hv hfits, jobs_of_noParents hlimit hl]
  rfl

/-- Each step towards a plan succeeds or refuses the asset. -/
theorem refuses_build (h : ¬(b.settings.maxParents = 0 ∧ b.DividesFiles)) : Refuses (build b) := by
  refine Refuses.bind ?_ fun options hoptions => ?_
  · cases b.asset.options with
    | none => exact (refusesOptions_error _).refuses
    | some options => exact refuses_of_eq_ok rfl
  refine options.refusesOptions_validate.refuses.bind fun _ hv => ?_
  refine (refusesOptions_require _ _).refuses.bind fun _ hfits => ?_
  rw [orElseFail_eq_ok_iff] at hoptions
  rw [require_eq_ok_iff] at hfits
  -- the options are valid and fit, so their files are divided only if there may be parents
  refine Refuses.bind (refuses_jobs fun hzero => ?_) fun js hjobs =>
    (refusesOptions_of_jobs b.settings (steady_of_jobs hv hjobs)).refuses
  exact h ⟨hzero.1, options, hoptions, hv, hfits, hzero.2⟩

/-- A brief has a graph or a reason why there is none, unless files are to be divided among no jobs
at all. -/
structure AnswersUnlessNoParents (b : Brief) : Prop where
  /-- There is neither exactly if files are to be divided and no job may wait for any other. -/
  divides_iff : build b = .error .divisionByZero ↔ b.settings.maxParents = 0 ∧ b.DividesFiles
  /-- In all other cases there is one of the two. -/
  otherwise : ¬(b.settings.maxParents = 0 ∧ b.DividesFiles) → Answers (build b)
  /-- There always is under settings that were checked. -/
  checked : b.settings.validate = .ok () → Answers (build b)
  /-- Files are put into chunks of some files. -/
  chunks : ∀ files size, filesPerJob files b.settings.maxParents = .ok size → 0 < size
  /-- Slots are counted among some queues, from the first job of the queues to the last one. -/
  slots : ∀ root jobs, countedLineUp root 0
      (List.replicate (queueCount b.settings.maxLoadQueues.toNat jobs.length) none) jobs =
    .ok (lineUp root 0
      (List.replicate (queueCount b.settings.maxLoadQueues.toNat jobs.length) none) jobs)

/-- Whatever the settings are, nothing but the division of files among no jobs leaves a brief
without an answer. -/
theorem build_answersUnlessNoParents (b : Brief) : AnswersUnlessNoParents b := by
  constructor
  case divides_iff =>
    refine ⟨fun hzero => ?_, fun h => build_of_noParents h.1 h.2⟩
    by_contra h
    exact (refuses_build h).answers.ne_divisionByZero hzero
  case otherwise => exact fun h => (refuses_build h).answers
  case checked =>
    intro hsettings
    have hparents := (Settings.validate_eq_ok_iff.mp hsettings).1
    exact (refuses_build fun h => one_le_toNat_iff.mp hparents h.1).answers
  case chunks => exact fun files size => filesPerJob_pos
  case slots =>
    intro root jobs
    refine countedLineUp_eq root 0 ?_ jobs
    rw [ne_eq, List.replicate_eq_nil_iff]
    exact (queueCount_pos _ _).ne'

namespace Sample

/-- Settings under which no job may wait for another. -/
def parentless : Settings :=
  { Settings.standard with maxParents := 0 }

/-- The brief for a table under these settings. -/
def undivided : Brief :=
  { brief (.tableSource parcels) with settings := parentless }

end Sample

/-- The settings can be read without a check, and there is no answer under them. -/
theorem undivided_not_answers :
    Settings.codec.decode (Settings.codec.encode Sample.parentless) = some Sample.parentless ∧
      build Sample.undivided = .error .divisionByZero ∧ ¬ ∀ b, Answers (build b) := by
  have hzero : build Sample.undivided = .error .divisionByZero :=
    build_of_noParents rfl ⟨_, rfl, by decide, rfl, rfl⟩
  exact ⟨Layout.codec_roundTrips Settings.layout_reads _, hzero,
    fun h => (h Sample.undivided).ne_divisionByZero hzero⟩

end Plan

end GeoAssets

import GeoAssets.Location

/-!
# Places of objects

A place that begins with the scheme of objects is read as a bucket and a key, and no two places are
read as the same object. The places of exported files are read as the objects that they were made
from, as long as the name of the bucket is one.
-/

namespace GeoAssets

namespace Text

theorem cutAt?_eq_some_iff {sep : Char} {cs before after : List Char} :
    cutAt? sep cs = some (before, after) ↔ cs = before ++ sep :: after ∧ sep ∉ before := by
  constructor
  · intro h
    refine ⟨eq_append_of_cutAt? h, ?_⟩
    induction cs generalizing before with
    | nil => cases h
    | cons c rest ih =>
      rw [cutAt?] at h
      split at h
      · cases h
        exact List.not_mem_nil
      · next hc =>
        obtain ⟨⟨b, a⟩, hcut, he⟩ := Option.map_eq_some_iff.mp h
        cases he
        rw [List.mem_cons, not_or]
        exact ⟨Ne.symm hc, ih hcut⟩
  · rintro ⟨rfl, h⟩
    induction before with
    | nil => exact if_pos rfl
    | cons c before ih =>
      rw [List.mem_cons, not_or] at h
      rw [List.cons_append, cutAt?, if_neg (Ne.symm h.1), ih h.2]
      rfl

theorem afterStart?_eq_some_iff {start cs rest : List Char} :
    afterStart? start cs = some rest ↔ cs = start ++ rest := by
  unfold afterStart?
  constructor
  · intro h
    split at h
    · next hstart =>
      obtain ⟨tail, rfl⟩ := List.isPrefixOf_iff_prefix.mp hstart
      rw [List.drop_left, Option.some.injEq] at h
      rw [h]
    · cases h
  · rintro rfl
    rw [if_pos (List.isPrefixOf_iff_prefix.mpr (List.prefix_append _ _)), List.drop_left]

end Text

namespace Location

/-! ## Objects -/

/-- The name of a bucket: there is one, and it contains no separator. -/
structure IsBucket (bucket : String) : Prop where
  nonempty : bucket ≠ ""
  plain : '/' ∉ bucket.toList

/-- A place is read as an object if it was put together from a bucket and a key. -/
theorem bucketAndKey?_eq_some_iff {place bucket key : String} :
    bucketAndKey? place = some (bucket, key) ↔
      place = "s3://" ++ bucket ++ "/" ++ key ∧ IsBucket bucket ∧ key ≠ "" := by
  have hempty : ∀ cs : List Char, cs.isEmpty = true ↔ String.ofList cs = "" := by
    intro cs
    rw [List.isEmpty_iff, ← String.toList_inj, String.toList_ofList, String.toList_empty]
  have hplace : place = "s3://" ++ bucket ++ "/" ++ key ↔
      place.toList = "s3://".toList ++ (bucket.toList ++ '/' :: key.toList) := by
    rw [← String.toList_inj]
    simp
  rw [hplace]
  simp only [bucketAndKey?, Option.bind_eq_bind, Option.bind_eq_some_iff,
    Text.afterStart?_eq_some_iff, Prod.exists, Text.cutAt?_eq_some_iff]
  constructor
  · rintro ⟨_, hrest, b, k, ⟨rfl, hb⟩, h⟩
    split at h
    · cases h
    · next hno =>
      rw [Bool.or_eq_true, not_or, hempty, hempty] at hno
      cases h
      simp only [String.toList_ofList]
      exact ⟨hrest, ⟨hno.1, by rwa [String.toList_ofList]⟩, hno.2⟩
  · rintro ⟨hrest, hbucket, hkey⟩
    refine ⟨_, hrest, bucket.toList, key.toList, ⟨rfl, hbucket.plain⟩, ?_⟩
    rw [if_neg]
    · simp only [String.ofList_toList]
    · rw [Bool.or_eq_true, not_or, hempty, hempty, String.ofList_toList, String.ofList_toList]
      exact ⟨hbucket.nonempty, hkey⟩

/-- No two places are read as the same object. -/
theorem bucketAndKey?_inj {place place' : String} {object : String × String}
    (h : bucketAndKey? place = some object) (h' : bucketAndKey? place' = some object) :
    place = place' := by
  rw [(bucketAndKey?_eq_some_iff.mp h).1, (bucketAndKey?_eq_some_iff.mp h').1]

/-! ## Exported files -/

/-- The key of an exported file. -/
def vectorKey (key : VersionKey) (extension : String) : String :=
  versionPrefix key ++
    ("vector/epsg-4326/" ++ key.dataset ++ "_" ++ key.version ++ "." ++ extension)

theorem vectorFile_eq (bucket : String) (key : VersionKey) (extension : String) :
    vectorFile bucket key extension = "s3://" ++ bucket ++ "/" ++ vectorKey key extension := by
  simp only [vectorFile, vectorKey, String.append_assoc]

theorem bucketAndKey?_vectorFile {bucket : String} (h : IsBucket bucket) (key : VersionKey)
    (extension : String) :
    bucketAndKey? (vectorFile bucket key extension) = some (bucket, vectorKey key extension) := by
  refine bucketAndKey?_eq_some_iff.mpr ⟨vectorFile_eq bucket key extension, h, ?_⟩
  simp [vectorKey, versionPrefix]

end Location

end GeoAssets

import GeoAssets.Error
import GeoAssets.Json.Layout

/-!
# Tile caches and exports

The options of the assets that are derived from a version's default asset.
-/

namespace GeoAssets

/-! ## Zoom levels -/

/-- The highest zoom level of a tile cache. -/
def maxZoomLevel : UInt8 := 22

/-- The highest zoom level of tiles that are rendered beforehand, if none is asked for. -/
def defaultRenderedZoom : UInt8 := 14

/-- Zoom levels are in order and not too high. -/
def validateZoom (min max : UInt8) : Except Error Unit :=
  require (min ≤ max && max ≤ maxZoomLevel)
    (.invalidOptions
      ("zoom range " ++ toString min.toNat ++ "..=" ++ toString max.toNat ++ " is invalid"))

/-! ## Dynamic vector tiles -/

/-- Vector tiles that are rendered from a table on request. -/
structure DynamicTiles where
  minZoom : UInt8 := 0
  maxZoom : UInt8 := maxZoomLevel
  /-- The fields in the tiles; all that are shown if none are given. -/
  fields : Option (List String) := none
  /-- The name under which the tiles are served. -/
  implementation : String := "dynamic"
  deriving DecidableEq, Repr

namespace DynamicTiles

/-- The fields of a dynamic tile cache. -/
def layout : Layout DynamicTiles :=
  ((Layout.defaulted "min_zoom" .uint8 0).and <|
    (Layout.defaulted "max_zoom" .uint8 maxZoomLevel).and <|
    (Layout.optional "field_attributes" Codec.string.list).and <|
    Layout.defaulted "implementation" .string "dynamic").imap
    (fun (min, max, fields, implementation) => ⟨min, max, fields, implementation⟩)
    fun t => (t.minZoom, t.maxZoom, t.fields, t.implementation)

theorem layout_reads : layout.Reads := by
  have strings := Codec.list_roundTrips Codec.string_roundTrips
  refine Layout.imap_reads ?_ fun _ => rfl
  refine Layout.and_reads (Layout.defaulted_reads Codec.uint8_roundTrips) ?_ (by decide)
  refine Layout.and_reads (Layout.defaulted_reads Codec.uint8_roundTrips) ?_ (by decide)
  refine Layout.and_reads (Layout.optional_reads strings Codec.list_neverNull) ?_ (by decide)
  exact Layout.defaulted_reads Codec.string_roundTrips

end DynamicTiles

/-! ## Static vector tiles -/

/-- What is left out where there is more than a tile can hold. -/
inductive TileStrategy where
  /-- For polygons that mostly touch. -/
  | continuous
  /-- For features that mostly stand apart. -/
  | discontinuous
  /-- Nothing is left out. -/
  | keepAll
  deriving DecidableEq, Repr

namespace TileStrategy

/-- All members of the type. -/
def all : List TileStrategy :=
  [.continuous, .discontinuous, .keepAll]

/-- The name of a strategy. -/
def name : TileStrategy → String
  | .continuous => "continuous"
  | .discontinuous => "discontinuous"
  | .keepAll => "keep_all"

/-- Strategies are written by name. -/
def codec (rule : Codec.NameRule) : Codec TileStrategy :=
  .namedBy rule all name

theorem codec_roundTrips {rule : Codec.NameRule} : (codec rule).RoundTrips :=
  Codec.namedBy_roundTrips fun s => by cases s <;> decide

end TileStrategy

/-- Vector tiles that are rendered beforehand. -/
structure StaticTiles where
  minZoom : UInt8 := 0
  maxZoom : UInt8 := defaultRenderedZoom
  strategy : TileStrategy := .continuous
  /-- The fields in the tiles; all that are shown if none are given. -/
  fields : Option (List String) := none
  /-- The name under which the tiles are kept. -/
  implementation : String := "default"
  deriving DecidableEq, Repr

namespace StaticTiles

/-- The fields of a static tile cache. -/
def layout (rule : Codec.NameRule) : Layout StaticTiles :=
  ((Layout.defaulted "min_zoom" .uint8 0).and <|
    (Layout.defaulted "max_zoom" .uint8 defaultRenderedZoom).and <|
    (Layout.defaulted "tile_strategy" (TileStrategy.codec rule) .continuous).and <|
    (Layout.optional "field_attributes" Codec.string.list).and <|
    Layout.defaulted "implementation" .string "default").imap
    (fun (min, max, strategy, fields, implementation) =>
      ⟨min, max, strategy, fields, implementation⟩)
    fun t => (t.minZoom, t.maxZoom, t.strategy, t.fields, t.implementation)

theorem layout_reads (rule : Codec.NameRule) : (layout rule).Reads := by
  have strings := Codec.list_roundTrips Codec.string_roundTrips
  refine Layout.imap_reads ?_ fun _ => rfl
  refine Layout.and_reads (Layout.defaulted_reads Codec.uint8_roundTrips) ?_ (by simp)
  refine Layout.and_reads (Layout.defaulted_reads Codec.uint8_roundTrips) ?_ (by simp)
  refine Layout.and_reads (Layout.defaulted_reads TileStrategy.codec_roundTrips) ?_ (by simp)
  refine Layout.and_reads (Layout.optional_reads strings Codec.list_neverNull) ?_ (by simp)
  exact Layout.defaulted_reads Codec.string_roundTrips

end StaticTiles

/-! ## Raster tiles -/

/-- Raster tiles that are rendered beforehand. -/
structure RasterTiles where
  minZoom : UInt8 := 0
  maxZoom : UInt8 := defaultRenderedZoom
  /-- The name under which the tiles are kept. -/
  implementation : String := "default"
  deriving DecidableEq, Repr

namespace RasterTiles

/-- The fields of a raster tile cache. -/
def layout : Layout RasterTiles :=
  ((Layout.defaulted "min_zoom" .uint8 0).and <|
    (Layout.defaulted "max_zoom" .uint8 defaultRenderedZoom).and <|
    Layout.defaulted "implementation" .string "default").imap
    (fun (min, max, implementation) => ⟨min, max, implementation⟩)
    fun t => (t.minZoom, t.maxZoom, t.implementation)

theorem layout_reads : layout.Reads := by
  refine Layout.imap_reads ?_ fun _ => rfl
  refine Layout.and_reads (Layout.defaulted_reads Codec.uint8_roundTrips) ?_ (by decide)
  refine Layout.and_reads (Layout.defaulted_reads Codec.uint8_roundTrips) ?_ (by decide)
  exact Layout.defaulted_reads Codec.string_roundTrips

end RasterTiles

/-! ## Files -/

/-- An export to one file. -/
structure VectorFile where
  /-- The fields in the file; all that are shown if none are given. -/
  fields : Option (List String) := none
  deriving DecidableEq, Repr

namespace VectorFile

/-- The field of an export. -/
def layout : Layout VectorFile :=
  (Layout.optional "field_attributes" Codec.string.list).imap (fun fields => ⟨fields⟩) (·.fields)

theorem layout_reads : layout.Reads :=
  Layout.imap_reads
    (Layout.optional_reads (Codec.list_roundTrips Codec.string_roundTrips) Codec.list_neverNull)
    fun _ => rfl

end VectorFile

end GeoAssets

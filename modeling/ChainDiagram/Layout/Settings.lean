import ChainDiagram.Enclosure
import ChainDiagram.Json
import ChainDiagram.Layout.Box

/-!
# Layout settings

The numbers that the layout of a diagram depends on. Each has a default, and a configuration names
those that it changes (`Settings.ofEntries?`).
-/

set_option autoImplicit false

namespace ChainDiagram

/-- What the layout depends on. Lengths are in pixels. -/
structure Settings where
  /-- The middle of the column of nodes. -/
  originX : Float32 := 100
  /-- The middle of the first node. -/
  originY : Float32 := 50
  /-- The distance between the middles of two neighbouring nodes. -/
  rowSpacing : Float32 := 100
  /-- The distance between the label of a node and its border. -/
  padding : Float32 := 20
  /-- The size of the font. -/
  fontSize : Float32 := 11
  /-- The average width of a character, relative to the size of the font. -/
  avgCharRatio : Float32 := 0.55
  /-- The width that every node has at least. -/
  minNodeWidth : Float32 := 40
  /-- How far a parallelogram leans. -/
  parallelogramSlide : Float32 := 15
  /-- How many steps the search for the longest chain may take. -/
  chainSearchStepLimit : Nat := 200000

/-- A number of a configuration. -/
inductive Settings.Number where
  | integer (n : Int)
  | float (x : Float)

namespace Settings.Number

/-- The nearest single-precision number. -/
def toFloat32 : Settings.Number → Float32
  | integer n => if n < 0 then -Float32.ofNat n.natAbs else Float32.ofNat n.natAbs
  | float x => x.toFloat32

/-- A count: an integer from zero on that fits in 64 bits. -/
def toCount? : Settings.Number → Option Nat
  | integer n => if 0 ≤ n ∧ n < 18446744073709551616 then some n.toNat else none
  | float _ => none

/-- The number that a JSON value is. An integer beyond 64 bits, or a negative zero, is taken for a
number of double precision. -/
def ofJson? : Json → Option Settings.Number
  | .number (.integer negative magnitude) =>
    let n : Int := if negative then -magnitude else magnitude
    if (negative ∧ magnitude = 0) ∨ n < -9223372036854775808 ∨ 18446744073709551616 ≤ n then
      some (float (Json.Number.integer negative magnitude).toFloat)
    else some (integer n)
  | .number (.decimal value) => some (float value.toFloat)
  | _ => none

end Settings.Number

namespace Settings

/-- The names of the settings in a configuration. -/
def names : List String :=
  ["origin_x", "origin_y", "row_spacing", "padding", "font_size", "avg_char_ratio",
    "min_node_width", "parallelogram_slide", "chain_search_step_limit"]

/-- Changes the setting with a name. -/
def set? (settings : Settings) (name : String) (number : Settings.Number) :
    Option Settings :=
  match name with
  | "origin_x" => some { settings with originX := number.toFloat32 }
  | "origin_y" => some { settings with originY := number.toFloat32 }
  | "row_spacing" => some { settings with rowSpacing := number.toFloat32 }
  | "padding" => some { settings with padding := number.toFloat32 }
  | "font_size" => some { settings with fontSize := number.toFloat32 }
  | "avg_char_ratio" => some { settings with avgCharRatio := number.toFloat32 }
  | "min_node_width" => some { settings with minNodeWidth := number.toFloat32 }
  | "parallelogram_slide" => some { settings with parallelogramSlide := number.toFloat32 }
  | "chain_search_step_limit" =>
    number.toCount?.map fun limit => { settings with chainSearchStepLimit := limit }
  | _ => none

/-- The settings with those changed that are given by name, none twice. -/
def ofEntries? (entries : List (String × Settings.Number)) : Option Settings :=
  if (entries.map Prod.fst).Nodup then
    entries.foldlM (fun settings (name, number) => settings.set? name number) {}
  else none

/-- Reads the settings that an object names. -/
def ofJson? : Json → Option Settings
  | .object members => do
    ofEntries? (← members.mapM fun (name, value) => (Settings.Number.ofJson? value).map (name, ·))
  | _ => none

/-- About how wide a text is in one line. -/
def textWidth (settings : Settings) (text : String) : Float32 :=
  Float32.ofNat text.length * settings.fontSize * settings.avgCharRatio

/-- The width and the height of a node that shows a text. -/
def boxSize (settings : Settings) (text : String) (enclosure : Enclosure) :
    Float32 × Float32 :=
  let labelWidth := settings.textWidth text + 2 * settings.padding
  let height := settings.fontSize + 2 * settings.padding
  let width :=
    match enclosure with
    | .parallelogram => labelWidth + settings.parallelogramSlide.abs
    | .rectangle | .roundedRectangle | .other => labelWidth
  (greater width settings.minNodeWidth, height)

end Settings

end ChainDiagram

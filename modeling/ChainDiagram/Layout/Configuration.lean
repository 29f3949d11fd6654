import ChainDiagram.Layout.Settings
import ChainDiagram.Toml.Reader

/-!
# Configuration files

A configuration is a TOML document whose table `layout` changes layout settings by name. A document
without the table changes nothing, and any other name is refused.
-/

set_option autoImplicit false

namespace ChainDiagram

/-- The number that a value is. -/
def Settings.Number.ofToml? : Toml.Value → Option Settings.Number
  | .integer n => some (.integer n)
  | .float x => some (.float x)
  | _ => none

/-- Reads the settings that a value changes: those that a table names, or the first ones if the
values stand in an array. -/
def Settings.ofToml? : Toml.Value → Option Settings
  | .table _ entries => do
    ofEntries? (← entries.mapM fun (name, value) =>
      (Settings.Number.ofToml? value).map (name, ·))
  | .array items => do
    let numbers ← (items.take names.length).mapM Settings.Number.ofToml?
    ofEntries? (names.zip numbers)
  | _ => none

/-- Reads the layout settings of a configuration. -/
def Settings.ofConfig? (text : String) : Option Settings := do
  match ← Toml.ofText? text with
  | [] => return {}
  | [("layout", value)] => ofToml? value
  | _ => none

end ChainDiagram

import Upkeep.Event
import Upkeep.Format.Toml.Record
import Upkeep.Text.Blank

/-!
This module contains the settings of logs, and the levels that they name.
-/

namespace Upkeep.Log

open Format

/--
The level that a text names. Blanks around it and the case of its letters do not matter.
-/
def level? (raw : String) : Option Severity :=
  match Text.lower (Text.trim raw) with
  | "debug" => some .debug
  | "info" => some .info
  | "warn" | "warning" => some .warn
  | "error" | "fatal" => some .error
  | _ => none

structure Settings where
  level : String
  ansi : Bool
  withTarget : Bool
  directives : List String
  deriving DecidableEq, Inhabited

namespace Settings

/--
The settings of a log that is not configured.
-/
def standard : Settings :=
  { level := "info", ansi := true, withTarget := true, directives := [] }

/--
Reads settings. What is not given is as for a log that is not configured.
-/
def read? (text : String) : Option Settings := do
  let document ← Toml.parse? text
  let d := standard
  match ← document.node.fields? [["level"], ["ansi"], ["with_target"], ["directives"]] with
  | [level, ansi, withTarget, directives] =>
    return {
      level := ← Toml.orElse level Toml.Node.text? d.level
      ansi := ← Toml.orElse ansi Toml.Node.bool? d.ansi
      withTarget := ← Toml.orElse withTarget Toml.Node.bool? d.withTarget
      directives := ← Toml.orElse directives Toml.Node.texts? d.directives }
  | _ => none

end Settings

end Upkeep.Log

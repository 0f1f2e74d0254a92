import Upkeep.Format.Toml.Record
import Upkeep.Metrics.Report
import Upkeep.Span

/-!
This module contains the settings of report sinks.
-/

namespace Upkeep.Metrics

open Format

/--
The settings of a report sink. The server is the name in its lines.
-/
structure Settings where
  server : String
  level : Severity
  flushSeconds : Nat
  alignToMinute : Bool
  capacity : Nat
  ignored : List String
  deriving DecidableEq, Inhabited

namespace Settings

/--
The settings of a program that configures nothing.
-/
def standard (program : String) : Settings :=
  { server := program
    level := .info
    flushSeconds := 60
    alignToMinute := true
    capacity := 1024
    ignored := [] }

/--
The time between two reports, at least a second.
-/
def period (s : Settings) : Span := Span.ofSeconds (max s.flushSeconds 1)

/--
Reads settings. What is not given is as for a program that configures nothing.
-/
def read? (program text : String) : Option Settings := do
  let document ← Toml.parse? text
  let d := standard program
  match ← document.node.fields? [["server", "name"], ["level"], ["flush_interval_secs"],
      ["align_to_minute"], ["queue_capacity"], ["ignored_prefixes"]] with
  | [server, level, flushSeconds, alignToMinute, capacity, ignored] =>
    return {
      server := ← Toml.orElse server Toml.Node.text? d.server
      level := ← Toml.orElse level (fun n => n.text?.map reportLevel) d.level
      flushSeconds := ← Toml.orElse flushSeconds (Toml.Node.nat? (Nat.pow 2 64)) d.flushSeconds
      alignToMinute := ← Toml.orElse alignToMinute Toml.Node.bool? d.alignToMinute
      capacity := ← Toml.orElse capacity (Toml.Node.nat? (Nat.pow 2 64)) d.capacity
      ignored := ← Toml.orElse ignored Toml.Node.texts? d.ignored }
  | _ => none

end Settings

end Upkeep.Metrics

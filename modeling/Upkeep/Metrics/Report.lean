import Upkeep.Decimal.Plain
import Upkeep.Event
import Upkeep.Metrics.Stat
import Upkeep.Text.Blank

/-!
This module contains what a report of metrics looks like: its severity and its lines.
-/

namespace Upkeep.Metrics

/--
The severity that a text selects for reports. Blanks around it and the case of its letters do not
matter; a text that names no severity selects `info`.
-/
def reportLevel (raw : String) : Severity :=
  match Text.lower (Text.trim raw) with
  | "debug" => .debug
  | "warn" | "warning" => .warn
  | "error" => .error
  | _ => .info

def reportLine (server name : String) (s : Stat) : String :=
  "metrics | " ++ server ++ " | " ++ name ++ " | min " ++ Decimal.plain s.min ++
    ", max " ++ Decimal.plain s.max ++ ", sum " ++ Decimal.plain s.sum ++
    ", avg " ++ Decimal.plain s.avg ++ ", count " ++ toString s.count

structure Line where
  level : Severity
  text : String
  deriving DecidableEq, Inhabited

def Line.event (l : Line) : Event := ⟨l.level, l.text, []⟩

def report (level : Severity) (server : String) (summaries : List (String × Stat)) : List Line :=
  summaries.map fun e => ⟨level, reportLine server e.1 e.2⟩

end Upkeep.Metrics

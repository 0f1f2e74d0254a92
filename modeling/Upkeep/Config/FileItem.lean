import Upkeep.Format.Toml.Record

/-!
This module contains the settings of a file source: which file belongs to which key.
-/

namespace Upkeep.Config

open Format

structure FileItem where
  key : String
  path : String
  deriving DecidableEq, Inhabited

namespace FileItem

def read? (n : Toml.Node) : Option FileItem := do
  match ← n.fields? [["name"], ["path"]] with
  | [key, path] => return { key := ← (← key).text?, path := ← (← path).text? }
  | _ => none

def readAll? (text : String) : Option (List FileItem) := do
  let document ← Toml.parse? text
  match ← document.node.fields? [["items"]] with
  | [items] => Toml.orElse items (fun n => n.list?.bind fun ns => ns.mapM read?) []
  | _ => none

end FileItem

end Upkeep.Config

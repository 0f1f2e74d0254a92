import Upkeep.Config.Error
import Upkeep.Format.Json.Record
import Upkeep.Format.Toml.Record
import Upkeep.Text.Inspect

/-!
This module contains settings: the values that configuration texts stand for. A text has an
encoding, and a shape says what is expected in it.
-/

namespace Upkeep.Config

open Format

/--
The language of a configuration text.
-/
inductive Encoding where
  | json
  | toml
  deriving DecidableEq, Inhabited

namespace Encoding

/--
The encoding of a name. Names are written in small letters.
-/
def ofName? : String → Option Encoding
  | "json" => some json
  | "toml" => some toml
  | _ => none

def inspect : Encoding → String
  | json => "Json"
  | toml => "Toml"

/--
The error for a text that cannot be read.
-/
def error : Encoding → ConfigError
  | json => .json
  | toml => .toml

end Encoding

structure Flags where
  darkMode : Bool
  limit : Nat
  deriving DecidableEq, Inhabited

namespace Flags

/--
The number of values of a limit.
-/
def limitBound : Nat := Nat.pow 2 32

def ofJson? (t : Json.Tree) : Option Flags := do
  match ← t.fields? ["dark_mode", "limit"] with
  | [darkMode, limit] =>
    return { darkMode := ← (← darkMode).bool?, limit := ← (← limit).nat? limitBound }
  | _ => none

def ofToml? (n : Toml.Node) : Option Flags := do
  match ← n.fields? [["dark_mode"], ["limit"]] with
  | [darkMode, limit] =>
    return { darkMode := ← (← darkMode).bool?, limit := ← (← limit).nat? limitBound }
  | _ => none

/--
Reads flags. Both of them have to be given.
-/
def read? (encoding : Encoding) (text : String) : Option Flags :=
  match encoding with
  | .json => (Json.Tree.parse? text).bind ofJson?
  | .toml => (Toml.parse? text).bind fun t => ofToml? t.node

def inspect (f : Flags) : String :=
  Text.inspect "Flags" [("dark_mode", toString f.darkMode), ("limit", toString f.limit)]

end Flags

/--
What is expected in a text.
-/
inductive Shape where
  | flags
  | free
  deriving DecidableEq, Inhabited

/--
What a text stands for.
-/
inductive Setting where
  | flags (f : Flags)
  | free (v : Value)
  deriving Inhabited

/--
The text of a setting for inspection. Free values are not shown.
-/
def Setting.inspect : Setting → String
  | flags f => f.inspect
  | free _ => "_"

def Shape.read? (shape : Shape) (encoding : Encoding) (text : String) : Option Setting :=
  match shape, encoding with
  | .flags, _ => (Flags.read? encoding text).map .flags
  | .free, .json => (Json.readValue? text).map .free
  | .free, .toml => (Toml.readValue? text).map .free

/--
Reads a text, or says in which language it is wrong.
-/
def Shape.read (shape : Shape) (encoding : Encoding) (text : String) :
    Except ConfigError Setting :=
  match shape.read? encoding text with
  | some v => .ok v
  | none => .error encoding.error

end Upkeep.Config

import Upkeep.Decimal.Pointed
import Upkeep.Decimal.Reading
import Upkeep.Log.Verbosity
import Upkeep.Pattern.Reader
import Upkeep.Text.Alphanumeric
import Upkeep.Text.Inspect
import Upkeep.Text.Slice

/-!
This module contains directives: how much is let through of which events. A directive is written as
a level, as a target, or as both with an equals sign between them. Behind the target, brackets may
hold a span and, in braces, fields: `target[span{field}]=level`.
-/

namespace Upkeep.Log

/--
What the value of a field has to be: a truth value, a number, or a text that a pattern fits.
-/
inductive FieldValue where
  | bool (b : Bool)
  | natural (n : Nat)
  | integer (i : Int)
  | double (x : Float)
  | pattern (s : String)
  deriving DecidableEq, Inhabited

/--
A field that is asked for, maybe with a value.
-/
structure Field where
  name : String
  value : Option FieldValue
  deriving DecidableEq, Inhabited

/--
How much is let through of the events whose target starts with a text, or of all events. With a
span, it is about what happens inside such spans; with fields, about what has them all.
-/
structure Directive where
  target : Option String
  span : Option String
  fields : List Field
  level : Verbosity
  deriving DecidableEq, Inhabited

namespace FieldValue

/--
The digits of a number behind one of some signs.
-/
def digits? (signs : List Char) (s : String) : Option Nat :=
  Decimal.natural? <|
    match s.toList with
    | c :: cs => if signs.contains c then cs else c :: cs
    | [] => []

/--
The integer that a text stands for, if it has 64 bits.
-/
def integer? (s : String) : Option FieldValue :=
  let unsigned := (digits? ['+'] s).filter (· < Nat.pow 2 64)
  let negated := (digits? ['-'] s).filter (· ≤ Nat.pow 2 63)
  match unsigned, negated with
  | some n, _ => some (.natural n)
  | none, some n => some (.integer (-n))
  | none, none => none

/--
The value that a text stands for. What is neither a truth value nor a number has to be a pattern.
-/
def ofText? (s : String) : Option FieldValue :=
  if s = "true" then some (.bool true)
  else if s = "false" then some (.bool false)
  else
    integer? s <|> (Decimal.ofText? s).map .double <|>
      if Pattern.isUsable s then some (.pattern s) else none

def inspect : FieldValue → String
  | bool b => "Bool(" ++ toString b ++ ")"
  | natural n => "U64(" ++ toString n ++ ")"
  | integer i => "I64(" ++ toString i ++ ")"
  | double x => if x.isNaN then "NaN" else "F64(" ++ Decimal.pointed x ++ ")"
  | pattern s => "Pat(" ++ s ++ ")"

end FieldValue

namespace Field

/--
A field in braces: a name, maybe with an equals sign and a value.
-/
def ofText? (s : String) : Option Field :=
  match s.splitOn "=" with
  | name :: value :: _ => (FieldValue.ofText? value).map fun v => ⟨name, some v⟩
  | _ => if s.isEmpty then none else some ⟨s, none⟩

def inspect (f : Field) : String :=
  let value :=
    match f.value with
    | some v => "Some(" ++ v.inspect ++ ")"
    | none => "None"
  Text.inspect "Match" [("name", Text.quote f.name), ("value", value)]

end Field

namespace Directive

/--
The directive that lets a level through of everything.
-/
def everything (v : Verbosity) : Directive := ⟨none, none, [], v⟩

/--
Whether a directive is about single events: it names no span and no value of a field.
-/
def isStatic (d : Directive) : Bool := d.span.isNone && d.fields.all (·.value.isNone)

/--
Whether a text without brackets in front may start with a character.
-/
def isStart (c : Char) : Bool := Text.isAlphanumeric c || c = '-' || c = ':' || c = '_'

/--
What a directive cannot be read for: it is malformed, or it would have to be cut inside a character.
-/
inductive Fault where
  | malformed
  | split (x : Text.Split)
  deriving DecidableEq, Inhabited

/--
What is being read. Positions are those of the first byte.
-/
inductive Stage where
  | start
  | word
  | span (first : Nat)
  | field (first : Nat)
  | fields
  | target
  | level (first : Nat)
  | complete
  deriving DecidableEq, Inhabited

/--
A directive that is being read.
-/
structure Draft where
  stage : Stage
  directive : Directive
  deriving DecidableEq, Inhabited

/--
The piece of a text between two byte positions.
-/
def piece (text : List Char) (first stop : Nat) : Except Fault String :=
  match Text.slice text first stop with
  | .ok cs => .ok (String.ofList cs)
  | .error x => .error (.split x)

/--
The level behind an equals sign. Nothing stands for everything.
-/
def readLevel (s : String) : Except Fault Verbosity :=
  if s.isEmpty then .ok .trace
  else
    match Verbosity.ofText? s with
    | some v => .ok v
    | none => .error .malformed

/--
A field in braces.
-/
def readField (s : String) : Except Fault Field :=
  match Field.ofText? s with
  | some f => .ok f
  | none => .error .malformed

/--
A text alone is a level or, if it names none, a target.
-/
def ofWord (d : Directive) (s : String) : Directive :=
  match Verbosity.ofText? s with
  | some v => { d with target := none, level := v }
  | none => { d with target := some s, level := .trace }

/--
Reads a character at a byte position of the text without the blanks around it. Pieces are cut out
of the text with the blanks around it, at the same positions. A comma ends the directive.
-/
def read (text : List Char) (draft : Draft) (position : Nat) (c : Char) : Except Fault Draft := do
  let d := draft.directive
  match draft.stage, c with
  | .start, '[' => return ⟨.span (position + 1), d⟩
  | .start, c => if isStart c then return ⟨.word, d⟩ else throw .malformed
  | .word, '=' => return ⟨.level (position + 1), { d with target := ← piece text 0 position }⟩
  | .word, '[' => return ⟨.span (position + 1), { d with target := ← piece text 0 position }⟩
  | .word, ',' => return ⟨.complete, d.ofWord (String.ofList text)⟩
  | .word, _ => return draft
  | .span first, ']' => return ⟨.target, { d with span := ← piece text first position }⟩
  | .span first, '\x7b' =>
    let name ← piece text first position
    return ⟨.field (position + 1), { d with span := if name.isEmpty then none else some name }⟩
  | .span _, _ => return draft
  | .field first, '\x7d' =>
    let field ← readField (← piece text first position)
    return ⟨.fields, { d with fields := d.fields ++ [field] }⟩
  | .field first, ',' =>
    let field ← readField (← piece text first position)
    return ⟨.field (position + 1), { d with fields := d.fields ++ [field] }⟩
  | .field _, _ => return draft
  | .fields, ']' => return ⟨.target, d⟩
  | .target, '=' => return ⟨.level (position + 1), d⟩
  | .level first, ',' =>
    return ⟨.complete, { d with level := ← readLevel (← piece text first position) }⟩
  | .level _, _ => return draft
  | _, _ => throw .malformed

/--
Reads the characters from a byte position on.
-/
def readFrom (text : List Char) (draft : Draft) (position : Nat) : List Char → Except Fault Draft
  | [] => .ok draft
  | c :: cs => do readFrom text (← read text draft position c) (position + c.utf8Size) cs

/--
The directive, once all characters have been read.
-/
def finish (text : List Char) (draft : Draft) : Except Fault Directive :=
  match draft.stage with
  | .word => .ok (draft.directive.ofWord (String.ofList text))
  | .level first => do
    let level ← readLevel (← piece text first (Text.byteLength text))
    return { draft.directive with level }
  | .target | .complete => .ok draft.directive
  | _ => .error .malformed

def ofText (s : String) : Except Fault Directive := do
  let text := s.toList
  finish text (← readFrom text ⟨.start, everything .trace⟩ 0 (Text.trimChars text))

def inspect (d : Directive) : String :=
  Text.inspect "Directive"
    [("in_span", Text.quote? d.span), ("fields", Text.inspectList (d.fields.map Field.inspect)),
     ("target", Text.quote? d.target), ("level", d.level.inspect)]

end Directive

end Upkeep.Log

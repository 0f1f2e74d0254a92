import Upkeep.Text.Printable

/-!
This module contains the quoted form of text: between double quotes, with the quote, the backslash
and everything that has no visible form of its own escaped. An apostrophe stands for itself, except
in paths and in single characters.
-/

namespace Upkeep.Text

/--
The lower-case hexadecimal digits of a number, without leading zeros.
-/
def hexDigits (n : Nat) : List Char := Nat.toDigits 16 n

def quoteChar (c : Char) : List Char :=
  match c with
  | '"' => ['\\', '"']
  | '\\' => ['\\', '\\']
  | '\n' => ['\\', 'n']
  | '\r' => ['\\', 'r']
  | '\t' => ['\\', 't']
  | '\x00' => ['\\', '0']
  | c =>
    if isPrintable c then [c]
    else ['\\', 'u', '\x7b'] ++ hexDigits c.toNat ++ ['\x7d']

def quote (s : String) : String :=
  String.ofList ('"' :: s.toList.flatMap quoteChar ++ ['"'])

/--
How one character is written where the apostrophe is escaped, too.
-/
def quoteStrictChar (c : Char) : List Char := if c = '\'' then ['\\', '\''] else quoteChar c

/--
The quoted form of a path. In paths the apostrophe is escaped, too.
-/
def quotePath (s : String) : String :=
  String.ofList ('"' :: s.toList.flatMap quoteStrictChar ++ ['"'])

/--
The quoted form of one character, between apostrophes. There the double quote stands for itself.
-/
def quoteLetter (c : Char) : String :=
  String.ofList ('\'' :: (if c = '"' then ['"'] else quoteStrictChar c) ++ ['\''])

def quote? : Option String → String
  | some s => "Some(" ++ quote s ++ ")"
  | none => "None"

end Upkeep.Text

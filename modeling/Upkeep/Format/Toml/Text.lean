import Upkeep.Format.Json.Tree
import Upkeep.Format.Scanner

/-!
This module contains the strings and the blanks of TOML documents.
-/

namespace Upkeep.Format.Toml

/--
A space or a tab.
-/
def isWhite (c : Char) : Bool := c = ' ' || c = '\t'

/--
A character that may stand in a string or a comment: a tab or no control character.
-/
def isPlain (c : Char) : Bool := c = '\t' || (32 ≤ c.toNat && c.toNat ≠ 127)

def white : Scanner Unit := do let _ ← Scanner.span isWhite

/--
The end of a line, with or without a carriage return.
-/
def newline : Scanner Unit := fun
  | '\n' :: cs => some ((), cs)
  | '\r' :: '\n' :: cs => some ((), cs)
  | _ => none

def comment : Scanner Unit := do
  Scanner.word "#"
  let _ ← Scanner.span isPlain

/--
White space, comments and ends of lines.
-/
def gap : Scanner Unit := do
  let _ ← Scanner.many (do white; let _ ← Scanner.opt comment; newline)
  white

/--
The end of a line after a value: white space, a comment, and the end of the line or of the text.
-/
def lineEnd : Scanner Unit := do
  white
  let _ ← Scanner.opt comment
  newline <|> Scanner.atEnd

/--
A character by its number, in `n` hexadecimal digits. Surrogates and numbers beyond the last
character are refused.
-/
def numbered (n : Nat) : Scanner Char := do
  let v := Json.hexValue (← Scanner.exactly n Json.isHexDigit)
  if v < 0xd800 || (0xe000 ≤ v && v < 0x110000) then return Char.ofNat v else failure

/--
A character behind a backslash.
-/
def escape : Scanner Char := do
  Scanner.word "\\"
  match ← Scanner.one fun _ => true with
  | 'b' => return '\x08'
  | 'f' => return '\x0c'
  | 'n' => return '\n'
  | 'r' => return '\r'
  | 't' => return '\t'
  | '"' => return '"'
  | '\\' => return '\\'
  | 'u' => numbered 4
  | 'U' => numbered 8
  | _ => failure

/--
A string on one line in double quotes.
-/
def basic : Scanner (List Char) := do
  Scanner.word "\""
  let cs ← Scanner.many
    (Scanner.one (fun c => isPlain c && c ≠ '"' && c ≠ '\\') <|> escape)
  Scanner.word "\""
  return cs

/--
A string on one line in single quotes.
-/
def literal : Scanner (List Char) := do
  Scanner.word "'"
  let cs ← Scanner.span fun c => isPlain c && c ≠ '\''
  Scanner.word "'"
  return cs

/--
A backslash at the end of a line: it takes the end of the line away, with all blanks and empty lines
that follow.
-/
def continuation : Scanner Unit := do
  Scanner.word "\\"
  white
  newline
  let _ ← Scanner.many (newline <|> do let _ ← Scanner.span1 isWhite)

/--
One or two quotes that do not end the string.
-/
def innerQuotes (quote : Char) : Scanner (List Char) := fun cs =>
  let quotes := cs.takeWhile (· = quote)
  if 1 ≤ quotes.length && quotes.length ≤ 2 then some (quotes, cs.drop quotes.length) else none

/--
The three quotes that end a string, with at most two quotes before them that belong to it.
-/
def closingQuotes (quote : Char) : Scanner (List Char) := fun cs =>
  let n := (cs.takeWhile (· = quote)).length
  if 3 ≤ n && n ≤ 5 then some (List.replicate (n - 3) quote, cs.drop n) else none

/--
A string of several lines between triple quotes. A line end directly behind the opening quotes is
left out.
-/
def multiline (quote : Char) (content : Scanner (List Char)) : Scanner (List Char) := do
  let _ ← Scanner.exactly 3 (· = quote)
  let _ ← Scanner.opt newline
  let parts ← Scanner.many (content <|> innerQuotes quote)
  return parts.flatten ++ (← closingQuotes quote)

/--
A string of several lines in which a backslash starts an escape.
-/
def multilineBasic : Scanner (List Char) := multiline '"' <|
  Scanner.span1 (fun c => isPlain c && c ≠ '"' && c ≠ '\\') <|>
  (do continuation; return []) <|>
  (do return [← escape]) <|>
  (do newline; return ['\n'])

/--
A string of several lines without escapes.
-/
def multilineLiteral : Scanner (List Char) := multiline '\'' <|
  Scanner.span1 (fun c => isPlain c && c ≠ '\'') <|>
  (do newline; return ['\n'])

def text : Scanner String := do
  return String.ofList (← multilineBasic <|> basic <|> multilineLiteral <|> literal)

/--
Whether a character may stand in a key without quotes.
-/
def isBare (c : Char) : Bool := c.isAlphanum || c = '-' || c = '_'

def keyPart : Scanner String := do
  white
  let cs ← basic <|> literal <|> Scanner.span1 isBare
  white
  return String.ofList cs

/--
A key with parts between points. There are fewer than 80 of them.
-/
def key : Scanner (List String) := do
  let parts ← Scanner.separated keyPart (Scanner.word ".")
  if parts.isEmpty || 80 ≤ parts.length then failure else return parts

end Upkeep.Format.Toml

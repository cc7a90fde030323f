import ClusterBackup.Text.Digits
import ClusterBackup.Text.Printable
/-!
# Quoted text

A text between quotes, as names appear in messages. Single quotes are used unless the text holds
a single quote and no double quote. A backslash stands before the quote in use and before itself;
line feed, carriage return and tab are written by letter, and any other character that is not
printable by its code point in two, four or eight small hexadecimal digits.
-/

namespace ClusterBackup.Text

/-- A code point in two, four or eight hexadecimal digits, as few as hold it. -/
def codePointEscape (n : Nat) : List Char :=
  if n < 0x100 then '\\' :: 'x' :: inPlaces 16 2 n
  else if n < 0x10000 then '\\' :: 'u' :: inPlaces 16 4 n
  else '\\' :: 'U' :: inPlaces 16 8 n

def quoteChar (quote c : Char) : List Char :=
  if c = quote ∨ c = '\\' then ['\\', c]
  else if c = '\n' then ['\\', 'n']
  else if c = '\r' then ['\\', 'r']
  else if c = '\t' then ['\\', 't']
  else if isPrintable c then [c]
  else codePointEscape c.toNat

def quoteFor (cs : List Char) : Char :=
  if '\'' ∈ cs ∧ '"' ∉ cs then '"' else '\''

def quoted (s : String) : String :=
  let cs := s.toList
  let quote := quoteFor cs
  String.ofList (quote :: cs.flatMap (quoteChar quote) ++ [quote])

example : quoted "a\n\"b'" = "'a\\n\"b\\''" := by decide +kernel

end ClusterBackup.Text

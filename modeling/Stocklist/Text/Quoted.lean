/-
  Stocklist/Text/Quoted.lean
  ==========================
  **Texts in quotation marks, on one line.**

  A quoted text stands between double quotes.  Quotes and backslashes in it follow a
  backslash, tab, return, line feed and null have short escapes, and every other hidden
  character is written by its code point, as `\u{200b}`.  So a quoted text has no
  control character of its own, and it can be taken apart again.
-/
import Stocklist.Text.Hex
import Stocklist.Text.Visible

namespace Stocklist.Text

def codeEscape (c : Char) : List Char :=
  ['\\', 'u', '\x7b'] ++ hexDigits c.toNat ++ ['\x7d']

def quoteChar (c : Char) : List Char :=
  if c = '\x00' then ['\\', '0']
  else if c = '\t' then ['\\', 't']
  else if c = '\r' then ['\\', 'r']
  else if c = '\n' then ['\\', 'n']
  else if c = '"' then ['\\', '"']
  else if c = '\\' then ['\\', '\\']
  else if isHidden c then codeEscape c
  else [c]

def quoted (s : String) : String :=
  String.ofList ('"' :: s.toList.flatMap quoteChar ++ ['"'])

end Stocklist.Text

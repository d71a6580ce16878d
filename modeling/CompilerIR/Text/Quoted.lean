import CompilerIR.Text.Integer
import CompilerIR.Text.Unprintable

/-!
Quoted characters and strings. A backslash introduces the short escapes, and whatever has
no visible form of its own is written by its code point.
-/

namespace CompilerIR.Text

/-- One character between quotes of the given kind; only that kind of quote is escaped. -/
def escaped (quote : Char) (c : Char) : String :=
  match c with
  | '\x00' => "\\0"
  | '\t' => "\\t"
  | '\r' => "\\r"
  | '\n' => "\\n"
  | '\\' => "\\\\"
  | c =>
      if c = quote then "\\".push c
      else if isUnprintable c then "\\u\x7b" ++ hex c.toNat ++ "\x7d"
      else String.singleton c

def quoted (text : String) : String :=
  text.toList.foldl (fun written c => written ++ escaped '"' c) "\"" ++ "\""

def quotedChar (c : Char) : String :=
  "'" ++ escaped '\'' c ++ "'"

/-- A UTF-16 code unit; half of a surrogate pair is no character and keeps its four
digits. -/
def quotedUnit (unit : UInt16) : String :=
  if unit.toNat.isValidChar then quotedChar (Char.ofNat unit.toNat)
  else "'\\u" ++ hexPadded 4 unit.toNat ++ "'"

end CompilerIR.Text

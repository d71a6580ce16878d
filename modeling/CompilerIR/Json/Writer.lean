import CompilerIR.Json.Basic

/-!
Compact JSON text. The written part is handed along, so a long list costs no stack.
-/

namespace CompilerIR.Json

/-- Controls are escaped, by their short form if they have one; all other characters but
the quote and the backslash stand for themselves. -/
def escaped (c : Char) : String :=
  match c with
  | '"' => "\\\""
  | '\\' => "\\\\"
  | '\x08' => "\\b"
  | '\x0c' => "\\f"
  | '\n' => "\\n"
  | '\r' => "\\r"
  | '\t' => "\\t"
  | c => if c.toNat < 0x20 then "\\u" ++ Text.hexPadded 4 c.toNat else String.singleton c

def Literal.writeTo (written : String) : Literal → String
  | .text content =>
      (content.toList.foldl (fun text c => text ++ escaped c) (written.push '"')).push '"'
  -- Any half of a surrogate pair does.
  | .unpaired => written ++ "\"\\ud800\""

mutual

def writeTo (written : String) : Json → String
  | .null => written ++ "null"
  | .bool value => written ++ (if value then "true" else "false")
  | .number numeral => written ++ numeral.text "+"
  | .string literal => literal.writeTo written
  | .array [] => written ++ "[]"
  | .array (item :: items) => (writeItems (writeTo (written.push '[') item) items).push ']'
  | .object [] => written ++ "\x7b\x7d"
  | .object ((key, value) :: entries) =>
      let first := writeTo ((key.writeTo (written.push '\x7b')).push ':') value
      (writeEntries first entries).push '\x7d'

def writeItems (written : String) : List Json → String
  | [] => written
  | item :: items => writeItems (writeTo (written.push ',') item) items

def writeEntries (written : String) : List (Literal × Json) → String
  | [] => written
  | (key, value) :: entries =>
      writeEntries (writeTo ((key.writeTo (written.push ',')).push ':') value) entries

end

def text (json : Json) : String := json.writeTo ""

end CompilerIR.Json

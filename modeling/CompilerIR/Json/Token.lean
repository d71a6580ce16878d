import CompilerIR.Json.Basic

/-!
Words of the JSON grammar. The text is read one character at a time; the state says which
word is under way.
-/

namespace CompilerIR.Json

inductive Token
  | openBrace
  | closeBrace
  | openBracket
  | closeBracket
  | colon
  | comma
  | null
  | bool (value : Bool)
  | number (numeral : Numeral)
  | string (literal : Literal)
deriving DecidableEq

/-- A character of a string literal, or a code unit written as an escape. -/
inductive Piece
  | char (c : Char)
  | unit (value : Nat)

namespace Piece

def isHighSurrogate (value : Nat) : Bool := 0xd800 ≤ value && value < 0xdc00

def isLowSurrogate (value : Nat) : Bool := 0xdc00 ≤ value && value < 0xe000

def pairValue (high low : Nat) : Nat := 0x10000 + (high - 0xd800) * 0x400 + (low - 0xdc00)

/-- Two halves in a row make one character; a half alone makes the literal unpaired. -/
def join : List Piece → Option (List Char)
  | [] => some []
  | .char c :: rest => (join rest).map (c :: ·)
  | .unit high :: .unit low :: rest =>
      if isHighSurrogate high then
        if isLowSurrogate low then (join rest).map (Char.ofNat (pairValue high low) :: ·) else none
      else if isLowSurrogate high then none
      else (join (.unit low :: rest)).map (Char.ofNat high :: ·)
  | .unit value :: rest =>
      if isHighSurrogate value || isLowSurrogate value then none
      else (join rest).map (Char.ofNat value :: ·)

def literal (pieces : List Piece) : Literal :=
  match join pieces with
  | some content => .text (String.ofList content)
  | none => .unpaired

end Piece

inductive Lexer.Word
  | between
  | name (letters : List Char)
  | number (written : List Char)
  | text (pieces : List Piece)
  | escape (pieces : List Piece)
  | unicode (pieces : List Piece) (digits value : Nat)

/-- The finished tokens, last first, and the word under way. -/
structure Lexer where
  tokens : List Token
  word : Lexer.Word

namespace Lexer

def start : Lexer := ⟨[], .between⟩

def emit (tokens : List Token) (token : Token) : Lexer := ⟨token :: tokens, .between⟩

def isBlank (c : Char) : Bool := c = ' ' || c = '\t' || c = '\n' || c = '\r'

def isNumberChar (c : Char) : Bool :=
  c.isDigit || c = '-' || c = '+' || c = '.' || c = 'e' || c = 'E'

def name? (letters : List Char) : Option Token :=
  match String.ofList letters with
  | "null" => some .null
  | "true" => some (.bool true)
  | "false" => some (.bool false)
  | _ => none

def begin (tokens : List Token) (c : Char) : Option Lexer :=
  if isBlank c then some ⟨tokens, .between⟩
  else if c.isLower then some ⟨tokens, .name [c]⟩
  else if c.isDigit || c = '-' then some ⟨tokens, .number [c]⟩
  else match c with
    | '\x7b' => some (emit tokens .openBrace)
    | '\x7d' => some (emit tokens .closeBrace)
    | '[' => some (emit tokens .openBracket)
    | ']' => some (emit tokens .closeBracket)
    | ':' => some (emit tokens .colon)
    | ',' => some (emit tokens .comma)
    | '"' => some ⟨tokens, .text []⟩
    | _ => none

/-- End a name or a number. A string ends at its own quote, never by what follows it. -/
def flush (lexer : Lexer) : Option (List Token) :=
  match lexer.word with
  | .between => some lexer.tokens
  | .name letters => (name? letters.reverse).map (· :: lexer.tokens)
  | .number written => (Numeral.ofChars? written.reverse).map (.number · :: lexer.tokens)
  | .text _ | .escape _ | .unicode _ _ _ => none

def escaped? : Char → Option Char
  | '"' => some '"'
  | '\\' => some '\\'
  | '/' => some '/'
  | 'b' => some '\x08'
  | 'f' => some '\x0c'
  | 'n' => some '\n'
  | 'r' => some '\r'
  | 't' => some '\t'
  | _ => none

def step (lexer : Lexer) (c : Char) : Option Lexer :=
  match lexer.word with
  | .between => begin lexer.tokens c
  | .name letters =>
      if c.isLower then some { lexer with word := .name (c :: letters) }
      else lexer.flush >>= (begin · c)
  | .number written =>
      if isNumberChar c then some { lexer with word := .number (c :: written) }
      else lexer.flush >>= (begin · c)
  | .text pieces =>
      if c = '"' then some (emit lexer.tokens (.string (Piece.literal pieces.reverse)))
      else if c = '\\' then some { lexer with word := .escape pieces }
      else if c.toNat < 0x20 then none
      else some { lexer with word := .text (.char c :: pieces) }
  | .escape pieces =>
      if c = 'u' then some { lexer with word := .unicode pieces 0 0 }
      else (escaped? c).map fun written => { lexer with word := .text (.char written :: pieces) }
  | .unicode pieces digits value =>
      (Text.hexDigit? c).map fun digit =>
        let value := value * 16 + digit
        if digits = 3 then { lexer with word := .text (.unit value :: pieces) }
        else { lexer with word := .unicode pieces (digits + 1) value }

end Lexer

def tokens? (text : List Char) : Option (List Token) := do
  let lexer ← text.foldlM Lexer.step .start
  let tokens ← lexer.flush
  return tokens.reverse

end CompilerIR.Json

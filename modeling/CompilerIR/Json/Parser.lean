import CompilerIR.Json.Token

/-!
Trees from tokens. What is still open stands on a stack, so a text of any depth is read in
one pass over its tokens.
-/

namespace CompilerIR.Json

/-- An array or object still open; its finished parts stand last first. An object is put
aside only while the value under `key` is being read. -/
inductive Parser.Frame
  | items (done : List Json)
  | entries (done : List (Literal × Json)) (key : Literal)

/-- What the next token may be. -/
inductive Parser.Expected
  | value
  /-- Just after an opening bracket. -/
  | valueOrClose
  /-- Just after an opening brace. -/
  | keyOrClose
  | key (done : List (Literal × Json))
  | colon (done : List (Literal × Json)) (key : Literal)
  /-- A value has just ended. -/
  | afterValue (value : Json)

structure Parser where
  frames : List Parser.Frame
  expected : Parser.Expected

namespace Parser

def start : Parser := ⟨[], .value⟩

def finish (frames : List Frame) (value : Json) : Parser := ⟨frames, .afterValue value⟩

def begin (frames : List Frame) : Token → Option Parser
  | .null => some (finish frames .null)
  | .bool value => some (finish frames (.bool value))
  | .number numeral => some (finish frames (.number numeral))
  | .string literal => some (finish frames (.string literal))
  | .openBracket => some ⟨frames, .valueOrClose⟩
  | .openBrace => some ⟨frames, .keyOrClose⟩
  | _ => none

def step (parser : Parser) (token : Token) : Option Parser :=
  match parser.expected, token with
  | .value, token => begin parser.frames token
  | .valueOrClose, .closeBracket => some (finish parser.frames (.array []))
  | .valueOrClose, token => begin (.items [] :: parser.frames) token
  | .keyOrClose, .closeBrace => some (finish parser.frames (.object []))
  | .keyOrClose, .string key => some { parser with expected := .colon [] key }
  | .key done, .string key => some { parser with expected := .colon done key }
  | .colon done key, .colon => some ⟨.entries done key :: parser.frames, .value⟩
  | .afterValue value, token =>
      match parser.frames, token with
      | .items done :: frames, .comma => some ⟨.items (value :: done) :: frames, .value⟩
      | .items done :: frames, .closeBracket =>
          some (finish frames (.array (value :: done).reverse))
      | .entries done key :: frames, .comma => some ⟨frames, .key ((key, value) :: done)⟩
      | .entries done key :: frames, .closeBrace =>
          some (finish frames (.object ((key, value) :: done).reverse))
      | _, _ => none
  | _, _ => none

def result? (parser : Parser) : Option Json :=
  match parser.frames, parser.expected with
  | [], .afterValue value => some value
  | _, _ => none

end Parser

def ofTokens? (tokens : List Token) : Option Json := do
  let parser ← tokens.foldlM Parser.step .start
  parser.result?

def parse? (text : String) : Option Json := tokens? text.toList >>= ofTokens?

end CompilerIR.Json

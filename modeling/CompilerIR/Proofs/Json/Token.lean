import CompilerIR.Json.Token
import CompilerIR.Json.Writer
import CompilerIR.Proofs.Decimal.Numeral

/-!
Words of the JSON grammar as they may be spelled. Main statement: a text made of spellings of
tokens, with blanks between them wherever the grammar has them, is read as these tokens.
-/

namespace CompilerIR.Json

/-! ### Spellings -/

/-- A character stands for itself, or is escaped by its short form; a code unit is escaped by
its four digits. -/
inductive Piece.Spelled : Piece → List Char → Prop
  | plain {c : Char} : 0x20 ≤ c.toNat → c ≠ '"' → c ≠ '\\' → Spelled (.char c) [c]
  | short {mark c : Char} : Lexer.escaped? mark = some c → Spelled (.char c) ['\\', mark]
  | unit {c₁ c₂ c₃ c₄ : Char} {d₁ d₂ d₃ d₄ : Nat} :
      Text.hexDigit? c₁ = some d₁ → Text.hexDigit? c₂ = some d₂ →
      Text.hexDigit? c₃ = some d₃ → Text.hexDigit? c₄ = some d₄ →
        Spelled (.unit (((d₁ * 16 + d₂) * 16 + d₃) * 16 + d₄)) ['\\', 'u', c₁, c₂, c₃, c₄]

inductive PiecesSpelled : List Piece → List Char → Prop
  | nil : PiecesSpelled [] []
  | cons {piece : Piece} {pieces : List Piece} {word rest : List Char} :
      piece.Spelled word → PiecesSpelled pieces rest →
        PiecesSpelled (piece :: pieces) (word ++ rest)

inductive Token.Spelled : Token → List Char → Prop
  | openBrace : Spelled .openBrace ['\x7b']
  | closeBrace : Spelled .closeBrace ['\x7d']
  | openBracket : Spelled .openBracket ['[']
  | closeBracket : Spelled .closeBracket [']']
  | colon : Spelled .colon [':']
  | comma : Spelled .comma [',']
  | null : Spelled .null ['n', 'u', 'l', 'l']
  | true : Spelled (.bool true) ['t', 'r', 'u', 'e']
  | false : Spelled (.bool false) ['f', 'a', 'l', 's', 'e']
  | number {numeral : Numeral} {word : List Char} :
      numeral.Spelled word → Spelled (.number numeral) word
  | string {pieces : List Piece} {body : List Char} :
      PiecesSpelled pieces body → Spelled (.string (Piece.literal pieces)) ('"' :: (body ++ ['"']))

def Token.isBare : Token → Bool
  | .null | .bool _ | .number _ => true
  | _ => false

def isWordChar (c : Char) : Bool := c.isLower || Lexer.isNumberChar c

/-- The text does not go on with a word. -/
def Breaks (text : List Char) : Prop := ∀ c ∈ text.head?, isWordChar c = false

inductive TokensSpelled : List Token → List Char → Prop
  | nil : TokensSpelled [] []
  | blank {c : Char} {tokens : List Token} {text : List Char} :
      Lexer.isBlank c → TokensSpelled tokens text → TokensSpelled tokens (c :: text)
  | cons {token : Token} {tokens : List Token} {word text : List Char} :
      token.Spelled word → (token.isBare → Breaks text) → TokensSpelled tokens text →
        TokensSpelled (token :: tokens) (word ++ text)

/-! ### Reading -/

section Run

variable {State Input : Type} {step : State → Input → Option State} {state next : State}

theorem run_cons {input : Input} (stepped : step state input = some next) (rest : List Input) :
    (input :: rest).foldlM step state = rest.foldlM step next := by
  rw [List.foldlM_cons, stepped]
  rfl

theorem run_append {front : List Input} (read : front.foldlM step state = some next)
    (rest : List Input) : (front ++ rest).foldlM step state = rest.foldlM step next := by
  rw [List.foldlM_append, read]
  rfl

end Run

namespace Lexer

/-- The lexer has read the tokens `done` and nothing more, and a character that starts a word
of its own ends the last of them. -/
structure Ended (lexer : Lexer) (done : List Token) : Prop where
  flush : lexer.flush = some done
  step : ∀ c, isWordChar c = false → lexer.step c = begin done c

theorem ended_between (done : List Token) : Ended ⟨done, .between⟩ done :=
  ⟨rfl, fun _c _other => rfl⟩

theorem ended_name {letters : List Char} {token : Token}
    (named : name? letters.reverse = some token) (done : List Token) :
    Ended ⟨done, .name letters⟩ (token :: done) := by
  have flushed : flush ⟨done, .name letters⟩ = some (token :: done) := by
    simp only [flush, named, Option.map_some]
  refine ⟨flushed, fun c other => ?_⟩
  have notLetter : ¬c.isLower := by
    intro letter
    rw [isWordChar, letter, Bool.true_or] at other
    contradiction
  rw [step]
  simp only [notLetter, flushed]
  rfl

theorem ended_number {written : List Char} {numeral : Numeral}
    (read : Numeral.ofChars? written.reverse = some numeral) (done : List Token) :
    Ended ⟨done, .number written⟩ (.number numeral :: done) := by
  have flushed : flush ⟨done, .number written⟩ = some (.number numeral :: done) := by
    simp only [flush, read, Option.map_some]
  refine ⟨flushed, fun c other => ?_⟩
  have notNumeral : ¬isNumberChar c := by
    intro numeral
    rw [isWordChar, numeral, Bool.or_true] at other
    contradiction
  rw [step]
  simp only [notNumeral, flushed]
  rfl

/-! #### Strings -/

theorem run_piece {piece : Piece} {word : List Char} (spelled : piece.Spelled word)
    (done : List Token) (before : List Piece) :
    word.foldlM step ⟨done, .text before⟩ = some ⟨done, .text (piece :: before)⟩ := by
  have opened : step ⟨done, .text before⟩ '\\' = some ⟨done, .escape before⟩ := rfl
  cases spelled with
  | plain printable notQuote notBackslash =>
      rename_i c
      have notControl : ¬c.toNat < 0x20 := Nat.not_lt.mpr printable
      have read : step ⟨done, .text before⟩ c = some ⟨done, .text (.char c :: before)⟩ := by
        simp only [step]
        rw [if_neg notQuote, if_neg notBackslash, if_neg notControl]
      exact run_cons read []
  | short escapes =>
      rename_i mark c
      have notUnicode : mark ≠ 'u' := by
        rintro rfl
        cases escapes
      have read : step ⟨done, .escape before⟩ mark = some ⟨done, .text (.char c :: before)⟩ := by
        simp only [step]
        rw [if_neg notUnicode, escapes]
        rfl
      exact (run_cons opened [mark]).trans (run_cons read [])
  | unit first second third fourth =>
      have unicode : step ⟨done, .escape before⟩ 'u' = some ⟨done, .unicode before 0 0⟩ := rfl
      rw [run_cons opened, run_cons unicode]
      simp only [List.foldlM_cons, List.foldlM_nil, step]
      rw [first, second, third, fourth]
      simp

theorem run_pieces {pieces : List Piece} {body : List Char} (spelled : PiecesSpelled pieces body)
    (done : List Token) (before : List Piece) :
    body.foldlM step ⟨done, .text before⟩ = some ⟨done, .text (pieces.reverse ++ before)⟩ := by
  induction spelled generalizing before with
  | nil => rfl
  | cons pieceSpelled _restSpelled inductionHypothesis =>
      rw [run_append (run_piece pieceSpelled done before), List.reverse_cons, List.append_assoc]
      exact inductionHypothesis _

theorem run_string {pieces : List Piece} {body : List Char} (spelled : PiecesSpelled pieces body)
    (done : List Token) :
    ('"' :: (body ++ ['"'])).foldlM step ⟨done, .between⟩ =
      some ⟨.string (Piece.literal pieces) :: done, .between⟩ := by
  have opened : step ⟨done, .between⟩ '"' = some ⟨done, .text []⟩ := rfl
  have closed : step ⟨done, .text (pieces.reverse ++ [])⟩ '"' =
      some ⟨.string (Piece.literal pieces) :: done, .between⟩ := by
    rw [List.append_nil]
    simp only [step, if_true, List.reverse_reverse]
    rfl
  rw [run_cons opened, run_append (run_pieces spelled done [])]
  exact run_cons closed []

/-! #### Numbers -/

theorem step_number {c : Char} (starts : c.isDigit ∨ c = '-') (done : List Token) :
    step ⟨done, .between⟩ c = some ⟨done, .number [c]⟩ := by
  rcases starts with digit | rfl
  · have notBlank : ¬isBlank c := by
      intro blank
      simp only [isBlank, Bool.or_eq_true, decide_eq_true_eq] at blank
      rcases blank with ((rfl | rfl) | rfl) | rfl <;> contradiction
    have notLetter : ¬c.isLower := by
      intro letter
      have last : c.toNat ≤ 57 := (Char.isDigit_iff_toNat.mp digit).2
      have first : 97 ≤ c.toNat := of_decide_eq_true (Bool.and_eq_true_iff.mp letter).1
      omega
    simp only [step]
    unfold begin
    rw [if_neg notBlank, if_neg notLetter, digit, Bool.true_or, if_pos rfl]
  · rfl

theorem run_number {rest : List Char} (all : ∀ c ∈ rest, isNumberChar c) (done : List Token)
    (before : List Char) :
    rest.foldlM step ⟨done, .number before⟩ = some ⟨done, .number (rest.reverse ++ before)⟩ := by
  induction rest generalizing before with
  | nil => rfl
  | cons c rest inductionHypothesis =>
      have read : step ⟨done, .number before⟩ c = some ⟨done, .number (c :: before)⟩ := by
        simp only [step]
        rw [if_pos (all c List.mem_cons_self)]
      rw [run_cons read, List.reverse_cons, List.append_assoc]
      exact inductionHypothesis (fun d member => all d (List.mem_cons_of_mem c member)) _

theorem isNumberChar_of_isDigit {c : Char} (digit : c.isDigit) : isNumberChar c := by
  rw [isNumberChar, digit]
  simp

theorem isNumberChar_of_exponentSpelled {exponent : Option Int} {written : List Char}
    (spelled : Numeral.ExponentSpelled exponent written) : ∀ c ∈ written, isNumberChar c := by
  have isMarkChar : ∀ {mark : Char}, mark = 'e' ∨ mark = 'E' → isNumberChar mark := by
    rintro mark (rfl | rfl) <;> rfl
  cases spelled with
  | absent => simp
  | bare isMark run =>
      exact List.forall_mem_cons.mpr
        ⟨isMarkChar isMark, fun c member => isNumberChar_of_isDigit (run.2 c member)⟩
  | plus isMark run | minus isMark run =>
      exact List.forall_mem_cons.mpr ⟨isMarkChar isMark, List.forall_mem_cons.mpr
        ⟨rfl, fun c member => isNumberChar_of_isDigit (run.2 c member)⟩⟩

theorem isNumberChar_of_spelled {numeral : Numeral} {written : List Char}
    (spelled : numeral.Spelled written) : ∀ c ∈ written, isNumberChar c := by
  obtain ⟨negative, whole, digits, exponent⟩ := numeral
  obtain ⟨fraction, exponentText, fractionSpelled, exponentSpelled, rfl⟩ := spelled
  have ofSign : ∀ c ∈ Numeral.sign negative, isNumberChar c := by
    cases negative <;> simp [Numeral.sign, isNumberChar]
  have ofFraction : ∀ c ∈ fraction, isNumberChar c := by
    cases fractionSpelled with
    | absent => simp
    | point run =>
        exact List.forall_mem_cons.mpr
          ⟨rfl, fun c member => isNumberChar_of_isDigit (run.2 c member)⟩
  simp only [List.forall_mem_append]
  exact ⟨ofSign,
    fun c member => isNumberChar_of_isDigit ((isRun_toDigits whole).2 c member),
    ofFraction, isNumberChar_of_exponentSpelled exponentSpelled⟩

theorem starts_of_spelled {numeral : Numeral} {written : List Char}
    (spelled : numeral.Spelled written) :
    ∃ c rest, written = c :: rest ∧ (c.isDigit ∨ c = '-') := by
  obtain ⟨fraction, exponent, _fractionSpelled, _exponentSpelled, rfl⟩ := spelled
  cases numeral.negative with
  | true => exact ⟨'-', _, rfl, .inr rfl⟩
  | false =>
      obtain ⟨c, first, digit⟩ :=
        Numeral.head_of_toDigits_append numeral.whole (fraction ++ exponent)
      obtain ⟨rest, split⟩ := List.head?_eq_some_iff.mp first
      exact ⟨c, rest, split, .inl digit⟩

theorem run_numeral {numeral : Numeral} {written : List Char} (spelled : numeral.Spelled written)
    (done : List Token) :
    written.foldlM step ⟨done, .between⟩ = some ⟨done, .number written.reverse⟩ := by
  obtain ⟨c, rest, rfl, starts⟩ := starts_of_spelled spelled
  have all := (List.forall_mem_cons.mp (isNumberChar_of_spelled spelled)).2
  rw [run_cons (step_number starts done), run_number all, List.reverse_cons]

/-! #### Tokens -/

theorem run_token {token : Token} {word : List Char} (spelled : token.Spelled word)
    (done : List Token) :
    ∃ lexer : Lexer, word.foldlM step ⟨done, .between⟩ = some lexer ∧
      lexer.Ended (token :: done) ∧ (token.isBare = false → lexer = ⟨token :: done, .between⟩) := by
  cases spelled with
  | openBrace | closeBrace | openBracket | closeBracket | colon | comma =>
      exact ⟨_, rfl, ended_between _, fun _ => rfl⟩
  | null => exact ⟨_, rfl, ended_name rfl done, nofun⟩
  | true => exact ⟨_, rfl, ended_name rfl done, nofun⟩
  | false => exact ⟨_, rfl, ended_name rfl done, nofun⟩
  | number numeralSpelled =>
      refine ⟨_, run_numeral numeralSpelled done, ended_number ?_ done, nofun⟩
      rw [List.reverse_reverse]
      exact Numeral.ofChars?_of_spelled numeralSpelled
  | string piecesSpelled =>
      exact ⟨_, run_string piecesSpelled done, ended_between _, fun _ => rfl⟩

def finish? (lexer : Lexer) (text : List Char) : Option (List Token) :=
  text.foldlM step lexer >>= flush

theorem finish?_of_ended {lexer : Lexer} {done : List Token} (ended : lexer.Ended done)
    {text : List Char} (breaks : Breaks text) :
    lexer.finish? text = finish? ⟨done, .between⟩ text := by
  cases text with
  | nil => exact ended.flush
  | cons c rest =>
      rw [finish?, List.foldlM_cons, ended.step c (breaks c rfl)]
      rfl

theorem finish?_of_spelled {tokens : List Token} {text : List Char}
    (spelled : TokensSpelled tokens text) (done : List Token) :
    finish? ⟨done, .between⟩ text = some (tokens.reverse ++ done) := by
  induction spelled generalizing done with
  | nil => rfl
  | blank isBlank _restSpelled inductionHypothesis =>
      rename_i c tokens text
      have passed : step ⟨done, .between⟩ c = some ⟨done, .between⟩ := if_pos isBlank
      rw [finish?, run_cons passed]
      exact inductionHypothesis done
  | cons tokenSpelled breaks _restSpelled inductionHypothesis =>
      rename_i token tokens word text
      obtain ⟨lexer, read, ended, closed⟩ := run_token tokenSpelled done
      -- A bare word is still under way here, and is ended by what follows.
      have goesOn : lexer.finish? text = finish? ⟨token :: done, .between⟩ text := by
        cases bare : token.isBare with
        | true => exact finish?_of_ended ended (breaks bare)
        | false => rw [closed bare]
      rw [finish?, run_append read, List.reverse_cons, List.append_assoc]
      exact goesOn.trans (inductionHypothesis (token :: done))

end Lexer

theorem tokens?_eq (text : List Char) :
    tokens? text = (Lexer.start.finish? text).map List.reverse := by
  rw [tokens?, Lexer.finish?]
  cases text.foldlM Lexer.step Lexer.start with
  | none => rfl
  | some lexer =>
      simp only [Option.bind_eq_bind, Option.bind_some]
      cases lexer.flush <;> rfl

theorem tokens?_of_spelled {tokens : List Token} {text : List Char}
    (spelled : TokensSpelled tokens text) : tokens? text = some tokens := by
  rw [tokens?_eq, Lexer.start, Lexer.finish?_of_spelled spelled, List.append_nil,
    Option.map_some, List.reverse_reverse]

/-! ### Writing -/

def Piece.StandsFor (piece : Piece) (c : Char) : Prop :=
  piece = .char c ∨ piece = .unit c.toNat ∧ c.toNat < 0xd800

theorem Piece.join_cons {piece : Piece} {c : Char} (stands : piece.StandsFor c)
    (rest : List Piece) : join (piece :: rest) = (join rest).map (c :: ·) := by
  rcases stands with rfl | ⟨rfl, below⟩
  · rfl
  · have notHigh : isHighSurrogate c.toNat = false := by
      rw [isHighSurrogate, decide_eq_false (Nat.not_le.mpr below), Bool.false_and]
    have notLow : isLowSurrogate c.toNat = false := by
      have lower : ¬0xdc00 ≤ c.toNat := by omega
      rw [isLowSurrogate, decide_eq_false lower, Bool.false_and]
    cases rest with
    | nil => simp [join, notHigh, notLow, Char.ofNat_toNat]
    | cons next others =>
        cases next <;> simp [join, notHigh, notLow, Char.ofNat_toNat]

theorem hexDigit?_digitChar : ∀ n < 16, Text.hexDigit? (Nat.digitChar n) = some n := by decide

/-- A control character that has no short form. -/
theorem toList_hexPadded {n : Nat} (control : n < 0x20) :
    (Text.hexPadded 4 n).toList = ['0', '0', Nat.digitChar (n / 16), Nat.digitChar (n % 16)] := by
  rw [Text.hexPadded, String.toList_ofList]
  revert n
  decide

theorem exists_piece_of_escaped (c : Char) :
    ∃ piece : Piece, piece.Spelled (escaped c).toList ∧ piece.StandsFor c := by
  unfold escaped
  split
  iterate 7
    exact ⟨_, .short rfl, .inl rfl⟩
  · rename_i notQuote notBackslash _ _ _ _ _
    split
    · rename_i control
      have high : c.toNat / 16 < 16 := by omega
      have low : c.toNat % 16 < 16 := by omega
      have value : ((0 * 16 + 0) * 16 + c.toNat / 16) * 16 + c.toNat % 16 = c.toNat := by omega
      have zero : Text.hexDigit? '0' = some 0 := rfl
      have spelled := Piece.Spelled.unit zero zero (hexDigit?_digitChar _ high)
        (hexDigit?_digitChar _ low)
      rw [value] at spelled
      refine ⟨_, ?_, .inr ⟨rfl, by omega⟩⟩
      rw [String.toList_append, toList_hexPadded control]
      exact spelled
    · rename_i printable
      refine ⟨.char c, ?_, .inl rfl⟩
      rw [String.toList_singleton]
      exact .plain (Nat.not_lt.mp printable) notQuote notBackslash

/-- Pieces that give the content as it is read, and the escaped text as it is spelled. -/
theorem exists_pieces_of_escaped (content : List Char) :
    ∃ pieces, PiecesSpelled pieces (content.flatMap fun c => (escaped c).toList) ∧
      Piece.join pieces = some content := by
  induction content with
  | nil => exact ⟨[], .nil, rfl⟩
  | cons c rest inductionHypothesis =>
      obtain ⟨piece, pieceSpelled, stands⟩ := exists_piece_of_escaped c
      obtain ⟨pieces, restSpelled, joined⟩ := inductionHypothesis
      refine ⟨piece :: pieces, ?_, ?_⟩
      · rw [List.flatMap_cons]
        exact .cons pieceSpelled restSpelled
      · rw [Piece.join_cons stands, joined]
        rfl

theorem toList_foldl_escaped (content : List Char) (written : String) :
    (content.foldl (fun text c => text ++ escaped c) written).toList =
      written.toList ++ content.flatMap fun c => (escaped c).toList := by
  induction content generalizing written with
  | nil => exact (List.append_nil _).symm
  | cons c rest inductionHypothesis =>
      rw [List.foldl_cons, inductionHypothesis, String.toList_append, List.append_assoc,
        List.flatMap_cons]

/-- What is written for a literal is a spelling of it. -/
theorem exists_spelled_writeTo (literal : Literal) (written : String) :
    ∃ word, (Token.string literal).Spelled word ∧
      (literal.writeTo written).toList = written.toList ++ word := by
  cases literal with
  | text content =>
      obtain ⟨pieces, spelled, joined⟩ := exists_pieces_of_escaped content.toList
      have stringSpelled := Token.Spelled.string spelled
      rw [Piece.literal, joined] at stringSpelled
      simp only [String.ofList_toList] at stringSpelled
      refine ⟨_, stringSpelled, ?_⟩
      rw [Literal.writeTo, String.toList_push, toList_foldl_escaped, String.toList_push]
      simp only [List.append_assoc, List.cons_append, List.nil_append]
  | unpaired =>
      have zero : Text.hexDigit? '0' = some 0 := rfl
      have eight : Text.hexDigit? '8' = some 8 := rfl
      have thirteen : Text.hexDigit? 'd' = some 13 := rfl
      refine ⟨_, .string (.cons (.unit thirteen eight zero zero) .nil), ?_⟩
      rw [Literal.writeTo, String.toList_append]
      rfl

end CompilerIR.Json

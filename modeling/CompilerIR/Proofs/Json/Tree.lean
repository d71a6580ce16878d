import CompilerIR.Json.Parser
import CompilerIR.Proofs.Json.Token

/-!
Texts of JSON trees. Main statements: every spelling of a tree is read as that tree, and the
compact text of a tree is one of its spellings.
-/

namespace CompilerIR.Json

mutual

def tokens : Json → List Token
  | .null => [.null]
  | .bool value => [.bool value]
  | .number numeral => [.number numeral]
  | .string literal => [.string literal]
  | .array [] => [.openBracket, .closeBracket]
  | .array (item :: items) =>
      .openBracket :: (tokens item ++ (itemTokens items ++ [.closeBracket]))
  | .object [] => [.openBrace, .closeBrace]
  | .object ((key, value) :: entries) =>
      .openBrace :: .string key :: .colon ::
        (tokens value ++ (entryTokens entries ++ [.closeBrace]))

def itemTokens : List Json → List Token
  | [] => []
  | item :: items => .comma :: (tokens item ++ itemTokens items)

def entryTokens : List (Literal × Json) → List Token
  | [] => []
  | (key, value) :: entries =>
      .comma :: .string key :: .colon :: (tokens value ++ entryTokens entries)

end

/-- The text spells the tree, with blanks anywhere around its words. -/
def Spells (json : Json) (text : String) : Prop := TokensSpelled json.tokens text.toList

/-! ### Reading -/

namespace Parser

theorem exists_first_token (json : Json) :
    ∃ token rest, json.tokens = token :: rest ∧ token ≠ .closeBracket := by
  cases json with
  | null | bool | number | string => exact ⟨_, _, rfl, nofun⟩
  | array items => cases items <;> exact ⟨_, _, rfl, nofun⟩
  | object entries => rcases entries with _ | ⟨⟨key, value⟩, entries⟩ <;> exact ⟨_, _, rfl, nofun⟩

/-- Behind an opening bracket a value is read as the first item. -/
theorem run_valueOrClose (frames : List Frame) (json : Json) (rest : List Token) :
    (json.tokens ++ rest).foldlM step ⟨frames, .valueOrClose⟩ =
      (json.tokens ++ rest).foldlM step ⟨.items [] :: frames, .value⟩ := by
  obtain ⟨token, others, split, notClose⟩ := exists_first_token json
  have same : step ⟨frames, .valueOrClose⟩ token = step ⟨.items [] :: frames, .value⟩ token := by
    cases token <;> first | rfl | exact absurd rfl notClose
  rw [split, List.cons_append, List.foldlM_cons, List.foldlM_cons, same]

-- Structural recursion over the tree. The tokens that follow are part of the statements, since what
-- is read of a value leaves the parser in the middle of what contains it.
mutual

theorem run_tokens (frames : List Frame) (rest : List Token) : (json : Json) →
    (json.tokens ++ rest).foldlM step ⟨frames, .value⟩ = rest.foldlM step (finish frames json)
  | .null | .bool _ | .number _ | .string _ => run_cons rfl rest
  | .array [] => (run_cons rfl (.closeBracket :: rest)).trans (run_cons rfl rest)
  | .array (item :: items) => by
      have opened : step ⟨frames, .value⟩ .openBracket = some ⟨frames, .valueOrClose⟩ := rfl
      rw [tokens, List.cons_append, List.append_assoc, run_cons opened, run_valueOrClose,
        run_tokens, List.append_assoc]
      exact run_itemTokens frames [] item rest items
  | .object [] => (run_cons rfl (.closeBrace :: rest)).trans (run_cons rfl rest)
  | .object ((key, value) :: entries) => by
      have opened : step ⟨frames, .value⟩ .openBrace = some ⟨frames, .keyOrClose⟩ := rfl
      have keyRead : step ⟨frames, .keyOrClose⟩ (.string key) = some ⟨frames, .colon [] key⟩ := rfl
      have colonRead : step ⟨frames, .colon [] key⟩ .colon =
          some ⟨.entries [] key :: frames, .value⟩ := rfl
      rw [tokens, List.cons_append, List.cons_append, List.cons_append, List.append_assoc,
        run_cons opened, run_cons keyRead, run_cons colonRead, run_tokens, List.append_assoc]
      exact run_entryTokens frames [] key value rest entries

/-- The last of the items before these has just ended. -/
theorem run_itemTokens (frames : List Frame) (done : List Json) (last : Json)
    (rest : List Token) : (items : List Json) →
    (itemTokens items ++ .closeBracket :: rest).foldlM step
        (finish (.items done :: frames) last) =
      rest.foldlM step (finish frames (.array (done.reverse ++ last :: items)))
  | [] => by
      have closed : step (finish (.items done :: frames) last) .closeBracket =
          some (finish frames (.array (last :: done).reverse)) := rfl
      rw [itemTokens, List.nil_append, run_cons closed, List.reverse_cons]
  | item :: items => by
      have goesOn : step (finish (.items done :: frames) last) .comma =
          some ⟨.items (last :: done) :: frames, .value⟩ := rfl
      rw [itemTokens, List.cons_append, List.append_assoc, run_cons goesOn, run_tokens,
        run_itemTokens frames (last :: done) item rest items, List.reverse_cons,
        List.append_assoc, List.singleton_append]

/-- The last of the entries before these has just ended. -/
theorem run_entryTokens (frames : List Frame) (done : List (Literal × Json)) (lastKey : Literal)
    (last : Json) (rest : List Token) : (entries : List (Literal × Json)) →
    (entryTokens entries ++ .closeBrace :: rest).foldlM step
        (finish (.entries done lastKey :: frames) last) =
      rest.foldlM step (finish frames (.object (done.reverse ++ (lastKey, last) :: entries)))
  | [] => by
      have closed : step (finish (.entries done lastKey :: frames) last) .closeBrace =
          some (finish frames (.object ((lastKey, last) :: done).reverse)) := rfl
      rw [entryTokens, List.nil_append, run_cons closed, List.reverse_cons]
  | (key, value) :: entries => by
      have goesOn : step (finish (.entries done lastKey :: frames) last) .comma =
          some ⟨frames, .key ((lastKey, last) :: done)⟩ := rfl
      have keyRead : step ⟨frames, .key ((lastKey, last) :: done)⟩ (.string key) =
          some ⟨frames, .colon ((lastKey, last) :: done) key⟩ := rfl
      have colonRead : step ⟨frames, .colon ((lastKey, last) :: done) key⟩ .colon =
          some ⟨.entries ((lastKey, last) :: done) key :: frames, .value⟩ := rfl
      rw [entryTokens, List.cons_append, List.cons_append, List.cons_append, List.append_assoc,
        run_cons goesOn, run_cons keyRead, run_cons colonRead, run_tokens,
        run_entryTokens frames ((lastKey, last) :: done) key value rest entries,
        List.reverse_cons, List.append_assoc, List.singleton_append]

end

end Parser

theorem ofTokens?_tokens (json : Json) : ofTokens? json.tokens = some json := by
  have read := Parser.run_tokens [] [] json
  rw [List.append_nil] at read
  rw [ofTokens?, Parser.start, read]
  rfl

/-- Every spelling of a tree is read as that tree. -/
theorem Spells.parse? {json : Json} {text : String} (spelled : json.Spells text) :
    parse? text = some json := by
  rw [Json.parse?, tokens?_of_spelled spelled]
  exact ofTokens?_tokens json

/-! ### Writing -/

mutual

def Regular : Json → Prop
  | .null | .bool _ | .string _ => True
  | .number numeral => numeral.Regular
  | .array items => ItemsRegular items
  | .object entries => EntriesRegular entries

def ItemsRegular : List Json → Prop
  | [] => True
  | item :: items => Regular item ∧ ItemsRegular items

def EntriesRegular : List (Literal × Json) → Prop
  | [] => True
  | (_, value) :: entries => Regular value ∧ EntriesRegular entries

end

theorem entriesRegular_iff {entries : List (Literal × Json)} :
    EntriesRegular entries ↔ ∀ entry ∈ entries, entry.2.Regular := by
  induction entries with
  | nil => simp [EntriesRegular]
  | cons first rest inductionHypothesis => simp [EntriesRegular, inductionHypothesis]

/-- The first token, if there is one, cannot be taken for more of a word before it. -/
def SetOff (tokens : List Token) : Prop := ∀ token ∈ tokens.head?, token.isBare = false

theorem breaks_of_spelled {tokens : List Token} {text : List Char}
    (spelled : TokensSpelled tokens text) (setOff : SetOff tokens) : Breaks text := by
  cases spelled with
  | nil => rintro c ⟨⟩
  | blank isBlank _restSpelled =>
      rintro c ⟨⟩
      simp only [Lexer.isBlank, Bool.or_eq_true, decide_eq_true_eq] at isBlank
      rcases isBlank with ((rfl | rfl) | rfl) | rfl <;> rfl
  | cons tokenSpelled _breaks _restSpelled =>
      have notBare := setOff _ rfl
      cases tokenSpelled with
      | openBrace | closeBrace | openBracket | closeBracket | colon | comma | string =>
          rintro c ⟨⟩
          rfl
      | null | true | false | number => contradiction

/-- What has been written since `before` spells `tokens`, unless more of a word follows. -/
def Extends (tokens : List Token) (before after : String) : Prop :=
  ∃ word, after.toList = before.toList ++ word ∧
    ∀ more text, SetOff more → TokensSpelled more text →
      TokensSpelled (tokens ++ more) (word ++ text)

namespace Extends

variable {front rest : List Token} {before between after : String}

protected theorem refl (before : String) : Extends [] before before :=
  ⟨[], (List.append_nil _).symm, fun _more _text _setOff spelled => spelled⟩

theorem trans (first : Extends front before between) (second : Extends rest between after)
    (setOff : ∀ more, SetOff more → SetOff (rest ++ more)) :
    Extends (front ++ rest) before after := by
  obtain ⟨word, firstWritten, firstSpelled⟩ := first
  obtain ⟨last, secondWritten, secondSpelled⟩ := second
  refine ⟨word ++ last, ?_, fun more text moreSetOff spelled => ?_⟩
  · rw [secondWritten, firstWritten, List.append_assoc]
  · rw [List.append_assoc, List.append_assoc]
    exact firstSpelled _ _ (setOff more moreSetOff) (secondSpelled more text moreSetOff spelled)

theorem single {token : Token} {word : List Char} (spelled : token.Spelled word)
    (written : after.toList = before.toList ++ word) : Extends [token] before after :=
  ⟨word, written, fun _more _text setOff restSpelled =>
    .cons spelled (fun _bare => breaks_of_spelled restSpelled setOff) restSpelled⟩

/-- Behind a token that is closed by itself anything may follow. -/
theorem cons {token : Token} {word : List Char} (spelled : token.Spelled word)
    (closed : token.isBare = false) (written : between.toList = before.toList ++ word)
    (second : Extends rest between after) : Extends (token :: rest) before after := by
  obtain ⟨last, secondWritten, secondSpelled⟩ := second
  refine ⟨word ++ last, ?_, fun more text setOff restSpelled => ?_⟩
  · rw [secondWritten, written, List.append_assoc]
  · rw [List.append_assoc]
    refine .cons spelled (fun bare => ?_) (secondSpelled more text setOff restSpelled)
    rw [closed] at bare
    contradiction

/-- A closing token. -/
theorem close {token : Token} {c : Char} (first : Extends front before between)
    (spelled : token.Spelled [c]) (closed : token.isBare = false) :
    Extends (front ++ [token]) before (between.push c) :=
  first.trans (single spelled (String.toList_push c)) (by rintro more _ _ ⟨⟩; exact closed)

/-- A key and its colon. -/
theorem keyed {key : Literal}
    (value : Extends rest ((key.writeTo before).push ':') after) :
    Extends (.string key :: .colon :: rest) before after := by
  obtain ⟨word, spelled, written⟩ := exists_spelled_writeTo key before
  exact cons spelled rfl written (cons .colon rfl (String.toList_push ':') value)

end Extends

theorem setOff_itemTokens (items : List Json) (more : List Token) (setOff : SetOff more) :
    SetOff (itemTokens items ++ more) := by
  cases items with
  | nil => exact setOff
  | cons => rintro token ⟨⟩; rfl

theorem setOff_entryTokens (entries : List (Literal × Json)) (more : List Token)
    (setOff : SetOff more) : SetOff (entryTokens entries ++ more) := by
  rcases entries with _ | ⟨⟨key, value⟩, entries⟩
  · exact setOff
  · rintro token ⟨⟩
    rfl

mutual

theorem extends_writeTo (written : String) : (json : Json) → json.Regular →
    Extends json.tokens written (json.writeTo written)
  | .null, _ => .single .null (String.toList_append)
  | .bool true, _ => .single .true String.toList_append
  | .bool false, _ => .single .false String.toList_append
  | .number _, regular => .single (.number (Numeral.Regular.spelled regular)) String.toList_append
  | .string literal, _ => by
      obtain ⟨word, spelled, extended⟩ := exists_spelled_writeTo literal written
      exact .single spelled extended
  | .array [], _ => by
      have closed : (written ++ "[]").toList = (written.push '[').toList ++ [']'] := by
        rw [String.toList_append, String.toList_push, List.append_assoc]
        rfl
      exact .cons .openBracket rfl (String.toList_push '[') (.single .closeBracket closed)
  | .array (item :: items), ⟨itemRegular, itemsRegular⟩ => by
      have itemWritten := extends_writeTo (written.push '[') item itemRegular
      have itemsWritten := extends_writeItems (item.writeTo (written.push '[')) items itemsRegular
      have inside := itemWritten.trans itemsWritten (setOff_itemTokens items)
      rw [tokens, writeTo, ← List.append_assoc]
      exact .cons .openBracket rfl (String.toList_push '[') (inside.close .closeBracket rfl)
  | .object [], _ => by
      have closed : (written ++ "\x7b\x7d").toList = (written.push '\x7b').toList ++ ['\x7d'] := by
        rw [String.toList_append, String.toList_push, List.append_assoc]
        rfl
      exact .cons .openBrace rfl (String.toList_push '\x7b') (.single .closeBrace closed)
  | .object ((key, value) :: entries), ⟨valueRegular, entriesRegular⟩ => by
      let keyWritten := (key.writeTo (written.push '\x7b')).push ':'
      have valueWritten := extends_writeTo keyWritten value valueRegular
      have entriesWritten := extends_writeEntries (value.writeTo keyWritten) entries entriesRegular
      have inside := (valueWritten.trans entriesWritten (setOff_entryTokens entries)).keyed
      rw [tokens, writeTo, ← List.append_assoc]
      exact .cons .openBrace rfl (String.toList_push '\x7b') (inside.close .closeBrace rfl)

theorem extends_writeItems (written : String) : (items : List Json) → ItemsRegular items →
    Extends (itemTokens items) written (writeItems written items)
  | [], _ => .refl written
  | item :: items, ⟨itemRegular, itemsRegular⟩ => by
      have itemWritten := extends_writeTo (written.push ',') item itemRegular
      have itemsWritten := extends_writeItems (item.writeTo (written.push ',')) items itemsRegular
      exact .cons .comma rfl (String.toList_push ',')
        (itemWritten.trans itemsWritten (setOff_itemTokens items))

theorem extends_writeEntries (written : String) : (entries : List (Literal × Json)) →
    EntriesRegular entries →
    Extends (entryTokens entries) written (writeEntries written entries)
  | [], _ => .refl written
  | (key, value) :: entries, ⟨valueRegular, entriesRegular⟩ => by
      let keyWritten := (key.writeTo (written.push ',')).push ':'
      have valueWritten := extends_writeTo keyWritten value valueRegular
      have entriesWritten := extends_writeEntries (value.writeTo keyWritten) entries entriesRegular
      exact .cons .comma rfl (String.toList_push ',')
        (valueWritten.trans entriesWritten (setOff_entryTokens entries)).keyed

end

/-- The compact text of a tree is one of its spellings. -/
theorem Regular.spells_text {json : Json} (regular : json.Regular) : json.Spells json.text := by
  obtain ⟨word, written, spelled⟩ := extends_writeTo "" json regular
  have whole := spelled [] [] (by rintro token ⟨⟩) .nil
  rw [List.append_nil, List.append_nil] at whole
  rw [Spells, text, written]
  exact whole

theorem Regular.parse?_text {json : Json} (regular : json.Regular) :
    parse? json.text = some json :=
  regular.spells_text.parse?

end CompilerIR.Json

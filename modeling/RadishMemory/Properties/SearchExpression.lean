import RadishMemory.Construction.Sqlite.Fts5Lexer
import RadishMemory.Construction.Sqlite.SearchSamples
import RadishMemory.Framework.Bytes

/-!
# What the full-text engine reads in a search expression

The engine cuts the expression of a query into tokens byte by byte.  A term between its quotes is
one string token whatever its characters are, since no byte of a character beyond ASCII is a quote.
A zero byte ends the expression: it lies in a term, so the string of that term stays open.
-/

namespace RadishMemory

/-! ## The bytes of a text -/

/-- A byte below 128 is a character of its own. -/
theorem utf8EncodeChar_of_ascii {c : Char} {b : UInt8} (h : b ∈ String.utf8EncodeChar c)
    (hb : b.toNat < 128) : String.utf8EncodeChar c = [b] ∧ c.val.toNat = b.toNat := by
  unfold String.utf8EncodeChar at h ⊢
  dsimp only at h ⊢
  split at h
  · rename_i hsmall
    obtain rfl := List.mem_singleton.1 h
    rw [if_pos hsmall]
    refine ⟨rfl, ?_⟩
    rw [UInt8.toNat_ofNat', Nat.mod_eq_of_lt (by omega)]
  · split at h
    · simp only [List.mem_cons, List.not_mem_nil, or_false] at h
      rcases h with rfl | rfl
      all_goals (rw [UInt8.toNat_ofNat'] at hb; omega)
    · split at h
      · simp only [List.mem_cons, List.not_mem_nil, or_false] at h
        rcases h with rfl | rfl | rfl
        all_goals (rw [UInt8.toNat_ofNat'] at hb; omega)
      · simp only [List.mem_cons, List.not_mem_nil, or_false] at h
        rcases h with rfl | rfl | rfl | rfl
        all_goals (rw [UInt8.toNat_ofNat'] at hb; omega)

theorem mem_utf8EncodeChar_iff {c d : Char} {b : UInt8} (hd : String.utf8EncodeChar d = [b])
    (hval : d.val.toNat = b.toNat) (hb : b.toNat < 128) :
    b ∈ String.utf8EncodeChar c ↔ c = d := by
  constructor
  · intro h
    obtain ⟨-, hc⟩ := utf8EncodeChar_of_ascii h hb
    apply Char.ext
    apply UInt32.toNat_inj.1
    rw [hc, hval]
  · rintro rfl
    rw [hd]
    exact List.mem_singleton.2 rfl

theorem mem_utf8Bytes_iff {text : String} {d : Char} {b : UInt8}
    (hd : String.utf8EncodeChar d = [b]) (hval : d.val.toNat = b.toNat) (hb : b.toNat < 128) :
    b ∈ utf8Bytes text ↔ d ∈ text.toList := by
  rw [utf8Bytes, List.mem_flatMap]
  constructor
  · rintro ⟨c, hc, h⟩
    obtain rfl := (mem_utf8EncodeChar_iff hd hval hb).1 h
    exact hc
  · intro h
    exact ⟨d, h, (mem_utf8EncodeChar_iff hd hval hb).2 rfl⟩

theorem utf8Bytes_append (a b : String) : utf8Bytes (a ++ b) = utf8Bytes a ++ utf8Bytes b := by
  simp [utf8Bytes]

/-! ## The terms of a query -/

theorem mem_splitOnP {α : Type} {p : α → Bool} {l : List α} {a : α} (ha : p a = false) :
    (∃ part ∈ l.splitOnP p, a ∈ part) ↔ a ∈ l := by
  induction l with
  | nil => simp
  | cons b l ih =>
    rw [List.splitOnP_cons_eq_if_modifyHead]
    by_cases hb : p b = true
    · have hne : a ≠ b := by
        rintro rfl
        rw [ha] at hb
        cases hb
      rw [if_pos hb]
      simp [ih, hne]
    · rw [if_neg hb]
      cases hsplit : l.splitOnP p with
      | nil => exact absurd hsplit (List.splitOnP_ne_nil p l)
      | cons part parts =>
        rw [hsplit] at ih
        simp only [List.modifyHead_cons, List.mem_cons, exists_eq_or_imp] at ih ⊢
        rw [or_assoc, ih]

/-- A character that is not white space lies in a term of the query. -/
theorem mem_splitWhitespace {query : String} {c : Char} (hc : isWhiteSpace c = false) :
    (∃ term ∈ splitWhitespace query, c ∈ term.toList) ↔ c ∈ query.toList := by
  rw [← mem_splitOnP hc]
  unfold splitWhitespace
  constructor
  · rintro ⟨term, hterm, hmem⟩
    obtain ⟨part, hpart, hsome⟩ := List.mem_filterMap.1 hterm
    split at hsome
    · cases hsome
    · obtain rfl := Option.some.inj hsome
      exact ⟨part, hpart, by simpa using hmem⟩
  · rintro ⟨part, hpart, hmem⟩
    refine ⟨String.ofList part, List.mem_filterMap.2 ⟨part, hpart, ?_⟩, by simpa using hmem⟩
    rw [if_neg]
    rw [List.isEmpty_iff]
    rintro rfl
    cases hmem

namespace Fts5Token

/-! ## The bytes of an expression -/

def escapeBytes (bytes : List UInt8) : List UInt8 :=
  bytes.flatMap fun b => if b = doubleQuote then [doubleQuote, doubleQuote] else [b]

def quotedTerm (term : String) : List UInt8 :=
  doubleQuote :: (escapeBytes (utf8Bytes term) ++ [doubleQuote])

theorem escapeBytes_cons_of_ne {b : UInt8} (hb : b ≠ doubleQuote) (bytes : List UInt8) :
    escapeBytes (b :: bytes) = b :: escapeBytes bytes := by
  simp [escapeBytes, hb]

theorem escapeBytes_quote (bytes : List UInt8) :
    escapeBytes (doubleQuote :: bytes) = doubleQuote :: doubleQuote :: escapeBytes bytes := by
  simp [escapeBytes]

theorem escapeBytes_append (a b : List UInt8) :
    escapeBytes (a ++ b) = escapeBytes a ++ escapeBytes b :=
  List.flatMap_append

theorem escapeBytes_of_not_mem {bytes : List UInt8} (h : doubleQuote ∉ bytes) :
    escapeBytes bytes = bytes := by
  induction bytes with
  | nil => rfl
  | cons b bytes ih =>
    rw [List.mem_cons, not_or] at h
    rw [escapeBytes_cons_of_ne (Ne.symm h.1), ih h.2]

theorem utf8_quote : String.utf8EncodeChar '"' = [doubleQuote] := by
  decide

theorem utf8_escaped (chars : List Char) :
    utf8Bytes (String.ofList (chars.flatMap fun c => if c = '"' then ['"', '"'] else [c])) =
      escapeBytes (utf8Bytes (String.ofList chars)) := by
  unfold utf8Bytes
  rw [String.toList_ofList, String.toList_ofList]
  induction chars with
  | nil => rfl
  | cons c chars ih =>
    rw [List.flatMap_cons, List.flatMap_append, ih, List.flatMap_cons, escapeBytes_append]
    congr 1
    by_cases hc : c = '"'
    · subst hc
      decide
    · rw [if_neg hc, List.flatMap_singleton, escapeBytes_of_not_mem]
      intro hmem
      exact hc ((mem_utf8EncodeChar_iff utf8_quote (by decide) (by decide)).1 hmem)

theorem utf8Bytes_quoted (term : String) :
    utf8Bytes ("\"" ++ String.ofList
        (term.toList.flatMap fun c => if c = '"' then ['"', '"'] else [c]) ++ "\"") =
      quotedTerm term := by
  have hquote : utf8Bytes "\"" = [doubleQuote] := by
    decide
  rw [utf8Bytes_append, utf8Bytes_append, utf8_escaped, String.ofList_toList, hquote]
  rfl

/-- The quoted terms, with a space between two of them. -/
def expressionBytes (terms : List String) : List UInt8 :=
  [0x20].intercalate (terms.map quotedTerm)

theorem expressionBytes_cons_cons (term next : String) (rest : List String) :
    expressionBytes (term :: next :: rest) =
      quotedTerm term ++ 0x20 :: expressionBytes (next :: rest) := by
  simp [expressionBytes, List.intercalate_cons_cons]

theorem utf8Bytes_ftsExpression (query : String) :
    utf8Bytes (ftsExpression query) = expressionBytes (splitWhitespace query) := by
  unfold ftsExpression
  induction splitWhitespace query with
  | nil => rfl
  | cons term rest ih =>
    cases rest with
    | nil => simpa [expressionBytes] using utf8Bytes_quoted term
    | cons next rest =>
      have hspace : utf8Bytes " " = [0x20] := by
        decide
      rw [List.map_cons] at ih
      rw [List.map_cons, List.map_cons, String.intercalate_cons_cons, utf8Bytes_append,
        utf8Bytes_append, utf8Bytes_quoted, ih, hspace, expressionBytes_cons_cons]
      simp

/-! ## Reading it -/

namespace Lexer

theorem lex_escaped (bytes text rest : List UInt8) :
    (inside text).lex (escapeBytes bytes ++ doubleQuote :: rest) =
      (quoted (text ++ bytes)).lex rest := by
  induction bytes generalizing text with
  | nil => simp [escapeBytes, lex, step]
  | cons b bytes ih =>
    by_cases hb : b = doubleQuote
    · subst hb
      rw [escapeBytes_quote]
      simp [lex, step, ih]
    · rw [escapeBytes_cons_of_ne hb]
      simp [lex, step, hb, ih]

theorem lex_quotedTerm (term : String) (rest : List UInt8) :
    between.lex (quotedTerm term ++ rest) = (quoted (utf8Bytes term)).lex rest := by
  have hsplit : quotedTerm term ++ rest =
      doubleQuote :: (escapeBytes (utf8Bytes term) ++ doubleQuote :: rest) := by
    simp [quotedTerm]
  have hstart : start doubleQuote = some ([], inside []) := by
    decide
  rw [hsplit, lex, step, hstart]
  simp [lex_escaped]

theorem lex_quoted_space (bytes rest : List UInt8) :
    (quoted bytes).lex (0x20 :: rest) = (between.lex rest).map (.string bytes :: ·) := by
  have hstart : start 0x20 = some ([], between) := by
    decide
  have hquote : (0x20 : UInt8) ≠ doubleQuote := by
    decide
  cases hrest : between.lex rest with
  | none => simp [lex, step, hquote, hstart, hrest]
  | some tokens => simp [lex, step, hquote, hstart, hrest]

theorem lex_expressionBytes (terms : List String) :
    between.lex (expressionBytes terms) =
      some (terms.map fun term => .string (utf8Bytes term)) := by
  induction terms with
  | nil => rfl
  | cons term rest ih =>
    cases rest with
    | nil =>
      have hread := lex_quotedTerm term []
      rw [List.append_nil] at hread
      rw [expressionBytes, List.map_singleton, List.intercalate_singleton, hread]
      rfl
    | cons next rest =>
      rw [expressionBytes_cons_cons, lex_quotedTerm, lex_quoted_space, ih]
      rfl

/-- A zero byte in a string: the string is open where the C string ends. -/
theorem lex_cut {bytes : List UInt8} (h : 0 ∈ bytes) (text rest : List UInt8) :
    (inside text).lex (cString (escapeBytes bytes ++ rest)) = none := by
  induction bytes generalizing text with
  | nil => cases h
  | cons b bytes ih =>
    by_cases hzero : b = 0
    · subst hzero
      rw [escapeBytes_cons_of_ne (by decide)]
      simp [cString, lex]
    · have hrest : 0 ∈ bytes := by
        rcases List.mem_cons.1 h with hsame | hrest
        · exact absurd hsame.symm hzero
        · exact hrest
      have hcons : ∀ tail : List UInt8, cString (b :: tail) = b :: cString tail := by
        intro tail
        simp [cString, hzero]
      by_cases hb : b = doubleQuote
      · subst hb
        rw [escapeBytes_quote, List.cons_append, List.cons_append, hcons, hcons]
        simp [lex, step, ih hrest]
      · rw [escapeBytes_cons_of_ne hb, List.cons_append, hcons]
        simp [lex, step, hb, ih hrest]

end Lexer

theorem cString_append_of_not_mem {front : List UInt8} (h : 0 ∉ front) (rest : List UInt8) :
    cString (front ++ rest) = front ++ cString rest := by
  have hall : ∀ b ∈ front, decide (b ≠ 0) = true := by
    intro b hb
    rw [decide_eq_true_eq]
    rintro rfl
    exact h hb
  exact List.takeWhile_append_of_pos hall

theorem zero_mem_quotedTerm {term : String} : 0 ∈ quotedTerm term ↔ 0 ∈ utf8Bytes term := by
  have hquote : (0 : UInt8) ≠ doubleQuote := by
    decide
  have hescape : ∀ bytes : List UInt8, 0 ∈ escapeBytes bytes ↔ 0 ∈ bytes := by
    intro bytes
    induction bytes with
    | nil => rfl
    | cons b bytes ih =>
      by_cases hb : b = doubleQuote
      · subst hb
        simp [escapeBytes_quote, hquote, ih]
      · simp [escapeBytes_cons_of_ne hb, ih]
  simp [quotedTerm, hquote, hescape]

theorem lex_cString_quotedTerm {term : String} (h : 0 ∈ utf8Bytes term) (rest : List UInt8) :
    Lexer.between.lex (cString (quotedTerm term ++ rest)) = none := by
  have hstart : Lexer.start doubleQuote = some ([], .inside []) := by
    decide
  have hsplit : cString (quotedTerm term ++ rest) =
      doubleQuote :: cString (escapeBytes (utf8Bytes term) ++ doubleQuote :: rest) := by
    have hquote : doubleQuote ≠ 0 := by
      decide
    simp [quotedTerm, cString, hquote]
  rw [hsplit, Lexer.lex, Lexer.step, hstart]
  simp [Lexer.lex_cut h]

/-- Without a zero byte every term is one string; with one there is a string that stays open. -/
theorem lex_cString_expressionBytes (terms : List String) :
    Lexer.between.lex (cString (expressionBytes terms)) =
      if ∃ term ∈ terms, 0 ∈ utf8Bytes term then none
      else some (terms.map fun term => .string (utf8Bytes term)) := by
  induction terms with
  | nil => rfl
  | cons term rest ih =>
    by_cases hterm : 0 ∈ utf8Bytes term
    · have hzero : ∃ later ∈ term :: rest, 0 ∈ utf8Bytes later :=
        ⟨term, List.mem_cons_self, hterm⟩
      rw [if_pos hzero]
      cases rest with
      | nil => simpa [expressionBytes] using lex_cString_quotedTerm hterm []
      | cons next rest => rw [expressionBytes_cons_cons, lex_cString_quotedTerm hterm]
    · have hfree : 0 ∉ quotedTerm term := fun h => hterm (zero_mem_quotedTerm.1 h)
      cases rest with
      | nil =>
        have hwhole : cString (expressionBytes [term]) = expressionBytes [term] := by
          simpa [expressionBytes, cString] using cString_append_of_not_mem hfree []
        rw [hwhole, Lexer.lex_expressionBytes, if_neg (by simpa using hterm)]
      | cons next rest =>
        have hspace : cString (0x20 :: expressionBytes (next :: rest)) =
            0x20 :: cString (expressionBytes (next :: rest)) := by
          simp [cString]
        rw [expressionBytes_cons_cons, cString_append_of_not_mem hfree, hspace,
          Lexer.lex_quotedTerm, Lexer.lex_quoted_space, ih]
        by_cases hlater : ∃ later ∈ next :: rest, 0 ∈ utf8Bytes later
        · rw [if_pos hlater, if_pos (by simpa [hterm] using hlater)]
          rfl
        · rw [if_neg hlater, if_neg (by simpa [hterm] using hlater)]
          rfl

theorem zero_mem_query_iff {query : String} :
    (∃ term ∈ splitWhitespace query, 0 ∈ utf8Bytes term) ↔ '\x00' ∈ query.toList := by
  have hzero : String.utf8EncodeChar '\x00' = [0] := by
    decide
  rw [← mem_splitWhitespace (by decide)]
  simp only [mem_utf8Bytes_iff hzero (by decide) (by decide)]

theorem tokens_ftsExpression (query : String) :
    tokens (ftsExpression query) =
      if '\x00' ∈ query.toList then none
      else some ((splitWhitespace query).map fun term => .string (utf8Bytes term)) := by
  rw [tokens, utf8Bytes_ftsExpression, lex_cString_expressionBytes]
  simp only [zero_mem_query_iff]

end Fts5Token

/-! ## Requests -/

/-- The engine reads the terms of the request as strings and nothing else if and only if the query
has no zero character; then there is at least one term. -/
theorem search_expression_reads_terms (request : LocalSearchRequest) :
    (splitWhitespace request.query.asStr ≠ [] ∧
      Fts5Token.tokens (ftsExpression request.query.asStr) =
        some ((splitWhitespace request.query.asStr).map fun term => .string (utf8Bytes term))) ↔
      '\x00' ∉ request.query.asStr.toList := by
  rw [Fts5Token.tokens_ftsExpression]
  by_cases hzero : '\x00' ∈ request.query.asStr.toList
  · simp [hzero]
  · simp [hzero, request.queryHasTerm]

namespace SearchSample

open Sample

/-- A query of one term, with a zero character in it. -/
def zeroQuery : LocalSearchRequest :=
  { firstEmber with
    query := text "em\x00ber"
    queryHasTerm := by decide }

/-- The engine reports a string that is not terminated. -/
theorem zero_query_is_cut :
    splitWhitespace zeroQuery.query.asStr = ["em\x00ber"] ∧
      Fts5Token.cString (utf8Bytes (ftsExpression zeroQuery.query.asStr)) = utf8Bytes "\"em" ∧
      Fts5Token.tokens (ftsExpression zeroQuery.query.asStr) = none := by
  decide +kernel

end SearchSample

end RadishMemory

import MapHighlight.Proofs.BatchLexer.Runs

/-!
# Runs over any reader

A reader may report the end of its input too early, so that a batch ends amid a line or amid a
token. The tokens may then differ from those of the whole text, but they still stand side by side
and cover all that was read, and a run that is over reads no more.
-/

namespace MapHighlight.BatchLexer

variable {lexer : BatchLexer} {lines : List Text} {error : ReadError} {last : Reader}

/-- A run that awaits a failure hands it out. -/
theorem error_mem_items (hawaits : lexer.Awaits lines (some error) last) :
    .error error ∈ lexer.items := by
  obtain ⟨passes, hrun⟩ := exists_completes hawaits
  rw [hrun.items_eq]
  simp

/-- Once a run that did not fail is over, the reader is as the end of the input left it. -/
theorem reader_after (hawaits : lexer.Awaits lines none last) {n : Nat}
    (h : lexer.items.length ≤ n) : (lexer.after (n + 1)).reader = last := by
  obtain ⟨passes, hrun⟩ := exists_completes hawaits
  exact hrun.reader_after (Nat.lt_succ_of_le h)

/-- A run that does not fail hands out the tokens that wait and tokens that cover the pending text
and all lines that are yet to be read. -/
theorem isCoveredBy_of_awaits (hawaits : lexer.Awaits lines none last)
    (hplaced : lexer.pending.IsPlaced) (hconfig : lexer.config.lexer = {}) :
    ∃ tokens, lexer.items = (lexer.queue ++ tokens).map .ok ∧
      Token.Cover lexer.pending.location tokens (lexer.pending.rest ++ lines.flatten) := by
  obtain ⟨passes, hrun⟩ := exists_completes hawaits
  refine ⟨passes.flatMap Pass.tokens, ?_, hrun.text_eq ▸ hrun.cover hplaced⟩
  rw [hrun.items_eq, hconfig, LexerConfig.select_default]
  exact List.append_nil _

/-- Whatever a reader reports and when, a run without error loses nothing and repeats nothing. Its
lexemes make up the bytes read before the first line that came back empty, none of them is empty,
each token is placed behind the lexemes before it, and the categories that open a line occur only in
the first column. After the last token nothing is handed out and the reader is not asked again. -/
theorem items_ofReader_cover {reader : Reader} {size : Nat}
    (hok : ∀ error, .error error ∉ (ofReader reader ⟨size, {}⟩).items) :
    ∃ (tokens : List Token) (bytes : List UInt8) (last : Reader),
      reader.ReadsToEnd bytes last ∧
      (ofReader reader ⟨size, {}⟩).items = tokens.map .ok ∧
      Utf8.encode (tokens.flatMap Token.lexeme) = bytes ∧
      (∀ token ∈ tokens, token.lexeme ≠ []) ∧
      (∀ before token after, tokens = before ++ token :: after →
        token.location = Location.start.advance (before.flatMap Token.lexeme)) ∧
      (∀ token ∈ tokens, token.category.opensLine = true → token.location.column = 1) ∧
      ∀ n, tokens.length ≤ n → ((ofReader reader ⟨size, {}⟩).after n).next.item = none ∧
        ((ofReader reader ⟨size, {}⟩).after (n + 1)).reader = last := by
  obtain ⟨lines, failure, last, hdelivers⟩ := Reader.exists_delivers 0 reader
  have hawaits := awaits_ofReader hdelivers ⟨size, {}⟩
  cases failure with
  | some error => exact absurd (error_mem_items hawaits) (hok error)
  | none =>
    obtain ⟨tokens, hitems, hcover⟩ :=
      isCoveredBy_of_awaits hawaits (Cursor.isPlaced_ofSource []) rfl
    have hlexemes : tokens.flatMap Token.lexeme = lines.flatten := hcover.flatMap_lexeme
    have hitems : (ofReader reader ⟨size, {}⟩).items = tokens.map .ok := hitems
    refine ⟨tokens, _, last, hdelivers.readsToEnd, hitems, congrArg Utf8.encode hlexemes,
      hcover.lexeme_ne_nil, ?_, hcover.column_of_opensLine, fun n hn => ⟨?_, ?_⟩⟩
    · rintro before token after rfl
      exact hcover.location_eq
    · rw [item_after, hitems]
      exact List.getElem?_eq_none (by simpa using hn)
    · exact reader_after hawaits (by simpa [hitems] using hn)

/-- A reader may report the end of its input amid a word and go on with it. -/
theorem items_ofReader_cover_of_early_end :
    (∀ error, .error error ∉
      (ofReader ⟨[.buffer [97], .buffer [], .buffer [98, 10]], 0⟩ ⟨0, {}⟩).items) ∧
    ∃ (tokens : List Token) (bytes : List UInt8) (last : Reader),
      Reader.ReadsToEnd ⟨[.buffer [97], .buffer [], .buffer [98, 10]], 0⟩ bytes last ∧
      (ofReader ⟨[.buffer [97], .buffer [], .buffer [98, 10]], 0⟩ ⟨0, {}⟩).items =
        tokens.map .ok ∧
      Utf8.encode (tokens.flatMap Token.lexeme) = bytes := by
  have hdelivers : Reader.Delivers 0 ⟨[.buffer [97], .buffer [], .buffer [98, 10]], 0⟩
      [['a'], ['b', '\n']] none ⟨[], 3⟩ :=
    .line rfl (Utf8.decode_encode ['a'])
      (.line rfl (Utf8.decode_encode ['b', '\n']) (.ended rfl))
  have hok : ∀ error, .error error ∉
      (ofReader ⟨[.buffer [97], .buffer [], .buffer [98, 10]], 0⟩ ⟨0, {}⟩).items := by
    obtain ⟨tokens, hitems, -⟩ := isCoveredBy_of_awaits (awaits_ofReader hdelivers ⟨0, {}⟩)
      (Cursor.isPlaced_ofSource []) rfl
    rw [hitems]
    simp
  obtain ⟨tokens, bytes, last, hreads, hitems, hbytes, -⟩ := items_ofReader_cover hok
  exact ⟨hok, tokens, bytes, last, hreads, hitems, hbytes⟩

end MapHighlight.BatchLexer

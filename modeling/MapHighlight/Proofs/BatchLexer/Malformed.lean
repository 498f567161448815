import MapHighlight.Proofs.BatchLexer.Failure
import MapHighlight.Proofs.BatchLexer.OneShot
import MapHighlight.Proofs.Reader.AtOnce

/-!
# Runs over malformed bytes

A reader that serves bytes and then stops can fail only by bytes that are not UTF-8. A run over it
hands out the tokens of a text, or some tokens and then the first malformed byte, and reading the
same bytes at once comes to the same text or stops at the same byte.
-/

namespace MapHighlight.BatchLexer

variable {served : List Fill} {text : Text} {n : Nat}

/-- A run over the bytes of a text hands out the tokens of the text that the configuration keeps. -/
theorem items_ofReader_of_decode (hserves : ∀ fill ∈ served, fill.serves = true)
    (hdecode : Utf8.decode (served.flatMap Fill.bytes) = .ok text) (config : BatchConfig) :
    (ofReader ⟨served, 0⟩ config).items = (config.lexer.select (tokenize text)).map .ok := by
  have hbytes := Utf8.eq_encode_of_decode hdecode
  obtain ⟨last, hdelivers⟩ := Reader.exists_delivers_of_encode hserves hbytes 0 0
  have hlines : AreLines ([] :: linesOf '\n' text) :=
    ⟨fun _ => Text.isWholeLines_nil, areLines_linesOf text⟩
  have hitems := items_of_awaits (awaits_ofReader hdelivers config) hlines
  rwa [flatten_linesOf] at hitems

/-- A run over malformed bytes hands out the tokens of some whole lines before the first malformed
byte, up to a double quote that these lines leave open, and then where that byte is. -/
theorem exists_items_of_decode_error (hserves : ∀ fill ∈ served, fill.serves = true)
    (hdecode : Utf8.decode (served.flatMap Fill.bytes) = .error n) (config : BatchConfig) :
    ∃ batches : Text, batches.IsWholeLines ∧
      Utf8.encode batches <+: served.flatMap Fill.bytes ∧
      (ofReader ⟨served, 0⟩ config).items =
        (config.lexer.select (Token.beforeOpenQuote (tokenize batches))).map .ok ++
          [.error (.invalidUtf8 n)] := by
  have hfinal : Reader.Stop.endOfInput.IsFinal := trivial
  have hdelivers := Reader.deliversBytes_of_serves hserves hfinal 0 0
  rw [Reader.Stop.fills, List.append_nil] at hdelivers
  cases hdelivers with
  | complete _ hlines _ =>
    have hbytes := flatten_linesOf Reader.lineFeed (served.flatMap Fill.bytes)
    rw [hlines, ← Utf8.encode_flatten] at hbytes
    rw [← hbytes, Utf8.decode_encode] at hdecode
    contradiction
  | @failing valid error last hfirst hdelivers =>
    obtain ⟨m, rfl, hmalformed⟩ := hfirst.exists_decode_eq
    rw [hmalformed] at hdecode
    cases hdecode
    obtain ⟨hvalid, tail, hbytes⟩ := hfirst.isLine_and_bytes_eq
    have hwhole : ∀ line ∈ valid, line.IsWholeLines := fun line hline =>
      (hvalid line hline).isWholeLines
    refine ⟨wholeBatches config.size valid, isWholeLines_wholeBatches config.size hwhole, ?_, ?_⟩
    · obtain ⟨taken, rest, rfl, htaken⟩ := exists_wholeBatches_eq_flatten config.size valid
      rw [hbytes, htaken, List.flatten_append, Utf8.encode_append, List.append_assoc]
      exact List.prefix_append _ _
    · exact items_of_awaits_failure (awaits_ofReader hdelivers config) hwhole
        Text.isWholeLines_nil (isSettled_ofReader _ config)

/-- However a reader cuts its bytes, a run over it reports malformed bytes exactly if the bytes are
not those of a text. The offset that it reports is the length of the longest text that the bytes
begin with, and reading the same bytes at once reports that offset too. A run over the bytes of a
text reports no error. -/
theorem invalidUtf8_mem_items_iff (hserves : ∀ fill ∈ served, fill.serves = true)
    (config : BatchConfig) :
    ((∃ offset, .error (.invalidUtf8 offset) ∈ (ofReader ⟨served, 0⟩ config).items) ↔
      ¬ ∃ text, Utf8.encode text = served.flatMap Fill.bytes) ∧
    (∀ offset, .error (.invalidUtf8 offset) ∈ (ofReader ⟨served, 0⟩ config).items →
      (∃ text, Utf8.IsLongestText (served.flatMap Fill.bytes) text ∧ offset = text.byteLength) ∧
      ∀ source : List Fill, (∀ fill ∈ source, fill.serves = true) →
        source.flatMap Fill.bytes = served.flatMap Fill.bytes →
        CommandLine.readSource ⟨source, 0⟩ = .error (.invalidUtf8 offset)) ∧
    ((∃ text, Utf8.encode text = served.flatMap Fill.bytes) →
      ∀ error, .error error ∉ (ofReader ⟨served, 0⟩ config).items) := by
  cases hdecode : Utf8.decode (served.flatMap Fill.bytes) with
  | ok text =>
    have hnone : ∀ error, .error error ∉ (ofReader ⟨served, 0⟩ config).items := by
      intro error
      simp [items_ofReader_of_decode hserves hdecode config]
    have htext : ∃ text, Utf8.encode text = served.flatMap Fill.bytes :=
      ⟨text, (Utf8.eq_encode_of_decode hdecode).symm⟩
    refine ⟨⟨?_, fun hne => absurd htext hne⟩, ?_, fun _ => hnone⟩
    · rintro ⟨offset, hoffset⟩
      exact absurd hoffset (hnone _)
    · intro offset hoffset
      exact absurd hoffset (hnone _)
  | error n =>
    obtain ⟨batches, -, -, hitems⟩ := exists_items_of_decode_error hserves hdecode config
    have hne : ¬ ∃ text, Utf8.encode text = served.flatMap Fill.bytes := by
      rintro ⟨text, htext⟩
      rw [← htext, Utf8.decode_encode] at hdecode
      contradiction
    refine ⟨⟨fun _ => hne, fun _ => ⟨n, by simp [hitems]⟩⟩, ?_, fun htext => absurd htext hne⟩
    intro offset hoffset
    obtain rfl : offset = n := by simpa [hitems] using hoffset
    refine ⟨Utf8.exists_isLongestText_of_decode hdecode, fun source hsource hbytes => ?_⟩
    rw [CommandLine.readSource_of_serves hsource, hbytes, hdecode]
    rfl

/-- A character may lack its last byte right before the end of a line. -/
theorem invalidUtf8_mem_items_of_truncated_character :
    (∀ fill ∈ [Fill.buffer [97, 10, 0xC3], .buffer [10]], fill.serves = true) ∧
    .error (.invalidUtf8 2) ∈
      (ofReader ⟨[.buffer [97, 10, 0xC3], .buffer [10]], 0⟩ ⟨1, {}⟩).items ∧
    CommandLine.readSource ⟨[.buffer [97, 10, 0xC3, 10]], 0⟩ = .error (.invalidUtf8 2) := by
  have hserves : ∀ fill ∈ [Fill.buffer [97, 10, 0xC3], .buffer [10]], fill.serves = true := by
    decide
  have hsource : ∀ fill ∈ [Fill.buffer [97, 10, 0xC3, 10]], fill.serves = true := by decide
  have hdecode : Utf8.decode [97, 10, 0xC3, 10] = .error 2 := by decide +kernel
  have hne : ¬ ∃ text, Utf8.encode text = [97, 10, 0xC3, 10] := by
    rintro ⟨text, htext⟩
    rw [← htext, Utf8.decode_encode] at hdecode
    contradiction
  obtain ⟨hiff, hoffset, -⟩ := invalidUtf8_mem_items_iff hserves ⟨1, {}⟩
  obtain ⟨offset, hmem⟩ := hiff.mpr hne
  have hread := (hoffset offset hmem).2 _ hsource rfl
  have htwo : CommandLine.readSource ⟨[.buffer [97, 10, 0xC3, 10]], 0⟩ =
      .error (.invalidUtf8 2) := by
    rw [CommandLine.readSource_of_serves hsource]
    exact congrArg _ hdecode
  rw [htwo] at hread
  cases hread
  exact ⟨hserves, hmem, htwo⟩

end MapHighlight.BatchLexer

import MapHighlight.Interner
import MapHighlight.Proofs.Text.Utf8
import Mathlib.Data.List.Induction
import Mathlib.Data.List.Nodup

/-!
# Interned texts share copies

An interner keeps one copy of every text that was ever interned and gives none of them up. However
the interned texts of a program were created, each refers to the copy of its text, so two of them
share a copy exactly if they are the same text.
-/

namespace MapHighlight

/-- Bytes are compared as in a dictionary: the first place at which they differ decides, and a start
comes before the whole. -/
theorem compare_bytes_eq_lt_iff (left right : List UInt8) :
    compare left right = .lt ↔ left < right := by
  induction left generalizing right with
  | nil => cases right <;> simp
  | cons a left ih =>
    cases right with
    | nil => simp
    | cons b right =>
      rw [List.compare_cons_cons, Ordering.then_eq_lt, List.cons_lt_cons_iff, ih,
        Std.compare_eq_lt, Std.compare_eq_iff_eq]

namespace Interned

/-- Interned texts are equal if they are the same text. -/
theorem beq_iff (left right : Interned) : (left == right) = true ↔ left.text = right.text := by
  change (left.text == right.text) = true ↔ _
  exact beq_iff_eq

/-- Interned texts are ordered by their bytes, and only equal texts have equal bytes. -/
theorem compare_spec (left right : Interned) :
    (compare left right = .eq ↔ left.text = right.text) ∧
    (compare left right = .lt ↔ Utf8.encode left.text < Utf8.encode right.text) ∧
    (compare left right = .gt ↔ Utf8.encode right.text < Utf8.encode left.text) := by
  change (compare (Utf8.encode left.text) (Utf8.encode right.text) = .eq ↔ _) ∧
    (compare (Utf8.encode left.text) (Utf8.encode right.text) = .lt ↔ _) ∧
    (compare (Utf8.encode left.text) (Utf8.encode right.text) = .gt ↔ _)
  refine ⟨?_, compare_bytes_eq_lt_iff _ _, ?_⟩
  · rw [Std.compare_eq_iff_eq]
    exact ⟨Utf8.encode_inj, congrArg Utf8.encode⟩
  · rw [Std.OrientedCmp.gt_iff_lt, compare_bytes_eq_lt_iff]

end Interned

namespace Interner

/-- The text that an interner keeps as the copy of an interned text. -/
def read? (interner : Interner) (interned : Interned) : Option Text :=
  interner.texts[interned.copy]?

variable {interner : Interner} {text : Text}

/-- A text that is kept already is interned without keeping another one. -/
theorem texts_intern_of_mem (h : text ∈ interner.texts) :
    (interner.intern text).2.texts = interner.texts := by
  unfold intern
  split
  · rfl
  · rename_i hnone
    exact absurd h (List.idxOf?_eq_none_iff.mp hnone)

/-- A text that is not kept yet is kept behind all the others. -/
theorem texts_intern_of_not_mem (h : text ∉ interner.texts) :
    (interner.intern text).2.texts = interner.texts ++ [text] := by
  unfold intern
  split
  · rename_i copy hcopy
    obtain ⟨hlt, htext, -⟩ := List.idxOf?_eq_some_iff.mp hcopy
    exact absurd (htext ▸ List.getElem_mem hlt) h
  · rfl

/-- Whatever is kept stays where it is. -/
theorem texts_prefix_intern (interner : Interner) (text : Text) :
    interner.texts <+: (interner.intern text).2.texts := by
  by_cases h : text ∈ interner.texts
  · simp only [texts_intern_of_mem h, List.prefix_rfl]
  · rw [texts_intern_of_not_mem h]
    exact List.prefix_append _ _

theorem mem_texts_intern (other : Text) :
    other ∈ (interner.intern text).2.texts ↔ other ∈ interner.texts ∨ other = text := by
  by_cases h : text ∈ interner.texts
  · rw [texts_intern_of_mem h]
    exact ⟨.inl, fun hother => hother.elim id fun heq => heq ▸ h⟩
  · rw [texts_intern_of_not_mem h, List.mem_append, List.mem_singleton]

/-- Interning keeps no text twice. -/
theorem nodup_texts_intern (h : interner.texts.Nodup) (text : Text) :
    (interner.intern text).2.texts.Nodup := by
  by_cases hmem : text ∈ interner.texts
  · rwa [texts_intern_of_mem hmem]
  · rw [texts_intern_of_not_mem hmem]
    exact List.nodup_append_comm.mp (List.nodup_cons.mpr ⟨hmem, h⟩)

/-- The interned text is the text. -/
@[simp] theorem text_intern (interner : Interner) (text : Text) :
    (interner.intern text).1.text = text := by
  unfold intern
  split <;> rfl

/-- The copy of the interned text is the text. -/
theorem read?_intern (interner : Interner) (text : Text) :
    (interner.intern text).2.read? (interner.intern text).1 = some text := by
  unfold intern read?
  split
  · rename_i copy hcopy
    obtain ⟨hlt, htext, -⟩ := List.idxOf?_eq_some_iff.mp hcopy
    rw [List.getElem?_eq_getElem hlt, htext]
  · exact List.getElem?_concat_length

/-- A copy can be read however many texts are interned later. -/
theorem read?_of_isPrefix {later : Interner} {interned : Interned}
    (hstarts : interner.texts <+: later.texts) (h : interner.read? interned = some text) :
    later.read? interned = some text := by
  obtain ⟨more, hmore⟩ := hstarts
  unfold read? at h ⊢
  rw [← hmore, List.getElem?_append_left (List.getElem?_eq_some_iff.mp h).1, h]

/-- Where no text is kept twice, copies are shared between equal texts only, and between all. -/
theorem sharesCopy_iff (hnodup : interner.texts.Nodup) {left right : Interned}
    (hleft : interner.read? left = some left.text)
    (hright : interner.read? right = some right.text) :
    left.sharesCopy right = true ↔ left.text = right.text := by
  have hlt : left.copy < interner.texts.length := (List.getElem?_eq_some_iff.mp hleft).1
  rw [Interned.sharesCopy, beq_iff_eq, ← List.getElem?_inj hlt hnodup]
  unfold read? at hleft hright
  rw [hleft, hright, Option.some_inj]

end Interner

/-- A way in which an interned text is created. -/
inductive Creation where
  /-- A text is interned. -/
  | ofText (text : Text)
  /-- A token is interned, and with it its lexeme. -/
  | ofToken (token : Token)
  /-- What was created at a position is taken a second time. Nothing is taken at a position that
  creation has not reached. -/
  | again (position : Nat)

/-- An interner and the interned texts created so far, the earliest first. -/
structure Stock where
  /-- The interner. -/
  interner : Interner := {}
  /-- The interned texts. -/
  created : List Interned := []

namespace Stock

/-- The stock after one more creation. -/
def create (stock : Stock) : Creation → Stock
  | .ofText text =>
    ⟨(stock.interner.intern text).2, stock.created ++ [(stock.interner.intern text).1]⟩
  | .ofToken token =>
    ⟨(token.interned stock.interner).2, stock.created ++ [(token.interned stock.interner).1.lexeme]⟩
  | .again position => { stock with created := stock.created ++ stock.created[position]?.toList }

/-- The stock after creations in a row, from nothing. -/
def ofCreations (creations : List Creation) : Stock :=
  creations.foldl create {}

theorem ofCreations_concat (creations : List Creation) (creation : Creation) :
    ofCreations (creations ++ [creation]) = (ofCreations creations).create creation :=
  List.foldl_append

end Stock

namespace Creation

/-- The texts from which interned texts are created, once there is one more creation. -/
def addTo (texts : List Text) : Creation → List Text
  | ofText text => texts ++ [text]
  | ofToken token => texts ++ [token.lexeme]
  | again position => texts ++ texts[position]?.toList

/-- The texts from which creations in a row create interned texts. -/
def texts (creations : List Creation) : List Text :=
  creations.foldl addTo []

theorem texts_concat (creations : List Creation) (creation : Creation) :
    texts (creations ++ [creation]) = creation.addTo (texts creations) :=
  List.foldl_append

end Creation

namespace Stock

variable {stock : Stock} {texts : List Text}

/-- A stock whose interned texts were created from some texts, each of which has one copy. -/
structure Holds (stock : Stock) (texts : List Text) : Prop where
  /-- No text is kept twice. -/
  nodup : stock.interner.texts.Nodup
  /-- The texts kept are those from which an interned text was created. -/
  mem_iff : ∀ text, text ∈ stock.interner.texts ↔ text ∈ texts
  /-- The interned texts are the texts that they were created from. -/
  text_eq : stock.created.map Interned.text = texts
  /-- The copy of each interned text is its text. -/
  read_eq : ∀ interned ∈ stock.created, stock.interner.read? interned = some interned.text

theorem holds_nil : Holds {} [] :=
  ⟨List.nodup_nil, fun _ => Iff.rfl, rfl, by simp⟩

/-- Creation leaves what was created and what is kept. -/
theorem prefix_create (stock : Stock) (creation : Creation) :
    stock.created <+: (stock.create creation).created ∧
      stock.interner.texts <+: (stock.create creation).interner.texts := by
  cases creation with
  | ofText text => exact ⟨List.prefix_append _ _, Interner.texts_prefix_intern _ _⟩
  | ofToken token => exact ⟨List.prefix_append _ _, Interner.texts_prefix_intern _ _⟩
  | again position => exact ⟨List.prefix_append _ _, List.prefix_rfl⟩

/-- What is created and what is kept stays, however much is created later. -/
theorem prefix_ofCreations (creations more : List Creation) :
    (ofCreations creations).created <+: (ofCreations (creations ++ more)).created ∧
      (ofCreations creations).interner.texts <+:
        (ofCreations (creations ++ more)).interner.texts := by
  induction more using List.reverseRecOn with
  | nil =>
    rw [List.append_nil]
    exact ⟨List.prefix_rfl, List.prefix_rfl⟩
  | append_singleton more creation ih =>
    have hlast := prefix_create (ofCreations (creations ++ more)) creation
    rw [← List.append_assoc, ofCreations_concat]
    exact ⟨ih.1.trans hlast.1, ih.2.trans hlast.2⟩

/-- Interning a text gives one more interned text and, if the text is new, one more copy. -/
theorem Holds.ofText (h : stock.Holds texts) (text : Text) :
    (stock.create (.ofText text)).Holds (texts ++ [text]) := by
  refine ⟨Interner.nodup_texts_intern h.nodup text, fun other => ?_, ?_, fun interned hmem => ?_⟩
  · rw [create, Interner.mem_texts_intern, h.mem_iff, List.mem_append, List.mem_singleton]
  · rw [create, List.map_append, h.text_eq, List.map_singleton, Interner.text_intern]
  · rw [create] at hmem ⊢
    -- The copies kept before stay where they are, whether or not the text is a new one.
    rcases List.mem_append.mp hmem with hearlier | hnew
    · exact Interner.read?_of_isPrefix (Interner.texts_prefix_intern _ _) (h.read_eq _ hearlier)
    · rw [List.mem_singleton.mp hnew, Interner.text_intern]
      exact Interner.read?_intern _ _

/-- What is taken a second time refers to the same copy. -/
theorem Holds.again (h : stock.Holds texts) (position : Nat) :
    (stock.create (.again position)).Holds (texts ++ texts[position]?.toList) := by
  refine ⟨h.nodup, fun text => ?_, ?_, fun interned hmem => ?_⟩
  · rw [create, h.mem_iff, List.mem_append]
    refine ⟨.inl, fun hmem => hmem.elim id fun hsome => ?_⟩
    exact List.mem_of_getElem? (Option.mem_toList.mp hsome)
  · rw [create, List.map_append, ← h.text_eq, List.getElem?_map, Option.toList_map]
  · rcases List.mem_append.mp hmem with hearlier | hsome
    · exact h.read_eq _ hearlier
    · exact h.read_eq _ (List.mem_of_getElem? (Option.mem_toList.mp hsome))

/-- Every creation leaves a stock in which each text has one copy. -/
theorem Holds.create (h : stock.Holds texts) (creation : Creation) :
    (stock.create creation).Holds (creation.addTo texts) := by
  cases creation with
  | ofText text => exact h.ofText text
  | ofToken token => exact h.ofText token.lexeme
  | again position => exact h.again position

/-- However interned texts are created, each text has one copy. -/
theorem holds_ofCreations (creations : List Creation) :
    (ofCreations creations).Holds (Creation.texts creations) := by
  induction creations using List.reverseRecOn with
  | nil => exact holds_nil
  | append_singleton creations creation ih =>
    rw [ofCreations_concat, Creation.texts_concat]
    exact ih.create creation

end Stock

/-- However interned texts are created, one copy is kept of each text that they are created from.
The interned texts are those texts, and later creations change neither them nor what their copies
hold. Two of them share a copy exactly if they are the same text, which is when they are equal and
when neither comes first; otherwise the one whose bytes come first comes first. A token that is
interned can be had back, whatever was interned before. -/
theorem Stock.sharing_ofCreations (creations : List Creation) :
    let stock := ofCreations creations
    let texts := Creation.texts creations
    (stock.interner.texts.Nodup ∧ ∀ text, text ∈ stock.interner.texts ↔ text ∈ texts) ∧
    stock.created.map Interned.text = texts ∧
    (∀ more, stock.created <+: (ofCreations (creations ++ more)).created ∧
      stock.created.map (ofCreations (creations ++ more)).interner.read? = texts.map some) ∧
    (∀ left ∈ stock.created, ∀ right ∈ stock.created,
      (left.sharesCopy right = true ↔ left.text = right.text) ∧
      ((left == right) = true ↔ left.text = right.text) ∧
      (compare left right = .eq ↔ left.text = right.text) ∧
      (compare left right = .lt ↔ Utf8.encode left.text < Utf8.encode right.text) ∧
      (compare left right = .gt ↔ Utf8.encode right.text < Utf8.encode left.text)) ∧
    ∀ (interner : Interner) (token : Token),
      (token.interned interner).1.toToken = token ∧
      (token.interned interner).2.read? (token.interned interner).1.lexeme = some token.lexeme := by
  intro stock texts
  have hholds := holds_ofCreations creations
  refine ⟨⟨hholds.nodup, hholds.mem_iff⟩, hholds.text_eq, fun more => ?_, ?_, ?_⟩
  · obtain ⟨hcreated, hkept⟩ := prefix_ofCreations creations more
    refine ⟨hcreated, ?_⟩
    rw [← show stock.created.map Interned.text = texts from hholds.text_eq, List.map_map]
    apply List.map_congr_left
    intro interned hmem
    exact Interner.read?_of_isPrefix hkept (hholds.read_eq _ hmem)
  · intro left hleft right hright
    exact ⟨Interner.sharesCopy_iff hholds.nodup (hholds.read_eq _ hleft) (hholds.read_eq _ hright),
      left.beq_iff right, left.compare_spec right⟩
  · intro interner token
    refine ⟨?_, Interner.read?_intern _ _⟩
    change Token.mk token.category (interner.intern token.lexeme).1.text token.location = token
    rw [Interner.text_intern]

/-- A text and the lexeme of a token share a copy, and the start of that text has another one. -/
theorem Stock.sharing_ofCreations_of_lexeme :
    let stock := ofCreations [.ofText "né".toList, .ofText "n".toList,
      .ofToken ⟨.error, "né".toList, .start⟩, .again 1]
    ∃ first lexeme start, stock.created = [first, start, lexeme, start] ∧
      lexeme.text = "né".toList ∧ start.text = "n".toList ∧
      first.sharesCopy lexeme = true ∧ first.sharesCopy start = false ∧
      compare first start = .gt := by
  intro stock
  have hcreated : stock.created =
      [⟨0, "né".toList⟩, ⟨1, "n".toList⟩, ⟨0, "né".toList⟩, ⟨1, "n".toList⟩] := rfl
  obtain ⟨-, -, -, hsharing, -⟩ := sharing_ofCreations [.ofText "né".toList, .ofText "n".toList,
    .ofToken ⟨.error, "né".toList, .start⟩, .again 1]
  change ∀ left ∈ stock.created, ∀ right ∈ stock.created, _ at hsharing
  rw [hcreated] at hsharing
  have hlexeme := hsharing ⟨0, "né".toList⟩ (by simp) ⟨0, "né".toList⟩ (by simp)
  have hstart := hsharing ⟨0, "né".toList⟩ (by simp) ⟨1, "n".toList⟩ (by simp)
  refine ⟨_, _, _, hcreated, rfl, rfl, hlexeme.1.mpr rfl, ?_, hstart.2.2.2.2.mpr (by decide)⟩
  rw [Bool.eq_false_iff, ne_eq, hstart.1]
  decide

end MapHighlight

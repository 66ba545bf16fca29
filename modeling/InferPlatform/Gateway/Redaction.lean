import InferPlatform.Base.JsonText
import InferPlatform.Gateway.Completion
import InferPlatform.Gateway.Stream

/-!
# Redaction on the two paths

The non-streaming path redacts the whole text of an answer, the streaming path
every piece by itself. This module compares them for every way in which a text
is cut into pieces.

* `ContentLine`, `DoneLine` — lines of Ollama that carry a piece, or the end;
* `streamedText_eq` — the streamed text is that of the redacted pieces;
* `redactsAlike_iff` — **both paths agree on every cut of a text exactly when no
  part of the text, taken alone, has anything to redact**.
-/

namespace InferPlatform.Gateway

open Lines Checked

/-! ## What the client receives -/

/-- The content deltas of an event. -/
def deltaText : SseData → List Char
  | .chunk c => c.choices.flatMap fun choice => (choice.delta.content.getD "").toList
  | .done => []

/-- The concatenation of all content deltas. -/
def streamedText (e : Emitted) : String := String.ofList (e.events.flatMap deltaText)

section

variable (s : Session)

/-- A line of Ollama with the given piece of the answer. -/
structure ContentLine (line : List Char) (piece : String) : Prop where
  oneLine : '\n' ∉ line
  nonblank : trim s.unicode.isSpace line ≠ []
  decodes : ∃ chunk, (s.parse (trim s.unicode.isSpace line)).bind OllamaChunk.ofJson = some chunk ∧
    chunk.done = false ∧ chunk.message = some ⟨piece⟩

/-- A line of Ollama that ends the answer. -/
structure DoneLine (line : List Char) : Prop where
  oneLine : '\n' ∉ line
  nonblank : trim s.unicode.isSpace line ≠ []
  decodes : ∃ chunk, (s.parse (trim s.unicode.isSpace line)).bind OllamaChunk.ofJson = some chunk ∧
    chunk.done = true

/-- An answer that streams the pieces, in network chunks of whole characters. -/
structure Streams (pieces : List String) (chunks : List (List Char)) : Prop where
  lines : ∃ lines last, List.Forall₂ (ContentLine s) lines pieces ∧ DoneLine s last ∧
    chunks.flatten = joinLines (lines ++ [last])

/-- For every way of cutting the text into pieces, and of sending these, the
streamed text is the redacted text, which is what the non-streaming path answers
for it. -/
def RedactsAlike (p : Profile) (text : String) : Prop :=
  ∀ pieces chunks, pieces.flatMap String.toList = text.toList → Streams s pieces chunks →
    ∃ e, streamResponse s (.body (chunks.map fun chunk => .ok (Utf8.encode chunk))) = .ok e ∧
      streamedText e = filterPii s.unicode text ∧
      ∀ created ollamaBody model requestId r, messageContent ollamaBody = some text →
        buildOpenaiResponse s.unicode p created ollamaBody model requestId = .ok r →
        r.contents = [streamedText e]

variable {s}

/-! ## One line, all lines -/

theorem lineOutcome_eq {line : List Char} {chunk : OllamaChunk}
    (hline : trim s.unicode.isSpace line ≠ [])
    (h : (s.parse (trim s.unicode.isSpace line)).bind OllamaChunk.ofJson = some chunk) :
    lineOutcome s line = chunkOutcome s chunk := by
  rw [lineOutcome, if_neg hline, h]

theorem ContentLine.outcome {line : List Char} {piece : String} (h : ContentLine s line piece) :
    ∃ events, lineOutcome s line = ⟨events, none⟩ ∧
      events.flatMap deltaText = (filterPii s.unicode piece).toList := by
  obtain ⟨chunk, hchunk, hdone, hmessage⟩ := h.decodes
  rw [lineOutcome_eq h.nonblank hchunk, chunkOutcome, hdone, hmessage]
  dsimp only
  rw [if_neg Bool.false_ne_true]
  by_cases hempty : filterPii s.unicode piece = ""
  · rw [if_pos hempty, hempty]
    exact ⟨[], rfl, rfl⟩
  · rw [if_neg hempty]
    exact ⟨_, rfl, by simp [deltaText, contentEvent, chunkEvent]⟩

theorem DoneLine.outcome {line : List Char} (h : DoneLine s line) :
    ∃ usage, lineOutcome s line = ⟨[stopEvent s, .done], some usage⟩ := by
  obtain ⟨chunk, hchunk, hdone⟩ := h.decodes
  exact ⟨_, by rw [lineOutcome_eq h.nonblank hchunk, chunkOutcome, if_pos hdone]⟩

theorem streamLines_content {lines : List (List Char)} {pieces : List String}
    (h : List.Forall₂ (ContentLine s) lines pieces) :
    ∃ events, streamLines s lines = ⟨events, none⟩ ∧ events.flatMap deltaText =
      pieces.flatMap fun piece => (filterPii s.unicode piece).toList := by
  induction h with
  | nil => exact ⟨[], rfl, rfl⟩
  | cons hline _ ih =>
      obtain ⟨first, hfirst, htext⟩ := hline.outcome
      obtain ⟨events, hevents, hrest⟩ := ih
      refine ⟨first ++ events, ?_, ?_⟩
      · rw [streamLines, hfirst, hevents]
        rfl
      · rw [List.flatMap_append, htext, hrest, List.flatMap_cons]

theorem oneLine_of_content {lines : List (List Char)} {pieces : List String}
    (h : List.Forall₂ (ContentLine s) lines pieces) : ∀ line ∈ lines, '\n' ∉ line := by
  induction h with
  | nil => simp
  | cons hline _ ih => exact List.forall_mem_cons.mpr ⟨hline.oneLine, ih⟩

/-- **The streamed text** is the concatenation of the redacted pieces. -/
theorem streamedText_eq {pieces : List String} {chunks : List (List Char)}
    (h : Streams s pieces chunks) :
    ∃ e, streamResponse s (.body (chunks.map fun chunk => .ok (Utf8.encode chunk))) = .ok e ∧
      (streamedText e).toList =
        pieces.flatMap fun piece => (filterPii s.unicode piece).toList := by
  obtain ⟨lines, last, hlines, hlast, hchunks⟩ := h.lines
  have hone : ∀ line ∈ lines ++ [last], '\n' ∉ line :=
    List.forall_mem_append.mpr ⟨oneLine_of_content hlines, by simpa using hlast.oneLine⟩
  have hdecode : (chunks.map Utf8.encode).flatMap Utf8.decode = joinLines (lines ++ [last]) := by
    rw [List.flatMap_map, List.flatMap_congr fun c _ => Utf8.decode_encode c, List.flatMap_id',
      hchunks]
  obtain ⟨events, hevents, htext⟩ := streamLines_content hlines
  obtain ⟨usage, husage⟩ := hlast.outcome
  refine ⟨_, rfl, ?_⟩
  have hitems : (chunks.map fun chunk => Except.ok (ε := String) (Utf8.encode chunk)) =
      (chunks.map Utf8.encode).map .ok := (List.map_map ..).symm
  rw [hitems, readLoop_eq s _ List.not_mem_nil, List.nil_append, hdecode, streamText,
    splitLines_joinLines_fst hone, streamLines_append, hevents, streamLines, husage, streamedText,
    String.toList_ofList]
  show (roleEvent s :: (events ++ [stopEvent s, .done])).flatMap deltaText = _
  rw [List.flatMap_cons, List.flatMap_append, htext]
  simp [deltaText, roleEvent, stopEvent, chunkEvent]

/-! ## Every cut of a text -/

/-- Where no part of the text has anything to redact, neither has any piece nor
the whole. -/
theorem redactsAlike_of_clean (p : Profile) {text : String}
    (h : ∀ part, part <:+: text.toList → containsPii s.unicode part = false) :
    RedactsAlike s p text := by
  have hwhole : filterPii s.unicode text = text := filterPii_of_clean (h _ (List.infix_refl _))
  intro pieces chunks hpieces hstreams
  obtain ⟨e, he, htext⟩ := streamedText_eq hstreams
  have hparts : (pieces.flatMap fun piece => (filterPii s.unicode piece).toList) =
      pieces.flatMap String.toList := by
    refine List.flatMap_congr fun piece hpiece => ?_
    obtain ⟨before, after, rfl⟩ := List.append_of_mem hpiece
    rw [filterPii_of_clean (h piece.toList ⟨before.flatMap String.toList,
      after.flatMap String.toList, by rw [← hpieces]; simp⟩)]
  rw [hparts, hpieces, String.toList_inj] at htext
  refine ⟨e, he, htext.trans hwhole.symm, ?_⟩
  intro created ollamaBody model requestId r hbody hr
  rw [buildOpenaiResponse_contents hr, hbody, htext, Option.getD_some, hwhole]

/-- The text as pieces of one character each. -/
def singles (text : List Char) : List String := text.map fun c => String.ofList [c]

theorem toList_singles (text : List Char) : (singles text).flatMap String.toList = text := by
  simp [singles, List.flatMap_map]

/-- Single characters are never redacted. -/
theorem filterPii_singles (u : Unicode) (text : List Char) :
    ((singles text).flatMap fun piece => (filterPii u piece).toList) = text := by
  have hsame : ∀ piece ∈ singles text, (filterPii u piece).toList = piece.toList := by
    intro piece hpiece
    obtain ⟨c, -, rfl⟩ := List.mem_map.mp hpiece
    rw [filterPii_of_clean (containsPii_of_length_lt (by simp))]
  rw [List.flatMap_congr hsame, toList_singles]

/-- Where every piece and the end have a line, every cut of a text can be
streamed, in one chunk. -/
theorem exists_streams (hexpress : ∀ piece, ∃ line, ContentLine s line piece)
    (hdone : ∃ line, DoneLine s line) (pieces : List String) :
    ∃ chunks, Streams s pieces chunks := by
  choose lineOf hlineOf using hexpress
  obtain ⟨last, hlast⟩ := hdone
  refine ⟨[joinLines (pieces.map lineOf ++ [last])],
    ⟨pieces.map lineOf, last, ?_, hlast, by simp⟩⟩
  rw [List.forall₂_map_left_iff, List.forall₂_same]
  exact fun piece _ => hlineOf piece

/-- Cut into single characters the text is streamed as it is; cut so that the
part stays whole, it is not. -/
theorem not_redactsAlike (p : Profile) {text : String}
    (hexpress : ∀ piece, ∃ line, ContentLine s line piece) (hdone : ∃ line, DoneLine s line)
    {part : List Char} (hpart : part <:+: text.toList) (hpii : containsPii s.unicode part = true) :
    ¬ RedactsAlike s p text := by
  intro h
  have hcut : ∀ pieces : List String, pieces.flatMap String.toList = text.toList →
      (pieces.flatMap fun piece => (filterPii s.unicode piece).toList) =
        (filterPii s.unicode text).toList := by
    intro pieces hpieces
    obtain ⟨chunks, hstreams⟩ := exists_streams hexpress hdone pieces
    obtain ⟨e, he, heq, -⟩ := h pieces chunks hpieces hstreams
    obtain ⟨e', he', htext⟩ := streamedText_eq hstreams
    rw [he, Except.ok.injEq] at he'
    rw [← htext, ← he', heq]
  obtain ⟨before, after, htext⟩ := hpart
  have hwhole := hcut (singles text.toList) (toList_singles _)
  have hkept := hcut (singles before ++ String.ofList part :: singles after)
    (by simp [toList_singles, ← htext])
  rw [filterPii_singles] at hwhole
  rw [← hwhole, List.flatMap_append, List.flatMap_cons, filterPii_singles, filterPii_singles,
    ← htext, List.append_assoc, List.append_cancel_left_eq, List.append_cancel_right_eq] at hkept
  have hchanged : filterPii s.unicode (String.ofList part) ≠ String.ofList part :=
    filterPii_ne (by simpa using hpii)
  rw [← String.toList_inj.ne, hkept, String.toList_ofList] at hchanged
  exact hchanged rfl

/-- **Redaction on both paths.** For every cut of a text into the pieces of an
answer the two paths give the client the same text exactly when no contiguous
part of the text, taken alone, matches one of the patterns. The two hypotheses
say that Ollama has a line for every piece, and one for the end. -/
theorem redactsAlike_iff (s : Session) (p : Profile) (text : String)
    (hexpress : ∀ piece, ∃ line, ContentLine s line piece) (hdone : ∃ line, DoneLine s line) :
    RedactsAlike s p text ↔
      ∀ part, part <:+: text.toList → containsPii s.unicode part = false := by
  constructor
  · intro h part hpart
    by_contra hpii
    exact not_redactsAlike p hexpress hdone hpart (by simpa using hpii) h
  · exact redactsAlike_of_clean p

end

/-! ## Concrete answers -/

theorem contentLine_plainLine (piece : String) :
    ContentLine plainSession (plainLine piece) piece := by
  have htrim : trim plainSession.unicode.isSpace (plainLine piece) = plainLine piece := by
    have hshape : plainLine piece = '{' :: ((plainHead.tail ++
        (JsonText.writeString piece.toList ++ plainTail.dropLast)) ++ ['}']) := by
      rw [List.append_assoc, List.append_assoc]
      rfl
    rw [hshape]
    exact trim_of_not_isSpace _ (by decide) (by decide)
  refine ⟨?_, ?_, ?_⟩
  · rw [plainLine, List.mem_append, List.mem_append, not_or, not_or]
    exact ⟨by decide, JsonText.newline_notMem_writeString _, by decide⟩
  · rw [htrim]
    exact List.cons_ne_nil _ _
  · rw [htrim]
    refine ⟨⟨some ⟨piece⟩, false, 0, 0⟩, ?_, rfl, rfl⟩
    show (readPlain (plainLine piece)).bind OllamaChunk.ofJson = _
    rw [readPlain_plainLine]
    rfl

theorem doneLine_plainDone : DoneLine plainSession plainDone :=
  ⟨by decide, by decide, ⟨none, true, 0, 0⟩, rfl, rfl⟩

/-- A greeting has nothing to redact in any of its parts. -/
theorem redactsAlike_iff_greeting : RedactsAlike plainSession .release "Hello" ↔
    ∀ part, part <:+: "Hello".toList → containsPii plainSession.unicode part = false :=
  redactsAlike_iff plainSession .release "Hello"
    (fun piece => ⟨_, contentLine_plainLine piece⟩) ⟨_, doneLine_plainDone⟩

/-- A social security number in two pieces reaches a streaming client. -/
theorem ssn_streamed :
    streamedText (readLoop plainSession []
      ([plainLine "123-45", plainLine "-6789", plainDone].map fun line =>
        .ok (Utf8.encode (line ++ ['\n'])))) = "123-45-6789" ∧
    filterPii plainSession.unicode "123-45-6789" = "[SSN REDACTED]" ∧
    ¬ RedactsAlike plainSession .release "123-45-6789" := by
  refine ⟨by decide, by decide, ?_⟩
  exact not_redactsAlike .release (fun piece => ⟨_, contentLine_plainLine piece⟩)
    ⟨_, doneLine_plainDone⟩ (List.infix_refl _) (by decide)

end InferPlatform.Gateway

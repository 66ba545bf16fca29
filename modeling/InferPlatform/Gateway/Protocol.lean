import InferPlatform.Gateway.Redaction

/-!
# The events of a streamed answer

What a streaming request sends, for every body that Ollama may send: any chunks, lines
that do not decode, a read error, an end at any point.

* `parsedChunks`, `pieces` — the objects of a body, and the texts before its end;
* `streamResponse_events` — **the events are the role, the redacted texts, the stop
  event if the body has an end, and `[DONE]`; the usage is recorded with the stop event**;
* `streamsAll_iff` — **nothing is lost exactly when the last line is terminated and the
  last object has no text**.
-/

namespace InferPlatform.Gateway

open Lines

/-! ## The objects of a body -/

/-- The chunks before a read error. -/
def readChunks : List (Except String (List UInt8)) → List (List UInt8)
  | .ok chunk :: items => chunk :: readChunks items
  | .error _ :: _ | [] => []

section

variable (s : Session)

/-- A line as an object of Ollama; blank lines and lines that do not decode are none. -/
def parseLine (line : List Char) : Option OllamaChunk :=
  let line := trim s.unicode.isSpace line
  if line = [] then none else (s.parse line).bind OllamaChunk.ofJson

/-- The objects in the complete lines of a body. -/
def parsedChunks (items : List (Except String (List UInt8))) : List OllamaChunk :=
  (splitLines ((readChunks items).flatMap Utf8.decode)).1.filterMap (parseLine s)

/-- The texts of the objects before the end of the answer. -/
def pieces (chunks : List OllamaChunk) : List String :=
  (chunks.takeWhile fun chunk => ¬ chunk.done).filterMap fun chunk =>
    chunk.message.map (·.content)

/-- A content event for each text with something left of it after the redaction. -/
def contentEvents (texts : List String) : List SseData :=
  ((texts.map (filterPii s.unicode)).filter fun text => text ≠ "").map (contentEvent s)

/-- The stop event for an object that ends the answer. -/
def stopEvents (last : Option OllamaChunk) : List SseData :=
  if last.isSome then [stopEvent s] else []

/-! ## The loop by objects -/

/-- What a list of objects is turned into. -/
def streamChunksOutcome : List OllamaChunk → Emitted
  | [] => .nothing
  | chunk :: chunks => (chunkOutcome s chunk).andThen (streamChunksOutcome chunks)

theorem streamLines_eq (lines : List (List Char)) :
    streamLines s lines = streamChunksOutcome s (lines.filterMap (parseLine s)) := by
  induction lines with
  | nil => rfl
  | cons line lines ih =>
      rw [streamLines, ih, lineOutcome, List.filterMap_cons, parseLine]
      split
      · rfl
      · cases (s.parse (trim s.unicode.isSpace line)).bind OllamaChunk.ofJson with
        | none => rfl
        | some chunk => rfl

/-- A read error ends the loop like the end of the body. -/
theorem readLoop_readChunks (items : List (Except String (List UInt8))) (buf : List Char) :
    readLoop s buf items = readLoop s buf ((readChunks items).map .ok) := by
  induction items generalizing buf with
  | nil => rfl
  | cons item items ih =>
      cases item with
      | error e => rfl
      | ok chunk =>
          rw [readLoop, ih]
          rfl

/-- One object before the end of the answer. -/
theorem chunkOutcome_of_not_done {chunk : OllamaChunk} (h : chunk.done = false) :
    chunkOutcome s chunk =
      ⟨contentEvents s (chunk.message.map (·.content)).toList, none⟩ := by
  rw [chunkOutcome, h, if_neg Bool.false_ne_true]
  cases chunk.message with
  | none => rfl
  | some msg =>
      by_cases hempty : filterPii s.unicode msg.content = ""
      · simp [contentEvents, hempty, Emitted.nothing]
      · simp [contentEvents, hempty]

theorem contentEvents_append (texts more : List String) :
    contentEvents s (texts ++ more) = contentEvents s texts ++ contentEvents s more := by
  simp [contentEvents]

theorem pieces_cons_of_not_done {chunk : OllamaChunk} (h : chunk.done = false)
    (chunks : List OllamaChunk) :
    pieces (chunk :: chunks) = (chunk.message.map (·.content)).toList ++ pieces chunks := by
  cases hmessage : chunk.message <;> simp [pieces, h, hmessage]

/-- The events of a list of objects: texts up to the first object that ends the answer,
and its stop event with the usage. -/
theorem streamChunksOutcome_eq (chunks : List OllamaChunk) :
    (streamChunksOutcome s chunks).andThen ⟨[.done], some none⟩ =
      ⟨contentEvents s (pieces chunks) ++ stopEvents s (chunks.find? (·.done)) ++ [.done],
        some ((chunks.find? (·.done)).bind fun last =>
          if s.db then some (usageRow s last) else none)⟩ := by
  induction chunks with
  | nil => rfl
  | cons chunk chunks ih =>
      rw [streamChunksOutcome, Emitted.andThen_assoc, ih]
      cases hdone : chunk.done with
      | true =>
          rw [chunkOutcome, hdone, if_pos rfl, List.find?_cons_of_pos hdone]
          simp [Emitted.andThen, hdone, pieces, stopEvents, contentEvents]
      | false =>
          rw [chunkOutcome_of_not_done s hdone, pieces_cons_of_not_done hdone,
            contentEvents_append, List.find?_cons_of_neg (by simp [hdone]),
            List.append_assoc, List.append_assoc, List.append_assoc]
          rfl

/-- What a streaming request sends and records, for any body. -/
theorem streamResponse_eq (items : List (Except String (List UInt8))) :
    streamResponse s (.body items) =
      .ok ⟨roleEvent s :: (contentEvents s (pieces (parsedChunks s items)) ++
          stopEvents s ((parsedChunks s items).find? (·.done)) ++ [.done]),
        some (((parsedChunks s items).find? (·.done)).bind fun last =>
          if s.db then some (usageRow s last) else none)⟩ := by
  rw [streamResponse, readLoop_readChunks, readLoop_eq s _ List.not_mem_nil, List.nil_append,
    streamText, streamLines_eq, ← parsedChunks, streamChunksOutcome_eq]
  rfl

/-! ## The client -/

/-- What a client receives that drops its end of the channel after `k` events: every
later send fails, and the task ignores that. -/
def delivered : Nat → List SseData → List SseData
  | _, [] => []
  | 0, _ :: events => delivered 0 events
  | k + 1, event :: events => event :: delivered k events

theorem delivered_eq_take (k : Nat) (events : List SseData) :
    delivered k events = events.take k := by
  induction events generalizing k with
  | nil => rw [List.take_nil, delivered]
  | cons event events ih =>
      cases k with
      | zero => exact (ih 0).trans List.take_zero
      | succ k => rw [delivered, ih, List.take_succ_cons]

/-- What the events of a body with the given objects are: a role event, content events
with the redacted texts of the objects, in their order and none of them empty, the stop
event if some object ends the answer, and `[DONE]`. The usage is recorded exactly with
the stop event, once. A client that drops its end receives the first of these events. -/
structure FollowsProtocol (chunks : List OllamaChunk) (e : Emitted) : Prop where
  events : ∃ texts,
    texts = ((pieces chunks).map (filterPii s.unicode)).filter (fun text => text ≠ "") ∧
    ((e.events = roleEvent s :: texts.map (contentEvent s) ++ [stopEvent s, .done] ∧
        ∃ row, e.closed = some (some row)) ∨
      (e.events = roleEvent s :: texts.map (contentEvent s) ++ [.done] ∧ e.closed = some none))
  dropped : ∀ k, delivered k e.events = e.events.take k

/-- **The protocol** holds for every body, whether Ollama ends it, breaks it off, or
sends lines that do not decode. -/
theorem streamResponse_events (s : Session) (hdb : s.db = true)
    (items : List (Except String (List UInt8))) :
    ∃ e, streamResponse s (.body items) = .ok e ∧
      FollowsProtocol s (parsedChunks s items) e := by
  refine ⟨_, streamResponse_eq s items, ⟨_, rfl, ?_⟩, fun k => delivered_eq_take k _⟩
  cases hlast : (parsedChunks s items).find? (·.done) with
  | some last =>
      left
      refine ⟨?_, usageRow s last, ?_⟩
      · simp [stopEvents, contentEvents]
      · simp [hdb]
  | none =>
      right
      refine ⟨?_, rfl⟩
      simp [stopEvents, contentEvents]

/-- An answer that breaks off inside its second line. -/
theorem streamResponse_events_broken :
    let items : List (Except String (List UInt8)) :=
      [.ok (Utf8.encode (plainLine "Hello" ++ ['\n'])), .ok (Utf8.encode (plainDone.take 3)),
        .error "connection reset"]
    ∃ e, streamResponse plainSession (.body items) = .ok e ∧
      FollowsProtocol plainSession (parsedChunks plainSession items) e :=
  streamResponse_events plainSession rfl _

/-! ## The two ends of an answer -/

/-- The text of an object; empty if it has no message. -/
def OllamaChunk.text (chunk : OllamaChunk) : String := (chunk.message.map (·.content)).getD ""

/-- A line that decodes to the object. -/
def IsLineOf (line : List Char) (chunk : OllamaChunk) : Prop :=
  '\n' ∉ line ∧ parseLine s line = some chunk

/-- An answer of Ollama: objects one a line, of which the last one alone ends the answer,
with or without a line feed after it, in any network chunks that decode to this text. -/
structure SentAs (init : List OllamaChunk) (last : OllamaChunk) (terminated : Bool)
    (chunks : List (List UInt8)) : Prop where
  init_open : ∀ chunk ∈ init, chunk.done = false
  last_done : last.done = true
  lines : ∃ lines lastLine, List.Forall₂ (IsLineOf s) lines init ∧ IsLineOf s lastLine last ∧
    chunks.flatMap Utf8.decode =
      joinLines lines ++ (lastLine ++ if terminated then ['\n'] else [])

/-- The client receives the redacted text of every object, and the usage of the last one
is recorded. -/
def StreamsAll (objects : List OllamaChunk) (last : OllamaChunk) (chunks : List (List UInt8)) :
    Prop :=
  ∃ e, streamResponse s (.body (chunks.map .ok)) = .ok e ∧
    (streamedText e).toList =
      objects.flatMap (fun chunk => (filterPii s.unicode chunk.text).toList) ∧
    e.closed = some (some (usageRow s last))

variable {s}

theorem readChunks_ok (chunks : List (List UInt8)) : readChunks (chunks.map .ok) = chunks := by
  induction chunks with
  | nil => rfl
  | cons chunk chunks ih => exact congrArg (chunk :: ·) ih

theorem filterMap_parseLine {lines : List (List Char)} {chunks : List OllamaChunk}
    (h : List.Forall₂ (IsLineOf s) lines chunks) : lines.filterMap (parseLine s) = chunks := by
  induction h with
  | nil => rfl
  | cons hline _ ih => rw [List.filterMap_cons, hline.2, ih]

theorem oneLine_of_isLineOf {lines : List (List Char)} {chunks : List OllamaChunk}
    (h : List.Forall₂ (IsLineOf s) lines chunks) : ∀ line ∈ lines, '\n' ∉ line := by
  induction h with
  | nil => simp
  | cons hline _ ih => exact List.forall_mem_cons.mpr ⟨hline.1, ih⟩

/-- The last object is only read if its line is terminated. -/
theorem SentAs.parsedChunks {init : List OllamaChunk} {last : OllamaChunk} {terminated : Bool}
    {chunks : List (List UInt8)} (h : SentAs s init last terminated chunks) :
    parsedChunks s (chunks.map .ok) = init ++ if terminated then [last] else [] := by
  obtain ⟨lines, lastLine, hlines, hlast, htext⟩ := h.lines
  rw [InferPlatform.Gateway.parsedChunks, readChunks_ok, htext,
    splitLines_joinLines (oneLine_of_isLineOf hlines), List.filterMap_append,
    filterMap_parseLine hlines]
  cases terminated with
  | true => simp [splitLines_line hlast.1, splitLines, hlast.2]
  | false => simp [splitLines_of_notMem hlast.1]

theorem deltaText_contentEvents (texts : List String) :
    (contentEvents s texts).flatMap deltaText =
      texts.flatMap fun text => (filterPii s.unicode text).toList := by
  induction texts with
  | nil => rfl
  | cons text texts ih =>
      rw [← List.singleton_append, contentEvents_append, List.flatMap_append, ih,
        List.flatMap_append, List.append_cancel_right_eq]
      by_cases hempty : filterPii s.unicode text = ""
      · simp [contentEvents, hempty]
      · simp [contentEvents, hempty, deltaText, contentEvent, chunkEvent]

/-- Objects before the end of the answer: their texts are the pieces, and what follows
the end adds none. -/
theorem pieces_append {init rest : List OllamaChunk} (hinit : ∀ chunk ∈ init, chunk.done = false)
    (hrest : ∀ chunk ∈ rest.head?, chunk.done = true) :
    (pieces (init ++ rest)).flatMap (fun text => (filterPii s.unicode text).toList) =
      init.flatMap fun chunk => (filterPii s.unicode chunk.text).toList := by
  induction init with
  | nil =>
      cases rest with
      | nil => rfl
      | cons chunk rest => simp [pieces, hrest chunk rfl]
  | cons chunk init ih =>
      obtain ⟨hchunk, hinit⟩ := List.forall_mem_cons.mp hinit
      rw [List.cons_append, pieces_cons_of_not_done hchunk, List.flatMap_append, ih hinit,
        List.flatMap_cons, List.append_cancel_right_eq]
      have hempty : filterPii s.unicode "" = "" := filterPii_eq_empty.mpr rfl
      cases hmessage : chunk.message <;> simp [OllamaChunk.text, hmessage, hempty]

/-- What is streamed of such an answer: the texts of all objects but the last, and the
usage if the last line is terminated. -/
theorem SentAs.streamed {init : List OllamaChunk} {last : OllamaChunk} {terminated : Bool}
    {chunks : List (List UInt8)} (h : SentAs s init last terminated chunks) (hdb : s.db = true) :
    ∃ e, streamResponse s (.body (chunks.map .ok)) = .ok e ∧
      (streamedText e).toList =
        init.flatMap (fun chunk => (filterPii s.unicode chunk.text).toList) ∧
      e.closed = some (if terminated then some (usageRow s last) else none) := by
  have hopen : init.find? (·.done) = none := by
    rw [List.find?_eq_none]
    intro chunk hchunk
    simp [h.init_open chunk hchunk]
  have hrest : ∀ chunk ∈ (if terminated then [last] else []).head?, chunk.done = true := by
    intro chunk hchunk
    cases terminated with
    | true => exact Option.some.inj hchunk ▸ h.last_done
    | false => cases hchunk
  refine ⟨_, streamResponse_eq s _, ?_, ?_⟩
  · rw [h.parsedChunks, streamedText, String.toList_ofList, List.flatMap_cons,
      List.flatMap_append, List.flatMap_append, deltaText_contentEvents,
      pieces_append h.init_open hrest]
    cases (init ++ if terminated then [last] else []).find? (·.done) <;>
      simp [deltaText, roleEvent, stopEvents, stopEvent, chunkEvent]
  · dsimp only
    rw [h.parsedChunks, List.find?_append, hopen, Option.none_or]
    cases terminated with
    | true => simp [h.last_done, hdb]
    | false => rfl

/-- The redacted text of the last object and its usage are missing unless the one is
empty and its line is terminated. -/
theorem SentAs.streams_all {init : List OllamaChunk} {last : OllamaChunk} {terminated : Bool}
    {chunks : List (List UInt8)} (h : SentAs s init last terminated chunks) (hdb : s.db = true) :
    StreamsAll s (init ++ [last]) last chunks ↔
      terminated = true ∧ filterPii s.unicode last.text = "" := by
  obtain ⟨e, he, htext, hclosed⟩ := h.streamed hdb
  unfold StreamsAll
  simp only [he, Except.ok.injEq, exists_eq_left', htext, hclosed, List.flatMap_append,
    List.flatMap_singleton, List.self_eq_append_right]
  cases terminated <;> simp

/-- **Nothing is lost** of an answer exactly when its last line is terminated and the
object that ends it has no text of its own. -/
theorem streamsAll_iff (s : Session) (hdb : s.db = true) (init : List OllamaChunk)
    (last : OllamaChunk) (terminated : Bool) (chunks : List (List UInt8))
    (h : SentAs s init last terminated chunks) :
    StreamsAll s (init ++ [last]) last chunks ↔ terminated = true ∧ last.text = "" := by
  rw [h.streams_all hdb, filterPii_eq_empty]

end

/-! ## Concrete ends -/

/-- The last object of an answer, with a text. -/
def farewell : List Char :=
  plainHead ++ (JsonText.writeString "bye".toList ++ "\x7d,\"done\":true\x7d".toList)

/-- A session that reads this object too. -/
def farewellSession : Session :=
  { plainSession with
    parse := fun line =>
      if line = farewell then
        some (.object [("message", .object [("content", .string "bye")]), ("done", .bool true)])
      else readPlain line }

def helloChunk : OllamaChunk := ⟨some ⟨"Hello"⟩, false, 0, 0⟩

def doneChunk : OllamaChunk := ⟨none, true, 0, 0⟩

theorem isLineOf_hello : IsLineOf farewellSession (plainLine "Hello") helloChunk :=
  ⟨by decide, rfl⟩

/-- A greeting and its end, with or without a line feed after the end. -/
theorem sentAs_hello (terminated : Bool) :
    SentAs farewellSession [helloChunk] doneChunk terminated
      [Utf8.encode (plainLine "Hello" ++ ['\n'] ++
        (plainDone ++ if terminated then ['\n'] else []))] where
  init_open := by simp [helloChunk]
  last_done := rfl
  lines := by
    refine ⟨[plainLine "Hello"], plainDone, .cons isLineOf_hello .nil, ⟨by decide, rfl⟩, ?_⟩
    rw [List.flatMap_singleton, Utf8.decode_encode]
    simp [joinLines]

/-- A greeting whose last object says bye. -/
theorem sentAs_farewell :
    SentAs farewellSession [helloChunk] ⟨some ⟨"bye"⟩, true, 0, 0⟩ true
      [Utf8.encode (plainLine "Hello" ++ ['\n'] ++ (farewell ++ ['\n']))] where
  init_open := by simp [helloChunk]
  last_done := rfl
  lines := by
    refine ⟨[plainLine "Hello"], farewell, .cons isLineOf_hello .nil, ⟨by decide, rfl⟩, ?_⟩
    rw [List.flatMap_singleton, Utf8.decode_encode]
    simp [joinLines]

/-- A terminated answer whose last object is empty loses nothing. -/
theorem streamsAll_iff_hello :
    StreamsAll farewellSession ([helloChunk] ++ [doneChunk]) doneChunk
        [Utf8.encode (plainLine "Hello" ++ ['\n'] ++ (plainDone ++ ['\n']))] ↔
      true = true ∧ doneChunk.text = "" :=
  streamsAll_iff farewellSession rfl [helloChunk] doneChunk true _ (sentAs_hello true)

/-- Without the last line feed the usage is lost; with a text in the last object, that
text is. -/
theorem ends_lost :
    ¬ StreamsAll farewellSession ([helloChunk] ++ [doneChunk]) doneChunk
        [Utf8.encode (plainLine "Hello" ++ ['\n'] ++ plainDone)] ∧
      ¬ StreamsAll farewellSession ([helloChunk] ++ [⟨some ⟨"bye"⟩, true, 0, 0⟩])
        ⟨some ⟨"bye"⟩, true, 0, 0⟩
        [Utf8.encode (plainLine "Hello" ++ ['\n'] ++ (farewell ++ ['\n']))] := by
  have hopen := sentAs_hello false
  rw [if_neg Bool.false_ne_true, List.append_nil] at hopen
  refine ⟨?_, ?_⟩
  · rw [hopen.streams_all rfl]
    simp
  · rw [sentAs_farewell.streams_all rfl, filterPii_eq_empty]
    simp [OllamaChunk.text]

end InferPlatform.Gateway

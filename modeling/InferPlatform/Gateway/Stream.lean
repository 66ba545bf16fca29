import InferPlatform.Base.JsonText
import InferPlatform.Base.Lines
import InferPlatform.Base.Utf8
import InferPlatform.Gateway.Sanitize
import InferPlatform.Wire.Chat

/-!
# The streaming loop

`stream_response` turns Ollama's answer, one JSON object a line, into server-sent
events. The network hands the answer over in chunks; the loop decodes each chunk
as UTF-8, keeps the text after the last line feed in a buffer, and handles every
complete line.

* `OllamaChunk.ofJson` — a line as the derived decoder reads it;
* `lineOutcome`, `streamLines`, `readLoop` — a line, a list of lines, the loop;
* `readLoop_eq` — the loop's events are those of the complete lines of the chunks,
  each decoded by itself.
-/

namespace InferPlatform.Gateway

open Lines

/-! ## Ollama's lines -/

structure OllamaChunkMessage where
  content : String

structure OllamaChunk where
  message : Option OllamaChunkMessage
  done : Bool
  promptEvalCount : UInt32
  evalCount : UInt32

/-- The member of a struct on the wire; a repeated one is an error. -/
def wireMember (entries : List (String × Json)) (name : String) : Option (Option Json) :=
  match entries.filter fun entry => entry.1 = name with
  | [] => some none
  | [entry] => some (some entry.2)
  | _ => none

def OllamaChunkMessage.ofJson : Json → Option OllamaChunkMessage
  | .object entries => do
    let content ← wireMember entries "content"
    return ⟨← content.bind Json.asStr⟩
  | .array [content] => content.asStr.map fun s => ⟨s⟩
  | _ => none

/-- An optional member: absent and null are both `none`. -/
def chunkMessage : Option Json → Option (Option OllamaChunkMessage)
  | none | some .null => some none
  | some value => (OllamaChunkMessage.ofJson value).map some

def chunkDone : Option Json → Option Bool
  | some (.bool b) => some b
  | _ => none

/-- A `u32` with `#[serde(default)]`: a number out of its range is an error. -/
def chunkCount : Option Json → Option UInt32
  | none => some 0
  | some (.number (.posInt n)) => if n.toNat < 2 ^ 32 then some n.toUInt32 else none
  | some _ => none

def OllamaChunk.ofMembers (message done promptEvalCount evalCount : Option Json) :
    Option OllamaChunk := do
  return ⟨← chunkMessage message, ← chunkDone done, ← chunkCount promptEvalCount,
    ← chunkCount evalCount⟩

/-- The derived decoder takes an object, or the members in order in an array. -/
def OllamaChunk.ofJson : Json → Option OllamaChunk
  | .object entries => do
    let message ← wireMember entries "message"
    let done ← wireMember entries "done"
    let promptEvalCount ← wireMember entries "prompt_eval_count"
    let evalCount ← wireMember entries "eval_count"
    OllamaChunk.ofMembers message done promptEvalCount evalCount
  | .array [message, done] => ofMembers (some message) (some done) none none
  | .array [message, done, p] => ofMembers (some message) (some done) (some p) none
  | .array [message, done, p, e] => ofMembers (some message) (some done) (some p) (some e)
  | _ => none

/-! ## Events -/

structure Delta where
  role : Option String
  content : Option String
  deriving DecidableEq, Repr

structure ChunkChoice where
  index : UInt32
  delta : Delta
  finishReason : Option String
  deriving DecidableEq, Repr

structure ChatCompletionChunk where
  id : String
  object : String
  created : Int
  model : String
  choices : List ChunkChoice
  deriving DecidableEq, Repr

/-- The data of an event: a chunk in JSON, or the text `[DONE]`. -/
inductive SseData
  | chunk (c : ChatCompletionChunk)
  | done
  deriving DecidableEq, Repr

/-- What `record_usage` is called with; the model's name is the request's. -/
structure UsageRow where
  keyId : String
  model : String
  tokensIn : Int32
  tokensOut : Int32
  deriving DecidableEq, Repr

/-- What a streaming request brings along: the fields of its chunks, the key, and
whether there is a database. `parse` is the JSON reader. -/
structure Session where
  unicode : Unicode
  parse : List Char → Option Json
  completionId : String
  created : Int
  model : String
  keyId : String
  db : Bool

/-- Events in the order in which they are sent, and, once the stream is closed,
the usage that was recorded. -/
structure Emitted where
  events : List SseData
  closed : Option (Option UsageRow)
  deriving DecidableEq, Repr

namespace Emitted

def nothing : Emitted := ⟨[], none⟩

/-- What follows is only sent while the stream is open. -/
def andThen (e next : Emitted) : Emitted :=
  match e.closed with
  | some _ => e
  | none => ⟨e.events ++ next.events, next.closed⟩

@[simp] theorem nothing_andThen (e : Emitted) : nothing.andThen e = e := rfl

@[simp] theorem andThen_nothing (e : Emitted) : e.andThen nothing = e := by
  obtain ⟨events, closed⟩ := e
  cases closed <;> simp [andThen, nothing]

theorem andThen_assoc (e₁ e₂ e₃ : Emitted) :
    (e₁.andThen e₂).andThen e₃ = e₁.andThen (e₂.andThen e₃) := by
  obtain ⟨events₁, closed₁⟩ := e₁
  obtain ⟨events₂, closed₂⟩ := e₂
  cases closed₁ <;> cases closed₂ <;> simp [andThen]

end Emitted

section

variable (s : Session)

def chunkEvent (delta : Delta) (finishReason : Option String) : SseData :=
  .chunk
    { id := s.completionId
      object := "chat.completion.chunk"
      created := s.created
      model := s.model
      choices := [⟨0, delta, finishReason⟩] }

def roleEvent : SseData := chunkEvent s ⟨some "assistant", none⟩ none

def contentEvent (text : String) : SseData := chunkEvent s ⟨none, some text⟩ none

def stopEvent : SseData := chunkEvent s ⟨none, none⟩ (some "stop")

/-- The counts are `u32`; the columns are `INTEGER`. -/
def usageRow (chunk : OllamaChunk) : UsageRow :=
  ⟨s.keyId, s.model, chunk.promptEvalCount.toInt32, chunk.evalCount.toInt32⟩

/-! ## The loop -/

/-- One decoded chunk: the end of the answer, a piece of it, or nothing. -/
def chunkOutcome (chunk : OllamaChunk) : Emitted :=
  if chunk.done then
    ⟨[stopEvent s, .done], some (if s.db then some (usageRow s chunk) else none)⟩
  else match chunk.message with
    | some msg =>
      -- the filter sees one piece at a time
      let filtered := filterPii s.unicode msg.content
      if filtered = "" then .nothing else ⟨[contentEvent s filtered], none⟩
    | none => .nothing

/-- One line: blank ones and those that do not decode are skipped. -/
def lineOutcome (line : List Char) : Emitted :=
  let line := trim s.unicode.isSpace line
  if line = [] then .nothing
  else match (s.parse line).bind OllamaChunk.ofJson with
    | some chunk => chunkOutcome s chunk
    | none => .nothing

def streamLines : List (List Char) → Emitted
  | [] => .nothing
  | line :: lines => (lineOutcome s line).andThen (streamLines lines)

/-- The loop over what the network hands over, with the text left in the
buffer. A read error ends it like the end of the answer. -/
def readLoop : List Char → List (Except String (List UInt8)) → Emitted
  | _, [] | _, .error _ :: _ => ⟨[.done], some none⟩
  | buf, .ok chunk :: items =>
    -- the chunk is decoded by itself; what is kept for later is text, not bytes
    let split := splitLines (buf ++ Utf8.decode chunk)
    (streamLines s split.1).andThen (readLoop split.2 items)

/-- How the request to Ollama went. -/
inductive Upstream
  | unreachable
  | status (status : String)
  | body (items : List (Except String (List UInt8)))

/-- `error_json`: status code and body. -/
def errorJson (status : Nat) (message : String) : Nat × Json :=
  (status, .ofEntries [("error", .ofEntries
    [("message", .string message), ("type", .string "server_error")])])

def streamResponse : Upstream → Except (Nat × Json) Emitted
  | .unreachable => .error (errorJson 502 "inference backend unavailable")
  | .status status => .error (errorJson 502 s!"backend returned {status}")
  | .body items => .ok (Emitted.andThen ⟨[roleEvent s], none⟩ (readLoop s [] items))

theorem streamLines_append (lines more : List (List Char)) :
    streamLines s (lines ++ more) = (streamLines s lines).andThen (streamLines s more) := by
  induction lines with
  | nil => rfl
  | cons line lines ih =>
      rw [List.cons_append, streamLines, ih, streamLines, Emitted.andThen_assoc]

/-- The events of an answer that was read to its end, from its decoded text. -/
def streamText (text : List Char) : Emitted :=
  (streamLines s (splitLines text).1).andThen ⟨[.done], some none⟩

/-- **The loop over chunks**: only the lines of the decoded chunks matter. -/
theorem readLoop_eq (chunks : List (List UInt8)) {buf : List Char} (hbuf : '\n' ∉ buf) :
    readLoop s buf (chunks.map .ok) = streamText s (buf ++ chunks.flatMap Utf8.decode) := by
  induction chunks generalizing buf with
  | nil =>
      rw [List.flatMap_nil, List.append_nil, streamText, splitLines_of_notMem hbuf]
      rfl
  | cons chunk chunks ih =>
      rw [List.map_cons, readLoop, ih (remainder_notMem _), streamText, streamText,
        List.flatMap_cons, ← List.append_assoc, splitLines_append (buf ++ Utf8.decode chunk),
        streamLines_append,
        Emitted.andThen_assoc]

end

/-! ## A concrete reader

Lines with nothing but a piece of the answer, or the end of it, and the reader of
these lines: enough to run the loop on concrete answers. -/

def plainHead : List Char := "\x7b\"message\":\x7b\"content\":\"".toList

def plainTail : List Char := "\x7d,\"done\":false\x7d".toList

def plainLine (piece : String) : List Char :=
  plainHead ++ (JsonText.writeString piece.toList ++ plainTail)

def plainDone : List Char := "\x7b\"done\":true\x7d".toList

def readPlain (line : List Char) : Option Json :=
  if plainHead.isPrefixOf line then
    match JsonText.readString .plain (line.drop plainHead.length) with
    | some (text, rest) =>
      if rest = plainTail then
        some (.object [("message", .object [("content", .string (String.ofList text))]),
          ("done", .bool false)])
      else none
    | none => none
  else if line = plainDone then some (.object [("done", .bool true)])
  else none

def plainSession : Session where
  unicode := .ascii
  parse := readPlain
  completionId := "chatcmpl-1"
  created := 0
  model := "llama3.2:3b"
  keyId := "key-1"
  db := true

theorem readPlain_plainLine (piece : String) : readPlain (plainLine piece) =
    some (.object [("message", .object [("content", .string piece)]), ("done", .bool false)]) := by
  rw [readPlain, plainLine, if_pos (List.isPrefixOf_iff_prefix.mpr (List.prefix_append _ _)),
    List.drop_left, JsonText.readString_writeString]
  dsimp only
  rw [if_pos rfl, String.ofList_toList]

end InferPlatform.Gateway

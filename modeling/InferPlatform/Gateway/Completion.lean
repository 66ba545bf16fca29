import InferPlatform.Base.Checked
import InferPlatform.Gateway.Sanitize
import InferPlatform.Wire.Chat

/-!
# The non-streaming answer

`build_openai_response` reads text and token counts out of Ollama's answer and
wraps them in OpenAI's format.
-/

namespace InferPlatform.Gateway

open Checked Wire

structure CompletionChoice where
  index : UInt32
  message : ChatMessage
  finishReason : String
  deriving DecidableEq, Repr

structure Usage where
  promptTokens : UInt32
  completionTokens : UInt32
  totalTokens : UInt32
  deriving DecidableEq, Repr

structure ChatCompletionResponse where
  id : String
  object : String
  created : Int
  model : String
  choices : List CompletionChoice
  usage : Usage
  deriving DecidableEq, Repr

/-- The text at `/message/content`, if it is a string. -/
def messageContent (ollamaBody : Json) : Option String :=
  (ollamaBody.pointer ["message", "content"]).bind Json.asStr

/-- The number at a top-level member, cut to 32 bits; 0 if there is none. -/
def tokenCount (ollamaBody : Json) (name : String) : UInt32 :=
  truncate32 (((ollamaBody.pointer [name]).bind Json.asU64).getD 0)

/-- `created` is the clock reading. -/
def buildOpenaiResponse (u : Unicode) (p : Profile) (created : Int) (ollamaBody : Json)
    (model requestId : String) : Except Panic ChatCompletionResponse := do
  let content := filterPii u ((messageContent ollamaBody).getD "")
  let promptTokens := tokenCount ollamaBody "prompt_eval_count"
  let completionTokens := tokenCount ollamaBody "eval_count"
  let totalTokens ← p.add32 promptTokens completionTokens
  return {
    id := s!"chatcmpl-{requestId}"
    object := "chat.completion"
    created
    model
    choices := [⟨0, ⟨"assistant", content⟩, "stop"⟩]
    usage := ⟨promptTokens, completionTokens, totalTokens⟩ }

/-- The texts of an answer's choices. -/
def ChatCompletionResponse.contents (r : ChatCompletionResponse) : List String :=
  r.choices.map (·.message.content)

/-- An answer has one choice, with the redacted text. -/
theorem buildOpenaiResponse_contents {u : Unicode} {p : Profile} {created : Int}
    {ollamaBody : Json} {model requestId : String} {r : ChatCompletionResponse}
    (h : buildOpenaiResponse u p created ollamaBody model requestId = .ok r) :
    r.contents = [filterPii u ((messageContent ollamaBody).getD "")] := by
  unfold buildOpenaiResponse at h
  dsimp only at h
  cases htotal : p.add32 (tokenCount ollamaBody "prompt_eval_count")
      (tokenCount ollamaBody "eval_count") with
  | error e =>
      rw [htotal] at h
      cases h
  | ok total =>
      rw [htotal] at h
      cases h
      rfl

end InferPlatform.Gateway

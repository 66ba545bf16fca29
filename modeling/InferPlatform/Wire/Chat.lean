import InferPlatform.Base.Json

/-!
# Chat requests on the wire

The message and request records that gateway and agents exchange, and the
request that both send to an Ollama server. The two crates declare the same
fields and build the same Ollama body, so both use these definitions.
-/

namespace InferPlatform.Wire

structure ChatMessage where
  role : String
  content : String
  deriving DecidableEq, Repr

structure ChatCompletionRequest where
  model : String
  messages : List ChatMessage
  stream : Bool
  maxTokens : Option UInt32
  temperature : Option Float32
  topP : Option Float32

def ChatMessage.toJson (m : ChatMessage) : Json :=
  .ofEntries [("role", .string m.role), ("content", .string m.content)]

/-- `json!` of an `f32`: a float number, or null when it is not finite. -/
def jsonF32 (f : Float32) : Json :=
  if f.isFinite then .number (.float f.toFloat) else .null

def jsonU32 (n : UInt32) : Json := .number (.posInt n.toUInt64)

/-- The sampling options that are set, under Ollama's names for them. -/
def ollamaOptions (temperature topP : Option Float32) (maxTokens : Option UInt32) :
    List (String × Json) :=
  (temperature.map fun t => ("temperature", jsonF32 t)).toList ++
    (topP.map fun p => ("top_p", jsonF32 p)).toList ++
    (maxTokens.map fun m => ("num_predict", jsonU32 m)).toList

/-- The body posted to `/api/chat`; `options` is left out when none is set. -/
def ollamaRequest (model : String) (messages : List ChatMessage)
    (options : List (String × Json)) : Json :=
  .ofEntries ([("model", .string model), ("messages", .array (messages.map ChatMessage.toJson)),
    ("stream", .bool false)] ++
    if options.isEmpty then [] else [("options", .ofEntries options)])

end InferPlatform.Wire

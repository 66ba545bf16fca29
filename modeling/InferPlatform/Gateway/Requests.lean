import InferPlatform.Wire.Chat
import Mathlib.Data.List.Infix

/-!
# Incoming chat requests

`sanitize_request` checks a chat request and strips control characters from its
messages, before anything else looks at it.
-/

namespace InferPlatform.Gateway

open Wire

inductive SanitizeError
  | invalidModel
  | emptyMessages
  | tooManyMessages
  | invalidRole (role : String)
  | contentTooLong
  deriving DecidableEq, Repr

def SanitizeError.text : SanitizeError → String
  | invalidModel => "model name is invalid"
  | emptyMessages => "messages must not be empty"
  | tooManyMessages => "too many messages (max 100)"
  | invalidRole role =>
    "invalid role '" ++ role ++ "' — must be one of: system, user, assistant, tool, function"
  | contentTooLong => "message content exceeds 32768 character limit"

def allowedRoles : List String := ["system", "user", "assistant", "tool", "function"]

/-- Unicode's control characters. -/
def isControl (c : Char) : Bool := c.toNat < 0x20 ∨ (0x7F ≤ c.toNat ∧ c.toNat < 0xA0)

/-- What is kept of a message: everything but control characters, and of these the
tab, the line feed and the carriage return. -/
def isKept (c : Char) : Bool := c = '\t' ∨ c = '\n' ∨ c = '\r' ∨ ¬ isControl c

/-- Lengths are in bytes. -/
def invalidModel (model : String) : Bool :=
  model = "" ∨ 256 < model.utf8ByteSize ∨ '\x00' ∈ model.toList ∨
    "..".toList <:+: model.toList ∨ '/' ∈ model.toList ∨ '\\' ∈ model.toList

def sanitizeMessage (msg : ChatMessage) : Except SanitizeError ChatMessage :=
  if msg.role ∉ allowedRoles then .error (.invalidRole msg.role)
  else
    let content := String.ofList (msg.content.toList.filter isKept)
    if 32768 < content.utf8ByteSize then .error .contentTooLong
    else .ok { msg with content }

/-- `sanitize_request`; the loop stops at the first message that does not pass. -/
def sanitizeRequest (req : ChatCompletionRequest) :
    Except SanitizeError ChatCompletionRequest :=
  if invalidModel req.model then .error .invalidModel
  else if req.messages.isEmpty then .error .emptyMessages
  else if 100 < req.messages.length then .error .tooManyMessages
  else do
    let messages ← req.messages.mapM sanitizeMessage
    return { req with messages }

/-- What was sanitised differs in its messages only. -/
theorem sanitizeRequest_ok {req req' : ChatCompletionRequest} (h : sanitizeRequest req = .ok req') :
    req' = { req with messages := req'.messages } := by
  unfold sanitizeRequest at h
  split at h
  · cases h
  · split at h
    · cases h
    · split at h
      · cases h
      · cases hmessages : req.messages.mapM sanitizeMessage with
        | error e =>
            rw [hmessages] at h
            cases h
        | ok messages =>
            rw [hmessages] at h
            cases h
            rfl

end InferPlatform.Gateway

import InferPlatform.Gateway.Requests
import Mathlib.Data.List.Forall2
import Mathlib.Data.String.Basic

/-!
# Sanitised requests

What `sanitize_request` accepts, it cleans; it accepts the clean request again. Its limit
on the content of a message is called a number of characters, but compared with a number
of bytes.

* `sanitizeRequest_eq_ok_iff` — which requests pass, and what becomes of them;
* `sanitizeRequest_clean` — **a request that passes is stripped and otherwise unchanged,
  and passes again without a change**;
* `limitsCharacters_iff` — **the limit is one of characters for requests with a content
  of too many characters, and for those of which every content has few enough bytes**;
* `not_limitsCharacters_accents` — half as many accented letters are too many.
-/

namespace InferPlatform.Gateway

open Wire

/-- A text without the characters that are not kept. -/
def strip (text : String) : String := String.ofList (text.toList.filter isKept)

def stripMessage (msg : ChatMessage) : ChatMessage := { msg with content := strip msg.content }

/-- The role is allowed, and what is left of the content is not too long. -/
def PassesLimit (msg : ChatMessage) : Prop :=
  msg.role ∈ allowedRoles ∧ (strip msg.content).utf8ByteSize ≤ 32768

instance (msg : ChatMessage) : Decidable (PassesLimit msg) := inferInstanceAs (Decidable (_ ∧ _))

/-- The checks before the loop. -/
def WellFormed (req : ChatCompletionRequest) : Prop :=
  invalidModel req.model = false ∧ req.messages ≠ [] ∧ req.messages.length ≤ 100

instance (req : ChatCompletionRequest) : Decidable (WellFormed req) :=
  inferInstanceAs (Decidable (_ ∧ _))

@[simp] theorem toList_strip (text : String) :
    (strip text).toList = text.toList.filter isKept := by
  rw [strip, String.toList_ofList]

@[simp] theorem strip_strip (text : String) : strip (strip text) = strip text := by
  rw [strip, toList_strip, List.filter_filter]
  simp [strip]

@[simp] theorem stripMessage_stripMessage (msg : ChatMessage) :
    stripMessage (stripMessage msg) = stripMessage msg := by
  simp [stripMessage]

theorem passes_stripMessage {msg : ChatMessage} :
    PassesLimit (stripMessage msg) ↔ PassesLimit msg := by
  simp [PassesLimit, stripMessage]

/-! ## One message, all messages -/

theorem sanitizeMessage_eq (msg : ChatMessage) :
    sanitizeMessage msg =
      if PassesLimit msg then .ok (stripMessage msg)
      else if msg.role ∉ allowedRoles then .error (.invalidRole msg.role)
      else .error .contentTooLong := by
  unfold sanitizeMessage PassesLimit
  by_cases hrole : msg.role ∈ allowedRoles
  · by_cases hlong : 32768 < (strip msg.content).utf8ByteSize
    · have hnot : ¬ (strip msg.content).utf8ByteSize ≤ 32768 := by omega
      simp only [hrole, hnot, not_true_eq_false, if_false, and_false]
      exact if_pos hlong
    · have hle : (strip msg.content).utf8ByteSize ≤ 32768 := by omega
      simp only [hrole, hle, not_true_eq_false, if_false, and_true, if_true]
      exact if_neg hlong
  · simp [hrole]

/-- The loop returns the stripped messages if all of them pass, and else the error of the
first one that does not. -/
theorem mapM_sanitizeMessage (messages : List ChatMessage) :
    (messages.mapM sanitizeMessage = .ok (messages.map stripMessage) ∧
      ∀ msg ∈ messages, PassesLimit msg) ∨
    ∃ msg ∈ messages, ¬ PassesLimit msg ∧
      ∃ e, sanitizeMessage msg = .error e ∧ messages.mapM sanitizeMessage = .error e := by
  induction messages with
  | nil => exact .inl ⟨rfl, by simp⟩
  | cons msg messages ih =>
      rw [List.mapM_cons]
      by_cases hpasses : PassesLimit msg
      · have hfirst : sanitizeMessage msg = .ok (stripMessage msg) := by
          rw [sanitizeMessage_eq, if_pos hpasses]
        rw [hfirst]
        rcases ih with ⟨hrest, hall⟩ | ⟨bad, hbad, hnot, e, herror, hrest⟩
        · left
          rw [hrest]
          exact ⟨rfl, List.forall_mem_cons.mpr ⟨hpasses, hall⟩⟩
        · right
          rw [hrest]
          exact ⟨bad, List.mem_cons_of_mem _ hbad, hnot, e, herror, rfl⟩
      · right
        obtain ⟨e, herror⟩ : ∃ e, sanitizeMessage msg = .error e := by
          rw [sanitizeMessage_eq, if_neg hpasses]
          split
          · exact ⟨_, rfl⟩
          · exact ⟨_, rfl⟩
        exact ⟨msg, List.mem_cons_self, hpasses, e, herror, by rw [herror]; rfl⟩

theorem sanitizeRequest_of_wellFormed {req : ChatCompletionRequest} (h : WellFormed req) :
    sanitizeRequest req =
      (req.messages.mapM sanitizeMessage).map fun messages => { req with messages } := by
  obtain ⟨hmodel, hsome, hmany⟩ := h
  have hempty : req.messages.isEmpty = false := by simpa using hsome
  have hcount : ¬ 100 < req.messages.length := by omega
  rw [sanitizeRequest, hmodel, hempty, if_neg Bool.false_ne_true, if_neg Bool.false_ne_true,
    if_neg hcount]
  cases req.messages.mapM sanitizeMessage <;> rfl

theorem sanitizeRequest_of_not_wellFormed {req : ChatCompletionRequest} (h : ¬ WellFormed req) :
    ∃ e, sanitizeRequest req = .error e := by
  unfold sanitizeRequest
  split
  · exact ⟨_, rfl⟩
  · rename_i hmodel
    split
    · exact ⟨_, rfl⟩
    · rename_i hempty
      split
      · exact ⟨_, rfl⟩
      · rename_i hcount
        refine absurd ⟨by simpa using hmodel, ?_, by omega⟩ h
        intro hnil
        rw [hnil] at hempty
        exact hempty rfl

/-- Which requests pass, and what becomes of them. -/
theorem sanitizeRequest_eq_ok_iff {req req' : ChatCompletionRequest} :
    sanitizeRequest req = .ok req' ↔ WellFormed req ∧ (∀ msg ∈ req.messages, PassesLimit msg) ∧
      req' = { req with messages := req.messages.map stripMessage } := by
  by_cases hreq : WellFormed req
  · rw [sanitizeRequest_of_wellFormed hreq]
    rcases mapM_sanitizeMessage req.messages with ⟨hloop, hall⟩ | ⟨msg, hmsg, hnot, e, -, hloop⟩
    · rw [hloop]
      constructor
      · rintro ⟨⟩
        exact ⟨hreq, hall, rfl⟩
      · rintro ⟨-, -, rfl⟩
        rfl
    · rw [hloop]
      constructor
      · rintro ⟨⟩
      · rintro ⟨-, hall, -⟩
        exact absurd (hall msg hmsg) hnot
  · obtain ⟨e, he⟩ := sanitizeRequest_of_not_wellFormed hreq
    rw [he]
    constructor
    · rintro ⟨⟩
    · rintro ⟨hwell, -, -⟩
      exact absurd hwell hreq

/-! ## Clean and stable -/

/-- What a request that passes becomes: only the contents change, they lose the control
characters other than tab, line feed and carriage return, everything is within the limits,
and nothing is left to do. -/
structure Sanitised (req req' : ChatCompletionRequest) : Prop where
  frame : req' = { req with messages := req'.messages }
  messages : List.Forall₂ (fun msg msg' : ChatMessage => msg'.role = msg.role ∧
    msg'.content.toList =
      msg.content.toList.filter fun c => c = '\t' ∨ c = '\n' ∨ c = '\r' ∨ ¬ isControl c)
    req.messages req'.messages
  limits : ∀ msg ∈ req'.messages, msg.role ∈ allowedRoles ∧ msg.content.utf8ByteSize ≤ 32768
  stable : sanitizeRequest req' = .ok req'

/-- **A request that passes is clean and stable.** -/
theorem sanitizeRequest_clean {req req' : ChatCompletionRequest}
    (h : sanitizeRequest req = .ok req') : Sanitised req req' := by
  obtain ⟨⟨hmodel, hsome, hcount⟩, hall, rfl⟩ := sanitizeRequest_eq_ok_iff.mp h
  refine ⟨rfl, ?_, ?_, ?_⟩
  · rw [List.forall₂_map_right_iff, List.forall₂_same]
    intro msg _
    exact ⟨rfl, toList_strip _⟩
  · intro msg hmsg
    obtain ⟨old, hold, rfl⟩ := List.mem_map.mp hmsg
    exact hall old hold
  · rw [sanitizeRequest_eq_ok_iff]
    refine ⟨⟨hmodel, by simpa using hsome, by simpa using hcount⟩, ?_, ?_⟩
    · intro msg hmsg
      obtain ⟨old, hold, rfl⟩ := List.mem_map.mp hmsg
      exact passes_stripMessage.mpr (hall old hold)
    · have hagain : stripMessage ∘ stripMessage = stripMessage := funext stripMessage_stripMessage
      simp only [List.map_map, hagain]

/-- A request with one message. -/
def userRequest (content : String) : ChatCompletionRequest :=
  { model := "llama3.2:3b"
    messages := [⟨"user", content⟩]
    stream := false
    maxTokens := none
    temperature := none
    topP := none }

/-- A null byte is taken out. -/
theorem sanitizeRequest_clean_null :
    Sanitised (userRequest "Hi\x00 there\n") (userRequest "Hi there\n") :=
  sanitizeRequest_clean rfl

/-! ## The limit -/

/-- The request passes just when every content has at most 32768 characters left, and is
else too long. -/
def LimitsCharacters (req : ChatCompletionRequest) : Prop :=
  ((∃ req', sanitizeRequest req = .ok req') ↔
    ∀ msg ∈ req.messages, (strip msg.content).length ≤ 32768) ∧
  ((¬ ∀ msg ∈ req.messages, (strip msg.content).length ≤ 32768) →
    sanitizeRequest req = .error .contentTooLong)

theorem length_le_utf8ByteSize (text : String) : text.length ≤ text.utf8ByteSize := by
  have hlist : ∀ l : List Char, l.length ≤ String.utf8Len l := by
    intro l
    induction l with
    | nil => exact Nat.zero_le _
    | cons c l ih =>
        rw [String.utf8Len_cons, List.length_cons]
        have hpos := c.utf8Size_pos
        omega
  rw [← String.length_toList, ← String.utf8Len_toList]
  exact hlist text.toList

/-- With allowed roles a request passes, or is too long. -/
theorem sanitizeRequest_of_roles {req : ChatCompletionRequest} (hreq : WellFormed req)
    (hroles : ∀ msg ∈ req.messages, msg.role ∈ allowedRoles) :
    ((∃ req', sanitizeRequest req = .ok req') ∧
      ∀ msg ∈ req.messages, (strip msg.content).utf8ByteSize ≤ 32768) ∨
    (sanitizeRequest req = .error .contentTooLong ∧
      ∃ msg ∈ req.messages, 32768 < (strip msg.content).utf8ByteSize) := by
  rw [sanitizeRequest_of_wellFormed hreq]
  rcases mapM_sanitizeMessage req.messages with ⟨hloop, hall⟩ | ⟨msg, hmsg, hnot, e, he, hloop⟩
  · left
    rw [hloop]
    exact ⟨⟨_, rfl⟩, fun msg hmsg => (hall msg hmsg).2⟩
  · right
    have hrole := hroles msg hmsg
    have hlong : 32768 < (strip msg.content).utf8ByteSize := by
      by_contra hshort
      exact hnot ⟨hrole, by omega⟩
    rw [sanitizeMessage_eq, if_neg hnot, if_neg (by simpa using hrole)] at he
    cases he
    rw [hloop]
    exact ⟨rfl, msg, hmsg, hlong⟩

/-- **The limit counts characters** where some content has too many of them, or every
content has few enough bytes. -/
theorem limitsCharacters_iff {req : ChatCompletionRequest} (hreq : WellFormed req)
    (hroles : ∀ msg ∈ req.messages, msg.role ∈ allowedRoles) :
    LimitsCharacters req ↔
      (∃ msg ∈ req.messages, 32768 < (strip msg.content).length) ∨
        ∀ msg ∈ req.messages, (strip msg.content).utf8ByteSize ≤ 32768 := by
  have hlength := fun msg : ChatMessage => length_le_utf8ByteSize (strip msg.content)
  unfold LimitsCharacters
  rcases sanitizeRequest_of_roles hreq hroles with ⟨hok, hbytes⟩ | ⟨herror, msg, hmsg, hlong⟩
  · have hall : ∀ msg ∈ req.messages, (strip msg.content).length ≤ 32768 := fun msg hmsg =>
      (hlength msg).trans (hbytes msg hmsg)
    exact iff_of_true ⟨iff_of_true hok hall, fun hnot => absurd hall hnot⟩ (.inr hbytes)
  · have hnone : ¬ ∃ req', sanitizeRequest req = .ok req' := by
      rintro ⟨req', hok⟩
      rw [herror] at hok
      cases hok
    constructor
    · rintro ⟨hiff, -⟩
      left
      by_contra hshort
      apply hnone
      apply hiff.mpr
      intro other hother
      by_contra hmany
      exact hshort ⟨other, hother, by omega⟩
    · rintro (⟨other, hother, hmany⟩ | hbytes)
      · have hnot : ¬ ∀ msg ∈ req.messages, (strip msg.content).length ≤ 32768 := fun hall => by
          have := hall other hother
          omega
        exact ⟨iff_of_false hnone hnot, fun _ => herror⟩
      · have := hbytes msg hmsg
        omega

theorem limitsCharacters_iff_greeting : LimitsCharacters (userRequest "Grüezi") :=
  (limitsCharacters_iff (by decide) (by decide)).mpr (.inr (by decide))

/-- So many times an accented letter of two bytes. -/
def accents (n : Nat) : String := String.ofList (List.replicate n 'é')

theorem strip_accents (n : Nat) : strip (accents n) = accents n := by
  have hkept : isKept 'é' = true := by decide
  rw [strip, accents, String.toList_ofList, List.filter_replicate, if_pos hkept]

theorem utf8ByteSize_accents (n : Nat) : (accents n).utf8ByteSize = 2 * n := by
  have hsize : 'é'.utf8Size = 2 := by decide
  rw [accents, String.utf8ByteSize_ofList]
  induction n with
  | zero => rfl
  | succ n ih =>
      rw [List.replicate_succ, String.utf8Len_cons, ih, hsize]
      omega

/-- 16385 accented letters are too long. -/
theorem not_limitsCharacters_accents : ¬ LimitsCharacters (userRequest (accents 16385)) := by
  rintro ⟨hiff, -⟩
  have hshort : ∀ msg ∈ (userRequest (accents 16385)).messages,
      (strip msg.content).length ≤ 32768 := by
    intro msg hmsg
    obtain rfl := List.mem_singleton.mp hmsg
    rw [strip_accents, accents, String.length_ofList, List.length_replicate]
    omega
  obtain ⟨req', hok⟩ := hiff.mpr hshort
  have hpasses := (sanitizeRequest_eq_ok_iff.mp hok).2.1 _ (List.mem_singleton_self _)
  have hbytes := hpasses.2
  rw [strip_accents, utf8ByteSize_accents] at hbytes
  omega

end InferPlatform.Gateway

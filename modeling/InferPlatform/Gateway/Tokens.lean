import InferPlatform.Gateway.Failover
import InferPlatform.Gateway.Redaction

/-!
# Token counts on the two paths

A backend reports how many tokens it has read and written. The streaming path decodes the
counts as `u32`, and drops a line of which one is larger; the other path reads them as `u64`
and cuts them to 32 bits. Both then cast to the `INTEGER` of the usage row.

* `CountsReply` — a reply with the two counts;
* `tokensFaithful_iff` — **both paths record one row with what the backend reported**, or
  less, and the total is exact, just when both counts are less than 2^31;
* `not_tokensFaithful_large` — larger counts.
-/

namespace InferPlatform.Gateway

open Lines Checked

/-! ## Replies with counts -/

/-- A count as the JSON reader keeps it: a `u64`, or what `wide` makes of a larger one, a
float or an error. -/
def countNumber (wide : Nat → Option Float) (n : Nat) : Option JsonNumber :=
  if n < 2 ^ 64 then some (.posInt (UInt64.ofNat n)) else (wide n).map .float

/-- The members that the two paths read of a final reply. -/
structure FinalMembers (entries : List (String × Json)) (promptEvalCount evalCount : JsonNumber) :
    Prop where
  message : ∃ member message, wireMember entries "message" = some member ∧
    chunkMessage member = some message
  done : wireMember entries "done" = some (some (.bool true))
  promptEvalCount : wireMember entries "prompt_eval_count" = some (some (.number promptEvalCount))
  evalCount : wireMember entries "eval_count" = some (some (.number evalCount))

/-- A reply in one line that is well formed and reports the counts. A count that the reader
does not take makes the reply unreadable. -/
structure CountsReply (s : Session) (wide : Nat → Option Float) (n m : Nat) (text : List Char) :
    Prop where
  oneLine : '\n' ∉ text
  nonblank : text ≠ []
  trimmed : trim s.unicode.isSpace text = text
  parsed : ∀ p ∈ countNumber wide n, ∀ e ∈ countNumber wide m,
    ∃ entries, s.parse text = some (.object entries) ∧ FinalMembers entries p e
  unreadable : countNumber wide n = none ∨ countNumber wide m = none → s.parse text = none

/-- What a node's answer is for the paths that read it as a whole. -/
def NodeAnswer.ofText (parse : List Char → Option Json) (text : List Char) : NodeAnswer :=
  match parse text with
  | some body => .ok body.inMemory
  | none => .malformed

/-- The row and the answer account for the counts. -/
structure CountsShown (n m : Nat) (row : UsageRow) (r : ChatCompletionResponse) : Prop where
  tokensIn : 0 ≤ row.tokensIn.toInt ∧ row.tokensIn.toInt ≤ n
  tokensOut : 0 ≤ row.tokensOut.toInt ∧ row.tokensOut.toInt ≤ m
  totalTokens : r.usage.totalTokens.toNat =
    r.usage.promptTokens.toNat + r.usage.completionTokens.toNat

/-- The streamed chunks and the reply, read as a whole, leave one and the same row, which
accounts for the counts; so does the answer. -/
def TokensFaithful {Ms : Type} (s : Session) (p : Profile) (state : AppState Ms) (o : Outside)
    (n m : Nat) (chunks : List (List UInt8)) (text : List Char) : Prop :=
  ∃ e row body r,
    streamResponse s (.body (chunks.map .ok)) = .ok e ∧ e.closed = some (some row) ∧
    NodeAnswer.ofText s.parse text = .ok body ∧
    (∀ rrCounter contacted,
      complete s.unicode p state o s.keyId rrCounter contacted body s.model =
        ⟨rrCounter, contacted, .ok (.completion r), [row]⟩) ∧
    CountsShown n m row r

/-! ## One count -/

theorem chunkCount_countNumber {wide : Nat → Option Float} {n : Nat} {number : JsonNumber}
    (h : countNumber wide n = some number) :
    chunkCount (some (.number number)) = if n < 2 ^ 32 then some (UInt32.ofNat n) else none := by
  unfold countNumber at h
  split at h
  · rename_i hn
    cases h
    have hmod : n % 2 ^ 64 = n := Nat.mod_eq_of_lt hn
    simp only [chunkCount, UInt64.toNat_ofNat', hmod, UInt64.toUInt32_ofNat']
  · -- the reader keeps a float, which is no count
    obtain ⟨f, -, rfl⟩ := Option.map_eq_some_iff.mp h
    rw [if_neg (by omega)]
    rfl

/-- What cannot be read is larger than a `u64`. -/
theorem not_lt_of_countNumber_eq_none {wide : Nat → Option Float} {n : Nat}
    (h : countNumber wide n = none) : ¬ n < 2 ^ 32 := by
  intro hn
  rw [countNumber, if_pos (by omega)] at h
  cases h

theorem tokenCount_inMemory {wide : Nat → Option Float} {n : Nat} (hn : n < 2 ^ 32)
    {entries : List (String × Json)} {name : String} {number : JsonNumber}
    (hnumber : countNumber wide n = some number)
    (h : wireMember entries name = some (some (.number number))) :
    tokenCount (Json.inMemory (.object entries)) name = UInt32.ofNat n := by
  obtain rfl : JsonNumber.posInt (UInt64.ofNat n) = number := by
    rw [countNumber, if_pos (by omega)] at hnumber
    exact Option.some.inj hnumber
  have hfilter : entries.filter (fun entry => entry.1 = name) =
      [(name, .number (.posInt (UInt64.ofNat n)))] := by
    unfold wireMember at h
    split at h
    · cases h
    · rename_i entry hentry
      have hname : entry ∈ entries.filter fun entry => entry.1 = name := by simp [hentry]
      have hkey : entry.1 = name := of_decide_eq_true (List.mem_filter.mp hname).2
      simp only [Option.some.injEq] at h
      rw [hentry, ← hkey, ← h]
    · cases h
  rw [tokenCount, Json.pointer, Json.get?_inMemory hfilter]
  simp [Json.inMemory, Json.pointer, Json.asU64, truncate32]

/-- What the cast to `i32` makes of a count. -/
theorem toInt_count {n : Nat} (h : n < 2 ^ 32) :
    (UInt32.ofNat n).toInt32.toInt = if n < 2 ^ 31 then (n : Int) else n - 2 ^ 32 := by
  have hbits : (UInt32.ofNat n).toInt32.toInt = (UInt32.ofNat n).toBitVec.toInt := rfl
  have hnat : (UInt32.ofNat n).toBitVec.toNat = n := by
    rw [UInt32.toNat_toBitVec, UInt32.toNat_ofNat_of_lt' h]
  rw [hbits, BitVec.toInt_eq_toNat_cond, hnat]
  by_cases hn : n < 2 ^ 31
  · rw [if_pos (by omega), if_pos hn]
  · rw [if_neg (by omega), if_neg hn]
    rfl

/-! ## The two paths -/

section

variable {s : Session} {wide : Nat → Option Float} {n m : Nat} {text : List Char}

/-- The last line of the reply decodes just when both counts are `u32`s. -/
theorem CountsReply.decoded (h : CountsReply s wide n m text) :
    (n < 2 ^ 32 ∧ m < 2 ^ 32 ∧ ∃ message, (s.parse text).bind OllamaChunk.ofJson =
      some ⟨message, true, UInt32.ofNat n, UInt32.ofNat m⟩) ∨
    (¬ (n < 2 ^ 32 ∧ m < 2 ^ 32) ∧ (s.parse text).bind OllamaChunk.ofJson = none) := by
  cases hp : countNumber wide n with
  | none =>
      right
      exact ⟨fun hlt => not_lt_of_countNumber_eq_none hp hlt.1,
        by rw [h.unreadable (.inl hp)]; rfl⟩
  | some p =>
      cases he : countNumber wide m with
      | none =>
          right
          exact ⟨fun hlt => not_lt_of_countNumber_eq_none he hlt.2,
            by rw [h.unreadable (.inr he)]; rfl⟩
      | some e =>
          obtain ⟨entries, hentries, hmembers⟩ := h.parsed p hp e he
          obtain ⟨member, message, hmember, hmessage⟩ := hmembers.message
          have hjson : OllamaChunk.ofJson (.object entries) =
              OllamaChunk.ofMembers member (some (.bool true)) (some (.number p))
                (some (.number e)) := by
            rw [OllamaChunk.ofJson, hmember, hmembers.done, hmembers.promptEvalCount,
              hmembers.evalCount]
            rfl
          rw [hentries, Option.bind_some, hjson, OllamaChunk.ofMembers, hmessage,
            chunkCount_countNumber hp, chunkCount_countNumber he]
          by_cases hn : n < 2 ^ 32
          · by_cases hm : m < 2 ^ 32
            · rw [if_pos hn, if_pos hm]
              exact .inl ⟨hn, hm, message, rfl⟩
            · rw [if_neg hm]
              refine .inr ⟨fun hlt => hm hlt.2, ?_⟩
              rw [if_pos hn]
              rfl
          · rw [if_neg hn]
            exact .inr ⟨fun hlt => hn hlt.1, rfl⟩

/-- The streaming path records what the last line says, and nothing if it does not decode. -/
theorem CountsReply.streamed (h : CountsReply s wide n m text) (hdb : s.db = true)
    {lines : List (List Char)} {pieces : List String}
    (hlines : List.Forall₂ (ContentLine s) lines pieces) {chunks : List (List UInt8)}
    (hchunks : chunks.flatMap Utf8.decode = joinLines (lines ++ [text])) :
    ∃ e, streamResponse s (.body (chunks.map .ok)) = .ok e ∧ e.closed =
      if n < 2 ^ 32 ∧ m < 2 ^ 32 then
        some (some ⟨s.keyId, s.model, (UInt32.ofNat n).toInt32, (UInt32.ofNat m).toInt32⟩)
      else some none := by
  have hall : ∀ line ∈ lines ++ [text], '\n' ∉ line := by
    intro line hline
    rcases List.mem_append.mp hline with hline | hlast
    · exact oneLine_of_content hlines line hline
    · rw [List.mem_singleton.mp hlast]
      exact h.oneLine
  obtain ⟨events, hevents, -⟩ := streamLines_content hlines
  have htext : streamText s ([] ++ chunks.flatMap Utf8.decode) =
      (Emitted.andThen ⟨events, none⟩ (lineOutcome s text)).andThen ⟨[.done], some none⟩ := by
    rw [List.nil_append, hchunks, streamText, splitLines_joinLines_fst hall, streamLines_append,
      hevents, streamLines, streamLines, Emitted.andThen_nothing]
  refine ⟨_, rfl, ?_⟩
  rw [readLoop_eq s chunks (List.not_mem_nil), htext]
  rcases h.decoded with ⟨hn, hm, message, hchunk⟩ | ⟨hlarge, hnone⟩
  · have hline : lineOutcome s text =
        chunkOutcome s ⟨message, true, UInt32.ofNat n, UInt32.ofNat m⟩ := by
      apply lineOutcome_eq
      · rw [h.trimmed]
        exact h.nonblank
      · rw [h.trimmed]
        exact hchunk
    rw [hline, if_pos ⟨hn, hm⟩, chunkOutcome, if_pos rfl, if_pos hdb]
    rfl
  · -- the line is dropped, and no row is written
    have hline : lineOutcome s text = .nothing := by
      rw [lineOutcome, h.trimmed, if_neg h.nonblank, hnone]
    rw [hline, if_neg hlarge]
    rfl

/-- The other path records the counts as long as they are `u32`s and their sum is one. -/
theorem CountsReply.completed {Ms : Type} (h : CountsReply s wide n m text) (p : Profile)
    {state : AppState Ms} (o : Outside) (hdb : state.db = true) (hsum : n + m < 2 ^ 32) :
    ∃ body r, NodeAnswer.ofText s.parse text = .ok body ∧
      (∀ rrCounter contacted,
        complete s.unicode p state o s.keyId rrCounter contacted body s.model =
          ⟨rrCounter, contacted, .ok (.completion r),
            [⟨s.keyId, s.model, (UInt32.ofNat n).toInt32, (UInt32.ofNat m).toInt32⟩]⟩) ∧
      r.usage.totalTokens.toNat = r.usage.promptTokens.toNat + r.usage.completionTokens.toNat := by
  have hn : n < 2 ^ 32 := by omega
  have hm : m < 2 ^ 32 := by omega
  obtain ⟨pn, hp⟩ : ∃ number, countNumber wide n = some number := ⟨_, if_pos (by omega)⟩
  obtain ⟨em, he⟩ : ∃ number, countNumber wide m = some number := ⟨_, if_pos (by omega)⟩
  obtain ⟨entries, hentries, hmembers⟩ := h.parsed pn hp em he
  have hprompt := tokenCount_inMemory hn hp hmembers.promptEvalCount
  have heval := tokenCount_inMemory hm he hmembers.evalCount
  have hnat : (UInt32.ofNat n).toNat + (UInt32.ofNat m).toNat < 2 ^ 32 := by
    rw [UInt32.toNat_ofNat_of_lt' hn, UInt32.toNat_ofNat_of_lt' hm]
    exact hsum
  obtain ⟨hadd, htotal⟩ := p.add32_of_lt hnat
  obtain ⟨r, hr, husage⟩ : ∃ r, buildOpenaiResponse s.unicode p o.created
      (Json.inMemory (.object entries)) s.model o.requestId = .ok r ∧
      r.usage = ⟨UInt32.ofNat n, UInt32.ofNat m, UInt32.ofNat n + UInt32.ofNat m⟩ := by
    simp only [buildOpenaiResponse, hprompt, heval, hadd]
    exact ⟨_, rfl, rfl⟩
  refine ⟨Json.inMemory (.object entries), r, ?_, ?_, ?_⟩
  · rw [NodeAnswer.ofText, hentries]
  · intro rrCounter contacted
    rw [complete, hr]
    dsimp only
    rw [husage, if_pos hdb]
  · rw [husage]
    exact htotal

/-- A count that is no `i32` makes a negative row, or none. -/
theorem TokensFaithful.counts_lt {Ms : Type} (h : CountsReply s wide n m text)
    (hdb : s.db = true) {lines : List (List Char)} {pieces : List String}
    (hlines : List.Forall₂ (ContentLine s) lines pieces) {chunks : List (List UInt8)}
    (hchunks : chunks.flatMap Utf8.decode = joinLines (lines ++ [text])) {p : Profile}
    {state : AppState Ms} {o : Outside} (hfaithful : TokensFaithful s p state o n m chunks text) :
    n < 2 ^ 31 ∧ m < 2 ^ 31 := by
  obtain ⟨streamed, hstreamed, hclosed⟩ := h.streamed hdb hlines hchunks
  obtain ⟨e, row, body, r, he, hrow, -, -, haccounted⟩ := hfaithful
  obtain rfl : streamed = e := Except.ok.inj (hstreamed.symm.trans he)
  rw [hclosed] at hrow
  split at hrow
  · -- a count from 2^31 on is negative in the row
    rename_i hlt
    obtain rfl := Option.some.inj (Option.some.inj hrow)
    have hin := haccounted.tokensIn.1
    have hout := haccounted.tokensOut.1
    rw [toInt_count hlt.1] at hin
    rw [toInt_count hlt.2] at hout
    split at hin <;> split at hout <;> omega
  · cases hrow

/-- **Both paths record one row with what the backend reported** just when both counts are
less than 2^31. -/
theorem tokensFaithful_iff {Ms : Type} (h : CountsReply s wide n m text) (hdb : s.db = true)
    {lines : List (List Char)} {pieces : List String}
    (hlines : List.Forall₂ (ContentLine s) lines pieces) {chunks : List (List UInt8)}
    (hchunks : chunks.flatMap Utf8.decode = joinLines (lines ++ [text])) (p : Profile)
    {state : AppState Ms} (hstate : state.db = true) (o : Outside) :
    TokensFaithful s p state o n m chunks text ↔ n < 2 ^ 31 ∧ m < 2 ^ 31 := by
  constructor
  · exact fun hfaithful => hfaithful.counts_lt h hdb hlines hchunks
  · rintro ⟨hn, hm⟩
    have hn' : n < 2 ^ 32 := by omega
    have hm' : m < 2 ^ 32 := by omega
    obtain ⟨e, he, hclosed⟩ := h.streamed hdb hlines hchunks
    obtain ⟨body, r, hbody, hcomplete, htotal⟩ := h.completed p o hstate (by omega)
    rw [if_pos ⟨hn', hm'⟩] at hclosed
    refine ⟨e, _, body, r, he, hclosed, hbody, hcomplete, ?_, ?_, htotal⟩
    · rw [toInt_count hn', if_pos hn]
      omega
    · rw [toInt_count hm', if_pos hm]
      omega

end

/-! ## Replies of three sizes -/

/-- The last line of an answer. -/
def reportText (n m : Nat) : List Char :=
  s!"\x7b\"message\":\x7b\"content\":\"\"\x7d,\"done\":true,\"prompt_eval_count\":{n},\"eval_count\":{m}\x7d".toList

/-- A session with a reader of this line. -/
def reportSession (n m : Nat) : Session :=
  { plainSession with
    parse := fun line =>
      if line = reportText n m then
        some (.object [("message", .object [("content", .string "")]), ("done", .bool true),
          ("prompt_eval_count", .number (.posInt (UInt64.ofNat n))),
          ("eval_count", .number (.posInt (UInt64.ofNat m)))])
      else readPlain line }

def reportState : AppState Nat := ⟨[], [], 0, "http://localhost:11434", true⟩

def reportOutside : Outside :=
  { answer := fun _ => .unreachable
    own := .unreachable
    upstream := fun _ => .unreachable
    requestId := "1"
    completionId := "1"
    created := 0 }

theorem countsReply_report {n m : Nat} (hn : n < 2 ^ 64) (hm : m < 2 ^ 64)
    (hline : '\n' ∉ reportText n m)
    (htrim : trim Unicode.ascii.isSpace (reportText n m) = reportText n m) :
    CountsReply (reportSession n m) (fun n => some (Float.ofNat n)) n m (reportText n m) := by
  have hn' : countNumber (fun n => some (Float.ofNat n)) n = some (.posInt (UInt64.ofNat n)) :=
    if_pos hn
  have hm' : countNumber (fun n => some (Float.ofNat n)) m = some (.posInt (UInt64.ofNat m)) :=
    if_pos hm
  refine ⟨hline, ?_, htrim, ?_, ?_⟩
  · simp [reportText]
  · intro p hp e he
    obtain rfl := Option.some.inj (hn'.symm.trans hp)
    obtain rfl := Option.some.inj (hm'.symm.trans he)
    exact ⟨_, if_pos rfl, ⟨_, _, rfl, rfl⟩, rfl, rfl, rfl⟩
  · rw [hn', hm']
    rintro (hnone | hnone) <;> cases hnone

/-- The whole answer is that line. -/
theorem decode_report (n m : Nat) :
    [Utf8.encode (reportText n m ++ ['\n'])].flatMap Utf8.decode =
      joinLines ([] ++ [reportText n m]) := by
  rw [List.flatMap_singleton, Utf8.decode_encode, List.nil_append, joinLines,
    List.flatMap_singleton]

theorem tokensFaithful_iff_small :
    TokensFaithful (reportSession 12 34) .dev reportState reportOutside 12 34
      [Utf8.encode (reportText 12 34 ++ ['\n'])] (reportText 12 34) :=
  (tokensFaithful_iff (countsReply_report (by decide) (by decide) (by decide) (by decide)) rfl
    .nil (decode_report 12 34) .dev rfl reportOutside).mpr (by decide)

/-- A count of 2^31 makes a negative row, and one of 2^32 none on the streaming path. -/
theorem not_tokensFaithful_large :
    (¬ TokensFaithful (reportSession 2147483648 34) .release reportState reportOutside
      2147483648 34 [Utf8.encode (reportText 2147483648 34 ++ ['\n'])]
      (reportText 2147483648 34)) ∧
    (¬ TokensFaithful (reportSession 4294967296 34) .release reportState reportOutside
      4294967296 34 [Utf8.encode (reportText 4294967296 34 ++ ['\n'])]
      (reportText 4294967296 34)) := by
  refine ⟨?_, ?_⟩
  · intro hfaithful
    have hlt := hfaithful.counts_lt
      (countsReply_report (by decide) (by decide) (by decide) (by decide)) rfl .nil
      (decode_report 2147483648 34)
    omega
  · intro hfaithful
    have hlt := hfaithful.counts_lt
      (countsReply_report (by decide) (by decide) (by decide) (by decide)) rfl .nil
      (decode_report 4294967296 34)
    omega

end InferPlatform.Gateway

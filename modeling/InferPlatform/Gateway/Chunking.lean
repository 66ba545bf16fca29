import InferPlatform.Gateway.Redaction

/-!
# Network chunks

The streaming loop decodes every network chunk by itself. This module compares
the events for a body that arrives in chunks with those for the same body in one
piece.

* `lines_of_between` — boundaries between characters leave the lines as they are;
* `lines_of_cut` — a boundary inside a character leaves more replacement
  characters in them;
* `chunking_independent_iff` — **the events are the same for every reader of the
  lines exactly when no boundary is inside a character of a complete line**.
-/

namespace InferPlatform.Gateway

open Lines Utf8

/-- The part of a body that is read at all: its complete lines. -/
def terminated (text : List Char) : List Char := joinLines (splitLines text).1

theorem terminated_append (text : List Char) : terminated text ++ (splitLines text).2 = text :=
  joinLines_splitLines text

/-! ## The lines of the decoded chunks -/

/-- What follows the complete lines adds no line. -/
theorem splitLines_fst_append {lines : List (List Char)} (hlines : ∀ line ∈ lines, '\n' ∉ line)
    {rest : List Char} (hrest : '\n' ∉ rest) : (splitLines (joinLines lines ++ rest)).1 = lines := by
  rw [splitLines_joinLines hlines, splitLines_of_notMem hrest]
  exact List.append_nil lines

theorem newline_ascii : ('\n' : Char).toNat < 0x80 := by decide

/-- **Chunk boundaries between characters change no line.** -/
theorem lines_of_between {text : List Char} {chunks : List (List UInt8)}
    (h : chunks.flatten = encode text)
    (hbetween : BetweenCharacters (encode (terminated text)).length chunks) :
    (splitLines (chunks.flatMap decode)).1 = (splitLines text).1 := by
  have hflat := flatten_toNat h
  rw [← terminated_append text, List.flatMap_append] at hflat
  rw [length_encode] at hbetween
  obtain ⟨chunks', hrest, hdecode⟩ := decodeChunks_of_aligned hbetween.alignedUpTo hflat
  have hnewline := (decodeChunks_mangled hrest).not_mem newline_ascii (remainder_notMem text)
  rw [flatMap_decode, hdecode]
  exact splitLines_fst_append (fun _ => notMem_of_mem_splitLines) hnewline

/-- A boundary inside a character of a complete line: the character, and the
text of the complete lines around it. -/
theorem terminated_of_cut {text text₁ text₂ : List Char} {c : Char} {part : List Nat}
    (htext : text = text₁ ++ c :: text₂) (hpart : part ≠ [])
    (hlen : (text₁.flatMap octets ++ part).length ≤ ((terminated text).flatMap octets).length) :
    ∃ text₂', terminated text = text₁ ++ c :: text₂' ∧ text₂ = text₂' ++ (splitLines text).2 := by
  have happend := terminated_append text
  conv_rhs at happend => rw [htext]
  rcases List.append_eq_append_iff.mp happend with ⟨mid, hmid, -⟩ | ⟨mid, hmid, hrest⟩
  · have hpos := List.length_pos_iff.mpr hpart
    rw [hmid, List.flatMap_append, List.length_append, List.length_append] at hlen
    omega
  · cases mid with
    | nil =>
        have hpos := List.length_pos_iff.mpr hpart
        rw [hmid, List.append_nil, List.length_append] at hlen
        omega
    | cons d mid =>
        rw [List.cons_append, List.cons.injEq] at hrest
        exact ⟨mid, by rw [hmid, hrest.1], hrest.2⟩

/-- The complete lines end with a line feed, if there are any. -/
theorem terminated_eq_nil_or (text : List Char) :
    terminated text = [] ∨ ∃ init, terminated text = init ++ ['\n'] := by
  unfold terminated
  rcases List.eq_nil_or_concat (splitLines text).1 with h | ⟨lines, line, h⟩
  · exact .inl (by rw [h]; rfl)
  · right
    exact ⟨joinLines lines ++ line, by simp [h, joinLines]⟩

/-- A text that ends with a line feed is read whole, and no more than it. -/
theorem terminated_of_newline (init : List Char) {rest : List Char} (hrest : '\n' ∉ rest) :
    terminated (init ++ '\n' :: rest) = init ++ ['\n'] := by
  rw [terminated, splitLines_append, splitLines_line (remainder_notMem init),
    splitLines_of_notMem hrest, joinLines, List.flatMap_append, ← joinLines,
    List.flatMap_singleton, ← List.append_assoc, joinLines_splitLines]

/-- A character of several octets is not the last one of its line, and what
follows it still ends with the line feed when it is mangled. -/
theorem mangled_ends {pre init text out : List Char} {c : Char} (hc : 0x80 ≤ c.toNat)
    (h : pre ++ c :: text = init ++ ['\n']) (hmangled : Mangled text out) :
    ∃ init', out = init' ++ ['\n'] := by
  rcases List.eq_nil_or_concat' text with rfl | ⟨text', d, rfl⟩
  · have hlast := (List.append_inj' h rfl).2
    rw [(List.cons.inj hlast).1] at hc
    exact absurd newline_ascii (by omega)
  · rw [← List.cons_append, ← List.append_assoc] at h
    have hlast := (List.append_inj' h rfl).2
    rw [(List.cons.inj hlast).1] at hmangled
    obtain ⟨init', out', rfl, -, hout'⟩ := hmangled.split
    exact ⟨init', by rw [hout'.of_ascii newline_ascii]⟩

/-- **A chunk boundary inside a character of a complete line** leaves more
replacement characters in the lines than the text has there. -/
theorem lines_of_cut {text : List Char} {before after : List (List UInt8)}
    (h : (before ++ after).flatten = encode text)
    (hlen : before.flatten.length ≤ (encode (terminated text)).length)
    (hcut : ¬ ∃ t, before.flatten = encode t) :
    (terminated text).count replacement <
      (terminated ((before ++ after).flatMap decode)).count replacement := by
  have hflat := flatten_toNat h
  rw [List.map_append, List.flatten_append] at hflat
  rcases prefix_cases hflat.symm with ⟨t, ht⟩ |
    ⟨text₁, c, text₂, part, rest, htext, hbefore, hpart, hafter⟩
  · rw [← List.map_flatten] at ht
    exact absurd ⟨t, eq_encode ht⟩ hcut
  · have hlen' : (text₁.flatMap octets ++ part).length ≤
        ((terminated text).flatMap octets).length := by
      rw [← hbefore, ← List.map_flatten, List.length_map, ← length_encode]
      exact hlen
    obtain ⟨text₂', hterm, rfl⟩ := terminated_of_cut htext hpart.part_ne hlen'
    obtain ⟨out₁, n, out, hdecode, h₁, hout⟩ := decodeChunks_cut hpart hbefore hafter
    obtain ⟨out₂, out₃, rfl, h₂, h₃⟩ := hout.split
    have hends : ∃ init, out₂ = init ++ ['\n'] := by
      rcases terminated_eq_nil_or text with hnil | ⟨init, hinit⟩
      · rw [hterm] at hnil
        exact absurd (List.append_eq_nil_iff.mp hnil).2 (List.cons_ne_nil _ _)
      · exact mangled_ends hpart.multi (hterm.symm.trans hinit) h₂
    obtain ⟨init, rfl⟩ := hends
    have hlines : terminated ((before ++ after).flatMap decode) =
        out₁ ++ (List.replicate (n + 2) replacement ++ (init ++ ['\n'])) := by
      have hshape : out₁ ++ (List.replicate (n + 2) replacement ++ (init ++ ['\n'] ++ out₃)) =
          (out₁ ++ (List.replicate (n + 2) replacement ++ init)) ++ '\n' :: out₃ := by
        simp
      rw [flatMap_decode, List.map_append, hdecode, hshape,
        terminated_of_newline _ (h₃.not_mem newline_ascii (remainder_notMem text))]
      simp
    have hcount₁ := h₁.count_le
    have hcount₂ := h₂.count_le
    rw [hlines, hterm, List.count_append, List.count_cons, List.count_append, List.count_append,
      List.count_replicate_self]
    split <;> omega

/-! ## Readers -/

/-- The session with another reader of the lines. -/
def Session.withReader (s : Session) (parse : List Char → Option Json) : Session :=
  { s with parse }

/-- What the client receives for a body that arrives in the given chunks. -/
def streamChunks (s : Session) (chunks : List (List UInt8)) : Except (Nat × Json) Emitted :=
  streamResponse s (.body (chunks.map .ok))

theorem streamChunks_eq (s : Session) (chunks : List (List UInt8)) :
    streamChunks s chunks =
      .ok (Emitted.andThen ⟨[roleEvent s], none⟩ (streamText s (chunks.flatMap decode))) := by
  rw [streamChunks, streamResponse, readLoop_eq s chunks List.not_mem_nil, List.nil_append]

/-- A reader that answers every line with an `x` for each replacement character. -/
def tally (line : List Char) : Option Json :=
  some (.object [("message", .object
    [("content", .string (String.ofList (List.replicate (line.count replacement) 'x')))]),
    ("done", .bool false)])

variable {s : Session}

theorem filterPii_x (u : Unicode) (n : Nat) :
    filterPii u (String.ofList (List.replicate n 'x')) = String.ofList (List.replicate n 'x') := by
  refine filterPii_of_clean (containsPii_of_countP_zero ?_)
  rw [String.toList_ofList, List.countP_replicate, if_neg]
  simp [isTelling, u.isDigit_ascii 'x' (by decide)]

/-- Trimming removes no replacement character. -/
theorem count_trim (u : Unicode) (line : List Char) :
    (trim u.isSpace line).count replacement = line.count replacement := by
  have hdrop : ∀ text : List Char,
      (text.dropWhile u.isSpace).count replacement = text.count replacement := by
    intro text
    have hspaces : (text.takeWhile u.isSpace).count replacement = 0 := by
      refine List.count_eq_zero.mpr fun hmem => ?_
      have hspace := List.mem_takeWhile_imp hmem
      rw [replacement, u.isSpace_replacement] at hspace
      cases hspace
    conv_rhs => rw [← List.takeWhile_append_dropWhile (p := u.isSpace) (l := text)]
    rw [List.count_append, hspaces, Nat.zero_add]
  rw [trim, List.rdropWhile, List.count_reverse, hdrop, List.count_reverse, hdrop]

theorem tally_line {line : List Char} (hline : '\n' ∉ line) :
    ∃ events, lineOutcome (s.withReader tally) line = ⟨events, none⟩ ∧
      events.flatMap deltaText = List.replicate (line.count replacement) 'x' := by
  rw [← count_trim s.unicode line]
  by_cases hblank : trim s.unicode.isSpace line = []
  · refine ⟨[], ?_, ?_⟩
    · rw [lineOutcome, Session.withReader, if_pos hblank]
      rfl
    · rw [hblank]
      rfl
  · have hcontent : ContentLine (s.withReader tally) line (String.ofList
        (List.replicate ((trim s.unicode.isSpace line).count replacement) 'x')) :=
      ⟨hline, hblank, ⟨some ⟨_⟩, false, 0, 0⟩, rfl, rfl, rfl⟩
    obtain ⟨events, hevents, htext⟩ := hcontent.outcome
    exact ⟨events, hevents, by rw [htext, filterPii_x, String.toList_ofList]⟩

theorem tally_lines (lines : List (List Char)) (hlines : ∀ line ∈ lines, '\n' ∉ line) :
    ∃ events, streamLines (s.withReader tally) lines = ⟨events, none⟩ ∧
      events.flatMap deltaText = List.replicate ((joinLines lines).count replacement) 'x' := by
  induction lines with
  | nil => exact ⟨[], rfl, rfl⟩
  | cons line lines ih =>
      obtain ⟨hline, hlines⟩ := List.forall_mem_cons.mp hlines
      obtain ⟨first, hfirst, htext⟩ := tally_line (s := s) hline
      obtain ⟨events, hevents, hrest⟩ := ih hlines
      refine ⟨first ++ events, ?_, ?_⟩
      · rw [streamLines, hfirst, hevents]
        rfl
      · rw [List.flatMap_append, htext, hrest, List.replicate_append_replicate, joinLines_cons,
          List.count_append, List.count_cons_of_ne (by decide)]

/-- Through the tallying reader the client sees how many replacement characters
the complete lines have. -/
theorem tally_streamed (chunks : List (List UInt8)) :
    ∃ e, streamChunks (s.withReader tally) chunks = .ok e ∧ e.events.flatMap deltaText =
      List.replicate ((terminated (chunks.flatMap decode)).count replacement) 'x' := by
  obtain ⟨events, hevents, htext⟩ := tally_lines (s := s)
    (splitLines (chunks.flatMap decode)).1 fun _ => notMem_of_mem_splitLines
  refine ⟨_, streamChunks_eq _ chunks, ?_⟩
  rw [streamText, hevents]
  show (roleEvent _ :: (events ++ [.done])).flatMap deltaText = _
  rw [List.flatMap_cons, List.flatMap_append, htext]
  simp [deltaText, roleEvent, chunkEvent, terminated]

/-- **Independence of the chunks.** A body of valid UTF-8 gives the client the
same events and records the same usage as in one chunk, whatever the reader of
its lines, exactly when every chunk boundary within its complete lines is
between two characters. -/
theorem chunking_independent_iff (s : Session) (text : List Char) (chunks : List (List UInt8))
    (h : chunks.flatten = encode text) :
    (∀ parse, streamChunks (s.withReader parse) chunks =
        streamChunks (s.withReader parse) [encode text]) ↔
      BetweenCharacters (encode (terminated text)).length chunks := by
  have hwhole : [encode text].flatMap decode = text := by
    rw [List.flatMap_singleton, decode_encode]
  constructor
  · intro hsame
    by_contra hnot
    unfold BetweenCharacters at hnot
    push Not at hnot
    obtain ⟨before, after, rfl, hlen, hcut⟩ := hnot
    have hlt := lines_of_cut h hlen (by simpa using hcut)
    obtain ⟨e, he, htext⟩ := tally_streamed (s := s) (before ++ after)
    obtain ⟨e', he', htext'⟩ := tally_streamed (s := s) [encode text]
    have heq := hsame tally
    rw [he, he', Except.ok.injEq] at heq
    rw [heq, htext', hwhole] at htext
    have hcount := congrArg List.length htext
    rw [List.length_replicate, List.length_replicate] at hcount
    omega
  · intro hbetween parse
    rw [streamChunks_eq, streamChunks_eq, hwhole, streamText, streamText,
      lines_of_between h hbetween]

/-- An answer in ASCII, cut in the middle of its first line. -/
theorem chunking_independent_iff_ascii :
    let text := plainLine "Hello" ++ ['\n'] ++ plainDone ++ ['\n']
    (∀ parse, streamChunks (plainSession.withReader parse)
        [encode (text.take 7), encode (text.drop 7)] =
      streamChunks (plainSession.withReader parse) [encode text]) ↔
    BetweenCharacters (encode (terminated text)).length
      [encode (text.take 7), encode (text.drop 7)] :=
  chunking_independent_iff plainSession _ _ (by decide)

/-- Two ways of cutting the same bytes, one of them between the two bytes of a
character: the client receives two replacement characters in its place. -/
theorem cut_inside_character :
    let body := encode (plainLine "é" ++ ['\n'] ++ plainDone ++ ['\n'])
    let cut := plainHead.length + 1
    [body.take cut, body.drop cut].flatten = [body].flatten ∧
      streamedText (readLoop plainSession [] [.ok (body.take cut), .ok (body.drop cut)]) =
        String.ofList [replacement, replacement] ∧
      streamedText (readLoop plainSession [] [.ok body]) = "é" ∧
      readLoop plainSession [] [.ok (body.take cut), .ok (body.drop cut)] ≠
        readLoop plainSession [] [.ok body] := by
  decide

end InferPlatform.Gateway

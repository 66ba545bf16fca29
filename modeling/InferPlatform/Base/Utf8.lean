import Mathlib.Data.List.Basic
import Mathlib.Data.List.Count
import Mathlib.Tactic.Linarith

/-!
# UTF-8 and its lossy decoder

Characters as octets, and the decoder that turns any octet sequence into text,
one replacement character for every maximal part of an encoding that is not
continued as it has to be. A stream that is decoded chunk by chunk starts anew
at every chunk.

* `octets`, `encode`, `decode`, `decodeChunks` — the coding, and the two decoders;
* `decodeChunks_of_aligned` — chunks of whole characters decode to the text;
* `decodeChunks_mangled` — whatever the chunks, each character comes out as it is
  or, if it was cut, as two or more replacement characters;
* `decodeChunks_cut` — a cut character does come out as replacements;
* `encode_map_asciiChar`, `map_asciiChar_encode` — below 128 bytes and characters are the same.
-/

namespace Utf8

/-- The replacement character `U+FFFD`. -/
def replacement : Char := Char.ofNat 0xFFFD

def octetsOf (n : Nat) : List Nat :=
  if n < 0x80 then [n]
  else if n < 0x800 then [0xC0 + n / 64, 0x80 + n % 64]
  else if n < 0x10000 then [0xE0 + n / 4096, 0x80 + n / 64 % 64, 0x80 + n % 64]
  else [0xF0 + n / 262144, 0x80 + n / 4096 % 64, 0x80 + n / 64 % 64, 0x80 + n % 64]

/-- The encoding of a character, as numbers below 256. -/
def octets (c : Char) : List Nat := octetsOf c.toNat

def encode (text : List Char) : List UInt8 := (text.flatMap octets).map UInt8.ofNat

/-! ## The decoder -/

/-- Inside a character, `left` octets are missing after the next one, which has
to be within `lo` and `hi`; `value` is what the octets so far stand for. -/
inductive State
  | idle
  | need (left lo hi value : Nat)

/-- The bounds of a second octet leave out overlong forms, surrogates and
values above the last character. -/
def secondLow (b : Nat) : Nat :=
  if b = 0xE0 then 0xA0 else if b = 0xF0 then 0x90 else 0x80

def secondHigh (b : Nat) : Nat :=
  if b = 0xED then 0x9F else if b = 0xF4 then 0x8F else 0xBF

/-- The first octet of a character: what is put out, and the state after it. -/
def start (b : Nat) : List Char × State :=
  if b < 0x80 then ([Char.ofNat b], .idle)
  else if b < 0xC2 then ([replacement], .idle)
  else if b < 0xE0 then ([], .need 0 0x80 0xBF (b - 0xC0))
  else if b < 0xF0 then ([], .need 1 (secondLow b) (secondHigh b) (b - 0xE0))
  else if b < 0xF5 then ([], .need 2 (secondLow b) (secondHigh b) (b - 0xF0))
  else ([replacement], .idle)

/-- An octet that does not continue a character replaces what was begun and is
read again as a first octet. -/
def step : State → Nat → List Char × State
  | .idle, b => start b
  | .need left lo hi value, b =>
    if lo ≤ b ∧ b ≤ hi then
      match left with
      | 0 => ([Char.ofNat (value * 64 + (b - 0x80))], .idle)
      | left + 1 => ([], .need left 0x80 0xBF (value * 64 + (b - 0x80)))
    -- `b` may be the first octet of the next character
    else (replacement :: (start b).1, (start b).2)

/-- A character that is not complete at the end is replaced. -/
def run : State → List Nat → List Char
  | .idle, [] => []
  | .need .., [] => [replacement]
  | s, b :: rest => (step s b).1 ++ run (step s b).2 rest

def decodeOctets (bytes : List Nat) : List Char := run .idle bytes

/-- The lossy decoder. -/
def decode (bytes : List UInt8) : List Char := decodeOctets (bytes.map UInt8.toNat)

/-- Decode every chunk by itself. -/
def decodeChunks (chunks : List (List Nat)) : List Char := chunks.flatMap decodeOctets

/-! ## One character -/

theorem toNat_valid (c : Char) : c.toNat < 0xD800 ∨ 0xDFFF < c.toNat ∧ c.toNat < 0x110000 :=
  c.valid

theorem octets_lt (c : Char) {b : Nat} (h : b ∈ octets c) : b < 256 := by
  have hvalid := toNat_valid c
  unfold octets octetsOf at h
  split at h
  · simp only [List.mem_singleton] at h
    omega
  · split at h
    · simp only [List.mem_cons, List.not_mem_nil, or_false] at h
      omega
    · split at h
      · simp only [List.mem_cons, List.not_mem_nil, or_false] at h
        omega
      · simp only [List.mem_cons, List.not_mem_nil, or_false] at h
        omega

/-- The octets that complete a character the decoder is inside of. -/
inductive Completes : Nat → Nat → Nat → Nat → List Nat → Nat → Prop
  | last {lo hi value b n : Nat} (hb : lo ≤ b ∧ b ≤ hi) (hlo : 0x80 ≤ lo) (hhi : hi ≤ 0xBF)
      (hn : value * 64 + (b - 0x80) = n) : Completes 0 lo hi value [b] n
  | next {left lo hi value b n : Nat} {tail : List Nat} (hb : lo ≤ b ∧ b ≤ hi) (hlo : 0x80 ≤ lo)
      (hhi : hi ≤ 0xBF) (htail : Completes left 0x80 0xBF (value * 64 + (b - 0x80)) tail n) :
      Completes (left + 1) lo hi value (b :: tail) n

/-- An octet that continues a character and starts none. -/
def Continuation (b : Nat) : Prop := 0x80 ≤ b ∧ b ≤ 0xBF

theorem Completes.continuation {left lo hi value n : Nat} {tail : List Nat}
    (h : Completes left lo hi value tail n) : ∀ b ∈ tail, Continuation b := by
  induction h with
  | last hb hlo hhi _ =>
      intro b hmem
      rw [List.mem_singleton.mp hmem]
      exact ⟨by omega, by omega⟩
  | next hb hlo hhi _ ih =>
      intro b hmem
      rcases List.mem_cons.mp hmem with rfl | hmem
      · exact ⟨by omega, by omega⟩
      · exact ih b hmem

theorem Completes.run_append {left lo hi value n : Nat} {tail : List Nat}
    (h : Completes left lo hi value tail n) (rest : List Nat) :
    run (.need left lo hi value) (tail ++ rest) = Char.ofNat n :: run .idle rest := by
  induction h with
  | last hb _ _ hn =>
      rw [List.singleton_append, run, step, if_pos hb, ← hn]
      rfl
  | next hb _ _ _ ih =>
      rw [List.cons_append, run, step, if_pos hb]
      exact ih

/-- A proper part of what is missing ends in one replacement. -/
theorem Completes.run_part {left lo hi value n : Nat} {tail part rest : List Nat}
    (h : Completes left lo hi value tail n) (hpart : tail = part ++ rest) (hrest : rest ≠ []) :
    run (.need left lo hi value) part = [replacement] := by
  induction h generalizing part with
  | last hb _ _ _ =>
      cases part with
      | nil => rfl
      | cons b part =>
          rw [List.cons_append, List.cons.injEq] at hpart
          exact absurd (List.append_eq_nil_iff.mp hpart.2.symm).2 hrest
  | next hb _ _ _ ih =>
      cases part with
      | nil => rfl
      | cons b part =>
          rw [List.cons_append, List.cons.injEq] at hpart
          obtain ⟨rfl, hpart⟩ := hpart
          rw [run, step, if_pos hb]
          exact ih hpart

theorem secondLow_ge (b : Nat) : 0x80 ≤ secondLow b := by
  unfold secondLow
  split
  · omega
  · split <;> omega

theorem secondHigh_le (b : Nat) : secondHigh b ≤ 0xBF := by
  unfold secondHigh
  split
  · omega
  · split <;> omega

/-- The form is the shortest one and the character is no surrogate, so its
second octet is within the bounds. -/
theorem second_of_three {n : Nat} (hlow : 0x800 ≤ n) (hhigh : n < 0x10000)
    (hvalid : n < 0xD800 ∨ 0xDFFF < n) :
    secondLow (0xE0 + n / 4096) ≤ 0x80 + n / 64 % 64 ∧
      0x80 + n / 64 % 64 ≤ secondHigh (0xE0 + n / 4096) := by
  unfold secondLow secondHigh
  constructor
  · split
    · omega
    · split <;> omega
  · split
    · omega
    · split <;> omega

theorem second_of_four {n : Nat} (hlow : 0x10000 ≤ n) (hhigh : n < 0x110000) :
    secondLow (0xF0 + n / 262144) ≤ 0x80 + n / 4096 % 64 ∧
      0x80 + n / 4096 % 64 ≤ secondHigh (0xF0 + n / 262144) := by
  unfold secondLow secondHigh
  constructor
  · split
    · omega
    · split <;> omega
  · split
    · omega
    · split <;> omega

/-- A character is one octet below 128, or a first octet with what completes
it. -/
theorem octets_cases (c : Char) :
    (octets c = [c.toNat] ∧ c.toNat < 0x80) ∨
    (0x80 ≤ c.toNat ∧ ∃ b left lo hi value tail, octets c = b :: tail ∧ tail ≠ [] ∧
      start b = ([], .need left lo hi value) ∧ Completes left lo hi value tail c.toNat) := by
  have hvalid := toNat_valid c
  unfold octets octetsOf
  generalize c.toNat = n at hvalid
  by_cases h1 : n < 0x80
  · exact .inl ⟨if_pos h1, h1⟩
  refine .inr ⟨by omega, ?_⟩
  rw [if_neg h1]
  by_cases h2 : n < 0x800
  · rw [if_pos h2]
    refine ⟨0xC0 + n / 64, 0, 0x80, 0xBF, n / 64, [0x80 + n % 64], rfl, by simp, ?_, ?_⟩
    · rw [start, if_neg (by omega), if_neg (by omega), if_pos (by omega), Nat.add_sub_cancel_left]
    · exact .last ⟨by omega, by omega⟩ (by omega) (by omega) (by omega)
  rw [if_neg h2]
  by_cases h3 : n < 0x10000
  · rw [if_pos h3]
    refine ⟨0xE0 + n / 4096, 1, secondLow (0xE0 + n / 4096), secondHigh (0xE0 + n / 4096),
      n / 4096, [0x80 + n / 64 % 64, 0x80 + n % 64], rfl, by simp, ?_, ?_⟩
    · rw [start, if_neg (by omega), if_neg (by omega), if_neg (by omega), if_pos (by omega),
        Nat.add_sub_cancel_left]
    · exact .next (second_of_three (by omega) h3 (by omega)) (secondLow_ge _) (secondHigh_le _)
        (.last ⟨by omega, by omega⟩ (by omega) (by omega) (by omega))
  · rw [if_neg h3]
    refine ⟨0xF0 + n / 262144, 2, secondLow (0xF0 + n / 262144), secondHigh (0xF0 + n / 262144),
      n / 262144, [0x80 + n / 4096 % 64, 0x80 + n / 64 % 64, 0x80 + n % 64], rfl, by simp,
      ?_, ?_⟩
    · rw [start, if_neg (by omega), if_neg (by omega), if_neg (by omega), if_neg (by omega),
        if_pos (by omega), Nat.add_sub_cancel_left]
    · exact .next (second_of_four (by omega) (by omega)) (secondLow_ge _) (secondHigh_le _)
        (.next ⟨by omega, by omega⟩ (by omega) (by omega)
          (.last ⟨by omega, by omega⟩ (by omega) (by omega) (by omega)))

theorem octets_ne_nil (c : Char) : octets c ≠ [] := by
  rcases octets_cases c with ⟨h, -⟩ | ⟨-, _, _, _, _, _, _, h, -⟩ <;> simp [h]

/-- A whole character decodes to itself. -/
theorem decodeOctets_octets_append (c : Char) (rest : List Nat) :
    decodeOctets (octets c ++ rest) = c :: decodeOctets rest := by
  rcases octets_cases c with ⟨h, hlt⟩ | ⟨-, b, left, lo, hi, value, tail, h, -, hstart, htail⟩
  · rw [h, List.singleton_append, decodeOctets, run, step, start, if_pos hlt, Char.ofNat_toNat]
    rfl
  · rw [h, List.cons_append, decodeOctets, run, step, hstart, List.nil_append, htail.run_append,
      Char.ofNat_toNat]
    rfl

theorem decodeOctets_flatMap_append (text : List Char) (rest : List Nat) :
    decodeOctets (text.flatMap octets ++ rest) = text ++ decodeOctets rest := by
  induction text with
  | nil => rfl
  | cons c text ih =>
      rw [List.flatMap_cons, List.append_assoc, decodeOctets_octets_append, ih, List.cons_append]

theorem decodeOctets_flatMap (text : List Char) :
    decodeOctets (text.flatMap octets) = text := by
  have h := decodeOctets_flatMap_append text []
  rwa [List.append_nil, show decodeOctets [] = [] from rfl, List.append_nil] at h

theorem toNat_encode (text : List Char) :
    (encode text).map UInt8.toNat = text.flatMap octets := by
  rw [encode, List.map_map]
  have hid : ∀ b ∈ text.flatMap octets, (UInt8.toNat ∘ UInt8.ofNat) b = id b := by
    intro b hb
    obtain ⟨c, -, hc⟩ := List.mem_flatMap.mp hb
    exact UInt8.toNat_ofNat_of_lt' (octets_lt c hc)
  rw [List.map_congr_left hid, List.map_id]

/-- Decoding inverts encoding. -/
theorem decode_encode (text : List Char) : decode (encode text) = text := by
  rw [decode, toNat_encode, decodeOctets_flatMap]

/-- A character that is cut off: what there is of it, and the rest of it. -/
structure CutAt (c : Char) (part rest : List Nat) : Prop where
  split : octets c = part ++ rest
  part_ne : part ≠ []
  rest_ne : rest ≠ []

namespace CutAt

variable {c : Char} {part rest : List Nat}

/-- Only characters of several octets can be cut. -/
theorem cases (h : CutAt c part rest) : 0x80 ≤ c.toNat ∧
    ∃ b left lo hi value tail part', part = b :: part' ∧ tail = part' ++ rest ∧
      start b = ([], .need left lo hi value) ∧ Completes left lo hi value tail c.toNat := by
  obtain ⟨b, part', rfl⟩ := List.exists_cons_of_ne_nil h.part_ne
  have hsplit := h.split
  rcases octets_cases c with ⟨hc, -⟩ | ⟨hge, b', left, lo, hi, value, tail, hc, -, hstart, htail⟩
  · rw [hc, List.cons_append, List.cons.injEq] at hsplit
    exact absurd (List.append_eq_nil_iff.mp hsplit.2.symm).2 h.rest_ne
  · rw [hc, List.cons_append, List.cons.injEq] at hsplit
    obtain ⟨rfl, rfl⟩ := hsplit
    exact ⟨hge, b', left, lo, hi, value, _, part', rfl, rfl, hstart, htail⟩

theorem multi (h : CutAt c part rest) : 0x80 ≤ c.toNat := h.cases.1

/-- What there is of the character is replaced once. -/
theorem decodeOctets_part (h : CutAt c part rest) : decodeOctets part = [replacement] := by
  obtain ⟨-, b, left, lo, hi, value, tail, part', rfl, htail, hstart, hcompletes⟩ := h.cases
  rw [decodeOctets, run, step, hstart]
  exact hcompletes.run_part htail h.rest_ne

theorem rest_continuation (h : CutAt c part rest) : ∀ b ∈ rest, Continuation b := by
  obtain ⟨-, b, left, lo, hi, value, tail, part', rfl, htail, hstart, hcompletes⟩ := h.cases
  intro b hb
  exact hcompletes.continuation b (htail ▸ List.mem_append_right part' hb)

end CutAt

/-- An octet inside a character is replaced where a chunk starts with it. -/
theorem decodeOctets_continuation {b : Nat} (h : Continuation b) (rest : List Nat) :
    decodeOctets (b :: rest) = replacement :: decodeOctets rest := by
  obtain ⟨hlo, hhi⟩ := h
  rw [decodeOctets, run, step, start, if_neg (by omega), if_pos (by omega)]
  rfl

/-- What there is of a cut character is no text. -/
theorem CutAt.part_ne_text {c : Char} {part rest : List Nat} (h : CutAt c part rest)
    (text : List Char) : part ≠ text.flatMap octets := by
  intro htext
  have hwhole := decodeOctets_octets_append c []
  rw [List.append_nil, h.split, htext, decodeOctets_flatMap_append] at hwhole
  have hpart := h.decodeOctets_part
  rw [htext, decodeOctets_flatMap] at hpart
  obtain ⟨b, rest', hrest⟩ := List.exists_cons_of_ne_nil h.rest_ne
  have hb := h.rest_continuation b (hrest ▸ List.mem_cons_self)
  rw [hpart, hrest, decodeOctets_continuation hb] at hwhole
  simp [decodeOctets, run] at hwhole

/-! ## Chunks -/

/-- What a text can come out as: every character as it is, or, where it is of
several octets, as two or more replacements. -/
inductive Mangled : List Char → List Char → Prop
  | nil : Mangled [] []
  | keep (c : Char) {text out : List Char} : Mangled text out → Mangled (c :: text) (c :: out)
  | cut {c : Char} {n : Nat} {text out : List Char} : 0x80 ≤ c.toNat → Mangled text out →
      Mangled (c :: text) (List.replicate (n + 2) replacement ++ out)

/-- Every chunk boundary among the first `limit` octets is between two
characters. -/
def AlignedUpTo (limit : Nat) (chunks : List (List Nat)) : Prop :=
  ∀ before after, chunks = before ++ after → before.flatten.length ≤ limit →
    ∃ text : List Char, before.flatten = text.flatMap octets

theorem decodeChunks_cons (chunk : List Nat) (chunks : List (List Nat)) :
    decodeChunks (chunk :: chunks) = decodeOctets chunk ++ decodeChunks chunks :=
  List.flatMap_cons

theorem decodeChunks_append (before after : List (List Nat)) :
    decodeChunks (before ++ after) = decodeChunks before ++ decodeChunks after :=
  List.flatMap_append

theorem decodeChunks_of_flatten_nil {chunks : List (List Nat)} (h : ∀ c ∈ chunks, c = []) :
    decodeChunks chunks = [] := by
  rw [decodeChunks, List.flatMap_eq_nil_iff]
  intro chunk hchunk
  rw [h chunk hchunk]
  rfl

/-- The rest of a cut character: one replacement for each of its octets. -/
theorem decodeChunks_continuation {rest bytes : List Nat} {chunks : List (List Nat)}
    (hrest : ∀ b ∈ rest, Continuation b) (h : chunks.flatten = rest ++ bytes) :
    ∃ chunks', chunks'.flatten = bytes ∧
      decodeChunks chunks = List.replicate rest.length replacement ++ decodeChunks chunks' := by
  induction rest generalizing chunks with
  | nil => exact ⟨chunks, h, rfl⟩
  | cons b rest ih =>
      obtain ⟨empties, chunk, later, rfl, hempty, hbytes⟩ := List.flatten_eq_cons_iff.mp h
      have hlater : (chunk :: later).flatten = rest ++ bytes := hbytes.symm
      obtain ⟨chunks', hflat, hdecode⟩ :=
        ih (fun x hx => hrest x (List.mem_cons_of_mem _ hx)) hlater
      refine ⟨chunks', hflat, ?_⟩
      rw [decodeChunks_append, decodeChunks_of_flatten_nil hempty, List.nil_append,
        decodeChunks_cons, decodeOctets_continuation (hrest b List.mem_cons_self),
        List.cons_append, ← decodeChunks_cons, hdecode]
      rfl

/-- The next character of a stream of chunks: it is decoded, or a chunk
boundary cuts it. -/
theorem decodeChunks_octets {c : Char} {bytes : List Nat} {chunks : List (List Nat)}
    (h : chunks.flatten = octets c ++ bytes) :
    (∃ empties chunk later, chunks = empties ++ (octets c ++ chunk) :: later ∧
      (∀ e ∈ empties, e = []) ∧ bytes = chunk ++ later.flatten ∧
      decodeChunks chunks = c :: decodeChunks (chunk :: later)) ∨
    (∃ before after part rest, chunks = before ++ after ∧ before.flatten = part ∧
      CutAt c part rest ∧ after.flatten = rest ++ bytes ∧
      decodeChunks before = [replacement]) := by
  obtain ⟨b, tail, hc⟩ := List.exists_cons_of_ne_nil (octets_ne_nil c)
  rw [hc, List.cons_append] at h
  obtain ⟨empties, chunk, later, rfl, hempty, hbytes⟩ := List.flatten_eq_cons_iff.mp h
  have hflat : empties.flatten = [] := List.flatten_eq_nil_iff.mpr hempty
  rcases List.append_eq_append_iff.mp hbytes with ⟨mid, hchunk, hlater⟩ | ⟨mid, htail, hlater⟩
  · left
    refine ⟨empties, mid, later, ?_, hempty, hlater, ?_⟩
    · rw [hchunk, hc, List.cons_append]
    · rw [decodeChunks_append, decodeChunks_of_flatten_nil hempty, List.nil_append,
        decodeChunks_cons, hchunk, ← List.cons_append, ← hc, decodeOctets_octets_append,
        List.cons_append, ← decodeChunks_cons]
  · cases mid with
    | nil =>
        left
        rw [List.append_nil] at htail
        refine ⟨empties, [], later, ?_, hempty, by simpa using hlater.symm, ?_⟩
        · rw [hc, htail, List.append_nil]
        · have hwhole := decodeOctets_octets_append c []
          rw [List.append_nil, hc, htail] at hwhole
          rw [decodeChunks_append, decodeChunks_of_flatten_nil hempty, List.nil_append,
            decodeChunks_cons, hwhole, decodeChunks_cons, List.cons_append]
    | cons d mid =>
        right
        have hcut : CutAt c (b :: chunk) (d :: mid) :=
          ⟨by rw [hc, htail, List.cons_append], by simp, by simp⟩
        refine ⟨empties ++ [b :: chunk], later, b :: chunk, d :: mid, by simp, by simp [hflat],
          hcut, by rw [hlater], ?_⟩
        rw [decodeChunks_append, decodeChunks_of_flatten_nil hempty, List.nil_append,
          decodeChunks_cons, hcut.decodeOctets_part]
        rfl

/-- **Chunks of whole characters decode to their text.** -/
theorem decodeChunks_of_aligned {text : List Char} {bytes : List Nat} {chunks : List (List Nat)}
    (haligned : AlignedUpTo (text.flatMap octets).length chunks)
    (h : chunks.flatten = text.flatMap octets ++ bytes) :
    ∃ chunks', chunks'.flatten = bytes ∧ decodeChunks chunks = text ++ decodeChunks chunks' := by
  induction text generalizing chunks with
  | nil => exact ⟨chunks, h, rfl⟩
  | cons c text ih =>
      rw [List.flatMap_cons, List.append_assoc] at h
      rcases decodeChunks_octets h with ⟨empties, chunk, later, rfl, hempty, hbytes, hdecode⟩ |
        ⟨before, after, part, rest, rfl, hpart, hcut, hafter, -⟩
      · have haligned' : AlignedUpTo (text.flatMap octets).length (chunk :: later) := by
          intro before after hsplit hlen
          cases before with
          | nil => exact ⟨[], rfl⟩
          | cons first before =>
              rw [List.cons_append, List.cons.injEq] at hsplit
              obtain ⟨rfl, rfl⟩ := hsplit
              have hempties : empties.flatten = [] := List.flatten_eq_nil_iff.mpr hempty
              obtain ⟨t, ht⟩ := haligned (empties ++ (octets c ++ chunk) :: before) after
                (by simp) (by simp [hempties] at hlen ⊢; omega)
              have hdecoded := congrArg decodeOctets ht
              rw [decodeOctets_flatMap, List.flatten_append, hempties, List.nil_append,
                List.flatten_cons, List.append_assoc, decodeOctets_octets_append] at hdecoded
              refine ⟨decodeOctets (chunk ++ before.flatten), ?_⟩
              rw [← hdecoded, List.flatMap_cons, List.flatten_append, hempties, List.nil_append,
                List.flatten_cons, List.append_assoc, List.append_cancel_left_eq] at ht
              exact ht
        obtain ⟨chunks', hflat, hrest⟩ := ih haligned' (by rw [List.flatten_cons, hbytes])
        exact ⟨chunks', hflat, by rw [hdecode, hrest, List.cons_append]⟩
      · -- the boundary inside `c` would be between two characters
        have hlen : before.flatten.length ≤ ((c :: text).flatMap octets).length := by
          rw [hpart, List.flatMap_cons, hcut.split]
          simp only [List.length_append]
          omega
        obtain ⟨t, ht⟩ := haligned before after rfl hlen
        exact absurd (hpart.symm.trans ht) (hcut.part_ne_text t)

/-- **Whatever the chunks of a text, every character comes out as it is or as
replacements.** -/
theorem decodeChunks_mangled {text : List Char} {chunks : List (List Nat)}
    (h : chunks.flatten = text.flatMap octets) : Mangled text (decodeChunks chunks) := by
  induction text generalizing chunks with
  | nil =>
      rw [decodeChunks_of_flatten_nil (List.flatten_eq_nil_iff.mp h)]
      exact .nil
  | cons c text ih =>
      rw [List.flatMap_cons] at h
      rcases decodeChunks_octets h with ⟨empties, chunk, later, rfl, hempty, hbytes, hdecode⟩ |
        ⟨before, after, part, rest, rfl, hpart, hcut, hafter, hbefore⟩
      · rw [hdecode]
        exact .keep c (ih (by rw [List.flatten_cons, hbytes]))
      · obtain ⟨chunks', hflat, hdecode⟩ :=
          decodeChunks_continuation hcut.rest_continuation hafter
        obtain ⟨b, rest, rfl⟩ := List.exists_cons_of_ne_nil hcut.rest_ne
        rw [decodeChunks_append, hbefore, hdecode, ← List.append_assoc]
        exact .cut hcut.multi (ih hflat)

/-- A prefix of a text is a text, or ends inside a character. -/
theorem prefix_cases {text : List Char} {pre suf : List Nat}
    (h : text.flatMap octets = pre ++ suf) :
    (∃ t : List Char, pre = t.flatMap octets) ∨
    ∃ text₁ c text₂ part rest, text = text₁ ++ c :: text₂ ∧
      pre = text₁.flatMap octets ++ part ∧ CutAt c part rest ∧
      suf = rest ++ text₂.flatMap octets := by
  induction text generalizing pre with
  | nil => exact .inl ⟨[], (List.append_eq_nil_iff.mp h.symm).1⟩
  | cons c text ih =>
      rw [List.flatMap_cons] at h
      rcases List.append_eq_append_iff.mp h with ⟨mid, rfl, htext⟩ | ⟨mid, hc, hsuf⟩
      · rcases ih htext with ⟨t, rfl⟩ | ⟨text₁, d, text₂, part, rest, rfl, rfl, hcut, rfl⟩
        · exact .inl ⟨c :: t, rfl⟩
        · exact .inr ⟨c :: text₁, d, text₂, part, rest, rfl, by simp, hcut, rfl⟩
      · by_cases hpre : pre = []
        · exact .inl ⟨[], hpre⟩
        · by_cases hmid : mid = []
          · rw [hmid, List.append_nil] at hc
            exact .inl ⟨[c], by rw [List.flatMap_singleton, hc]⟩
          · exact .inr ⟨[], c, text, pre, mid, rfl, rfl, ⟨hc, hpre, hmid⟩, hsuf⟩

/-- A prefix that ends inside a character: the text before it, then at least one
replacement. -/
theorem decodeChunks_part {text : List Char} {c : Char} {part rest : List Nat}
    {chunks : List (List Nat)} (hcut : CutAt c part rest)
    (h : chunks.flatten = text.flatMap octets ++ part) :
    ∃ out n, decodeChunks chunks = out ++ List.replicate (n + 1) replacement ∧
      Mangled text out := by
  induction text generalizing chunks with
  | nil =>
      obtain ⟨b, part', rfl⟩ := List.exists_cons_of_ne_nil hcut.part_ne
      obtain ⟨empties, chunk, later, rfl, hempty, hbytes⟩ := List.flatten_eq_cons_iff.mp h
      have hchunk : CutAt c (b :: chunk) (later.flatten ++ rest) := by
        refine ⟨?_, by simp, fun hnil => hcut.rest_ne (List.append_eq_nil_iff.mp hnil).2⟩
        rw [hcut.split, hbytes, List.cons_append, List.cons_append, List.append_assoc]
      have hlater : later.flatten = later.flatten ++ [] := (List.append_nil _).symm
      obtain ⟨chunks', hflat, hdecode⟩ := decodeChunks_continuation
        (fun d hd => hchunk.rest_continuation d (List.mem_append_left rest hd)) hlater
      refine ⟨[], later.flatten.length, ?_, .nil⟩
      rw [decodeChunks_append, decodeChunks_of_flatten_nil hempty, List.nil_append,
        decodeChunks_cons, hchunk.decodeOctets_part, hdecode,
        decodeChunks_of_flatten_nil (List.flatten_eq_nil_iff.mp hflat)]
      simp [List.replicate_succ]
  | cons d text ih =>
      rw [List.flatMap_cons, List.append_assoc] at h
      rcases decodeChunks_octets h with ⟨empties, chunk, later, rfl, hempty, hbytes, hdecode⟩ |
        ⟨before, after, part', rest', rfl, hpart, hcut', hafter, hbefore⟩
      · obtain ⟨out, n, hout, hmangled⟩ := ih (by rw [List.flatten_cons, hbytes])
        exact ⟨d :: out, n, by rw [hdecode, hout, List.cons_append], .keep d hmangled⟩
      · obtain ⟨chunks', hflat, hdecode⟩ :=
          decodeChunks_continuation hcut'.rest_continuation hafter
        obtain ⟨out, n, hout, hmangled⟩ := ih hflat
        obtain ⟨b, rest'', rfl⟩ := List.exists_cons_of_ne_nil hcut'.rest_ne
        refine ⟨_, n, ?_, .cut (n := rest''.length) hcut'.multi hmangled⟩
        rw [decodeChunks_append, hbefore, hdecode, hout, ← List.append_assoc, ← List.append_assoc]
        rfl

/-- **A chunk boundary inside a character is seen in the decoded text.** -/
theorem decodeChunks_cut {text₁ text₂ : List Char} {c : Char} {part rest : List Nat}
    {before after : List (List Nat)} (hcut : CutAt c part rest)
    (hbefore : before.flatten = text₁.flatMap octets ++ part)
    (hafter : after.flatten = rest ++ text₂.flatMap octets) :
    ∃ out₁ n out₂, decodeChunks (before ++ after) =
        out₁ ++ (List.replicate (n + 2) replacement ++ out₂) ∧
      Mangled text₁ out₁ ∧ Mangled text₂ out₂ := by
  obtain ⟨out₁, n, hout, h₁⟩ := decodeChunks_part hcut hbefore
  obtain ⟨chunks', hflat, hdecode⟩ := decodeChunks_continuation hcut.rest_continuation hafter
  obtain ⟨b, rest', rfl⟩ := List.exists_cons_of_ne_nil hcut.rest_ne
  refine ⟨out₁, n + rest'.length, decodeChunks chunks', ?_, h₁, decodeChunks_mangled hflat⟩
  rw [decodeChunks_append, hout, hdecode, List.append_assoc, ← List.append_assoc
    (List.replicate (n + 1) replacement), List.replicate_append_replicate, List.length_cons]
  congr 3
  omega

/-! ## Mangled texts -/

theorem Mangled.split {text₁ text₂ out : List Char} (h : Mangled (text₁ ++ text₂) out) :
    ∃ out₁ out₂, out = out₁ ++ out₂ ∧ Mangled text₁ out₁ ∧ Mangled text₂ out₂ := by
  induction text₁ generalizing out with
  | nil => exact ⟨[], out, rfl, .nil, h⟩
  | cons c text₁ ih =>
      cases h with
      | keep _ h =>
          obtain ⟨out₁, out₂, rfl, h₁, h₂⟩ := ih h
          exact ⟨c :: out₁, out₂, rfl, .keep c h₁, h₂⟩
      | cut hge h =>
          obtain ⟨out₁, out₂, rfl, h₁, h₂⟩ := ih h
          exact ⟨_, out₂, (List.append_assoc ..).symm, .cut hge h₁, h₂⟩

/-- A character of one octet comes out as it is. -/
theorem Mangled.of_ascii {c : Char} (hc : c.toNat < 0x80) {out : List Char}
    (h : Mangled [c] out) : out = [c] := by
  cases h with
  | keep _ h =>
      cases h
      rfl
  | cut hge h => omega

theorem replacement_toNat : replacement.toNat = 0xFFFD := rfl

/-- Mangling brings in no character of one octet. -/
theorem Mangled.not_mem {c : Char} (hc : c.toNat < 0x80) {text out : List Char}
    (h : Mangled text out) (hmem : c ∉ text) : c ∉ out := by
  induction h with
  | nil => exact hmem
  | keep d _ ih =>
      rw [List.mem_cons, not_or] at hmem ⊢
      exact ⟨hmem.1, ih hmem.2⟩
  | cut hge _ ih =>
      rw [List.mem_append, not_or]
      refine ⟨fun hrep => ?_, ih (List.not_mem_of_not_mem_cons hmem)⟩
      rw [(List.mem_replicate.mp hrep).2, replacement_toNat] at hc
      omega

/-- Mangling loses no replacement character. -/
theorem Mangled.count_le {text out : List Char} (h : Mangled text out) :
    text.count replacement ≤ out.count replacement := by
  induction h with
  | nil => exact Nat.le_refl 0
  | keep c _ ih =>
      rw [List.count_cons, List.count_cons]
      omega
  | cut hge _ ih =>
      rw [List.count_append, List.count_replicate_self, List.count_cons]
      split <;> omega

/-! ## Chunks of bytes -/

theorem eq_encode {bytes : List UInt8} {text : List Char}
    (h : bytes.map UInt8.toNat = text.flatMap octets) : bytes = encode text := by
  rw [encode, ← h, List.map_map]
  have hid : ∀ b ∈ bytes, (UInt8.ofNat ∘ UInt8.toNat) b = id b := fun b _ => UInt8.ofNat_toNat
  rw [List.map_congr_left hid, List.map_id]

theorem length_encode (text : List Char) : (encode text).length = (text.flatMap octets).length :=
  List.length_map _

theorem flatMap_decode (chunks : List (List UInt8)) :
    chunks.flatMap decode = decodeChunks (chunks.map (List.map UInt8.toNat)) := by
  rw [decodeChunks, List.flatMap_map]
  rfl

theorem flatten_toNat {chunks : List (List UInt8)} {text : List Char}
    (h : chunks.flatten = encode text) :
    (chunks.map (List.map UInt8.toNat)).flatten = text.flatMap octets := by
  rw [← List.map_flatten, h, toNat_encode]

/-- Every boundary between the chunks that is among the first `limit` bytes is
between two characters: the bytes before it are the encoding of a text. -/
def BetweenCharacters (limit : Nat) (chunks : List (List UInt8)) : Prop :=
  ∀ before after, chunks = before ++ after → before.flatten.length ≤ limit →
    ∃ text, before.flatten = encode text

theorem BetweenCharacters.alignedUpTo {limit : Nat} {chunks : List (List UInt8)}
    (h : BetweenCharacters limit chunks) :
    AlignedUpTo limit (chunks.map (List.map UInt8.toNat)) := by
  intro before after hsplit hlen
  obtain ⟨before', after', rfl, rfl, rfl⟩ := List.map_eq_append_iff.mp hsplit
  rw [← List.map_flatten, List.length_map] at hlen
  obtain ⟨text, htext⟩ := h before' after' rfl hlen
  exact ⟨text, flatten_toNat htext⟩

/-! ## ASCII -/

/-- The character of a byte below 128. -/
def asciiChar (b : UInt8) : Char := Char.ofNat b.toNat

theorem toNat_asciiChar {b : UInt8} (h : b.toNat < 0x80) : (asciiChar b).toNat = b.toNat := by
  have hvalid : b.toNat.isValidChar := .inl (by omega)
  rw [asciiChar, Char.ofNat, dif_pos hvalid]
  rfl

/-- Below 128 a character is its own octet. -/
theorem flatMap_octets_of_ascii {text : List Char} (h : ∀ c ∈ text, c.toNat < 0x80) :
    text.flatMap octets = text.map Char.toNat := by
  rw [List.map_eq_flatMap]
  exact List.flatMap_congr fun c hc => if_pos (h c hc)

theorem exists_of_mem_encode {text : List Char} (h : ∀ c ∈ text, c.toNat < 0x80) {b : UInt8}
    (hb : b ∈ encode text) : ∃ c ∈ text, c.toNat = b.toNat := by
  have hmem := List.mem_map_of_mem (f := UInt8.toNat) hb
  rw [toNat_encode, flatMap_octets_of_ascii h] at hmem
  exact List.mem_map.mp hmem

theorem map_asciiChar_encode {text : List Char} (h : ∀ c ∈ text, c.toNat < 0x80) :
    (encode text).map asciiChar = text := by
  calc (encode text).map asciiChar
      = ((encode text).map UInt8.toNat).map Char.ofNat := by rw [List.map_map]; rfl
    _ = (text.map Char.toNat).map Char.ofNat := by rw [toNat_encode, flatMap_octets_of_ascii h]
    _ = text := by simp [Function.comp_def]

theorem encode_map_asciiChar {bytes : List UInt8} (h : ∀ b ∈ bytes, b.toNat < 0x80) :
    encode (bytes.map asciiChar) = bytes := by
  have hchars : ∀ c ∈ bytes.map asciiChar, c.toNat < 0x80 := by
    intro c hc
    obtain ⟨b, hb, rfl⟩ := List.mem_map.mp hc
    rw [toNat_asciiChar (h b hb)]
    exact h b hb
  refine (eq_encode ?_).symm
  rw [flatMap_octets_of_ascii hchars, List.map_map]
  exact List.map_congr_left fun b hb => (toNat_asciiChar (h b hb)).symm

end Utf8

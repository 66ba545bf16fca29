import InferPlatform.Base.Regex

/-!
# What replacing leaves

Replacing the matches of a pattern changes the neighbours of the text around them, so that
new matches could arise. They do not where every pattern begins and ends with a word
boundary and the replacement text is in brackets that no pattern accepts.

* `isMatchFrom_iff` — the matcher finds a match wherever there is one;
* `Matches.bounded` — a bounded pattern sees of its neighbours only where words end;
* `occurs_replaceFrom` — a match after replacing was there before, and the replaced
  pattern had no match at its start;
* `not_occurs_replaceAll`, `Occurs.of_replaceAll` — **no match of the replaced pattern is
  left, and none of another arises**.
-/

namespace Regex

variable {α β : Type} {isWord : α → Bool}

/-! ## The matcher finds every match -/

/-- Some part of `s` is a match, `prev` being the character before `s`. -/
def Occurs (isWord : α → Bool) (p : Pat α) (prev : Option α) (s : List α) : Prop :=
  ∃ u w v, s = u ++ (w ++ v) ∧ Matches isWord p (u.getLast?.or prev) w v.head?

theorem getLast?_cons_or (c : α) (w : List α) (prev : Option α) :
    (c :: w).getLast?.or prev = w.getLast?.or (some c) := by
  have happend := getLast?_append_or [c] w prev
  rwa [List.singleton_append] at happend

theorem runMany_isSome {p : α → Bool} {w rest : List α} {prev : Option α}
    {k : Option α → List α → Option β} (hw : ∀ c ∈ w, p c = true)
    (hk : (k (w.getLast?.or prev) rest).isSome) : (runMany p prev (w ++ rest) k).isSome := by
  induction w generalizing prev with
  | nil =>
      cases rest with
      | nil => exact hk
      | cons c rest =>
          rw [List.nil_append, runMany]
          split
          · rw [Option.isSome_or, Bool.or_eq_true]
            exact .inr hk
          · exact hk
  | cons c w ih =>
      rw [List.cons_append, runMany, if_pos (hw c List.mem_cons_self), Option.isSome_or,
        Bool.or_eq_true]
      left
      apply ih fun d hd => hw d (List.mem_cons_of_mem _ hd)
      rwa [getLast?_cons_or] at hk

/-- Where there is a match and the rest succeeds after it, the matcher succeeds. -/
theorem run_isSome {p : Pat α} {w rest : List α} {prev : Option α}
    {k : Option α → List α → Option β} (h : Matches isWord p prev w rest.head?)
    (hk : (k (w.getLast?.or prev) rest).isSome) : (run isWord p prev (w ++ rest) k).isSome := by
  induction p generalizing prev w rest k with
  | set p =>
      obtain ⟨c, rfl, hc⟩ := h
      rw [List.singleton_append, run, if_pos hc]
      exact hk
  | boundary =>
      obtain ⟨rfl, hedge⟩ := h
      rw [List.nil_append, run, if_pos hedge]
      exact hk
  | seq a b iha ihb =>
      obtain ⟨u, v, rfl, hu, hv⟩ := h
      rw [List.append_assoc, run]
      rw [← head?_append_or] at hu
      apply iha hu
      apply ihb hv
      rwa [← getLast?_append_or]
  | opt a ih =>
      rw [run, Option.isSome_or, Bool.or_eq_true]
      rcases h with h | rfl
      · exact .inl (ih h hk)
      · exact .inr hk
  | many p => exact runMany_isSome h hk

theorem matchLen_isSome {p : Pat α} {w rest : List α} {prev : Option α}
    (h : Matches isWord p prev w rest.head?) :
    (matchLen isWord p prev (w ++ rest)).isSome :=
  run_isSome h rfl

theorem occurs_cons {p : Pat α} {prev : Option α} {c : α} {s : List α} :
    Occurs isWord p prev (c :: s) ↔
      (∃ w v, c :: s = w ++ v ∧ Matches isWord p prev w v.head?) ∨ Occurs isWord p (some c) s := by
  constructor
  · rintro ⟨u, w, v, hs, hw⟩
    cases u with
    | nil => exact .inl ⟨w, v, hs, hw⟩
    | cons d u =>
        injection hs with hc hs
        subst hc
        rw [getLast?_cons_or] at hw
        exact .inr ⟨u, w, v, hs, hw⟩
  · rintro (⟨w, v, hs, hw⟩ | ⟨u, w, v, rfl, hw⟩)
    · exact ⟨[], w, v, hs, hw⟩
    · refine ⟨c :: u, w, v, rfl, ?_⟩
      rwa [getLast?_cons_or]

/-- **The matcher decides whether there is a match.** -/
theorem isMatchFrom_iff {p : Pat α} {prev : Option α} {s : List α} :
    isMatchFrom isWord p prev s = true ↔ Occurs isWord p prev s := by
  have hstart : ∀ (prev : Option α) (s : List α), (matchLen isWord p prev s).isSome = true ↔
      ∃ w v, s = w ++ v ∧ Matches isWord p prev w v.head? := by
    intro prev s
    constructor
    · intro h
      obtain ⟨n, hn⟩ := Option.isSome_iff_exists.mp h
      obtain ⟨w, v, hs, -, hw⟩ := matchLen_eq_some hn
      exact ⟨w, v, hs, hw⟩
    · rintro ⟨w, v, rfl, hw⟩
      exact matchLen_isSome hw
  induction s generalizing prev with
  | nil =>
      rw [isMatchFrom, hstart]
      constructor
      · rintro ⟨w, v, hs, hw⟩
        exact ⟨[], w, v, hs, hw⟩
      · rintro ⟨u, w, v, hs, hw⟩
        obtain ⟨rfl, hrest⟩ := List.append_eq_nil_iff.mp hs.symm
        exact ⟨w, v, hrest.symm, hw⟩
  | cons c s ih =>
      rw [isMatchFrom, Bool.or_eq_true, hstart, occurs_cons]
      exact or_congr Iff.rfl ih

/-! ## Patterns between word boundaries -/

namespace Pat

/-- Without word boundaries. -/
def Free : Pat α → Prop
  | .set _ | .many _ => True
  | .boundary => False
  | .seq a b => a.Free ∧ b.Free
  | .opt a => a.Free

/-- With a word boundary at its end, and no other. -/
def Ends : Pat α → Prop
  | .boundary => True
  | .seq a b => a.Free ∧ b.Ends
  | .set _ | .opt _ | .many _ => False

/-- With a word boundary at its start and one at its end. -/
def Bounded : Pat α → Prop
  | .seq .boundary b => b.Ends
  | _ => False

/-- No class of the pattern has the character. -/
def Avoids (d : α) : Pat α → Prop
  | .set p | .many p => p d = false
  | .boundary => True
  | .seq a b => a.Avoids d ∧ b.Avoids d
  | .opt a => a.Avoids d

@[simp] theorem ends_times {a b : Pat α} {n : Nat} :
    (a.times n b).Ends ↔ (n ≠ 0 → a.Free) ∧ b.Ends := by
  induction n with
  | zero => simp [times]
  | succ n ih =>
      simp only [times, Ends, ih]
      tauto

@[simp] theorem free_times {a b : Pat α} {n : Nat} :
    (a.times n b).Free ↔ (n ≠ 0 → a.Free) ∧ b.Free := by
  induction n with
  | zero => simp [times]
  | succ n ih =>
      simp only [times, Free, ih]
      tauto

@[simp] theorem avoids_times {d : α} {a b : Pat α} {n : Nat} :
    (a.times n b).Avoids d ↔ (n ≠ 0 → a.Avoids d) ∧ b.Avoids d := by
  induction n with
  | zero => simp [times]
  | succ n ih =>
      simp only [times, Avoids, ih]
      tauto

end Pat

theorem Matches.of_free {p : Pat α} {prev next : Option α} {w : List α}
    (h : Matches isWord p prev w next) (hfree : p.Free) (prev' next' : Option α) :
    Matches isWord p prev' w next' := by
  induction p generalizing prev w next prev' next' with
  | set p => exact h
  | boundary => exact absurd hfree id
  | seq a b iha ihb =>
      obtain ⟨u, v, rfl, hu, hv⟩ := h
      exact ⟨u, v, rfl, iha hu hfree.1 _ _, ihb hv hfree.2 _ _⟩
  | opt a ih =>
      rcases h with h | rfl
      · exact .inl (ih h hfree _ _)
      · exact .inr rfl
  | many p => exact h

theorem Matches.ends {p : Pat α} {prev next : Option α} {w : List α}
    (h : Matches isWord p prev w next) (hends : p.Ends) :
    edge isWord (w.getLast?.or prev) next = true ∧
      ∀ prev' next', edge isWord (w.getLast?.or prev') next' = true →
        Matches isWord p prev' w next' := by
  induction p generalizing prev w next with
  | boundary =>
      obtain ⟨rfl, hedge⟩ := h
      exact ⟨hedge, fun _ _ hedge' => ⟨rfl, hedge'⟩⟩
  | seq a b _ ihb =>
      obtain ⟨u, v, rfl, hu, hv⟩ := h
      obtain ⟨hedge, hother⟩ := ihb hv hends.2
      refine ⟨?_, ?_⟩
      · rwa [getLast?_append_or]
      · intro prev' next' hedge'
        rw [getLast?_append_or] at hedge'
        exact ⟨u, v, rfl, hu.of_free hends.1 _ _, hother _ _ hedge'⟩
  | set _ | opt _ _ | many _ => exact absurd hends id

/-- A bounded pattern has words ending at its start and at its end, and asks nothing else of
its neighbours. -/
theorem Matches.bounded {p : Pat α} {prev next : Option α} {w : List α}
    (h : Matches isWord p prev w next) (hbounded : p.Bounded) :
    edge isWord prev (w.head?.or next) = true ∧ edge isWord (w.getLast?.or prev) next = true ∧
      ∀ prev' next', edge isWord prev' (w.head?.or next') = true →
        edge isWord (w.getLast?.or prev') next' = true → Matches isWord p prev' w next' := by
  unfold Pat.Bounded at hbounded
  split at hbounded
  · obtain ⟨u, v, rfl, ⟨rfl, hstart⟩, hv⟩ := h
    obtain ⟨hend, hother⟩ := hv.ends hbounded
    refine ⟨hstart, hend, ?_⟩
    intro prev' next' hstart' hend'
    exact ⟨[], v, rfl, ⟨rfl, hstart'⟩, hother _ _ hend'⟩
  · exact absurd hbounded id

theorem Matches.not_mem {p : Pat α} {prev next : Option α} {w : List α} {d : α}
    (h : Matches isWord p prev w next) (havoids : p.Avoids d) : d ∉ w := by
  induction p generalizing prev w next with
  | set p =>
      obtain ⟨c, rfl, hc⟩ := h
      intro hd
      rw [List.mem_singleton.mp hd] at havoids
      exact absurd (hc.symm.trans havoids) (by simp)
  | boundary =>
      obtain ⟨rfl, -⟩ := h
      exact List.not_mem_nil
  | seq a b iha ihb =>
      obtain ⟨u, v, rfl, hu, hv⟩ := h
      rw [List.mem_append, not_or]
      exact ⟨iha hu havoids.1, ihb hv havoids.2⟩
  | opt a ih =>
      rcases h with h | rfl
      · exact ih h havoids
      · exact List.not_mem_nil
  | many p =>
      intro hd
      exact absurd ((h d hd).symm.trans havoids) (by simp)

/-! ## What is left -/

/-- A replacement text that no match of `q` can share a character with: its first and last
characters are in no class of `q`, and it has none of which `q` needs one. -/
structure Sealed (t : α → Bool) (q : Pat α) (rep : List α) : Prop where
  first : ∃ c tail, rep = c :: tail ∧ q.Avoids c
  last : ∃ init c, rep = init ++ [c] ∧ q.Avoids c
  needs : q.Needs t
  clean : rep.countP t = 0

theorem Matches.ne_nil {t : α → Bool} {p : Pat α} {prev next : Option α} {w : List α}
    (h : Matches isWord p prev w next) (hneeds : p.Needs t) : w ≠ [] := by
  rintro rfl
  obtain ⟨c, hc, -⟩ := h.exists_mem hneeds
  cases hc

/-- The rest of a match is skipped. -/
theorem replaceFrom_skip {p : Pat α} {rep : List α} (prev : Option α) (w rest : List α) :
    replaceFrom isWord p rep prev w.length (w ++ rest) =
      replaceFrom isWord p rep (w.getLast?.or prev) 0 rest := by
  induction w generalizing prev with
  | nil => rfl
  | cons c w ih =>
      rw [List.cons_append, List.length_cons, replaceFrom, ih, getLast?_cons_or]

/-- What happens at one character: a match is replaced, or the character is kept. -/
theorem replaceFrom_cons (isWord : α → Bool) {t : α → Bool} {p : Pat α} (hneeds : p.Needs t)
    (rep : List α) (prev : Option α) (c : α) (s : List α) :
    (∃ w rest, c :: s = w ++ rest ∧ Matches isWord p prev w rest.head? ∧
      replaceFrom isWord p rep prev 0 (c :: s) =
        rep ++ replaceFrom isWord p rep (w.getLast?.or prev) 0 rest) ∨
    (matchLen isWord p prev (c :: s) = none ∧
      replaceFrom isWord p rep prev 0 (c :: s) = c :: replaceFrom isWord p rep (some c) 0 s) := by
  rw [replaceFrom]
  cases hlen : matchLen isWord p prev (c :: s) with
  | none => exact .inr ⟨rfl, rfl⟩
  | some n =>
      obtain ⟨w, rest, hs, hn, hw⟩ := matchLen_eq_some hlen
      left
      refine ⟨w, rest, hs, hw, ?_⟩
      cases w with
      | nil => exact absurd rfl (hw.ne_nil hneeds)
      | cons d w =>
          injection hs with hc hs
          subst hc hs
          obtain rfl : w.length + 1 = n := hn
          show rep ++ replaceFrom isWord p rep (some c) w.length (w ++ rest) = _
          rw [replaceFrom_skip, getLast?_cons_or]

/-- What the output begins with before the first replacement, the input begins with; then
come the same character or a word's end. -/
theorem replaceFrom_kept {t : α → Bool} {p : Pat α} {rep : List α} (hbounded : p.Bounded)
    (hneeds : p.Needs t) {o : α} {tail : List α} (hrep : rep = o :: tail) {w v s : List α}
    {prev : Option α} (ho : o ∉ w) (h : replaceFrom isWord p rep prev 0 s = w ++ v) :
    ∃ v', s = w ++ v' ∧
      (v.head? = v'.head? ∨ edge isWord (w.getLast?.or prev) v'.head? = true) := by
  induction w generalizing prev s with
  | nil =>
      refine ⟨s, rfl, ?_⟩
      rw [List.nil_append] at h
      cases s with
      | nil => exact .inl (by rw [← h]; rfl)
      | cons c s =>
          rcases replaceFrom_cons isWord hneeds rep prev c s with ⟨w, rest, hs, hw, -⟩ | ⟨-, hout⟩
          · right
            have hstart := (hw.bounded hbounded).1
            rwa [← head?_append_or, ← hs] at hstart
          · left
            rw [← h, hout]
            rfl
  | cons d w ih =>
      cases s with
      | nil => cases h
      | cons c s =>
          rcases replaceFrom_cons isWord hneeds rep prev c s with ⟨_, _, -, -, hout⟩ | ⟨-, hout⟩
          · rw [hout, hrep] at h
            injection h with hd
            exact absurd (hd ▸ List.mem_cons_self) ho
          · rw [hout] at h
            injection h with hc h
            subst hc
            obtain ⟨v', hs, hv'⟩ := ih (fun hmem => ho (List.mem_cons_of_mem _ hmem)) h
            refine ⟨v', by rw [hs]; rfl, ?_⟩
            rwa [getLast?_cons_or]

/-- A match in a text after a sealed one is in the text. -/
theorem Sealed.occurs {t : α → Bool} {q : Pat α} {rep : List α} (hsealed : Sealed t q rep)
    {u w v out : List α} {prev next : Option α} (hw : Matches isWord q prev w next)
    (h : rep ++ out = u ++ (w ++ v)) : ∃ u', u = rep ++ u' ∧ out = u' ++ (w ++ v) := by
  rcases List.append_eq_append_iff.mp h with ⟨u', hu, hout⟩ | ⟨r, hr, hwv⟩
  · exact ⟨u', hu, hout⟩
  · rcases List.append_eq_append_iff.mp hwv with ⟨z, hz, -⟩ | ⟨z, hz, hout⟩
    · -- a match within the replacement text
      obtain ⟨d, hd, ht⟩ := hw.exists_mem hsealed.needs
      have hmem : d ∈ rep := by
        rw [hr, hz]
        exact List.mem_append_right _ (List.mem_append_left _ hd)
      exact absurd ht (List.countP_eq_zero.mp hsealed.clean d hmem)
    · cases hlast : r.getLast? with
      | none =>
          obtain rfl := List.getLast?_eq_none_iff.mp hlast
          refine ⟨[], by simpa using hr.symm, ?_⟩
          rw [hout, hz]
          rfl
      | some d =>
          -- a match across its end
          obtain ⟨init, c, hc, havoids⟩ := hsealed.last
          have hlast' : rep.getLast? = some d := by rw [hr, List.getLast?_append, hlast]; rfl
          have hd : c = d := by simpa [hc] using hlast'
          have hmem : c ∈ w := by
            rw [hz, hd]
            exact List.mem_append_left _ (List.mem_of_getLast? hlast)
          exact absurd hmem (hw.not_mem havoids)

section

variable {t t' : α → Bool} {p q : Pat α} {rep : List α}

/-- A match in the output that starts at an input character is one of the input. What
follows it there may be different, but a word ends in both or in none. -/
theorem matches_of_kept (hp : p.Bounded) (hneeds : p.Needs t) (hq : q.Bounded)
    (hsealed : Sealed t' q rep) {c : α} {s w v : List α} {prev prev' : Option α}
    (hprev : prev' = prev ∨ edge isWord prev (some c) = true)
    (hw : Matches isWord q prev' (c :: w) v.head?)
    (h : replaceFrom isWord p rep (some c) 0 s = w ++ v) :
    ∃ v', s = w ++ v' ∧ Matches isWord q prev (c :: w) v'.head? := by
  obtain ⟨o, tail, hrep, havoids⟩ := hsealed.first
  have ho : o ∉ w := fun hmem => hw.not_mem havoids (List.mem_cons_of_mem _ hmem)
  obtain ⟨v', hs, hv'⟩ := replaceFrom_kept hp hneeds hrep ho h
  obtain ⟨hstart, hend, hother⟩ := hw.bounded hq
  refine ⟨v', hs, ?_⟩
  apply hother
  · rcases hprev with rfl | hedge
    · exact hstart
    · exact hedge
  · rw [getLast?_cons_or] at hend ⊢
    rcases hv' with hv' | hedge
    · rwa [← hv']
    · exact hedge

/-- **A match after replacing** was there before, and the replaced pattern did not match
where it starts. Induction on the input, which may follow a replaced match: then its
neighbour in the output is another, but a word ends there in both. -/
theorem occurs_replaceFrom (hp : p.Bounded) (hneeds : p.Needs t) (hq : q.Bounded)
    (hsealed : Sealed t' q rep) {s : List α} {prev prev' : Option α}
    (hprev : prev' = prev ∨ edge isWord prev s.head? = true)
    (h : Occurs isWord q prev' (replaceFrom isWord p rep prev 0 s)) :
    ∃ u w v, s = u ++ (w ++ v) ∧ Matches isWord q (u.getLast?.or prev) w v.head? ∧
      matchLen isWord p (u.getLast?.or prev) (w ++ v) = none := by
  induction hlength : s.length using Nat.strongRecOn generalizing s prev prev' with
  | ind n ih =>
  cases s with
  | nil =>
      obtain ⟨u, w, v, hs, hw⟩ := h
      have hrest := (List.append_eq_nil_iff.mp hs.symm).2
      exact absurd (List.append_eq_nil_iff.mp hrest).1 (hw.ne_nil hsealed.needs)
  | cons c s =>
      rcases replaceFrom_cons isWord hneeds rep prev c s with
        ⟨w₀, rest, hs, hw₀, hout⟩ | ⟨hnone, hout⟩
      · -- the match lies behind the replacement text
        rw [hout] at h
        obtain ⟨u, w, v, happend, hw⟩ := h
        obtain ⟨u', rfl, hrest⟩ := hsealed.occurs hw happend
        have hlater : Occurs isWord q (rep.getLast?.or prev')
            (replaceFrom isWord p rep (w₀.getLast?.or prev) 0 rest) := by
          refine ⟨u', w, v, hrest, ?_⟩
          rwa [← getLast?_append_or]
        have hpos : 0 < w₀.length := List.length_pos_iff.mpr (hw₀.ne_nil hneeds)
        have hshort : rest.length < n := by
          rw [← hlength, hs, List.length_append]
          omega
        obtain ⟨u₁, w₁, v₁, hrest₁, hw₁, hnone₁⟩ :=
          ih rest.length hshort (.inr (hw₀.bounded hp).2.1) hlater rfl
        refine ⟨w₀ ++ u₁, w₁, v₁, ?_, ?_, ?_⟩
        · rw [hs, hrest₁, List.append_assoc]
        · rwa [getLast?_append_or]
        · rwa [getLast?_append_or]
      · rw [hout, occurs_cons] at h
        rcases h with ⟨w, v, hwv, hw⟩ | hlater
        · cases w with
          | nil => exact absurd rfl (hw.ne_nil hsealed.needs)
          | cons d w =>
              -- the match starts here and is kept as a whole
              injection hwv with hd hwv
              subst hd
              obtain ⟨v', hs, hw'⟩ := matches_of_kept hp hneeds hq hsealed hprev hw hwv
              refine ⟨[], c :: w, v', by rw [hs]; rfl, hw', ?_⟩
              rw [List.cons_append, ← hs]
              exact hnone
        · -- the match starts further on
          have hshort : s.length < n := by
            rw [← hlength]
            exact Nat.lt_succ_self _
          obtain ⟨u₁, w₁, v₁, hs₁, hw₁, hnone₁⟩ := ih s.length hshort (.inl rfl) hlater rfl
          refine ⟨c :: u₁, w₁, v₁, by rw [hs₁]; rfl, ?_, ?_⟩
          · rwa [getLast?_cons_or]
          · rwa [getLast?_cons_or]

/-- **No match of the replaced pattern is left.** -/
theorem not_occurs_replaceAll (hp : p.Bounded) (hsealed : Sealed t p rep) (s : List α) :
    ¬ Occurs isWord p none (replaceAll isWord p rep s) := by
  intro h
  obtain ⟨u, w, v, -, hw, hnone⟩ := occurs_replaceFrom hp hsealed.needs hp hsealed (.inl rfl) h
  have hsome := matchLen_isSome hw
  rw [hnone] at hsome
  cases hsome

/-- **No match of another pattern arises.** -/
theorem Occurs.of_replaceAll (hp : p.Bounded) (hneeds : p.Needs t) (hq : q.Bounded)
    (hsealed : Sealed t' q rep) {s : List α}
    (h : Occurs isWord q none (replaceAll isWord p rep s)) : Occurs isWord q none s := by
  obtain ⟨u, w, v, hs, hw, -⟩ := occurs_replaceFrom hp hneeds hq hsealed (.inl rfl) h
  exact ⟨u, w, v, hs, hw⟩

end

end Regex

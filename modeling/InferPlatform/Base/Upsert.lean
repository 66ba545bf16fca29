import Mathlib.Data.List.Induction
import Mathlib.Data.List.Nodup

/-!
# Keyed lists

A list of records with a key, and the upsert into it: a record of a key that is
there is merged into the one it finds, one of a new key is appended. After a
history of upserts a key has one record at most, the merge of all the records of
that key in their order.
-/

variable {α κ : Type} [DecidableEq κ] (key : α → κ) (merge : α → α → α)

/-- `merge old new` is what becomes of a record `old` of `new`'s key. -/
def upsertBy (x : α) : List α → List α
  | [] => [x]
  | y :: ys => if key y = key x then merge y x :: ys else y :: upsertBy x ys

/-- The list after a history of upserts. -/
def upsertAll (history : List α) : List α :=
  history.foldl (fun l x => upsertBy key merge x l) []

/-- What becomes of records that are all of one key. -/
def mergeAll : List α → Option α
  | [] => none
  | x :: xs => some (xs.foldl merge x)

theorem upsertAll_concat (history : List α) (x : α) :
    upsertAll key merge (history ++ [x]) = upsertBy key merge x (upsertAll key merge history) := by
  simp [upsertAll]

theorem mergeAll_concat (xs : List α) (x : α) :
    mergeAll merge (xs ++ [x]) = some (((mergeAll merge xs).map (merge · x)).getD x) := by
  cases xs with
  | nil => rfl
  | cons y ys => simp [mergeAll]

/-- The last record wins where a merge keeps nothing of the old one. -/
theorem mergeAll_eq_getLast? (xs : List α) : mergeAll (fun _ new => new) xs = xs.getLast? := by
  induction xs using List.reverseRecOn with
  | nil => rfl
  | append_singleton xs x ih =>
      rw [mergeAll_concat, List.getLast?_concat]
      cases mergeAll (fun _ new => new) xs <;> rfl

variable {key merge}

/-- A record of a new key is appended. -/
theorem upsertBy_of_new {x : α} {l : List α} (h : ∀ y ∈ l, key y ≠ key x) :
    upsertBy key merge x l = l ++ [x] := by
  induction l with
  | nil => rfl
  | cons y ys ih =>
      obtain ⟨hy, hys⟩ := List.forall_mem_cons.mp h
      rw [upsertBy, if_neg hy, ih hys]
      rfl

/-- With one record of a key at most, the upsert is an update of that record. -/
theorem upsertBy_of_mem {x : α} {l : List α} (hl : (l.map key).Nodup)
    (h : key x ∈ l.map key) :
    upsertBy key merge x l = l.map fun y => if key y = key x then merge y x else y := by
  induction l with
  | nil => simp at h
  | cons y ys ih =>
      rw [List.map_cons, List.nodup_cons] at hl
      rw [upsertBy, List.map_cons]
      split
      · -- no later record has the key
        rename_i hy
        have hrest : ys.map (fun z => if key z = key x then merge z x else z) = ys := by
          conv_rhs => rw [← List.map_id ys]
          apply List.map_congr_left
          intro z hz
          have hne : key z ≠ key x := by
            intro hzx
            exact hl.1 (List.mem_map.mpr ⟨z, hz, hzx.trans hy.symm⟩)
          exact if_neg hne
        rw [hrest]
      · rename_i hy
        rw [ih hl.2]
        simpa [Ne.symm hy] using h

theorem mem_upsertBy {x z : α} {l : List α} (h : z ∈ upsertBy key merge x l) :
    (z = x ∧ key x ∉ l.map key) ∨ z ∈ l ∨ ∃ y ∈ l, key y = key x ∧ z = merge y x := by
  induction l with
  | nil => exact .inl ⟨by simpa [upsertBy] using h, by simp⟩
  | cons y ys ih =>
      rw [upsertBy] at h
      split at h
      · rename_i hy
        rcases List.mem_cons.mp h with rfl | h
        · exact .inr (.inr ⟨y, List.mem_cons_self, hy, rfl⟩)
        · exact .inr (.inl (List.mem_cons_of_mem _ h))
      · rename_i hy
        rcases List.mem_cons.mp h with rfl | h
        · exact .inr (.inl List.mem_cons_self)
        · rcases ih h with ⟨rfl, hz⟩ | h | ⟨w, hw, hwx, rfl⟩
          · refine .inl ⟨rfl, ?_⟩
            rw [List.map_cons, List.mem_cons, not_or]
            exact ⟨Ne.symm hy, hz⟩
          · exact .inr (.inl (List.mem_cons_of_mem _ h))
          · exact .inr (.inr ⟨w, List.mem_cons_of_mem _ hw, hwx, rfl⟩)

/-- A second attribute stays unique where no other record has the new value of it. -/
theorem nodup_map_upsertBy {β : Type} {g : α → β} {x : α} {l : List α} (hl : (l.map g).Nodup)
    (hx : g x ∉ l.map g) (hmerge : ∀ y ∈ l, key y = key x → g (merge y x) = g y ∨ g (merge y x) = g x) :
    ((upsertBy key merge x l).map g).Nodup := by
  induction l with
  | nil => simp [upsertBy]
  | cons y ys ih =>
      rw [List.map_cons, List.nodup_cons] at hl
      rw [List.map_cons, List.mem_cons, not_or] at hx
      rw [upsertBy]
      split
      · rename_i hy
        rw [List.map_cons, List.nodup_cons]
        refine ⟨?_, hl.2⟩
        rcases hmerge y List.mem_cons_self hy with hg | hg
        · rw [hg]
          exact hl.1
        · rw [hg]
          exact hx.2
      · rw [List.map_cons, List.nodup_cons]
        refine ⟨?_, ih hl.2 hx.2 fun z hz => hmerge z (List.mem_cons_of_mem _ hz)⟩
        intro hmem
        obtain ⟨z, hz, hzy⟩ := List.mem_map.mp hmem
        rcases mem_upsertBy hz with ⟨rfl, -⟩ | hz | ⟨w, hw, hwx, rfl⟩
        · exact hx.1 hzy
        · exact hl.1 (List.mem_map.mpr ⟨z, hz, hzy⟩)
        · rcases hmerge w (List.mem_cons_of_mem _ hw) hwx with hg | hg
          · exact hl.1 (List.mem_map.mpr ⟨w, hw, hg.symm.trans hzy⟩)
          · exact hx.1 (hg.symm.trans hzy)

section Keys

variable (hkey : ∀ old new, key old = key new → key (merge old new) = key new)
include hkey

theorem map_key_upsertBy (x : α) (l : List α) :
    (upsertBy key merge x l).map key =
      if key x ∈ l.map key then l.map key else l.map key ++ [key x] := by
  induction l with
  | nil => simp [upsertBy]
  | cons y ys ih =>
      rw [upsertBy]
      split
      · rename_i hy
        simp [hkey y x hy, hy]
      · rename_i hy
        rw [List.map_cons, ih]
        by_cases hx : key x ∈ ys.map key
        · simp [hx]
        · simp [hx, Ne.symm hy]

theorem nodup_upsertBy (x : α) {l : List α} (hl : (l.map key).Nodup) :
    ((upsertBy key merge x l).map key).Nodup := by
  rw [map_key_upsertBy hkey]
  split
  · exact hl
  · rename_i hx
    rw [← List.concat_eq_append]
    exact hl.concat hx

theorem nodup_upsertAll (history : List α) : ((upsertAll key merge history).map key).Nodup := by
  induction history using List.reverseRecOn with
  | nil => exact List.nodup_nil
  | append_singleton history x ih =>
      rw [upsertAll_concat]
      exact nodup_upsertBy hkey x ih

theorem find?_upsertBy (x : α) (l : List α) (k : κ) :
    (upsertBy key merge x l).find? (fun y => key y = k) =
      if key x = k then some (((l.find? fun y => key y = k).map (merge · x)).getD x)
      else l.find? fun y => key y = k := by
  induction l with
  | nil => by_cases hx : key x = k <;> simp [upsertBy, hx]
  | cons y ys ih =>
      rw [upsertBy]
      by_cases hy : key y = key x
      · by_cases hx : key x = k
        · simp [hkey y x hy, hy, hx]
        · simp [hkey y x hy, hy, hx]
      · rw [if_neg hy]
        by_cases hyk : key y = k
        · have hx : key x ≠ k := fun hx => hy (hyk.trans hx.symm)
          simp [hyk, hx]
        · simp only [List.find?_cons, hyk, decide_false, ih]

/-- **The record of a key** is the merge of the key's history. -/
theorem find?_upsertAll (history : List α) (k : κ) :
    (upsertAll key merge history).find? (fun y => key y = k) =
      mergeAll merge (history.filter fun y => key y = k) := by
  induction history using List.reverseRecOn with
  | nil => rfl
  | append_singleton history x ih =>
      rw [upsertAll_concat, find?_upsertBy hkey, ih, List.filter_append]
      by_cases hx : key x = k
      · simp [hx, mergeAll_concat]
      · simp [hx]

end Keys

/-- Where keys are unique, a record is in the list if the search for its key finds it. -/
theorem find?_key_eq_some_iff {l : List α} (hl : (l.map key).Nodup) {x : α} :
    l.find? (fun y => key y = key x) = some x ↔ x ∈ l := by
  constructor
  · exact List.mem_of_find?_eq_some
  · intro hx
    obtain ⟨y, hy⟩ : ∃ y, l.find? (fun y => key y = key x) = some y := by
      apply Option.isSome_iff_exists.mp
      exact List.find?_isSome.mpr ⟨x, hx, by simp⟩
    have hkey : key y = key x := by simpa using List.find?_some hy
    rw [hy, List.inj_on_of_nodup_map hl (List.mem_of_find?_eq_some hy) hx hkey]

/-- Where the last record wins, a record is in the list if it is the last one of its key. -/
theorem mem_upsertAll_iff {history : List α} {x : α} :
    x ∈ upsertAll key (fun _ new => new) history ↔
      (history.filter fun y => key y = key x).getLast? = some x := by
  have hkey : ∀ old new : α, key old = key new → key new = key new := fun _ _ _ => rfl
  rw [← find?_key_eq_some_iff (nodup_upsertAll hkey history), find?_upsertAll hkey,
    mergeAll_eq_getLast?]

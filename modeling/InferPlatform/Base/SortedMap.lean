import Mathlib.Order.Lattice
import Mathlib.Data.List.Basic

/-!
# Ordered maps as sorted association lists

A map with ordered keys, represented by its entries in strictly increasing key
order. Arbitrary entry lists (a document with repeated keys) are collected into
a map by inserting them one after the other, so a later entry replaces an
earlier one with its key.

* `insertEntry`, `collect` — insertion, and the map of an entry list;
* `lookup_insertEntry`, `lookup_collect` — what a lookup sees afterwards;
* `collect_sorted` — collecting the entries of a map gives the map back.
-/

namespace SortedMap

variable {κ ν : Type} [LinearOrder κ]

/-- Keys in strictly increasing order, hence no key twice. -/
def Sorted (entries : List (κ × ν)) : Prop :=
  entries.Pairwise fun a b => a.1 < b.1

/-- Insert an entry, replacing the one with the same key. -/
def insertEntry (key : κ) (value : ν) : List (κ × ν) → List (κ × ν)
  | [] => [(key, value)]
  | (k, v) :: rest =>
    if key < k then (key, value) :: (k, v) :: rest
    else if key = k then (key, value) :: rest
    else (k, v) :: insertEntry key value rest

/-- The map of an entry list: the last entry of a key wins. -/
def collect (entries : List (κ × ν)) : List (κ × ν) :=
  entries.foldl (fun acc entry => insertEntry entry.1 entry.2 acc) []

theorem lookup_head (k k' : κ) (v : ν) (rest : List (κ × ν)) :
    ((k', v) :: rest).lookup k = if k = k' then some v else rest.lookup k := by
  by_cases hk : k = k'
  · rw [hk, List.lookup_cons_self, if_pos rfl]
  · have hne : (k == k') = false := by simpa using hk
    rw [List.lookup_cons, hne, if_neg hk]

theorem lookup_insertEntry (k key : κ) (value : ν) (entries : List (κ × ν)) :
    (insertEntry key value entries).lookup k =
      if k = key then some value else entries.lookup k := by
  induction entries with
  | nil => exact lookup_head k key value []
  | cons head rest ih =>
      obtain ⟨k', v'⟩ := head
      unfold insertEntry
      by_cases hlt : key < k'
      · rw [if_pos hlt, lookup_head]
      · by_cases heq : key = k'
        · subst heq
          rw [if_neg hlt, if_pos rfl, lookup_head, lookup_head]
          by_cases hk : k = key <;> simp [hk]
        · rw [if_neg hlt, if_neg heq, lookup_head, lookup_head, ih]
          by_cases hk : k = key
          · simp [hk, heq]
          · simp [hk]

/-- A lookup in the collected map finds the last entry of its key. -/
theorem lookup_collect (k : κ) (entries : List (κ × ν)) :
    (collect entries).lookup k = entries.reverse.lookup k := by
  suffices h : ∀ acc : List (κ × ν),
      (entries.foldl (fun acc entry => insertEntry entry.1 entry.2 acc) acc).lookup k =
        (entries.reverse.lookup k).or (acc.lookup k) by
    simpa [collect] using h []
  induction entries with
  | nil => intro acc; simp
  | cons head rest ih =>
      intro acc
      obtain ⟨k', v⟩ := head
      rw [List.foldl_cons, ih, lookup_insertEntry, List.reverse_cons, List.lookup_append,
        Option.or_assoc, lookup_head]
      by_cases hk : k = k' <;> simp [hk]

/-- A key above every key of the list goes to its end. -/
theorem insertEntry_append (key : κ) (value : ν) (entries : List (κ × ν))
    (h : ∀ entry ∈ entries, entry.1 < key) :
    insertEntry key value entries = entries ++ [(key, value)] := by
  induction entries with
  | nil => rfl
  | cons head rest ih =>
      have hhead : head.1 < key := h head List.mem_cons_self
      have hrest := ih fun entry hentry => h entry (List.mem_cons_of_mem _ hentry)
      simp [insertEntry, hhead.not_gt, hhead.ne', hrest]

/-- Collecting the entries of a map gives the map back. -/
theorem collect_sorted {entries : List (κ × ν)} (h : Sorted entries) :
    collect entries = entries := by
  suffices hacc : ∀ acc : List (κ × ν), Sorted (acc ++ entries) →
      entries.foldl (fun acc entry => insertEntry entry.1 entry.2 acc) acc = acc ++ entries from
    hacc [] (by simpa using h)
  clear h
  induction entries with
  | nil => intro acc _; simp
  | cons head rest ih =>
      intro acc hsorted
      have habove : ∀ entry ∈ acc, entry.1 < head.1 := fun entry hentry =>
        (List.pairwise_append.mp hsorted).2.2 entry hentry head List.mem_cons_self
      rw [List.foldl_cons, insertEntry_append _ _ _ habove, ih _ (by simpa using hsorted)]
      simp

end SortedMap

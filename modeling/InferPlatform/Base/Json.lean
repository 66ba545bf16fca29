import InferPlatform.Base.SortedMap
import Mathlib.Data.String.Basic

/-!
# JSON values

Values in memory keep the members of an object in key order without
repetition, as an ordered map does; a document on the wire may repeat a key.
Both are the one type `Json` here: `Json.ofEntries` is the step from wire
entries to an object in memory.
-/

/-- A number as a JSON library keeps it: unsigned, negative or floating. -/
inductive JsonNumber
  | posInt (n : UInt64)
  | negInt (n : Int64)
  | float (f : Float)

inductive Json
  | null
  | bool (b : Bool)
  | number (n : JsonNumber)
  | string (s : String)
  | array (items : List Json)
  | object (entries : List (String × Json))

namespace Json

open SortedMap

/-- The object that a list of entries is collected into. -/
def ofEntries (entries : List (String × Json)) : Json :=
  .object (collect entries)

/-- The member of an object; `none` on every other value. -/
def get? : Json → String → Option Json
  | .object entries, key => entries.lookup key
  | _, _ => none

/-- Follow a path of member names (`pointer` with tokens that are no array
indices). -/
def pointer : Json → List String → Option Json
  | value, [] => some value
  | value, key :: rest => (value.get? key).bind fun member => member.pointer rest

def asStr : Json → Option String
  | .string s => some s
  | _ => none

def asBool : Json → Option Bool
  | .bool b => some b
  | _ => none

def asU64 : Json → Option UInt64
  | .number (.posInt n) => some n
  | _ => none

/-! ## Documents in memory -/

mutual

/-- A document on the wire as it is kept in memory: in every object the last member of a
key counts. -/
def inMemory : Json → Json
  | .object entries => .ofEntries (entriesInMemory entries)
  | .array items => .array (itemsInMemory items)
  | .null => .null
  | .bool b => .bool b
  | .number n => .number n
  | .string s => .string s

def entriesInMemory : List (String × Json) → List (String × Json)
  | [] => []
  | (key, value) :: rest => (key, inMemory value) :: entriesInMemory rest

def itemsInMemory : List Json → List Json
  | [] => []
  | value :: rest => inMemory value :: itemsInMemory rest

end

theorem entriesInMemory_eq (entries : List (String × Json)) :
    entriesInMemory entries = entries.map fun entry => (entry.1, inMemory entry.2) := by
  induction entries with
  | nil => rfl
  | cons entry entries ih =>
      rw [entriesInMemory, ih]
      rfl

/-- A member that comes once is what memory has of its key. -/
theorem get?_inMemory {entries : List (String × Json)} {key : String} {value : Json}
    (h : entries.filter (fun entry => entry.1 = key) = [(key, value)]) :
    (inMemory (.object entries)).get? key = some (inMemory value) := by
  have hlookup : ∀ l : List (String × Json),
      l.lookup key = ((l.filter fun entry => entry.1 = key).head?).map (·.2) := by
    intro l
    induction l with
    | nil => rfl
    | cons entry l ih =>
        rw [lookup_head]
        by_cases hkey : key = entry.1
        · simp [hkey]
        · have hne : ¬ entry.1 = key := fun h => hkey h.symm
          rw [if_neg hkey, ih, List.filter_cons_of_neg (by simpa using hne)]
  have hfilter : ((entriesInMemory entries).filter fun entry => entry.1 = key) =
      [(key, inMemory value)] := by
    rw [entriesInMemory_eq, List.filter_map]
    show (entries.filter fun entry => entry.1 = key).map _ = _
    rw [h]
    rfl
  rw [inMemory, ofEntries, get?, lookup_collect, hlookup, List.filter_reverse, hfilter]
  rfl

end Json

/-- An object in memory: its members are in strictly increasing key order. -/
structure JsonMap where
  entries : List (String × Json)
  sorted : SortedMap.Sorted entries

namespace JsonMap

def toJson (m : JsonMap) : Json := .object m.entries

def get? (m : JsonMap) (key : String) : Option Json := m.entries.lookup key

theorem ofEntries_entries (m : JsonMap) : Json.ofEntries m.entries = m.toJson :=
  congrArg Json.object (SortedMap.collect_sorted m.sorted)

end JsonMap

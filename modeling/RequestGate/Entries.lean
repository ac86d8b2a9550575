/-!
# Ordered entries

Almost everything the gate reads or writes is a table with string keys whose *order is visible*:
the members of a JSON object, the parameters of an operation, the slots of a cache.
`RequestGate.Entries` is such a table as plain data, a list of pairs in the order in which the keys
were first put there.

No operation below ever creates a second entry under a key that is present already, so tables built
from `[]` by `insert` are free of repeated keys; `Entries.Distinct` says so as a proposition.
-/

namespace RequestGate

universe u v

/-- A table with string keys, its entries in order. -/
abbrev Entries (α : Type u) := List (String × α)

namespace Entries

variable {α : Type u} {β : Type v}

/-- The keys, in order. -/
def keys (entries : Entries α) : List String :=
  entries.map Prod.fst

/-- No key occurs twice. -/
def Distinct (entries : Entries α) : Prop :=
  (keys entries).Nodup

/-- The value of the first entry under `key`. -/
def get? : Entries α → String → Option α
  | [], _ => none
  | (k, v) :: rest, key => if k = key then some v else get? rest key

/-- Whether some entry has this key. -/
def contains (entries : Entries α) (key : String) : Bool :=
  (get? entries key).isSome

/-- Puts `value` under `key`: in the place of the entry that is there, else at the end. -/
def insert : Entries α → String → α → Entries α
  | [], key, value => [(key, value)]
  | (k, v) :: rest, key, value =>
    if k = key then (k, value) :: rest else (k, v) :: insert rest key value

/-- Inserts one entry after the other, so that the last of several with one key wins and the first
of them fixes the place. -/
def insertAll (entries : Entries α) (more : Entries α) : Entries α :=
  more.foldl (fun table entry => insert table entry.1 entry.2) entries

/-- The table of a list of entries that may repeat keys. -/
def ofList (entries : List (String × α)) : Entries α :=
  insertAll [] entries

/-- Removes the entry under `key`; the last entry of the table moves into its place. -/
def swapRemove : Entries α → String → Entries α
  | [], _ => []
  | (k, v) :: rest, key =>
    if k = key then
      match rest.getLast? with
      | none => []
      | some last => last :: rest.dropLast
    else (k, v) :: swapRemove rest key

/-- Removes every entry under `key`; the others keep their order. -/
def erase (entries : Entries α) (key : String) : Entries α :=
  entries.filter fun entry => entry.1 != key

/-- Applies `f` to the value under `key`, if there is one. -/
def modify : Entries α → String → (α → α) → Entries α
  | [], _, _ => []
  | (k, v) :: rest, key, f =>
    if k = key then (k, f v) :: rest else (k, v) :: modify rest key f

/-- Applies `f` to every value. -/
def mapValues (f : α → β) (entries : Entries α) : Entries β :=
  entries.map fun entry => (entry.1, f entry.2)

/-- Puts `value` under `key` in a table whose keys ascend, keeping them ascending. -/
def insertSorted : Entries α → String → α → Entries α
  | [], key, value => [(key, value)]
  | (k, v) :: rest, key, value =>
    if k = key then (k, value) :: rest
    else if key < k then (key, value) :: (k, v) :: rest
    else (k, v) :: insertSorted rest key value

@[simp] theorem get?_nil (key : String) : get? ([] : Entries α) key = none := rfl

theorem get?_cons (k : String) (v : α) (rest : Entries α) (key : String) :
    get? ((k, v) :: rest) key = if k = key then some v else get? rest key := rfl

@[simp] theorem get?_insert_self (entries : Entries α) (key : String) (value : α) :
    get? (insert entries key value) key = some value := by
  induction entries with
  | nil => simp [insert, get?]
  | cons entry rest ih =>
    obtain ⟨k, v⟩ := entry
    by_cases h : k = key <;> simp [insert, get?, h, ih]

theorem get?_insert_of_ne (entries : Entries α) {key other : String} (value : α)
    (h : key ≠ other) : get? (insert entries key value) other = get? entries other := by
  induction entries with
  | nil => simp [insert, get?, h]
  | cons entry rest ih =>
    obtain ⟨k, v⟩ := entry
    by_cases hk : k = key
    · subst hk
      simp [insert, get?, h]
    · simp [insert, get?, hk, ih]

end Entries

end RequestGate

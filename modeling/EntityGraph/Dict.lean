/-!
Dictionaries that keep the order in which their keys first arrived. Writing to a key that is
already there changes its value and not its place.
-/

namespace EntityGraph

universe u

/-- Keys with their values, oldest key first. -/
abbrev Dict (α : Type u) := List (String × α)

namespace Dict

variable {α : Type u}

def get? : Dict α → String → Option α
  | [], _ => none
  | (k, v) :: rest, key => if k = key then some v else get? rest key

def contains (d : Dict α) (key : String) : Bool := (get? d key).isSome

def keys (d : Dict α) : List String := d.map (·.1)

/-- Writes `v` under `key`, in place when the key is there and at the end when it is not. -/
def insert : Dict α → String → α → Dict α
  | [], key, v => [(key, v)]
  | (k, w) :: rest, key, v =>
      if k = key then (k, v) :: rest else (k, w) :: insert rest key v

def erase (d : Dict α) (key : String) : Dict α := d.filter (fun e => e.1 ≠ key)

/-- Writes every entry of `more`, from the left. -/
def insertAll (d more : Dict α) : Dict α := more.foldl (fun d e => insert d e.1 e.2) d

def ofList (entries : List (String × α)) : Dict α := insertAll [] entries

theorem get?_insert (d : Dict α) (key other : String) (v : α) :
    get? (insert d key v) other = if key = other then some v else get? d other := by
  induction d with
  | nil => simp [insert, get?]
  | cons e rest ih =>
      obtain ⟨k, w⟩ := e
      by_cases h : k = key
      · subst h
        by_cases h' : k = other <;> simp [insert, get?, h']
      · by_cases h' : k = other
        · subst h'
          simp [insert, get?, h, Ne.symm h]
        · simp [insert, get?, h, h', ih]

theorem keys_insert_of_contains (d : Dict α) (key : String) (v : α)
    (h : contains d key = true) : keys (insert d key v) = keys d := by
  induction d with
  | nil => simp [contains, get?] at h
  | cons e rest ih =>
      obtain ⟨k, w⟩ := e
      by_cases hk : k = key
      · simp [insert, keys, hk]
      · have h' : contains rest key = true := by simpa [contains, get?, hk] using h
        have := ih h'
        simp only [keys] at this
        simp [insert, keys, hk, this]

end Dict

end EntityGraph

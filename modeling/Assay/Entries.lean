/-! # Insertion-ordered maps

A map is the list of its entries in insertion order. Keys are compared by a given test:
a key that is already there keeps its place and its first spelling, and takes the new value.
-/

namespace Assay.Entries

variable {κ ν : Type}

/-- The value under the first entry whose key passes the test. -/
def lookup (same : κ → κ → Bool) (key : κ) : List (κ × ν) → Option ν
  | [] => none
  | (k, v) :: rest => if same k key then some v else lookup same key rest

/-- Whether some entry has the key. -/
def contains (same : κ → κ → Bool) (key : κ) (es : List (κ × ν)) : Bool :=
  (lookup same key es).isSome

/-- Replaces the value under the key, or adds an entry at the end. -/
def insert (same : κ → κ → Bool) (key : κ) (value : ν) : List (κ × ν) → List (κ × ν)
  | [] => [(key, value)]
  | (k, v) :: rest =>
    if same k key then (k, value) :: rest else (k, v) :: insert same key value rest

/-- Drops the first entry with the key. -/
def erase (same : κ → κ → Bool) (key : κ) : List (κ × ν) → List (κ × ν)
  | [] => []
  | (k, v) :: rest => if same k key then rest else (k, v) :: erase same key rest

/-- Enters pairs from left to right. -/
def insertAll (same : κ → κ → Bool) (es pairs : List (κ × ν)) : List (κ × ν) :=
  pairs.foldl (fun acc p => insert same p.1 p.2 acc) es

/-- The map that pairs entered from left to right make. -/
def ofList (same : κ → κ → Bool) (pairs : List (κ × ν)) : List (κ × ν) :=
  insertAll same [] pairs

/-- The first of each class of equal members, in order. -/
def distinct (same : κ → κ → Bool) (keys : List κ) : List κ :=
  keys.foldl (fun acc k => if acc.any (same · k) then acc else acc ++ [k]) []

/-- A number that no entry has. -/
def fresh (es : List (Nat × ν)) : Nat :=
  es.foldl (fun n e => max n (e.1 + 1)) 0

variable {ε : Type}

/-- The value under the first entry whose key is the one looked for. A key that cannot be
compared ends the search. -/
def search (isKey : κ → Except ε Bool) : List (κ × ν) → Except ε (Option ν)
  | [] => .ok none
  | (k, v) :: rest =>
    match isKey k with
    | .error e => .error e
    | .ok true => .ok (some v)
    | .ok false => search isKey rest

/-- Replaces the value under the key looked for, or adds an entry at the end. -/
def enter (isKey : κ → Except ε Bool) (key : κ) (value : ν) :
    List (κ × ν) → Except ε (List (κ × ν))
  | [] => .ok [(key, value)]
  | (k, v) :: rest =>
    match isKey k with
    | .error e => .error e
    | .ok true => .ok ((k, value) :: rest)
    | .ok false => (enter isKey key value rest).map ((k, v) :: ·)

/-- Drops the first entry with the key looked for, if there is one. -/
def remove (isKey : κ → Except ε Bool) : List (κ × ν) → Except ε (Option (List (κ × ν)))
  | [] => .ok none
  | (k, v) :: rest =>
    match isKey k with
    | .error e => .error e
    | .ok true => .ok (some rest)
    | .ok false => (remove isKey rest).map (·.map ((k, v) :: ·))

theorem lookup_insert_self {same : κ → κ → Bool} {key : κ} (self : same key key = true)
    (value : ν) (es : List (κ × ν)) :
    lookup same key (insert same key value es) = some value := by
  induction es with
  | nil => simp [insert, lookup, self]
  | cons e rest ih =>
    obtain ⟨k, v⟩ := e
    by_cases h : same k key <;> simp [insert, lookup, h, ih]

theorem lookup_insert_of_ne [BEq κ] [LawfulBEq κ] {key other : κ} (ne : other ≠ key)
    (value : ν) (es : List (κ × ν)) :
    lookup (· == ·) key (insert (· == ·) other value es) = lookup (· == ·) key es := by
  induction es with
  | nil => simp [insert, lookup, ne]
  | cons e rest ih =>
      obtain ⟨k, v⟩ := e
      by_cases here : k = other
      · simp [insert, lookup, here, ne]
      · simp [insert, lookup, here, ih]

private theorem le_fresh_from (es : List (Nat × ν)) (n : Nat) :
    n ≤ es.foldl (fun n e => max n (e.1 + 1)) n := by
  induction es generalizing n with
  | nil => exact Nat.le_refl n
  | cons e rest ih => exact Nat.le_trans (Nat.le_max_left _ _) (ih _)

theorem lookup_above {i n : Nat} (es : List (Nat × ν))
    (above : es.foldl (fun n e => max n (e.1 + 1)) n ≤ i) :
    lookup (· == ·) i es = none := by
  induction es generalizing n with
  | nil => rfl
  | cons e rest ih =>
      obtain ⟨k, v⟩ := e
      simp only [List.foldl_cons] at above
      have below : k + 1 ≤ i := by
        have := le_fresh_from rest (max n (k + 1))
        omega
      have other : ¬ k = i := by omega
      simp [lookup, other, ih above]

theorem lookup_fresh (es : List (Nat × ν)) : lookup (· == ·) (fresh es) es = none :=
  lookup_above es (Nat.le_refl _)

end Assay.Entries

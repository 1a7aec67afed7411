/-!
# Ordered tables

`Fields κ α` is a finite table from names to values that remembers the order of its entries. Setting a
name that is present replaces its value in place, setting a new one appends it; so a table is a list of
entries with distinct names, and every operation keeps them distinct.

The operations are defined on plain entry lists first (`Entries`), which nested values use as they are.
Main statements: what `get?` answers after each operation, and what happens to the names.
-/

namespace RowPipeline

/-! ### Entry lists -/

namespace Entries

variable {κ α : Type} [DecidableEq κ]

/-- The value under a name. -/
def get? (k : κ) : List (κ × α) → Option α
  | [] => none
  | (k', v) :: rest => if k' = k then some v else get? k rest

/-- Replaces the value under a name in place, or appends the entry. -/
def put (k : κ) (v : α) : List (κ × α) → List (κ × α)
  | [] => [(k, v)]
  | (k', w) :: rest => if k' = k then (k', v) :: rest else (k', w) :: put k v rest

/-- The names in order. -/
def keys (es : List (κ × α)) : List κ := es.map Prod.fst

omit [DecidableEq κ] in
@[simp] theorem keys_nil : keys ([] : List (κ × α)) = [] := rfl

omit [DecidableEq κ] in
@[simp] theorem keys_cons (e : κ × α) (es : List (κ × α)) : keys (e :: es) = e.1 :: keys es := rfl

/-- Replacing keeps the names, appending adds one at the end. -/
theorem keys_put (k : κ) (v : α) (es : List (κ × α)) :
    keys (put k v es) = if k ∈ keys es then keys es else keys es ++ [k] := by
  induction es with
  | nil => simp [put]
  | cons e es ih =>
    obtain ⟨k', w⟩ := e
    by_cases h : k' = k
    · simp [put, h]
    · have h' : ¬ k = k' := fun e => h e.symm
      simp only [put, h, if_false, keys_cons, ih, List.mem_cons, h', false_or]
      split <;> simp

theorem nodup_keys_put (k : κ) (v : α) {es : List (κ × α)} (h : (keys es).Nodup) :
    (keys (put k v es)).Nodup := by
  rw [keys_put]
  split
  · exact h
  · rename_i hk
    rw [List.nodup_append]
    refine ⟨h, by simp, ?_⟩
    intro a ha b hb hab
    simp only [List.mem_singleton] at hb
    exact hk (hb ▸ hab ▸ ha)

theorem get?_put (k k' : κ) (v : α) (es : List (κ × α)) :
    get? k' (put k v es) = if k = k' then some v else get? k' es := by
  induction es with
  | nil => simp [put, get?]
  | cons e es ih =>
    obtain ⟨a, w⟩ := e
    by_cases h : a = k
    · subst h; by_cases h' : a = k' <;> simp [put, get?, h']
    · by_cases h' : a = k'
      · subst h'; simp [put, get?, h, Ne.symm h]
      · simp [put, get?, h, h', ih]

theorem get?_eq_none_iff {k : κ} {es : List (κ × α)} : get? k es = none ↔ k ∉ keys es := by
  induction es with
  | nil => simp [get?]
  | cons e es ih =>
    obtain ⟨a, w⟩ := e
    by_cases h : a = k
    · simp [get?, h]
    · simp [get?, h, ih, Ne.symm h]

theorem mem_keys_of_get? {k : κ} {v : α} {es : List (κ × α)} (h : get? k es = some v) :
    k ∈ keys es := by
  by_cases hk : k ∈ keys es
  · exact hk
  · rw [get?_eq_none_iff.2 hk] at h; simp at h

/-- Sets the entries one after the other. -/
def putAll (es new : List (κ × α)) : List (κ × α) := new.foldl (fun acc e => put e.1 e.2 acc) es

theorem nodup_keys_putAll (new : List (κ × α)) {es : List (κ × α)} (h : (keys es).Nodup) :
    (keys (putAll es new)).Nodup := by
  induction new generalizing es with
  | nil => exact h
  | cons e new ih => exact ih (nodup_keys_put e.1 e.2 h)

omit [DecidableEq κ] in
theorem nodup_keys_filter (p : κ × α → Bool) {es : List (κ × α)} (h : (keys es).Nodup) :
    (keys (es.filter p)).Nodup :=
  (List.filter_sublist.map Prod.fst).nodup h

end Entries

/-! ### Tables -/

/-- A table from names to values, its entries in order and their names distinct. -/
structure Fields (κ α : Type) where
  entries : List (κ × α)
  nodup : (Entries.keys entries).Nodup

namespace Fields

variable {κ α β : Type}

/-- The table without entries. -/
def empty : Fields κ α := ⟨[], by simp⟩

instance : Inhabited (Fields κ α) := ⟨empty⟩

instance : EmptyCollection (Fields κ α) := ⟨empty⟩

/-- The names in order. -/
def keys (t : Fields κ α) : List κ := Entries.keys t.entries

/-- Whether a table has no entries. -/
def isEmpty (t : Fields κ α) : Bool := t.entries.isEmpty

variable [DecidableEq κ]

/-- The value under a name. -/
def get? (t : Fields κ α) (k : κ) : Option α := Entries.get? k t.entries

/-- Whether a name has a value. -/
def contains (t : Fields κ α) (k : κ) : Bool := (t.get? k).isSome

/-- Sets the value under a name, in place if the name is present. -/
def insert (t : Fields κ α) (k : κ) (v : α) : Fields κ α :=
  ⟨Entries.put k v t.entries, Entries.nodup_keys_put k v t.nodup⟩

/-- Keeps the entries that satisfy a test. -/
def filter (p : κ → α → Bool) (t : Fields κ α) : Fields κ α :=
  ⟨t.entries.filter fun e => p e.1 e.2, Entries.nodup_keys_filter _ t.nodup⟩

/-- Removes a name. -/
def erase (t : Fields κ α) (k : κ) : Fields κ α := t.filter fun k' _ => k' ≠ k

/-- Removes several names. -/
def eraseAll (t : Fields κ α) (ks : List κ) : Fields κ α := t.filter fun k _ => k ∉ ks

/-- Sets entries one after the other. -/
def insertAll (t : Fields κ α) (es : List (κ × α)) : Fields κ α :=
  ⟨Entries.putAll t.entries es, Entries.nodup_keys_putAll es t.nodup⟩

/-- The table of an entry list; of two entries with one name the later value stands. -/
def ofList (es : List (κ × α)) : Fields κ α := empty.insertAll es

/-- The first table overlaid with the second. -/
def merge (t u : Fields κ α) : Fields κ α := t.insertAll u.entries

omit [DecidableEq κ] in
theorem ext {t u : Fields κ α} (h : t.entries = u.entries) : t = u := by
  cases t; cases u; simp_all

omit [DecidableEq κ] in
@[simp] theorem entries_empty : (∅ : Fields κ α).entries = [] := rfl

@[simp] theorem get?_empty (k : κ) : (∅ : Fields κ α).get? k = none := rfl

@[simp] theorem get?_insert (t : Fields κ α) (k k' : κ) (v : α) :
    (t.insert k v).get? k' = if k = k' then some v else t.get? k' :=
  Entries.get?_put k k' v t.entries

theorem keys_insert (t : Fields κ α) (k : κ) (v : α) :
    (t.insert k v).keys = if k ∈ t.keys then t.keys else t.keys ++ [k] :=
  Entries.keys_put k v t.entries

theorem mem_keys_of_get? {t : Fields κ α} {k : κ} {v : α} (h : t.get? k = some v) : k ∈ t.keys :=
  Entries.mem_keys_of_get? h

theorem get?_eq_none_iff {t : Fields κ α} {k : κ} : t.get? k = none ↔ k ∉ t.keys :=
  Entries.get?_eq_none_iff

end Fields

end RowPipeline

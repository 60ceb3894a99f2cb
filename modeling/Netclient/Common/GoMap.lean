import Mathlib.Data.List.Nodup
import Mathlib.Algebra.BigOperators.Group.List
/-!
# Common — Go maps

The router keeps its rule tables in Go maps. A `GoMap` is the list of a map's
entries in one iteration order, each key once; Go leaves the order open, so a
result about every `GoMap` holds for every order the runtime may pick. The
operations are the three the router uses, `m[k]`, `m[k] = v` and
`delete(m, k)`, with their lookup laws `get?_insert` and `get?_erase`.
-/

namespace Netclient

/-- A Go `map[K]V`: its entries in one iteration order, each key at most once. -/
structure GoMap (K V : Type) where
  entries : List (K × V)
  nodup : (entries.map Prod.fst).Nodup

namespace GoMap

variable {K V : Type} [DecidableEq K]

/-- The value of the first entry with key `k`. -/
def lookup (k : K) : List (K × V) → Option V
  | [] => none
  | (a, b) :: es => if a = k then some b else lookup k es

/-- The entries without those of key `k`. -/
def dropKey (k : K) : List (K × V) → List (K × V)
  | [] => []
  | (a, b) :: es => if a = k then dropKey k es else (a, b) :: dropKey k es

/-- Dropping a key keeps the other entries in order. -/
theorem dropKey_sublist (k : K) (es : List (K × V)) : (dropKey k es).Sublist es := by
  induction es with
  | nil => exact .slnil
  | cons e es ih =>
    obtain ⟨a, b⟩ := e
    unfold dropKey
    split
    · exact ih.cons _
    · exact ih.cons₂ _

/-- After dropping a key, it reads as absent and every other key as before. -/
theorem lookup_dropKey (k k' : K) (es : List (K × V)) :
    lookup k' (dropKey k es) = if k' = k then none else lookup k' es := by
  induction es with
  | nil => simp [dropKey, lookup]
  | cons e es ih =>
    obtain ⟨a, b⟩ := e
    by_cases ha : a = k
    · subst ha
      by_cases h : k' = a <;> simp_all [dropKey, lookup, eq_comm]
    · by_cases h : k' = a <;> simp_all [dropKey, lookup, eq_comm]

/-- The entries with key `k`'s value replaced, or `(k, v)` last when `k` is absent. -/
def setKey (k : K) (v : V) : List (K × V) → List (K × V)
  | [] => [(k, v)]
  | (a, b) :: es => if a = k then (k, v) :: es else (a, b) :: setKey k v es

/-- Setting a key keeps the keys, appending it when it was absent. -/
theorem keys_setKey (k : K) (v : V) (es : List (K × V)) :
    (setKey k v es).map Prod.fst =
      if k ∈ es.map Prod.fst then es.map Prod.fst else es.map Prod.fst ++ [k] := by
  induction es with
  | nil => simp [setKey]
  | cons e es ih =>
    obtain ⟨a, b⟩ := e
    by_cases h : a = k
    · subst h
      simp [setKey]
    · by_cases hk : k ∈ es.map Prod.fst <;> simp_all [setKey, Ne.symm h]

/-- After setting a key, it reads as the new value and every other key as before. -/
theorem lookup_setKey (k k' : K) (v : V) (es : List (K × V)) :
    lookup k' (setKey k v es) = if k' = k then some v else lookup k' es := by
  induction es with
  | nil => by_cases h : k' = k <;> simp [setKey, lookup, h, Ne.symm]
  | cons e es ih =>
    obtain ⟨a, b⟩ := e
    by_cases ha : a = k
    · subst ha
      by_cases h : k' = a
      · simp [setKey, lookup, h]
      · simp [setKey, lookup, h, Ne.symm h]
    · by_cases h : k' = a <;> simp_all [setKey, lookup, eq_comm]

/-- Mapping the values maps what a lookup finds. -/
theorem lookup_map {W : Type} (f : V → W) (k : K) :
    ∀ es : List (K × V), lookup k (es.map fun e => (e.1, f e.2)) = (lookup k es).map f
  | [] => rfl
  | (a, b) :: es => by
    by_cases h : a = k <;> simp [lookup, h, lookup_map f k es]

/-- The later of two writes to a key wins. -/
theorem setKey_setKey (k : K) (v v' : V) (es : List (K × V)) :
    setKey k v' (setKey k v es) = setKey k v' es := by
  induction es with
  | nil => simp [setKey]
  | cons e es ih =>
    obtain ⟨a, b⟩ := e
    by_cases h : a = k <;> simp [setKey, h, ih]

/-- Writing a key's own value changes nothing. -/
theorem setKey_of_lookup {k : K} {v : V} {es : List (K × V)} (h : lookup k es = some v) :
    setKey k v es = es := by
  induction es with
  | nil => cases h
  | cons e es ih =>
    obtain ⟨a, b⟩ := e
    by_cases ha : a = k
    · subst ha
      simp only [lookup, if_true, Option.some.injEq] at h
      simp [setKey, h]
    · simp only [lookup, ha, if_false] at h
      simp [setKey, ha, ih h]

omit [DecidableEq K] in
/-- Two maps with the same entries are the same map. -/
@[ext] theorem ext {m m' : GoMap K V} (h : m.entries = m'.entries) : m = m' := by
  cases m
  cases m'
  cases h
  rfl

/-- `make(map[K]V)`. -/
def empty : GoMap K V := ⟨[], List.nodup_nil⟩

/-- `v, ok := m[k]`. -/
def get? (m : GoMap K V) (k : K) : Option V := lookup k m.entries

/-- `delete(m, k)`. -/
def erase (m : GoMap K V) (k : K) : GoMap K V :=
  ⟨dropKey k m.entries, m.nodup.sublist ((dropKey_sublist k _).map _)⟩

/-- `m[k] = v`: in place when `k` is present, last otherwise. -/
def insert (m : GoMap K V) (k : K) (v : V) : GoMap K V :=
  ⟨setKey k v m.entries, by
    rw [keys_setKey]
    split
    · exact m.nodup
    · rename_i hk
      exact List.nodup_append.2 ⟨m.nodup, List.nodup_singleton _, List.disjoint_singleton.2 hk⟩⟩

/-- The map with `f` applied to every value. -/
def map {W : Type} (f : V → W) (m : GoMap K V) : GoMap K W :=
  ⟨m.entries.map fun e => (e.1, f e.2), by simpa [Function.comp_def] using m.nodup⟩

/-- The later of two writes to a key wins. -/
@[simp] theorem insert_insert (m : GoMap K V) (k : K) (v v' : V) :
    (m.insert k v).insert k v' = m.insert k v' :=
  ext (setKey_setKey k v v' m.entries)

/-- Writing a key's own value back changes nothing. -/
theorem insert_of_get? {m : GoMap K V} {k : K} {v : V} (h : m.get? k = some v) :
    m.insert k v = m :=
  ext (setKey_of_lookup h)

/-- An empty map holds no key. -/
@[simp] theorem get?_empty (k : K) : (empty : GoMap K V).get? k = none := rfl

/-- `delete(m, k)` makes `k` absent and leaves the other keys. -/
@[simp] theorem get?_erase (m : GoMap K V) (k k' : K) :
    (m.erase k).get? k' = if k' = k then none else m.get? k' :=
  lookup_dropKey k k' m.entries

/-- `m[k] = v` makes `k` read `v` and leaves the other keys. -/
@[simp] theorem get?_insert (m : GoMap K V) (k k' : K) (v : V) :
    (m.insert k v).get? k' = if k' = k then some v else m.get? k' :=
  lookup_setKey k k' v m.entries

/-- Mapping the values maps what `m[k]` reads. -/
@[simp] theorem get?_map {W : Type} (f : V → W) (m : GoMap K V) (k : K) :
    (m.map f).get? k = (m.get? k).map f :=
  lookup_map f k m.entries

/-- A key with no entry reads as absent. -/
theorem lookup_eq_none {k : K} : ∀ {es : List (K × V)}, k ∉ es.map Prod.fst → lookup k es = none
  | [], _ => rfl
  | (a, b) :: es, h => by
    simp only [List.map_cons, List.mem_cons, not_or] at h
    simp [lookup, Ne.symm h.1, lookup_eq_none h.2]

/-- With distinct keys, an entry is what its key reads. -/
theorem lookup_of_mem {k : K} {v : V} :
    ∀ {es : List (K × V)}, (es.map Prod.fst).Nodup → (k, v) ∈ es → lookup k es = some v
  | (a, b) :: es, hnd, h => by
    simp only [List.map_cons, List.nodup_cons] at hnd
    rcases List.mem_cons.1 h with h | h
    · cases h
      simp [lookup]
    · have hne : a ≠ k := fun hak => hnd.1 (hak ▸ List.mem_map_of_mem Prod.fst h)
      simp [lookup, hne, lookup_of_mem hnd.2 h]

/-- What a key reads is one of the entries. -/
theorem mem_of_lookup {k : K} {v : V} : ∀ {es : List (K × V)}, lookup k es = some v → (k, v) ∈ es
  | (a, b) :: es, h => by
    by_cases hak : a = k
    · subst hak
      simp only [lookup, if_true, Option.some.injEq] at h
      simp [h]
    · simp only [lookup, hak, if_false] at h
      exact List.mem_cons_of_mem _ (mem_of_lookup h)

/-- A key with no entry reads as absent. -/
theorem get?_eq_none_of_not_mem (m : GoMap K V) {k : K} (h : k ∉ m.entries.map Prod.fst) :
    m.get? k = none := lookup_eq_none h

/-- An entry is what its key reads. -/
theorem get?_of_mem (m : GoMap K V) {k : K} {v : V} (h : (k, v) ∈ m.entries) :
    m.get? k = some v := lookup_of_mem m.nodup h

/-- What a key reads is one of the map's entries. -/
theorem mem_of_get? (m : GoMap K V) {k : K} {v : V} (h : m.get? k = some v) :
    (k, v) ∈ m.entries := mem_of_lookup h

/-- The values of a map, in its iteration order. -/
def values (m : GoMap K V) : List V := m.entries.map Prod.snd

/-- What a key reads is one of the map's values. -/
theorem mem_values_of_get? (m : GoMap K V) {k : K} {v : V} (h : m.get? k = some v) :
    v ∈ m.values :=
  List.mem_map_of_mem Prod.snd (m.mem_of_get? h)

omit [DecidableEq K] in
/-- `map` reads a map's values only. -/
theorem map_congr {W : Type} {f g : V → W} (m : GoMap K V) (h : ∀ v ∈ m.values, f v = g v) :
    m.map f = m.map g :=
  ext (List.map_congr_left fun e he => by rw [h e.2 (List.mem_map_of_mem Prod.snd he)])

/-- On distinct values, mapping with one value replaced is mapping and then writing its key. -/
theorem map_update_list {W : Type} [DecidableEq V] (f : V → W) (k : K) (v : V) (w : W) :
    ∀ es : List (K × V), lookup k es = some v → (es.map Prod.snd).Nodup →
      es.map (fun e => (e.1, if e.2 = v then w else f e.2)) =
        setKey k w (es.map fun e => (e.1, f e.2))
  | [], h, _ => by cases h
  | (a, b) :: es, h, hnd => by
    rw [List.map_cons, List.nodup_cons] at hnd
    by_cases ha : a = k
    · simp only [lookup, ha, if_true, Option.some.injEq] at h
      subst h
      have hes : es.map (fun e => (e.1, if e.2 = b then w else f e.2)) =
          es.map fun e => (e.1, f e.2) :=
        List.map_congr_left fun e he => by
          have he' : e.2 ∈ es.map Prod.snd := List.mem_map_of_mem Prod.snd he
          rw [if_neg fun (hb : e.2 = b) => hnd.1 (hb ▸ he')]
      simp [setKey, ha, hes]
    · simp only [lookup, ha, if_false] at h
      have hv : v ∈ es.map Prod.snd := List.mem_map_of_mem Prod.snd (mem_of_lookup h)
      have hb : b ≠ v := fun hb => hnd.1 (hb ▸ hv)
      simp [setKey, ha, hb, map_update_list f k v w es h hnd.2]

/-- **One shared value changed.** When the values are distinct, changing
what `f` gives at `m[k]` changes the mapped map at `k` alone. -/
theorem map_update {W : Type} [DecidableEq V] (f : V → W) (m : GoMap K V) {k : K} {v : V}
    (w : W) (hk : m.get? k = some v) (hv : m.values.Nodup) :
    m.map (fun x => if x = v then w else f x) = (m.map f).insert k w :=
  ext (map_update_list f k v w m.entries hk hv)

/-! ## Sums over a map's values -/

section Sum

variable {M : Type} [AddCommMonoid M] (f : V → M)

/-- The sum of `f` over a map's values. -/
def sumBy (m : GoMap K V) : M := (m.entries.map fun e => f e.2).sum

/-- Dropping a key with no entry changes nothing. -/
theorem dropKey_of_not_mem {k : K} :
    ∀ {es : List (K × V)}, k ∉ es.map Prod.fst → dropKey k es = es
  | [], _ => rfl
  | (a, b) :: es, h => by
    simp only [List.map_cons, List.mem_cons, not_or] at h
    simp [dropKey, Ne.symm h.1, dropKey_of_not_mem h.2]

/-- Setting a key adds the new value's share and takes out the old one's. -/
theorem sum_setKey (k : K) (v : V) : ∀ es : List (K × V),
    ((setKey k v es).map fun e => f e.2).sum + ((lookup k es).map f).getD 0 =
      (es.map fun e => f e.2).sum + f v
  | [] => by simp [setKey, lookup]
  | (a, b) :: es => by
    by_cases ha : a = k
    · simp [setKey, lookup, ha, add_comm, add_left_comm]
    · simp only [setKey, lookup, ha, if_false, List.map_cons, List.sum_cons, add_assoc,
        sum_setKey k v es]

/-- Dropping a key takes out its value's share. -/
theorem sum_dropKey (k : K) : ∀ es : List (K × V), (es.map Prod.fst).Nodup →
    ((dropKey k es).map fun e => f e.2).sum + ((lookup k es).map f).getD 0 =
      (es.map fun e => f e.2).sum
  | [], _ => by simp [dropKey, lookup]
  | (a, b) :: es, hnd => by
    rw [List.map_cons, List.nodup_cons] at hnd
    by_cases ha : a = k
    · subst ha
      simp [dropKey, lookup, dropKey_of_not_mem hnd.1, add_comm]
    · simp only [dropKey, lookup, ha, if_false, List.map_cons, List.sum_cons, add_assoc,
        sum_dropKey k es hnd.2]

omit [DecidableEq K] in
/-- An empty map sums to nothing. -/
@[simp] theorem sumBy_empty : (empty : GoMap K V).sumBy f = 0 := rfl

/-- `m[k] = v` adds `f v` and takes out what `f` gave the old value. -/
theorem sumBy_insert (m : GoMap K V) (k : K) (v : V) :
    (m.insert k v).sumBy f + ((m.get? k).map f).getD 0 = m.sumBy f + f v :=
  sum_setKey f k v m.entries

/-- `delete(m, k)` takes out what `f` gave the value at `k`. -/
theorem sumBy_erase (m : GoMap K V) (k : K) :
    (m.erase k).sumBy f + ((m.get? k).map f).getD 0 = m.sumBy f :=
  sum_dropKey f k m.entries m.nodup

end Sum

end GoMap

end Netclient

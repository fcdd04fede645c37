/-
A dictionary that keeps the order in which its keys came in.

Setting a key that is there changes the value where it stands, a new key goes to the end. What
is looked up after an operation is said by one equation for each (`get?_set`, `get?_union`,
`get?_filter`), and the entries are what is looked up (`mem_entries`).
-/
import Mathlib.Data.List.Nodup
import Mathlib.Tactic.Common

set_option autoImplicit false

namespace PaCopilot

/-- The entries, each key once. -/
structure Dict (K V : Type) where
  entries : List (K × V)
  nodup : (entries.map Prod.fst).Nodup
  deriving DecidableEq

namespace Dict

variable {K V : Type} [DecidableEq K]

/-! ## Entries in a list -/

def putEntry (key : K) (value : V) : List (K × V) → List (K × V)
  | [] => [(key, value)]
  | e :: rest => if e.1 = key then (key, value) :: rest else e :: putEntry key value rest

def valueAt (key : K) : List (K × V) → Option V
  | [] => none
  | e :: rest => if e.1 = key then some e.2 else valueAt key rest

theorem putEntry_new {key : K} {entries : List (K × V)} (h : ∀ e ∈ entries, e.1 ≠ key)
    (value : V) : putEntry key value entries = entries ++ [(key, value)] := by
  induction entries with
  | nil => rfl
  | cons e entries ih =>
    rw [List.forall_mem_cons] at h
    rw [putEntry, if_neg h.1, ih h.2, List.cons_append]

theorem keys_putEntry (key : K) (value : V) (entries : List (K × V)) :
    (putEntry key value entries).map Prod.fst =
      if key ∈ entries.map Prod.fst then entries.map Prod.fst
      else entries.map Prod.fst ++ [key] := by
  induction entries with
  | nil => rfl
  | cons e entries ih =>
    rw [putEntry, List.map_cons]
    by_cases hkey : e.1 = key
    · rw [if_pos hkey, List.map_cons, hkey, if_pos List.mem_cons_self]
    · rw [if_neg hkey, List.map_cons, ih]
      have hmem : key ∈ e.1 :: entries.map Prod.fst ↔ key ∈ entries.map Prod.fst := by
        rw [List.mem_cons]
        exact or_iff_right fun heq => hkey heq.symm
      by_cases h : key ∈ entries.map Prod.fst
      · rw [if_pos h, if_pos (hmem.mpr h)]
      · rw [if_neg h, if_neg fun h' => h (hmem.mp h'), List.cons_append]

theorem nodup_putEntry (key : K) (value : V) {entries : List (K × V)}
    (h : (entries.map Prod.fst).Nodup) : ((putEntry key value entries).map Prod.fst).Nodup := by
  rw [keys_putEntry]
  split
  · exact h
  · rename_i hnew
    rw [List.nodup_append]
    refine ⟨h, List.nodup_singleton key, fun a ha b hb => ?_⟩
    rw [List.mem_singleton] at hb
    rintro rfl
    exact hnew (hb ▸ ha)

theorem valueAt_putEntry (key other : K) (value : V) (entries : List (K × V)) :
    valueAt other (putEntry key value entries) =
      if key = other then some value else valueAt other entries := by
  induction entries with
  | nil => rfl
  | cons e entries ih =>
    rw [putEntry]
    by_cases hkey : e.1 = key
    · rw [if_pos hkey, valueAt, valueAt, hkey]
      by_cases h : key = other
      · rw [if_pos h, if_pos h]
      · rw [if_neg h, if_neg h, if_neg h]
    · rw [if_neg hkey, valueAt, valueAt, ih]
      by_cases h : e.1 = other
      · rw [if_pos h, if_pos h, if_neg fun heq => hkey (h.trans heq.symm)]
      · rw [if_neg h, if_neg h]

/-- Setting what is there changes nothing. -/
theorem putEntry_self {key : K} {value : V} {entries : List (K × V)}
    (h : valueAt key entries = some value) : putEntry key value entries = entries := by
  induction entries with
  | nil => cases h
  | cons e entries ih =>
    rw [valueAt] at h
    rw [putEntry]
    by_cases hkey : e.1 = key
    · rw [if_pos hkey, Option.some.injEq] at h
      rw [if_pos hkey, ← hkey, ← h]
    · rw [if_neg hkey] at h
      rw [if_neg hkey, ih h]

theorem valueAt_filter (p : K → Bool) (key : K) (entries : List (K × V)) :
    valueAt key (entries.filter fun e => p e.1) = if p key then valueAt key entries else none := by
  induction entries with
  | nil => rw [List.filter_nil, valueAt, ite_self]
  | cons e entries ih =>
    cases hp : p e.1 with
    | true =>
      rw [List.filter_cons, if_pos hp, valueAt, valueAt, ih]
      by_cases hkey : e.1 = key
      · rw [if_pos hkey, if_pos hkey, if_pos (hkey ▸ hp)]
      · rw [if_neg hkey, if_neg hkey]
    | false =>
      rw [List.filter_cons, if_neg (by rw [hp]; decide), valueAt, ih]
      by_cases hkey : e.1 = key
      · have hnot : ¬(p key = true) := by
          rw [← hkey, hp]
          decide
        rw [if_neg hnot, if_neg hnot]
      · rw [if_neg hkey]

theorem mem_iff_valueAt {key : K} {value : V} {entries : List (K × V)}
    (hnodup : (entries.map Prod.fst).Nodup) :
    (key, value) ∈ entries ↔ valueAt key entries = some value := by
  induction entries with
  | nil => exact iff_of_false List.not_mem_nil nofun
  | cons e entries ih =>
    rw [List.map_cons, List.nodup_cons] at hnodup
    rw [List.mem_cons, valueAt]
    by_cases hkey : e.1 = key
    · rw [if_pos hkey, Option.some.injEq]
      constructor
      · rintro (heq | hmem)
        · rw [← heq]
        · rw [hkey] at hnodup
          exact absurd (List.mem_map_of_mem hmem) hnodup.1
      · rintro rfl
        exact .inl (by rw [← hkey])
    · rw [if_neg hkey, ← ih hnodup.2]
      refine or_iff_right fun heq => hkey ?_
      rw [← heq]

/-! ## The operations -/

def empty : Dict K V := ⟨[], List.nodup_nil⟩

def keys (d : Dict K V) : List K := d.entries.map Prod.fst

def get? (d : Dict K V) (key : K) : Option V := valueAt key d.entries

def set (d : Dict K V) (key : K) (value : V) : Dict K V :=
  ⟨putEntry key value d.entries, nodup_putEntry key value d.nodup⟩

/-- The entries of a list set one after the other. -/
def setAll (d : Dict K V) (entries : List (K × V)) : Dict K V :=
  entries.foldl (fun d e => d.set e.1 e.2) d

/-- The entries of both, the second's where both have one. -/
def union (d d' : Dict K V) : Dict K V := d.setAll d'.entries

def filter (p : K → Bool) (d : Dict K V) : Dict K V :=
  ⟨d.entries.filter fun e => p e.1, (d.nodup.sublist (List.filter_sublist.map Prod.fst))⟩

/-! ## What is looked up -/

theorem mem_entries {d : Dict K V} {key : K} {value : V} :
    (key, value) ∈ d.entries ↔ d.get? key = some value := mem_iff_valueAt d.nodup

theorem mem_keys {d : Dict K V} {key : K} : key ∈ d.keys ↔ ∃ value, d.get? key = some value := by
  unfold keys
  rw [List.mem_map]
  constructor
  · rintro ⟨e, he, rfl⟩
    exact ⟨e.2, mem_entries.mp he⟩
  · rintro ⟨value, hvalue⟩
    exact ⟨(key, value), mem_entries.mpr hvalue, rfl⟩

theorem get?_set (d : Dict K V) (key other : K) (value : V) :
    (d.set key value).get? other = if key = other then some value else d.get? other :=
  valueAt_putEntry key other value d.entries

theorem get?_filter (p : K → Bool) (d : Dict K V) (key : K) :
    (d.filter p).get? key = if p key then d.get? key else none :=
  valueAt_filter p key d.entries

theorem mem_keys_filter {p : K → Bool} {d : Dict K V} {key : K} :
    key ∈ (d.filter p).keys ↔ key ∈ d.keys ∧ p key = true := by
  rw [mem_keys, mem_keys]
  constructor
  · rintro ⟨value, hvalue⟩
    rw [get?_filter] at hvalue
    split at hvalue
    · rename_i hp
      exact ⟨⟨value, hvalue⟩, hp⟩
    · cases hvalue
  · rintro ⟨⟨value, hvalue⟩, hp⟩
    exact ⟨value, by rw [get?_filter, if_pos hp, hvalue]⟩

theorem set_self {d : Dict K V} {key : K} {value : V} (h : d.get? key = some value) :
    d.set key value = d := by
  unfold set
  congr 1
  exact putEntry_self h

theorem setAll_cons (d : Dict K V) (e : K × V) (entries : List (K × V)) :
    d.setAll (e :: entries) = (d.set e.1 e.2).setAll entries := rfl

/-- Setting what is there, key by key, changes nothing. -/
theorem setAll_self {d : Dict K V} {entries : List (K × V)}
    (h : ∀ e ∈ entries, d.get? e.1 = some e.2) : d.setAll entries = d := by
  induction entries with
  | nil => rfl
  | cons e entries ih =>
    rw [List.forall_mem_cons] at h
    rw [setAll_cons, set_self h.1, ih h.2]

/-- A key that is not set keeps its value. -/
theorem get?_setAll_of_not_mem {d : Dict K V} {entries : List (K × V)} {key : K}
    (h : ∀ e ∈ entries, e.1 ≠ key) : (d.setAll entries).get? key = d.get? key := by
  induction entries generalizing d with
  | nil => rfl
  | cons e entries ih =>
    rw [List.forall_mem_cons] at h
    rw [setAll_cons, ih h.2, get?_set, if_neg h.1]

/-- The keys that were there, and those that are set. -/
theorem mem_keys_set {d : Dict K V} {key other : K} {value : V} :
    other ∈ (d.set key value).keys ↔ other ∈ d.keys ∨ key = other := by
  rw [mem_keys, mem_keys, get?_set]
  by_cases h : key = other
  · rw [if_pos h]
    exact iff_of_true ⟨value, rfl⟩ (.inr h)
  · rw [if_neg h]
    exact (or_iff_left h).symm

theorem mem_keys_setAll {d : Dict K V} {entries : List (K × V)} {key : K} :
    key ∈ (d.setAll entries).keys ↔ key ∈ d.keys ∨ ∃ e ∈ entries, e.1 = key := by
  induction entries generalizing d with
  | nil =>
    refine (or_iff_left ?_).symm
    rintro ⟨e, he, -⟩
    cases he
  | cons e entries ih =>
    rw [setAll_cons, ih, mem_keys_set, or_assoc, List.exists_mem_cons_iff]

/-- What is found was set last, or was there. -/
theorem get?_setAll_eq_some {d : Dict K V} {entries : List (K × V)} {key : K} {value : V}
    (h : (d.setAll entries).get? key = some value) :
    (key, value) ∈ entries ∨ d.get? key = some value := by
  induction entries generalizing d with
  | nil => exact .inr h
  | cons e entries ih =>
    rw [setAll_cons] at h
    rcases ih h with hmem | hget
    · exact .inl (List.mem_cons_of_mem _ hmem)
    · rw [get?_set] at hget
      split at hget
      · rename_i hkey
        rw [Option.some.injEq] at hget
        left
        rw [← hkey, ← hget]
        exact List.mem_cons_self
      · exact .inr hget

theorem mem_keys_union {d d' : Dict K V} {key : K} :
    key ∈ (d.union d').keys ↔ key ∈ d.keys ∨ key ∈ d'.keys := by
  unfold union
  rw [mem_keys_setAll]
  apply or_congr_right
  unfold keys
  rw [List.mem_map]

theorem get?_union (d d' : Dict K V) (key : K) :
    (d.union d').get? key = (d'.get? key).or (d.get? key) := by
  have hall : ∀ (entries : List (K × V)) (d : Dict K V), (entries.map Prod.fst).Nodup →
      (d.setAll entries).get? key = (valueAt key entries).or (d.get? key) := by
    intro entries
    induction entries with
    | nil => exact fun _ _ => rfl
    | cons e entries ih =>
      intro d hnodup
      rw [List.map_cons, List.nodup_cons] at hnodup
      rw [setAll_cons, valueAt]
      by_cases hkey : e.1 = key
      · have hnew : ∀ x ∈ entries, x.1 ≠ key := by
          rintro x hx rfl
          exact hnodup.1 (hkey ▸ List.mem_map_of_mem hx)
        rw [get?_setAll_of_not_mem hnew, get?_set, if_pos hkey, if_pos hkey, Option.some_or]
      · rw [ih _ hnodup.2, get?_set, if_neg hkey, if_neg hkey]
  exact hall d'.entries d d'.nodup

end Dict

end PaCopilot

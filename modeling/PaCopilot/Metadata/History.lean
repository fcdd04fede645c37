/-
The extractions of a connection and what each found changed, `tm1/metadata/history.py`.

The graph is compared by name, before an extraction and after it. Two graphs have the same
names exactly when every count of the difference is zero ([`unchanged_iff`]).
-/
import PaCopilot.Metadata.Writer
import Mathlib.Data.List.Lex
import Mathlib.Data.List.Sort
import Mathlib.Data.String.Basic

set_option autoImplicit false

namespace PaCopilot.metadata

/-! ## The graph by name -/

/-- Names kept of each list. Counts are exact. -/
def MAX_LISTED_CHANGES : ℕ := 200

structure EdgeKey where
  source : Key
  relationship : String
  target : Key
  deriving DecidableEq

structure GraphKeys where
  objects : List Key
  edges : List EdgeKey
  deriving DecidableEq

/-- `graph_keys`. -/
def graph_keys (g : Graph) : GraphKeys where
  objects := g.keys.dedup
  edges := (g.relationships.filterMap fun r =>
    match g.get_by_id r.from_object_id, g.get_by_id r.to_object_id with
    | some source, some target => some ⟨source.key, r.relationship_type, target.key⟩
    | _, _ => none).dedup

/-! ## What differs -/

section Difference

variable {α : Type} [DecidableEq α]

/-- `set(after) - set(before)`. -/
def only (after before : List α) : List α := after.filter (· ∉ before)

/-- The first names of a set, in order. -/
def listed (texts : α → List String) (keys : List α) : List α :=
  (keys.insertionSort fun a b => texts a ≤ texts b).take MAX_LISTED_CHANGES

theorem only_eq_nil_iff {after before : List α} : only after before = [] ↔ after ⊆ before := by
  rw [only, List.filter_eq_nil_iff]
  constructor
  · intro h x hx
    have hnot := h x hx
    simpa using hnot
  · intro h x hx
    simpa using h hx

end Difference

structure Counts where
  objects_added : ℕ
  objects_removed : ℕ
  relationships_added : ℕ
  relationships_removed : ℕ
  deriving DecidableEq

/-- `changes`. -/
structure Changes where
  first : Bool
  counts : Counts
  objects_added : List Key
  objects_removed : List Key
  relationships_added : List EdgeKey
  relationships_removed : List EdgeKey
  deriving DecidableEq

/-- What an object is sorted by. -/
def Key.texts (k : Key) : List String := [k.1, k.2]

def EdgeKey.texts (k : EdgeKey) : List String :=
  [k.source.1, k.source.2, k.relationship, k.target.1, k.target.2]

/-- `diff_graphs`. -/
def diff_graphs (before after : GraphKeys) : Changes :=
  let added_objects := only after.objects before.objects
  let removed_objects := only before.objects after.objects
  let added_edges := only after.edges before.edges
  let removed_edges := only before.edges after.edges
  -- the lists of a first extraction are left empty, its counts are not
  { first := before.objects.isEmpty
    counts := ⟨added_objects.length, removed_objects.length, added_edges.length,
      removed_edges.length⟩
    objects_added := if before.objects.isEmpty then [] else listed Key.texts added_objects
    objects_removed := listed Key.texts removed_objects
    relationships_added := if before.objects.isEmpty then [] else listed EdgeKey.texts added_edges
    relationships_removed := listed EdgeKey.texts removed_edges }

/-- Nothing was added or removed. -/
def unchanged (before after : GraphKeys) : Bool :=
  (diff_graphs before after).counts = ⟨0, 0, 0, 0⟩

theorem unchanged_iff {before after : GraphKeys} : unchanged before after = true ↔
    (∀ k, k ∈ before.objects ↔ k ∈ after.objects) ∧ ∀ k, k ∈ before.edges ↔ k ∈ after.edges := by
  have hboth : ∀ {α : Type} [DecidableEq α] (l m : List α),
      ((only m l).length = 0 ∧ (only l m).length = 0) ↔ ∀ k, k ∈ l ↔ k ∈ m := by
    intro α _ l m
    rw [List.length_eq_zero_iff, List.length_eq_zero_iff, only_eq_nil_iff, only_eq_nil_iff]
    exact ⟨fun h k => ⟨fun hk => h.2 hk, fun hk => h.1 hk⟩,
      fun h => ⟨fun k hk => (h k).mpr hk, fun k hk => (h k).mp hk⟩⟩
  rw [unchanged, decide_eq_true_eq, diff_graphs, Counts.mk.injEq, ← hboth, ← hboth]
  tauto

/-! ## The rows -/

/-- A row of `tm1_extractions`. Instants are in microseconds. -/
structure TM1Extraction where
  id : ℕ
  status : String
  started_at : ℕ
  finished_at : ℕ
  changes : Option Changes := none
  error_message : Option String := none
  deriving DecidableEq

/-- The row that `run_extraction` stores, from the graph before and after. -/
def run_extraction (id started_at finished_at : ℕ) (before after : Graph) : TM1Extraction where
  id := id
  status := "succeeded"
  started_at := started_at
  finished_at := finished_at
  changes := some (diff_graphs (graph_keys before) (graph_keys after))

/-- The row of `record_failure`. -/
def record_failure (id started_at finished_at : ℕ) (error : String) : TM1Extraction where
  id := id
  status := "failed"
  started_at := started_at
  finished_at := finished_at
  error_message := some (String.ofList (error.toList.take 2000))

/-! ## A connection and its extractions -/

/-- A successful extraction: its row, the graphs that it has compared, and whether one of the
connection had succeeded before. -/
structure Extracted where
  row : TM1Extraction
  before : Graph
  after : Graph
  earlier : Bool

/-- The graph of a connection with its extractions, and beside them those that succeeded. A
row has one of the statuses that are stored. -/
structure Mapping where
  graph : Graph
  extractions : List TM1Extraction
  succeeded : List Extracted
  statuses : ∀ extraction ∈ extractions,
    extraction.status = "succeeded" ∨ extraction.status = "failed"

namespace Mapping

/-- A connection that was not extracted yet. -/
def empty : Mapping where
  graph := Graph.empty
  extractions := []
  succeeded := []
  statuses _ h := absurd h List.not_mem_nil

/-- One more row. -/
def record (m : Mapping) (row : TM1Extraction)
    (h : row.status = "succeeded" ∨ row.status = "failed") : Mapping where
  graph := m.graph
  extractions := m.extractions ++ [row]
  succeeded := m.succeeded
  statuses extraction hmem := by
    rcases List.mem_append.mp hmem with hold | hnew
    · exact m.statuses extraction hold
    · rwa [List.mem_singleton.mp hnew]

/-- An extraction is committed, with the graph that it has found. It finished before that. -/
def extract (m : Mapping) (now : ℕ) (after : Graph) (started_at finished_at : ℕ) :
    Option Mapping :=
  if started_at ≤ finished_at ∧ finished_at ≤ now then
    let row := run_extraction m.extractions.length started_at finished_at m.graph after
    some { m.record row (.inl rfl) with
      graph := after
      succeeded := m.succeeded ++ [⟨row, m.graph, after, m.succeeded ≠ []⟩] }
  else none

def fail (m : Mapping) (now : ℕ) (error : String) (started_at finished_at : ℕ) : Option Mapping :=
  if started_at ≤ finished_at ∧ finished_at ≤ now then
    some (m.record (record_failure m.extractions.length started_at finished_at error) (.inr rfl))
  else none

/-- The graph after a change. -/
def refresh (m : Mapping) (graph : Graph) : Mapping := { m with graph := graph }

/-- "success" is not what is stored. -/
theorem status_ne_success (m : Mapping) {extraction : TM1Extraction}
    (h : extraction ∈ m.extractions) : extraction.status ≠ "success" := by
  intro hsuccess
  have hstatus := m.statuses extraction h
  -- it would be "succeeded" or "failed"
  rw [hsuccess] at hstatus
  simp at hstatus

end Mapping

end PaCopilot.metadata

/-
`analyze_impact` (`tm1/impact/analyzer.py`): what a change to one object affects, ranked
by how badly.

The items are those of the rules, of what a process writes, and of what depends on the
object; of those about the same object the most severe is kept. `MAX_DEPTH` is an
argument here.
-/
import PaCopilot.Metadata.Graph
import PaCopilot.Change.Draft
import Mathlib.Data.Prod.Lex
import Mathlib.Data.String.Basic

set_option autoImplicit false

namespace PaCopilot.impact

open metadata

/-! ## Severity -/

inductive Severity
  | critical
  | high
  | medium
  | low
  deriving DecidableEq

/-- `SEVERITIES`, the most severe first. -/
def SEVERITIES : List Severity := [.critical, .high, .medium, .low]

namespace Severity

/-- `SEVERITIES.index(severity)`. -/
def index : Severity → ℕ
  | critical => 0
  | high => 1
  | medium => 2
  | low => 3

def text : Severity → String
  | critical => "critical"
  | high => "high"
  | medium => "medium"
  | low => "low"

/-- `SEVERITIES[index]`. -/
def ofIndex : ℕ → Severity
  | 0 => critical
  | 1 => high
  | 2 => medium
  | _ => low

end Severity

def MAX_DEPTH : ℕ := 4

/-- The severities of a kind of dependency: where the object is modified, and where it is
deleted. -/
def _BASE : List (String × Severity × Severity) :=
  [ ("uses_dimension", .high, .critical),
    ("references_cube", .medium, .critical),
    ("calls_process", .medium, .critical),
    ("runs_process", .medium, .critical),
    ("view_of_cube", .low, .high),
    ("subset_of_dimension", .low, .high),
    ("reads_cube", .medium, .high),
    ("reads_view", .medium, .high),
    ("uses_view", .medium, .high),
    ("uses_subset", .medium, .high),
    ("references_dimension", .medium, .high),
    ("updates_cube", .medium, .high),
    ("updates_dimension", .medium, .high) ]

def _DEFAULT : Severity × Severity := (.low, .medium)

def _REASON : List (String × String) :=
  [ ("uses_dimension", "is built on it"),
    ("references_cube", "has rules that read it"),
    ("calls_process", "runs it with ExecuteProcess"),
    ("runs_process", "runs it on a schedule"),
    ("view_of_cube", "is a view of it"),
    ("subset_of_dimension", "is a subset of it"),
    ("reads_cube", "reads data from it"),
    ("reads_view", "loads from this view"),
    ("uses_view", "uses this view"),
    ("uses_subset", "uses this subset"),
    ("references_dimension", "looks elements up in it"),
    ("updates_cube", "writes data into it"),
    ("updates_dimension", "changes its elements or attributes") ]

def NOT_COVERED : List String :=
  [ "TM1 security: which groups can read or write the affected objects",
    "Reports, Excel / PAW books and websheets built on the affected cubes",
    "Other TM1 servers and external systems that read from or load into this one",
    "References built from variables at runtime (counted at extraction, not drawn)" ]

/-- `_lower`. -/
def _lower (severity : Severity) (steps : ℕ) : Severity :=
  .ofIndex (min (severity.index + steps) (SEVERITIES.length - 1))

/-! ## Items -/

structure Item where
  object_type : String
  name : String
  severity : Severity
  reason : String
  depth : ℕ
  relationship_type : String
  via : Option String := none
  deriving DecidableEq

/-- An item as a draft keeps it. -/
def Item.entry (item : Item) : ImpactEntry := ⟨some item.severity.text, item.reason⟩

/-- What is asked: the object that is changed, and how. -/
structure Query where
  organization_id : ℕ
  object_type : String
  name : String
  change_kind : change_service.ChangeKind := .modify
  rules_change : Bool := false
  max_depth : ℕ := MAX_DEPTH

section Items

variable (q : Query)

/-- The cube's own values change with its rules. -/
def rulesItem : Item :=
  ⟨"cube", q.name, .high, "its rule-calculated values change with the new rules", 0, "rules", none⟩

/-- The kinds of edges by which a process writes. -/
def writes (relationship_type : String) : Bool :=
  relationship_type ∈ ["updates_cube", "updates_dimension"]

/-- The severity of what a process writes. -/
def writtenSeverity : Severity := if q.change_kind = .delete then .high else .medium

/-- A process changes the data it writes, whatever depends on it. -/
def writtenItem (target : Entry) : Option Item :=
  if writes target.relationship_type then
    let what := if target.relationship_type = "updates_cube" then "data"
      else "elements or attributes"
    some ⟨target.object_type, target.name, writtenSeverity q,
      if q.change_kind = .delete then s!"its {what} would no longer be maintained by this process"
      else s!"its {what} are written by this process and will change with it",
      1, target.relationship_type, none⟩
  else none

/-- The severity of a dependency, at a depth. -/
def dependentSeverity (relationship_type : String) (depth : ℕ) : Severity :=
  let (modify, delete) := (List.lookup relationship_type _BASE).getD _DEFAULT
  let base := if q.change_kind = .modify then modify else delete
  -- the values of a rule that reads the cube are computed from the values that change
  let base := if q.rules_change && relationship_type = "references_cube" then .high else base
  _lower base (depth - 1)

/-- `relationship.replace('_', ' ')`. -/
def spaced (s : String) : String := String.ofList (s.toList.map fun c => if c = '_' then ' ' else c)

def dependentItem (dependent : Entry) : Item :=
  let relationship := dependent.relationship_type
  let reason := (List.lookup relationship _REASON).getD (spaced relationship) ++ " "
  ⟨dependent.object_type, dependent.name, dependentSeverity q relationship dependent.depth,
    reason ++ (if dependent.depth = 1 then "'" ++ q.name ++ "'"
      else "'" ++ dependent.via ++ "', which depends on '" ++ q.name ++ "'"),
    dependent.depth, relationship, some dependent.via⟩

/-- All the items, before those of one object are merged. -/
def collected (written dependents : List Entry) : List Item :=
  (if q.rules_change then [rulesItem q] else []) ++ written.filterMap (writtenItem q)
    ++ dependents.map (dependentItem q)

end Items

/-! ## Merging and ranking -/

section Ranking

variable (lower : String → String)

/-- The object an item is about. -/
def Item.key (item : Item) : String × String := (item.object_type, lower item.name)

/-- One entry for each object: the most severe way it is affected. -/
def keep (best : List Item) (item : Item) : List Item :=
  match best.find? fun old => old.key lower = item.key lower with
  | none => best ++ [item]
  | some kept =>
    if item.severity.index < kept.severity.index then
      best.map fun old => if old.key lower = item.key lower then item else old
    else best

/-- By severity, then depth, type and name. -/
def Item.rank (item : Item) : Lex (ℕ × Lex (ℕ × Lex (String × String))) :=
  toLex (item.severity.index, toLex (item.depth, toLex (item.object_type, lower item.name)))

def ranked (items : List Item) : List Item :=
  (items.foldl (keep lower) []).insertionSort fun a b => a.rank lower ≤ b.rank lower

end Ranking

structure Analysis where
  object_type : String
  name : String
  change_kind : change_service.ChangeKind
  in_graph : Bool
  summary : Severity → ℕ
  items : List Item
  not_covered : List String

section Analyze

variable (lower : String → String) {g : Graph} (order : RowOrder g) (q : Query)

/-- `analyze_impact`. -/
def analyze_impact : Analysis :=
  let found : Except AppException (List Entry × List Entry) := do
    let dependents ← find_dependents order q.organization_id q.object_type q.name q.max_depth
    -- what a process writes is affected, too, but no further than one step
    let written ← if q.object_type = "process" then
        find_dependencies order q.organization_id q.object_type q.name 1
      else .ok []
    return (dependents, written)
  match found with
  -- an object that the graph does not have
  | .error _ =>
    { object_type := q.object_type
      name := q.name
      change_kind := q.change_kind
      in_graph := false
      summary := fun _ => 0
      items := []
      not_covered := (s!"{q.object_type} '{q.name}' is not in the dependency map, so nothing "
        ++ "it affects is known. Run metadata extraction, then analyse again.") :: NOT_COVERED }
  | .ok (dependents, written) =>
    let items := ranked lower (collected q written dependents)
    { object_type := q.object_type
      name := q.name
      change_kind := q.change_kind
      in_graph := true
      summary := fun severity => items.countP fun item => item.severity = severity
      items := items
      not_covered := NOT_COVERED }

end Analyze

/-! ## What merging keeps -/

section Merging

variable {lower : String → String} {items best : List Item} {item : Item}

/-- At most one entry for each object. -/
def OneEach (lower : String → String) (best : List Item) : Prop :=
  (best.map (Item.key lower)).Nodup

/-- An item is about a new object, or it stands against the one entry about its object. -/
theorem keep_cases (lower : String → String) (best : List Item) (item : Item) :
    ((∀ old ∈ best, old.key lower ≠ item.key lower) ∧ keep lower best item = best ++ [item]) ∨
      ∃ kept ∈ best, kept.key lower = item.key lower ∧
        ((item.severity.index < kept.severity.index ∧ keep lower best item
            = best.map fun old => if old.key lower = item.key lower then item else old) ∨
          (kept.severity.index ≤ item.severity.index ∧ keep lower best item = best)) := by
  unfold keep
  rcases hfind : best.find? fun old => old.key lower = item.key lower with _ | kept
  · left
    rw [hfind]
    refine ⟨fun old hold hkey => ?_, rfl⟩
    exact absurd (decide_eq_true hkey) (List.find?_eq_none.mp hfind old hold)
  · right
    rw [hfind]
    have hkey := List.find?_some hfind
    refine ⟨kept, List.mem_of_find?_eq_some hfind, of_decide_eq_true hkey, ?_⟩
    by_cases hless : item.severity.index < kept.severity.index
    · exact .inl ⟨hless, if_pos hless⟩
    · exact .inr ⟨Nat.le_of_not_lt hless, if_neg hless⟩

theorem OneEach.keep (h : OneEach lower best) (item : Item) :
    OneEach lower (keep lower best item) := by
  unfold OneEach at h ⊢
  obtain ⟨hnew, hkeep⟩ | ⟨_, _, _, ⟨_, hkeep⟩ | ⟨_, hkeep⟩⟩ := keep_cases lower best item
  · rw [hkeep, List.map_append, List.nodup_append]
    refine ⟨h, List.nodup_singleton _, fun a ha b hb heq => ?_⟩
    obtain ⟨old, hold, hkey⟩ := List.mem_map.mp ha
    exact hnew old hold (hkey.trans (heq.trans (List.mem_singleton.mp hb)))
  · have hkeys : (best.map fun old => if old.key lower = item.key lower then item else old).map
        (Item.key lower) = best.map (Item.key lower) := by
      rw [List.map_map]
      apply List.map_congr_left
      intro old _
      by_cases hold : old.key lower = item.key lower
      · rw [Function.comp_apply, if_pos hold, hold]
      · rw [Function.comp_apply, if_neg hold]
    rw [hkeep, hkeys]
    exact h
  · rw [hkeep]
    exact h

/-- Of two entries about one object there is only one. -/
theorem OneEach.eq {other : Item} (h : OneEach lower best) (hitem : item ∈ best)
    (hother : other ∈ best) (hkey : item.key lower = other.key lower) : item = other :=
  List.inj_on_of_nodup_map h hitem hother hkey

/-- What is kept was one of the items. -/
theorem mem_of_mem_keep {kept : Item} (h : kept ∈ keep lower best item) :
    kept ∈ best ∨ kept = item := by
  obtain ⟨_, hkeep⟩ | ⟨_, _, _, ⟨_, hkeep⟩ | ⟨_, hkeep⟩⟩ := keep_cases lower best item
  · rw [hkeep, List.mem_append, List.mem_singleton] at h
    exact h
  · rw [hkeep] at h
    obtain ⟨old, hold, rfl⟩ := List.mem_map.mp h
    by_cases hkey : old.key lower = item.key lower
    · exact .inr (if_pos hkey)
    · rw [if_neg hkey]
      exact .inl hold
  · rw [hkeep] at h
    exact .inl h

/-- The new item, and what was kept before, have an entry that is as severe. -/
theorem keep_severe {other : Item} (h : OneEach lower best) (hother : other ∈ best ∨ other = item) :
    ∃ kept ∈ keep lower best item,
      kept.key lower = other.key lower ∧ kept.severity.index ≤ other.severity.index := by
  obtain ⟨_, hkeep⟩ | ⟨kept, hmem, hkey, ⟨hless, hkeep⟩ | ⟨hle, hkeep⟩⟩ :=
    keep_cases lower best item
  · refine ⟨other, ?_, rfl, Nat.le_refl _⟩
    rw [hkeep, List.mem_append, List.mem_singleton]
    exact hother
  · have hnew : item ∈ best.map fun old => if old.key lower = item.key lower then item else old :=
      List.mem_map.mpr ⟨kept, hmem, if_pos hkey⟩
    rw [hkeep]
    by_cases hsame : other.key lower = item.key lower
    · refine ⟨item, hnew, hsame.symm, ?_⟩
      rcases hother with hold | rfl
      · have hkept := h.eq hold hmem (hsame.trans hkey.symm)
        rw [hkept]
        omega
      · exact Nat.le_refl _
    · have hold := hother.resolve_right fun heq => hsame (by rw [heq])
      exact ⟨other, List.mem_map.mpr ⟨other, hold, if_neg hsame⟩, rfl, Nat.le_refl _⟩
  · rw [hkeep]
    rcases hother with hold | rfl
    · exact ⟨other, hold, rfl, Nat.le_refl _⟩
    · exact ⟨kept, hmem, hkey, hle⟩

/-- The entries of a whole list of items: one for each object, which is one of the items,
and none of the items is more severe. -/
theorem foldl_keep (items : List Item) (h : OneEach lower best) :
    OneEach lower (items.foldl (keep lower) best) ∧
      (∀ kept ∈ items.foldl (keep lower) best, kept ∈ best ∨ kept ∈ items) ∧
      ∀ other, other ∈ best ∨ other ∈ items →
        ∃ kept ∈ items.foldl (keep lower) best,
          kept.key lower = other.key lower ∧ kept.severity.index ≤ other.severity.index := by
  induction items generalizing best with
  | nil =>
    refine ⟨h, fun kept hkept => .inl hkept, fun other hother => ?_⟩
    exact ⟨other, hother.resolve_right List.not_mem_nil, rfl, Nat.le_refl _⟩
  | cons item rest ih =>
    obtain ⟨hone, horigin, hsevere⟩ := ih (h.keep item)
    refine ⟨hone, fun kept hkept => ?_, fun other hother => ?_⟩
    · rcases horigin kept hkept with hbest | hrest
      · rcases mem_of_mem_keep hbest with hold | rfl
        · exact .inl hold
        · exact .inr List.mem_cons_self
      · exact .inr (List.mem_cons_of_mem _ hrest)
    · by_cases hrest : other ∈ rest
      · exact hsevere other (.inr hrest)
      · have hhere : other ∈ best ∨ other = item := by
          rcases hother with hold | hnew
          · exact .inl hold
          · exact .inr ((List.mem_cons.mp hnew).resolve_right hrest)
        obtain ⟨kept, hkept, hkey, hle⟩ := keep_severe h hhere
        obtain ⟨final, hfinal, hkey', hle'⟩ := hsevere kept (.inl hkept)
        exact ⟨final, hfinal, hkey'.trans hkey, Nat.le_trans hle' hle⟩

/-- What is ranked: one entry for each object, which is one of the items, and none of the
items is more severe. -/
theorem ranked_spec (lower : String → String) (items : List Item) :
    OneEach lower (ranked lower items) ∧
      (∀ kept ∈ ranked lower items, kept ∈ items) ∧
      ∀ item ∈ items, ∃ kept ∈ ranked lower items,
        kept.key lower = item.key lower ∧ kept.severity.index ≤ item.severity.index := by
  have hempty : OneEach lower [] := List.nodup_nil
  obtain ⟨hone, horigin, hsevere⟩ := foldl_keep items hempty
  have hperm : (ranked lower items).Perm (items.foldl (keep lower) []) :=
    List.perm_insertionSort _ _
  refine ⟨(hperm.map _).nodup_iff.mpr hone, fun kept hkept => ?_, fun item hitem => ?_⟩
  · exact (horigin kept (hperm.mem_iff.mp hkept)).resolve_left List.not_mem_nil
  · obtain ⟨kept, hkept, h⟩ := hsevere item (.inr hitem)
    exact ⟨kept, hperm.mem_iff.mpr hkept, h⟩

theorem ranked_sorted (items : List Item) :
    (ranked lower items).Pairwise fun a b => a.severity.index ≤ b.severity.index := by
  refine (List.pairwise_insertionSort (fun a b : Item => a.rank lower ≤ b.rank lower) _).imp ?_
  intro a b hle
  rcases Prod.Lex.le_iff.mp hle with hless | ⟨heq, _⟩
  · exact Nat.le_of_lt hless
  · exact Nat.le_of_eq heq

end Merging

/-! ## The analysis of an object in the graph -/

section Items

variable {lower : String → String} {g : Graph} {order : RowOrder g} {q : Query}
  {start : TM1Object} {e : AppException}

/-- What the process writes, as far as the traversal reports it. -/
def written (order : RowOrder g) (q : Query) (start : TM1Object) : List Entry :=
  if q.object_type = "process" then _traverse order .outgoing start 1 else []

theorem analyze_impact_items
    (h : _resolve_object g q.organization_id q.object_type q.name = .ok start) :
    (analyze_impact lower order q).items = ranked lower
      (collected q (written order q start) (_traverse order .incoming start q.max_depth)) := by
  unfold analyze_impact find_dependents find_dependencies written
  rw [h]
  by_cases hprocess : q.object_type = "process"
  · simp only [if_pos hprocess]
    rfl
  · simp only [if_neg hprocess]
    rfl

theorem analyze_impact_missing
    (h : _resolve_object g q.organization_id q.object_type q.name = .error e) :
    (analyze_impact lower order q).items = [] := by
  unfold analyze_impact find_dependents
  rw [h]
  rfl

/-- The counts are those of the items. -/
theorem analyze_impact_summary (severity : Severity) :
    (analyze_impact lower order q).summary severity
      = (analyze_impact lower order q).items.countP fun item => item.severity = severity := by
  unfold analyze_impact
  dsimp only
  split
  · rfl
  · rfl

end Items

end PaCopilot.impact

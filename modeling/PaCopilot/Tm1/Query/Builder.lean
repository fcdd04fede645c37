/-
Queries that are built from a structured request: `build_mdx` of
`tm1/services/query_builder.py`, with `where_clause` of `query_context.py`.

A dimension has one place in a query: on an axis, or in WHERE. Names stand in brackets, their
own closing brackets doubled.
-/
import Mathlib.Data.List.Dedup
import PaCopilot.Change.Draft
import PaCopilot.Lib.Dict
import PaCopilot.Tm1.Rules.Parser

set_option autoImplicit false

namespace PaCopilot.query_builder

open rules (Text)
open scoped rules

/-! ## Names -/

/-- `name.replace("]", "]]")`. -/
def _escape (name : Text) : Text := name.flatMap fun c => if c = ']' then [']', ']'] else [c]

/-- `f"[{_escape(name)}]"`. -/
def bracketed (name : Text) : Text := '[' :: (_escape name ++ [']'])

def member (dimension element : Text) : Text :=
  bracketed dimension ++ '.' :: (bracketed dimension ++ '.' :: bracketed element)

/-! ## The query -/

/-- What is asked of one axis: of `members`, `children_of` and `level` the first that is given. -/
structure AxisSpec where
  dimension : Text
  members : List Text := []
  children_of : Option Text := none
  level : Option Text := none
  deriving DecidableEq

/-- `"{" + ", ".join(members) + "}"`. -/
def memberSet (dimension : Text) (elements : List Text) : Text :=
  '\x7b' :: (List.intercalate ", ".toList (elements.map (member dimension)) ++ ['\x7d'])

/-- `f"{{{member}.Children}}"`. -/
def childrenSet (dimension element : Text) : Text :=
  '\x7b' :: (member dimension element ++ ".Children\x7d".toList)

/-- `f"{{TM1SUBSETALL({hierarchy})}}"`. -/
def subsetAll (dimension : Text) : Text :=
  "\x7bTM1SUBSETALL(".toList ++ (bracketed dimension ++ '.' :: bracketed dimension)
    ++ ")\x7d".toList

def leaves (dimension : Text) : Text :=
  "\x7bTM1FILTERBYLEVEL(TM1SUBSETALL(".toList
    ++ (bracketed dimension ++ '.' :: bracketed dimension) ++ "), 0)\x7d".toList

/-- The MDX set for one axis dimension. -/
def axis_set (spec : AxisSpec) (top_elements : Dict Text (List Text)) : Text :=
  let tops := (top_elements.get? spec.dimension).getD []
  if spec.members ≠ [] then memberSet spec.dimension spec.members
  else if spec.children_of.getD [] ≠ [] then
    childrenSet spec.dimension (spec.children_of.getD [])
  else if spec.level = some "leaves".toList then leaves spec.dimension
  else if spec.level = some "all".toList then subsetAll spec.dimension
  else if spec.level = some "top".toList then
    if tops ≠ [] then memberSet spec.dimension tops else subsetAll spec.dimension
  else
    match tops with
    | [] => subsetAll spec.dimension
    | [element] => childrenSet spec.dimension element
    | _ => memberSet spec.dimension tops

/-- `where_clause`, with the blank that is put before it. -/
def where_clause (pins : Dict Text Text) : Text :=
  if pins.entries = [] then []
  else " WHERE (".toList
    ++ List.intercalate ", ".toList (pins.entries.map fun pin => member pin.1 pin.2) ++ [')']

/-- The statement up to its FROM. -/
def axesText (columns : AxisSpec) (rows : List AxisSpec) (top_elements : Dict Text (List Text)) :
    Text :=
  "SELECT NON EMPTY ".toList ++ axis_set columns top_elements ++ " ON 0".toList
    ++ if rows = [] then []
      else ", NON EMPTY ".toList
        ++ List.intercalate " * ".toList (rows.map fun r => axis_set r top_elements)
        ++ " ON 1".toList

/-- The statement, once every dimension has its place. -/
def statement (cube : Text) (columns : AxisSpec) (rows : List AxisSpec) (pinned : Dict Text Text)
    (top_elements : Dict Text (List Text)) : Text :=
  axesText columns rows top_elements
    ++ (" FROM ".toList ++ (bracketed cube ++ where_clause pinned))

/-- The request names something the cube does not have, or asks twice. -/
structure QuerySpecError where
  message : String
  deriving DecidableEq

/-- `", ".join(names)`. -/
def named (names : List String) : String := ", ".intercalate names

def unknownDimension (cube : Text) (unknown : List String) (dimensions : List Text) :
    QuerySpecError :=
  ⟨s!"The cube {String.ofList cube} has no dimension {named unknown}. "
    ++ s!"Its dimensions are: {named (dimensions.map String.ofList)}."⟩

/-- `axis_dims`. -/
def axisDims (columns : AxisSpec) (rows : List AxisSpec) : List Text :=
  columns.dimension :: rows.map AxisSpec.dimension

/-- The statement, and the pins that are in its WHERE. -/
def build_mdx (cube : Text) (dimensions : List Text) (columns : AxisSpec) (rows : List AxisSpec)
    (pins : Dict Text Text) (top_elements : Dict Text (List Text)) :
    Except QuerySpecError (Text × Dict Text Text) :=
  let axis_dims := axisDims columns rows
  let unknown := (axis_dims ++ pins.keys).filter fun d => d ∉ dimensions
  if unknown ≠ [] then
    .error (unknownDimension cube (change_service.sortedSet (unknown.map String.ofList)) dimensions)
  else if axis_dims.dedup.length ≠ axis_dims.length then
    .error ⟨"A dimension can be on one axis only."⟩
  else
    -- an axis dimension is never also in WHERE
    let pinned := pins.filter fun d => d ∉ axis_dims
    .ok (statement cube columns rows pinned top_elements, pinned)

/-! ## Where each dimension is -/

/-- The dimensions of a query, place by place. -/
def places (columns : AxisSpec) (rows : List AxisSpec) (pinned : Dict Text Text) : List Text :=
  axisDims columns rows ++ pinned.keys

variable {cube : Text} {dimensions : List Text} {columns : AxisSpec} {rows : List AxisSpec}
  {pins : Dict Text Text} {top_elements : Dict Text (List Text)}

/-- What there is to know of a query that is built. -/
theorem build_mdx_eq_ok {mdx : Text} {pinned : Dict Text Text} :
    build_mdx cube dimensions columns rows pins top_elements = .ok (mdx, pinned) ↔
      (∀ d, d ∈ axisDims columns rows ∨ d ∈ pins.keys → d ∈ dimensions) ∧
      (axisDims columns rows).Nodup ∧
      pinned = pins.filter (fun d => d ∉ axisDims columns rows) ∧
      mdx = statement cube columns rows pinned top_elements := by
  have hunknown : (axisDims columns rows ++ pins.keys).filter (fun d => d ∉ dimensions) = [] ↔
      ∀ d, d ∈ axisDims columns rows ∨ d ∈ pins.keys → d ∈ dimensions := by
    rw [List.filter_eq_nil_iff]
    simp only [List.mem_append, decide_eq_true_eq, not_not]
  have htwice : (axisDims columns rows).dedup.length = (axisDims columns rows).length ↔
      (axisDims columns rows).Nodup := by
    constructor
    · intro h
      have hsame := (List.dedup_sublist (axisDims columns rows)).eq_of_length h
      rw [← hsame]
      exact List.nodup_dedup _
    · intro h
      rw [h.dedup]
  unfold build_mdx
  simp only
  rw [← hunknown, ← htwice]
  -- the two refusals of the code: an unknown dimension, and one that is on two axes
  split
  · rename_i h
    exact iff_of_false nofun fun hall => h hall.1
  · rename_i h
    rw [ne_eq, not_not] at h
    split
    · rename_i hlength
      exact iff_of_false nofun fun hall => hlength hall.2.1
    · rename_i hlength
      rw [ne_eq, not_not] at hlength
      rw [Except.ok.injEq, Prod.mk.injEq]
      constructor
      · rintro ⟨rfl, rfl⟩
        exact ⟨h, hlength, rfl, rfl⟩
      · rintro ⟨-, -, rfl, rfl⟩
        exact ⟨rfl, rfl⟩

/-- What is in WHERE: the pins of the other dimensions. -/
theorem get?_pinned {d e : Text} :
    (pins.filter fun d => d ∉ axisDims columns rows).get? d = some e ↔
      d ∉ axisDims columns rows ∧ pins.get? d = some e := by
  rw [Dict.get?_filter]
  by_cases haxis : d ∈ axisDims columns rows
  · rw [if_neg (by simpa using haxis)]
    exact iff_of_false nofun fun h => h.1 haxis
  · rw [if_pos (by simpa using haxis)]
    exact (and_iff_right haxis).symm

/-- **Each dimension has one place.** -/
theorem places_nodup {mdx : Text} {pinned : Dict Text Text}
    (h : build_mdx cube dimensions columns rows pins top_elements = .ok (mdx, pinned)) :
    (places columns rows pinned).Nodup := by
  obtain ⟨-, hnodup, rfl, -⟩ := build_mdx_eq_ok.mp h
  refine hnodup.append (pins.filter _).nodup fun d hd hmem => ?_
  -- no axis dimension is in WHERE
  obtain ⟨e, he⟩ := Dict.mem_keys.mp hmem
  exact (get?_pinned.mp he).1 hd

/-- A query of one axis is built, if the cube has all that it names. -/
theorem exists_build_mdx (cube : Text) (columns : AxisSpec) (top_elements : Dict Text (List Text))
    (hcolumns : columns.dimension ∈ dimensions) (hpins : ∀ d ∈ pins.keys, d ∈ dimensions) :
    ∃ out, build_mdx cube dimensions columns [] pins top_elements = .ok out := by
  refine ⟨_, build_mdx_eq_ok.mpr ⟨fun d hd => ?_, List.nodup_singleton _, rfl, rfl⟩⟩
  rcases hd with hd | hd
  · rw [List.mem_singleton.mp hd]
    exact hcolumns
  · exact hpins d hd

end PaCopilot.query_builder

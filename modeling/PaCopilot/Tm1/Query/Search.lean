/-
The search for where a cube holds data: `find_data` of `tm1/services/query_builder.py`, with the
totals of `query_context.py`.

The search is a row of stages, each of which ends at the first combination of members that it
has seen to hold data. The server and the clock answer as they like, each time anew; what they
answered is kept in a log (`Told`), and what is said of the search is said of that log: of the
queries in it, as a reader of MDX reads them (`Asks`), and of their answers. A stage that finds
nothing leaves in it an empty answer for each combination it was given (`Stage.Spec`), and the
stages together were given all of them, since the first combination is the starting point
(`combos_head`).
-/
import Mathlib.Data.Rat.Defs
import Mathlib.Algebra.Order.Group.Unbundled.Abs
import PaCopilot.Errors
import PaCopilot.Tm1.Query.Reading

set_option autoImplicit false

namespace PaCopilot

open rules (Text)
open scoped rules

/-! ## A cube's dimensions -/

namespace query_context

/-- A dimension as it is described. No element of TM1 is without a name. -/
structure Described where
  name : Text
  default_member : Option Text
  top_elements : List Text
  named : ∀ element ∈ top_elements, element ≠ []

/-- A total where there is one, else the default member, if that is not empty. -/
def total (d : Described) : Option Text :=
  let element :=
    if d.top_elements.length = 1 then d.top_elements.head?
    else (d.default_member.filter (· ≠ [])).or d.top_elements.head?
  element.filter (· ≠ [])

def totals (described : List Described) : Dict Text Text :=
  Dict.empty.setAll (described.filterMap fun d => (total d).map fun element => (d.name, element))

end query_context

namespace query_builder

open query_context (Described totals)

/-! ## The server and the clock -/

abbrev Pins := Dict Text Text

/-- A cell of an answer: its members, and its value where that is a number. -/
structure Row where
  members : Dict Text Text
  value : Option ℚ

/-- Any exception of a probe. -/
inductive ProbeError
  | failed
  deriving DecidableEq

inductive Event
  | probe (mdx : Text) (answer : Except ProbeError (List Row))
  | clock (late : Bool)

/-- What a query is answered and whether the time is up, after all that was before. -/
structure World where
  answer : List Event → Text → Except ProbeError (List Row)
  late : List Event → Bool

/-- The log, and the members that were found. -/
structure Search where
  log : List Event
  members_with_data : Dict Text (List Text)

inductive FindError
  | spec (e : QuerySpecError)
  | IndexError
  | KeyError
  deriving DecidableEq

def _MEMBERS_REPORTED : ℕ := 12
def _MAX_COMBOS : ℕ := 24
def _REPAIR_COMBOS : ℕ := 4

def _magnitude (value : Option ℚ) : ℚ := value.elim 0 fun v => |v|

/-- The members of a dimension, those that hold the most first. -/
def _ranked_members (table : List Row) (dimension : Text) : List (Text × ℚ) :=
  let sums : Dict Text ℚ := table.foldl (fun sums row =>
    (row.members.get? dimension).elim sums fun element =>
      sums.set element ((sums.get? element).getD 0 + _magnitude row.value)) Dict.empty
  sums.entries.mergeSort fun a b => b.2 ≤ a.2

/-! ## The stages -/

/-- A part of the search: the combination that it found, if any. -/
def Stage := Search → Except FindError (Option Pins × Search)

/-- One stage, and where it finds nothing another. -/
def Stage.orElse (first second : Stage) : Stage := fun s =>
  first s >>= fun out =>
    match out.1 with
    | some pins => .ok (some pins, out.2)
    | none => second out.2

section

variable (w : World) (cube : Text) (dimensions free : List Text)

/-- `out_of_time`. -/
def out_of_time (s : Search) : Bool × Search :=
  (w.late s.log, { s with log := s.log ++ [.clock (w.late s.log)] })

/-- `_run` of a probe. -/
def ask (mdx : Text) (s : Search) : Except ProbeError (List Row) × Search :=
  (w.answer s.log mdx, { s with log := s.log ++ [.probe mdx (w.answer s.log mdx)] })

/-- One cell: every dimension at its pin. -/
def cellMdx (current : Pins) : Except FindError Text :=
  match dimensions with
  | [] => .error .IndexError
  | first :: _ =>
    let anchor := current.keys.head?.getD first
    match current.get? anchor with
    | none => .error .KeyError
    | some element =>
      match build_mdx cube dimensions { dimension := anchor, members := [element] } [] current
          .empty with
      | .error e => .error (.spec e)
      | .ok (mdx, _) => .ok mdx

/-- `has_data`. -/
def has_data (current : Pins) : Stage := fun s =>
  cellMdx cube dimensions current >>= fun mdx =>
    let out := ask w mdx s
    match out.1 with
    | .ok (_ :: _) => .ok (some current, out.2)
    | _ => .ok (none, out.2)

/-- All members of one dimension, the others pinned. -/
def memberMdx (current : Pins) (dimension : Text) : Except FindError Text :=
  match build_mdx cube dimensions { dimension := dimension, level := some "all".toList } []
      (current.filter fun d => d ≠ dimension) .empty with
  | .error e => .error (.spec e)
  | .ok (mdx, _) => .ok mdx

/-- `repair_one_pin`, with so many of the free dimensions left. -/
def repair_one_pin (current : Pins) : List Text → Stage
  | [], s => .ok (none, s)
  | dimension :: rest, s =>
    let time := out_of_time w s
    if time.1 then .ok (none, time.2)
    else
      memberMdx cube dimensions current dimension >>= fun mdx =>
        let out := ask w mdx time.2
        match out.1 with
        -- a dimension that cannot be asked for is passed over
        | .error _ => repair_one_pin current rest out.2
        | .ok table =>
          match _ranked_members table dimension with
          | [] => repair_one_pin current rest out.2
          | best :: others =>
            .ok (some (current.set dimension best.1),
              { out.2 with
                members_with_data := out.2.members_with_data.set dimension
                  (((best :: others).take _MEMBERS_REPORTED).map Prod.fst) })

/-- A repaired combination is checked before it is reported. -/
def repaired (current : Pins) : Stage := fun s =>
  repair_one_pin w cube dimensions current free s >>= fun out =>
    match out.1 with
    | none => .ok (none, out.2)
    | some pins => has_data w cube dimensions pins out.2

/-- The loop over combinations. -/
def trials (stage : Pins → Stage) : List Pins → Stage
  | [], s => .ok (none, s)
  | trial :: rest, s =>
    let time := out_of_time w s
    if time.1 then .ok (none, time.2)
    else (stage trial).orElse (trials stage rest) time.2

end

/-! ## The search -/

/-- `itertools.product`. -/
def product {α : Type} : List (List α) → List (List α)
  | [] => [[]]
  | choices :: rest => choices.flatMap fun x => (product rest).map (x :: ·)

/-- `roots`. -/
def rootsOf (described : List Described) : Dict Text (List Text) :=
  Dict.empty.setAll (described.map fun d => (d.name, d.top_elements))

section

variable (described : List Described) (filters : Pins)

def freeOf : List Text := (described.map Described.name).filter fun d => d ∉ filters.keys

def baseOf : Pins := (totals described).union filters

/-- The free dimensions with several top-level elements. -/
def ambiguousOf : List Text :=
  (freeOf described filters).filter fun d => 1 < (((rootsOf described).get? d).getD []).length

def choicesOf (d : Text) : List Text :=
  let roots := ((rootsOf described).get? d).getD []
  match (baseOf described filters).get? d with
  | some pinned => pinned :: roots.filter fun r => r ≠ pinned
  | none => roots

/-- `combos`. -/
def combosOf : List Pins :=
  let ambiguous := ambiguousOf described filters
  if ambiguous = [] then []
  else ((product (ambiguous.map (choicesOf described filters))).take _MAX_COMBOS).map
    fun combo => (baseOf described filters).setAll (ambiguous.zip combo)

/-- What `find_data` reports. -/
structure Answer where
  cube : Text
  fixed : Pins
  found : Bool
  where_with_data : Option Pins
  changed : List (Text × Option Text × Text)
  members_with_data : Dict Text (List Text)
  top_elements : Option (Dict Text (List Text))
  note : String

/-- The pins that are not those of the starting point. -/
def changedFrom (base pins : Pins) : List (Text × Option Text × Text) :=
  (pins.entries.filter fun pin => base.get? pin.1 ≠ some pin.2).map
    fun pin => (pin.1, base.get? pin.1, pin.2)

variable (w : World) (cube : Text)

/-- The four stages, each with the note it is reported with. -/
def stages : List (Stage × String) :=
  let dimensions := described.map Described.name
  let free := freeOf described filters
  let base := baseOf described filters
  let combos := combosOf described filters
  [(has_data w cube dimensions base, "The totals hold data; query from here."),
    (repaired w cube dimensions free base,
      "One total held no data; where_with_data replaces it."),
    (trials w (has_data w cube dimensions) combos.tail,
      "A different top-level member holds the data."),
    (trials w (repaired w cube dimensions free) (combos.take _REPAIR_COMBOS),
      "Two pins held no data; where_with_data replaces them.")]

def nothingFound : String :=
  "No combination of totals tried holds data"
    ++ (if filters.entries ≠ [] then " for the fixed members" else "")
    ++ ". Tell the person plainly that no data was found for this selection, and which members "
    ++ "were tried — do not guess further element names."

/-- The stages in order, and what is reported. -/
def runStages : List (Stage × String) → Search → Except FindError (Answer × Search)
  -- nothing was found by any stage
  | [], s => .ok ({
      cube := cube, fixed := filters, found := false, where_with_data := none, changed := []
      members_with_data := s.members_with_data, top_elements := some (rootsOf described)
      note := nothingFound filters }, s)
  | stage :: rest, s =>
    stage.1 s >>= fun out =>
      match out.1 with
      | none => runStages rest out.2
      | some pins => .ok ({
          cube := cube, fixed := filters, found := true, where_with_data := some pins
          changed := changedFrom (baseOf described filters) pins
          members_with_data := out.2.members_with_data, top_elements := none
          note := stage.2 }, out.2)

def find_data : Except FindError (Answer × Search) :=
  let dimensions := described.map Described.name
  let unknown := filters.keys.filter fun d => d ∉ dimensions
  if unknown ≠ [] then
    .error (.spec (unknownDimension cube (unknown.map String.ofList) dimensions))
  else runStages described filters cube (stages described filters w cube) ⟨[], .empty⟩

end

/-! ## What a log says -/

def Event.isProbe : Event → Bool
  | .probe .. => true
  | .clock _ => false

/-- How many queries were sent. -/
def probes (log : List Event) : ℕ := log.countP Event.isProbe

/-- A probe that was answered, or a moment at which there was time. -/
def Event.Fine : Event → Prop
  | .probe _ (.ok _) => True
  | .probe _ (.error _) => False
  | .clock late => late = false

instance Event.decidableFine : DecidablePred Event.Fine
  | .probe _ (.ok _) => .isTrue trivial
  | .probe _ (.error _) => .isFalse not_false
  | .clock late => inferInstanceAs (Decidable (late = false))

/-- No probe failed, and the time was never up. -/
def Undisturbed (log : List Event) : Prop := ∀ e ∈ log, e.Fine

/-- An event is what the world says after all that was before. -/
def Event.Told (w : World) (before : List Event) : Event → Prop
  | .probe mdx answer => answer = w.answer before mdx
  | .clock late => late = w.late before

/-- Each answer of a log is the server's, and each moment the clock's. -/
def Told (w : World) (log : List Event) : Prop :=
  ∀ before e after, log = before ++ e :: after → e.Told w before

/-- The caller's filters are among the pins. -/
def Keeps (filters pins : Pins) : Prop := ∀ d e, filters.get? d = some e → pins.get? d = some e

/-- By its text, a query asks for the one cell of the pins: one of them is the column, the others
are the slicer. -/
def Asks (cube : Text) (pins : Pins) (mdx : Text) : Prop :=
  ∃ q anchor, Mdx.read mdx = some q ∧ q.cube = cube ∧ q.columns = .members [anchor] ∧
    q.rows = [] ∧ q.dimensions.Nodup ∧
    ∀ m, m ∈ anchor :: q.slicer ↔ m.hierarchy = m.dimension ∧ pins.get? m.dimension = some m.element

/-- By its text, a query is one of the cube, at the members of the filters. -/
def AsksWithin (cube : Text) (filters : Pins) (mdx : Text) : Prop :=
  ∃ q, Mdx.read mdx = some q ∧ q.cube = cube ∧ q.rows = [] ∧ ∀ d e, filters.get? d = some e →
    Mdx.own d e ∈ q.slicer ∨ q.columns = .members [Mdx.own d e]

/-- The cell of a combination was seen to hold data. -/
def Holds (cube : Text) (log : List Event) (pins : Pins) : Prop :=
  ∃ mdx rows, Asks cube pins mdx ∧ Event.probe mdx (.ok rows) ∈ log ∧ rows ≠ []

/-- The cell of a combination was asked for, and held nothing. -/
def Tried (cube : Text) (log : List Event) (pins : Pins) : Prop :=
  ∃ mdx, Asks cube pins mdx ∧ Event.probe mdx (.ok []) ∈ log

/-- What is added to a log: so many queries at most, all within the filters, and nothing that
the world did not say. -/
structure Grows (w : World) (cube : Text) (filters : Pins) (n : ℕ) (log log' : List Event) :
    Prop where
  added : ∃ events, log' = log ++ events ∧ probes events ≤ n ∧
    ∀ mdx answer, Event.probe mdx answer ∈ events → AsksWithin cube filters mdx
  told : Told w log → Told w log'

section

variable (w : World) (cube : Text)

/-- What a stage does that was given some combinations and sends at most so many queries. -/
structure Stage.Spec (filters : Pins) (given : List Pins) (n : ℕ) (stage : Stage) : Prop where
  grows : ∀ s r s', stage s = .ok (r, s') → Grows w cube filters n s.log s'.log
  holds : ∀ s pins s', stage s = .ok (some pins, s') → Keeps filters pins ∧ Holds cube s'.log pins
  tried : ∀ s s', stage s = .ok (none, s') → Undisturbed s'.log →
    ∀ pins ∈ given, Tried cube s'.log pins

end

variable {w : World} {cube : Text} {dimensions free : List Text} {filters : Pins}
  {given given' : List Pins} {n n' : ℕ} {log log' log'' : List Event}

theorem Tried.append {pins : Pins} (h : Tried cube log pins) (events : List Event) :
    Tried cube (log ++ events) pins := by
  obtain ⟨mdx, hmdx, hmem⟩ := h
  exact ⟨mdx, hmdx, List.mem_append_left _ hmem⟩

theorem Undisturbed.left {log events : List Event} (h : Undisturbed (log ++ events)) :
    Undisturbed log := fun e he => h e (List.mem_append_left _ he)

/-! ## What is added to a log -/

theorem told_nil : Told w [] := by
  intro before e after h
  cases before <;> cases h

theorem Told.append {e : Event} (h : Told w log) (he : e.Told w log) : Told w (log ++ [e]) := by
  intro before e' after hsplit
  rcases List.eq_nil_or_concat after with rfl | ⟨rest, last, rfl⟩
  · obtain ⟨rfl, hlast⟩ := List.append_inj' hsplit rfl
    rw [← (List.cons.inj hlast).1]
    exact he
  · rw [List.concat_eq_append, ← List.cons_append, ← List.append_assoc] at hsplit
    exact h before e' rest (List.append_inj' hsplit rfl).1

namespace Grows

theorem refl : Grows w cube filters 0 log log :=
  ⟨⟨[], (List.append_nil _).symm, le_rfl, nofun⟩, id⟩

theorem trans (h : Grows w cube filters n log log') (h' : Grows w cube filters n' log' log'') :
    Grows w cube filters (n + n') log log'' := by
  obtain ⟨events, hlog, hle, hwithin⟩ := h.added
  obtain ⟨events', hlog', hle', hwithin'⟩ := h'.added
  refine ⟨⟨events ++ events', by rw [hlog', hlog, List.append_assoc], ?_, ?_⟩, h'.told ∘ h.told⟩
  · rw [probes, List.countP_append]
    exact Nat.add_le_add hle hle'
  · intro mdx answer hmem
    rcases List.mem_append.mp hmem with hmem | hmem
    · exact hwithin mdx answer hmem
    · exact hwithin' mdx answer hmem

theorem mono (h : Grows w cube filters n log log') (hle : n ≤ n') :
    Grows w cube filters n' log log' := by
  obtain ⟨events, hlog, hcount, hwithin⟩ := h.added
  exact ⟨⟨events, hlog, hcount.trans hle, hwithin⟩, h.told⟩

/-- The clock is looked at. -/
theorem clock (s : Search) : Grows w cube filters 0 s.log (out_of_time w s).2.log :=
  ⟨⟨_, rfl, Nat.zero_le _, fun mdx answer hmem => by cases List.mem_singleton.mp hmem⟩,
    fun h => h.append rfl⟩

/-- A query is sent. -/
theorem ask {mdx : Text} (hwithin : AsksWithin cube filters mdx) (s : Search) :
    Grows w cube filters 1 s.log (ask w mdx s).2.log := by
  refine ⟨⟨_, rfl, le_rfl, fun mdx' answer hmem => ?_⟩, fun h => h.append rfl⟩
  cases List.mem_singleton.mp hmem
  exact hwithin

end Grows

/-! ## What is asked -/

/-- **The text of a cell's query asks for the cell.** -/
theorem cellMdx_asks {current : Pins} {mdx : Text}
    (h : cellMdx cube dimensions current = .ok mdx) : Asks cube current mdx := by
  unfold cellMdx at h
  split at h
  · cases h
  rename_i first rest
  dsimp only at h
  generalize current.keys.head?.getD first = anchor at h
  split at h
  · cases h
  rename_i element helement
  split at h
  · cases h
  rename_i built pinned hbuild
  obtain rfl := Except.ok.inj h
  have hplaces := places_nodup hbuild
  obtain ⟨-, -, rfl, rfl⟩ := build_mdx_eq_ok.mp hbuild
  refine ⟨_, Mdx.own anchor element, Mdx.read_statement, rfl, rfl, rfl, ?_, fun m => ?_⟩
  · rw [Mdx.dimensions_asked]
    exact hplaces
  rw [List.mem_cons, Mdx.mem_slicer_asked, get?_pinned]
  by_cases hanchor : m.dimension = anchor
  · -- the anchor is the column and not in WHERE
    have hcolumn : m.dimension ∈ axisDims { dimension := anchor, members := [element] } [] :=
      List.mem_singleton.mpr hanchor
    constructor
    · rintro (rfl | ⟨-, hnot, -⟩)
      · exact ⟨rfl, helement⟩
      · exact absurd hcolumn hnot
    · rintro ⟨hhierarchy, helement'⟩
      rw [hanchor, helement] at helement'
      left
      obtain ⟨dimension, hierarchy, element'⟩ := m
      obtain rfl : dimension = anchor := hanchor
      obtain rfl : hierarchy = dimension := hhierarchy
      rw [Mdx.own, Option.some.inj helement']
  · have hslicer : m.dimension ∉ axisDims { dimension := anchor, members := [element] } [] :=
      fun hmem => hanchor (List.mem_singleton.mp hmem)
    rw [and_iff_right hslicer]
    refine or_iff_right fun hown => hanchor ?_
    rw [hown, Mdx.own]

theorem Asks.within {pins : Pins} {mdx : Text} (h : Asks cube pins mdx)
    (hkeeps : Keeps filters pins) : AsksWithin cube filters mdx := by
  obtain ⟨q, anchor, hread, hcube, hcolumns, hrows, -, hmembers⟩ := h
  refine ⟨q, hread, hcube, hrows, fun d e he => ?_⟩
  have hmem := (hmembers (Mdx.own d e)).mpr ⟨rfl, hkeeps d e he⟩
  rcases List.mem_cons.mp hmem with hanchor | hslicer
  · right
    rw [hcolumns, hanchor]
  · exact .inl hslicer

/-- A free dimension is asked for within the filters. -/
theorem memberMdx_within {current : Pins} {d : Text} {mdx : Text}
    (h : memberMdx cube dimensions current d = .ok mdx) (hkeeps : Keeps filters current)
    (hfree : d ∉ filters.keys) : AsksWithin cube filters mdx := by
  unfold memberMdx at h
  split at h
  · cases h
  rename_i built pinned hbuild
  obtain rfl := Except.ok.inj h
  obtain ⟨-, -, rfl, rfl⟩ := build_mdx_eq_ok.mp hbuild
  refine ⟨_, Mdx.read_statement, rfl, rfl, fun d' e he => .inl (Mdx.mem_slicer_asked.mpr ⟨rfl, ?_⟩)⟩
  have hne : d' ≠ d := by
    rintro rfl
    exact hfree (Dict.mem_keys.mpr ⟨e, he⟩)
  refine get?_pinned.mpr ⟨fun hmem => hne (List.mem_singleton.mp hmem), ?_⟩
  rw [Mdx.own, Dict.get?_filter, if_pos (decide_eq_true hne)]
  exact hkeeps d' e he

/-! ## Stage by stage -/

namespace Stage

/-- One cell is asked for. -/
theorem Spec.has_data {current : Pins} (hkeeps : Keeps filters current) :
    Spec w cube filters [current] 1 (has_data w cube dimensions current) := by
  have hout : ∀ s r s', query_builder.has_data w cube dimensions current s = .ok (r, s') →
      ∃ mdx, Asks cube current mdx ∧ s' = (ask w mdx s).2 ∧
        ((∃ row rows, w.answer s.log mdx = .ok (row :: rows) ∧ r = some current) ∨
          (w.answer s.log mdx = .ok [] ∧ r = none) ∨
            ∃ e, w.answer s.log mdx = .error e ∧ r = none) := by
    intro s r s' h
    obtain ⟨mdx, hmdx, h⟩ := bind_eq_ok_iff.mp h
    refine ⟨mdx, cellMdx_asks hmdx, ?_⟩
    simp only [ask] at h ⊢
    rcases hanswer : w.answer s.log mdx with e | rows
    · rw [hanswer] at h
      obtain ⟨rfl, rfl⟩ := Prod.mk.inj (Except.ok.inj h)
      exact ⟨rfl, .inr (.inr ⟨e, rfl, rfl⟩)⟩
    · rw [hanswer] at h
      cases rows with
      | nil =>
        obtain ⟨rfl, rfl⟩ := Prod.mk.inj (Except.ok.inj h)
        exact ⟨rfl, .inr (.inl ⟨rfl, rfl⟩)⟩
      | cons row rows =>
        obtain ⟨rfl, rfl⟩ := Prod.mk.inj (Except.ok.inj h)
        exact ⟨rfl, .inl ⟨row, rows, rfl, rfl⟩⟩
  have hasked : ∀ (s : Search) mdx,
      Event.probe mdx (w.answer s.log mdx) ∈ (ask w mdx s).2.log := fun s mdx =>
    List.mem_append_right _ (List.mem_singleton_self _)
  constructor
  · intro s r s' h
    obtain ⟨mdx, hasks, rfl, -⟩ := hout s r s' h
    exact .ask (hasks.within hkeeps) s
  · intro s pins s' h
    obtain ⟨mdx, hasks, rfl, hcases⟩ := hout s _ s' h
    rcases hcases with ⟨row, rows, hanswer, hpins⟩ | ⟨-, hpins⟩ | ⟨-, -, hpins⟩
    · rw [Option.some.injEq] at hpins
      subst hpins
      have hmem := hasked s mdx
      rw [hanswer] at hmem
      exact ⟨hkeeps, mdx, row :: rows, hasks, hmem, List.cons_ne_nil _ _⟩
    · cases hpins
    · cases hpins
  · intro s s' h hfine pins hpins
    obtain ⟨mdx, hasks, rfl, hcases⟩ := hout s _ s' h
    rw [List.mem_singleton] at hpins
    subst hpins
    have hmem := hasked s mdx
    rcases hcases with ⟨row, rows, -, hnone⟩ | ⟨hanswer, -⟩ | ⟨e, hanswer, -⟩
    · cases hnone
    · rw [hanswer] at hmem
      exact ⟨mdx, hasks, hmem⟩
    · -- a probe that fails disturbs the search
      rw [hanswer] at hmem
      exact absurd (hfine _ hmem) not_false

theorem Spec.orElse {first second : Stage} (h : Spec w cube filters given n first)
    (h' : Spec w cube filters given' n' second) :
    Spec w cube filters (given ++ given') (n + n') (first.orElse second) := by
  -- the second stage runs only where the first finds nothing
  have hout : ∀ s r s', first.orElse second s = .ok (r, s') →
      (∃ pins, first s = .ok (some pins, s') ∧ r = some pins) ∨
        ∃ mid, first s = .ok (none, mid) ∧ second mid = .ok (r, s') := by
    intro s r s' h
    obtain ⟨out, hfirst, h⟩ := bind_eq_ok_iff.mp h
    obtain ⟨found, mid⟩ := out
    cases found with
    | none => exact .inr ⟨mid, hfirst, h⟩
    | some pins =>
      obtain ⟨rfl, rfl⟩ := Prod.mk.inj (Except.ok.inj h)
      exact .inl ⟨pins, hfirst, rfl⟩
  constructor
  · intro s r s' hrun
    rcases hout s r s' hrun with ⟨pins, hfirst, -⟩ | ⟨mid, hfirst, hsecond⟩
    · exact (h.grows _ _ _ hfirst).mono (Nat.le_add_right _ _)
    · exact (h.grows _ _ _ hfirst).trans (h'.grows _ _ _ hsecond)
  · intro s pins s' hrun
    rcases hout s _ s' hrun with ⟨pins', hfirst, hpins⟩ | ⟨mid, -, hsecond⟩
    · rw [Option.some.injEq] at hpins
      subst hpins
      exact h.holds _ _ _ hfirst
    · exact h'.holds _ _ _ hsecond
  · intro s s' hrun hfine pins hpins
    rcases hout s _ s' hrun with ⟨pins', -, hnone⟩ | ⟨mid, hfirst, hsecond⟩
    · cases hnone
    · obtain ⟨events, hlog, -⟩ := (h'.grows _ _ _ hsecond).added
      rcases List.mem_append.mp hpins with hpins | hpins
      · rw [hlog] at hfine ⊢
        exact (h.tried _ _ hfirst hfine.left pins hpins).append events
      · exact h'.tried _ _ hsecond hfine pins hpins

/-- Nothing is asked for, and nothing found. -/
theorem Spec.nothing : Spec w cube filters [] 0 (fun s => .ok (none, s)) := by
  constructor
  · intro s r s' h
    obtain ⟨-, rfl⟩ := Prod.mk.inj (Except.ok.inj h)
    exact .refl
  · intro s pins s' h
    obtain ⟨hnone, -⟩ := Prod.mk.inj (Except.ok.inj h)
    cases hnone
  · intro s s' h hfine pins hpins
    cases hpins

/-- A stage before which the clock is looked at. -/
theorem Spec.inTime {stage : Stage} (h : Spec w cube filters given n stage) :
    Spec w cube filters given n (fun s =>
      if (out_of_time w s).1 then .ok (none, (out_of_time w s).2)
      else stage (out_of_time w s).2) := by
  constructor
  · intro s r s' hrun
    split at hrun
    · obtain ⟨-, rfl⟩ := Prod.mk.inj (Except.ok.inj hrun)
      exact (Grows.clock s).mono (Nat.zero_le _)
    · have hgrows := (Grows.clock s).trans (h.grows _ _ _ hrun)
      rwa [Nat.zero_add] at hgrows
  · intro s pins s' hrun
    split at hrun
    · obtain ⟨hnone, -⟩ := Prod.mk.inj (Except.ok.inj hrun)
      cases hnone
    · exact h.holds _ _ _ hrun
  · intro s s' hrun hfine pins hpins
    split at hrun
    · -- the time was up
      rename_i hlate
      obtain ⟨-, rfl⟩ := Prod.mk.inj (Except.ok.inj hrun)
      have hclock := hfine (.clock (w.late s.log)) (List.mem_append_right _ List.mem_cons_self)
      have hnot : w.late s.log = false := hclock
      rw [show (out_of_time w s).1 = w.late s.log from rfl, hnot] at hlate
      cases hlate
    · exact h.tried _ _ hrun hfine pins hpins

/-- The combinations of a loop are given to its stage one by one. -/
theorem Spec.trials {stage : Pins → Stage} {of : Pins → List Pins} {list : List Pins}
    (h : ∀ trial ∈ list, Spec w cube filters (of trial) n (stage trial)) :
    Spec w cube filters (list.flatMap of) (list.length * n) (trials w stage list) := by
  induction list with
  | nil =>
    rw [List.length_nil, Nat.zero_mul]
    exact .nothing
  | cons trial list ih =>
    rw [List.forall_mem_cons] at h
    rw [List.length_cons, Nat.succ_mul, Nat.add_comm]
    exact (h.1.orElse (ih h.2)).inTime

end Stage

/-- Repairing a pin keeps the filters, and asks once for each free dimension. -/
theorem repair_one_pin_spec {current : Pins} (hkeeps : Keeps filters current) {list : List Text}
    (hfree : ∀ d ∈ list, d ∉ filters.keys) (s : Search) (r : Option Pins) (s' : Search)
    (h : repair_one_pin w cube dimensions current list s = .ok (r, s')) :
    Grows w cube filters list.length s.log s'.log ∧ ∀ pins, r = some pins → Keeps filters pins := by
  induction list generalizing s with
  | nil =>
    obtain ⟨rfl, rfl⟩ := Prod.mk.inj (Except.ok.inj h)
    exact ⟨.refl, nofun⟩
  | cons d list ih =>
    rw [List.forall_mem_cons] at hfree
    rw [repair_one_pin] at h
    simp only at h
    split at h
    · obtain ⟨rfl, rfl⟩ := Prod.mk.inj (Except.ok.inj h)
      exact ⟨(Grows.clock s).mono (Nat.zero_le _), nofun⟩
    · obtain ⟨mdx, hmdx, h⟩ := bind_eq_ok_iff.mp h
      -- the clock and the probe come before the rest
      have hclock : Grows w cube filters 0 s.log (out_of_time w s).2.log := .clock s
      have hasked := hclock.trans (.ask (memberMdx_within hmdx hkeeps hfree.1) _)
      rw [Nat.zero_add] at hasked
      rw [List.length_cons, Nat.add_comm]
      split at h
      · obtain ⟨hrest, hpins⟩ := ih hfree.2 _ h
        exact ⟨hasked.trans hrest, hpins⟩
      · split at h
        · obtain ⟨hrest, hpins⟩ := ih hfree.2 _ h
          exact ⟨hasked.trans hrest, hpins⟩
        · rename_i best others hranked
          obtain ⟨rfl, rfl⟩ := Prod.mk.inj (Except.ok.inj h)
          refine ⟨hasked.mono (Nat.le_add_right _ _), fun pins hpins => ?_⟩
          rw [Option.some.injEq] at hpins
          subst hpins
          intro d' e he
          have hne : d ≠ d' := by
            rintro rfl
            exact hfree.1 (Dict.mem_keys.mpr ⟨e, he⟩)
          rw [Dict.get?_set, if_neg hne]
          exact hkeeps d' e he

theorem Stage.Spec.repaired {current : Pins} (hkeeps : Keeps filters current)
    (hfree : ∀ d ∈ free, d ∉ filters.keys) :
    Stage.Spec w cube filters [] (free.length + 1) (repaired w cube dimensions free current) := by
  -- the repair proposes pins at most once, and they are asked for
  have hout : ∀ s r s', query_builder.repaired w cube dimensions free current s = .ok (r, s') →
      ∃ found mid, repair_one_pin w cube dimensions current free s = .ok (found, mid) ∧
        ((found = none ∧ r = none ∧ s' = mid) ∨ ∃ pins, found = some pins ∧
          query_builder.has_data w cube dimensions pins mid = .ok (r, s')) := by
    intro s r s' h
    obtain ⟨out, hrepair, h⟩ := bind_eq_ok_iff.mp h
    obtain ⟨found, mid⟩ := out
    refine ⟨found, mid, hrepair, ?_⟩
    cases found with
    | none =>
      obtain ⟨rfl, rfl⟩ := Prod.mk.inj (Except.ok.inj h)
      exact .inl ⟨rfl, rfl, rfl⟩
    | some pins => exact .inr ⟨pins, rfl, h⟩
  constructor
  · intro s r s' h
    obtain ⟨found, mid, hrepair, hcases⟩ := hout s r s' h
    obtain ⟨hgrows, hpins⟩ := repair_one_pin_spec hkeeps hfree _ _ _ hrepair
    rcases hcases with ⟨-, -, rfl⟩ | ⟨pins, rfl, hdata⟩
    · exact hgrows.mono (Nat.le_succ _)
    · exact hgrows.trans ((Stage.Spec.has_data (hpins pins rfl)).grows _ _ _ hdata)
  · intro s pins s' h
    obtain ⟨found, mid, hrepair, hcases⟩ := hout s _ s' h
    obtain ⟨-, hpins⟩ := repair_one_pin_spec hkeeps hfree _ _ _ hrepair
    rcases hcases with ⟨-, hnone, -⟩ | ⟨pins', rfl, hdata⟩
    · cases hnone
    · exact (Stage.Spec.has_data (w := w) (hpins pins' rfl)).holds _ _ _ hdata
  · intro s s' h hfine pins hpins
    cases hpins

/-! ## The combinations -/

theorem product_head {α : Type} {choices : List (List α)} {first : List α}
    (h : List.Forall₂ (fun options x => options.head? = some x) choices first) :
    (product choices).head? = some first := by
  induction h with
  | nil => rfl
  | cons hfirst hrest ih =>
    obtain ⟨others, rfl⟩ := List.head?_eq_some_iff.mp hfirst
    rw [product, List.flatMap_cons, List.head?_append, List.head?_map, ih]
    rfl

section

variable {described : List Described}

theorem not_mem_filters_of_free {d : Text} (h : d ∈ freeOf described filters) :
    d ∉ filters.keys := by
  have hnot := (List.mem_filter.mp h).2
  rwa [decide_eq_true_eq] at hnot

theorem keeps_base : Keeps filters (baseOf described filters) := by
  intro d e he
  rw [baseOf, Dict.get?_union, he, Option.some_or]

/-- A dimension with several top-level elements has a total. -/
theorem total_isSome {d : Described} (h : 1 < d.top_elements.length) :
    ∃ e, query_context.total d = some e := by
  have hmany : d.top_elements.length ≠ 1 := by omega
  unfold query_context.total
  simp only
  rw [if_neg hmany]
  cases hdefault : d.default_member.filter (· ≠ []) with
  | some e =>
    have hne := (Option.filter_eq_some_iff.mp hdefault).2
    exact ⟨e, by rw [Option.some_or, Option.filter_some, if_pos hne]⟩
  | none =>
    cases htops : d.top_elements with
    | nil =>
      rw [htops] at h
      cases h
    | cons e others =>
      have hne : e ≠ [] := d.named e (by rw [htops]; exact List.mem_cons_self)
      exact ⟨e, by rw [Option.none_or, List.head?_cons, Option.filter_some,
        if_pos (by simpa using hne)]⟩

theorem exists_base_of_ambiguous {d : Text} (h : d ∈ ambiguousOf described filters) :
    ∃ e, (baseOf described filters).get? d = some e := by
  have hmany := (List.mem_filter.mp h).2
  rw [decide_eq_true_eq] at hmany
  cases hroots : (rootsOf described).get? d with
  | none =>
    rw [hroots] at hmany
    cases hmany
  | some tops =>
    rw [hroots] at hmany
    rcases Dict.get?_setAll_eq_some hroots with hmem | hnone
    · obtain ⟨x, hx, heq⟩ := List.mem_map.mp hmem
      obtain ⟨hname, htops⟩ := Prod.mk.inj heq
      obtain ⟨e, he⟩ := total_isSome (d := x) (by rw [htops]; exact hmany)
      apply Dict.mem_keys.mp
      rw [baseOf, Dict.mem_keys_union]
      left
      rw [totals, Dict.mem_keys_setAll]
      refine .inr ⟨(x.name, e), List.mem_filterMap.mpr ⟨x, hx, ?_⟩, hname⟩
      rw [he]
      rfl
    · cases hnone

/-- **The first combination is the starting point.** -/
theorem combos_head (h : combosOf described filters ≠ []) :
    combosOf described filters = baseOf described filters :: (combosOf described filters).tail := by
  have hpins : ∀ d ∈ ambiguousOf described filters, (baseOf described filters).get? d
      = some (((baseOf described filters).get? d).getD []) := by
    intro d hd
    obtain ⟨e, he⟩ := exists_base_of_ambiguous hd
    rw [he, Option.getD_some]
  -- each dimension's first choice is its pin
  have hfirst : List.Forall₂ (fun options x => options.head? = some x)
      ((ambiguousOf described filters).map (choicesOf described filters))
      ((ambiguousOf described filters).map
        fun d => ((baseOf described filters).get? d).getD []) := by
    rw [List.forall₂_map_left_iff, List.forall₂_map_right_iff, List.forall₂_same]
    intro d hd
    rw [choicesOf]
    rw [hpins d hd, Option.getD_some]
    rfl
  have hsame : (baseOf described filters).setAll ((ambiguousOf described filters).zip
      ((ambiguousOf described filters).map fun d => ((baseOf described filters).get? d).getD []))
      = baseOf described filters := by
    apply Dict.setAll_self
    intro e he
    rw [← List.map_id (ambiguousOf described filters), List.map_map, List.zip_map'] at he
    obtain ⟨d, hd, rfl⟩ := List.mem_map.mp he
    exact hpins d hd
  have hhead : (combosOf described filters).head? = some (baseOf described filters) := by
    unfold combosOf at h ⊢
    simp only at h ⊢
    split at h
    · exact absurd rfl h
    · rename_i hambiguous
      rw [if_neg hambiguous, List.head?_map, List.head?_take, if_neg (by decide),
        product_head hfirst, Option.map_some, hsame]
  obtain ⟨others, hcombos⟩ := List.head?_eq_some_iff.mp hhead
  rw [hcombos, List.tail_cons]

theorem keeps_combo {trial : Pins} (h : trial ∈ combosOf described filters) :
    Keeps filters trial := by
  unfold combosOf at h
  simp only at h
  split at h
  · cases h
  · obtain ⟨combo, -, rfl⟩ := List.mem_map.mp h
    intro d e he
    rw [Dict.get?_setAll_of_not_mem]
    · exact keeps_base d e he
    · rintro pin hpin rfl
      have hmem := (List.of_mem_zip hpin).1
      exact not_mem_filters_of_free (List.mem_of_mem_filter hmem) (Dict.mem_keys.mpr ⟨e, he⟩)

theorem length_combos (described : List Described) (filters : Pins) :
    (combosOf described filters).length ≤ _MAX_COMBOS := by
  unfold combosOf
  simp only
  split
  · exact Nat.zero_le _
  · rw [List.length_map]
    exact List.length_take_le _ _

end

/-! ## No stage raises -/

/-- Pins of the cube's dimensions, at least one. -/
structure Usable (dimensions : List Text) (pins : Pins) : Prop where
  some_pin : pins.keys ≠ []
  known : ∀ d ∈ pins.keys, d ∈ dimensions

def Stage.Returns (stage : Stage) : Prop := ∀ s, ∃ out, stage s = .ok out

theorem exists_cellMdx (cube : Text) {current : Pins} (h : Usable dimensions current) :
    ∃ mdx, cellMdx cube dimensions current = .ok mdx := by
  obtain ⟨anchor, others, hkeys⟩ := List.exists_cons_of_ne_nil h.some_pin
  have hanchor : anchor ∈ current.keys := by
    rw [hkeys]
    exact List.mem_cons_self
  obtain ⟨element, helement⟩ := Dict.mem_keys.mp hanchor
  have hmem : anchor ∈ dimensions := h.known anchor hanchor
  have hhead : ∀ first, current.keys.head?.getD first = anchor := by
    intro first
    rw [hkeys]
    rfl
  obtain ⟨out, hout⟩ := exists_build_mdx cube { dimension := anchor, members := [element] }
    .empty hmem h.known
  obtain ⟨first, rest, rfl⟩ := List.exists_cons_of_ne_nil (List.ne_nil_of_mem hmem)
  refine ⟨out.1, ?_⟩
  simp only [cellMdx, hhead, helement, hout]

theorem exists_memberMdx (cube : Text) {current : Pins} {d : Text} (hd : d ∈ dimensions)
    (h : Usable dimensions current) : ∃ mdx, memberMdx cube dimensions current d = .ok mdx := by
  have hothers : ∀ d' ∈ (current.filter fun d' => d' ≠ d).keys, d' ∈ dimensions :=
    fun d' hd' => h.known d' (Dict.mem_keys_filter.mp hd').1
  obtain ⟨out, hout⟩ := exists_build_mdx cube { dimension := d, level := some "all".toList }
    .empty hd hothers
  exact ⟨out.1, by simp only [memberMdx, hout]⟩

theorem Usable.set {current : Pins} (h : Usable dimensions current) {d : Text}
    (hd : d ∈ dimensions) (element : Text) : Usable dimensions (current.set d element) := by
  constructor
  · apply List.ne_nil_of_mem
    exact Dict.mem_keys_set.mpr (.inr rfl)
  · intro d' hd'
    rcases Dict.mem_keys_set.mp hd' with hold | rfl
    · exact h.known d' hold
    · exact hd

theorem has_data_returns {current : Pins} (h : Usable dimensions current) :
    (has_data w cube dimensions current).Returns := by
  intro s
  obtain ⟨mdx, hmdx⟩ := exists_cellMdx cube h
  rcases hanswer : (ask w mdx s).1 with e | rows
  · refine ⟨(none, (ask w mdx s).2), ?_⟩
    rw [has_data, hmdx]
    simp only [bind, Except.bind, hanswer]
  · cases rows with
    | nil =>
      refine ⟨(none, (ask w mdx s).2), ?_⟩
      rw [has_data, hmdx]
      simp only [bind, Except.bind, hanswer]
    | cons row rows =>
      refine ⟨(some current, (ask w mdx s).2), ?_⟩
      rw [has_data, hmdx]
      simp only [bind, Except.bind, hanswer]

theorem repair_one_pin_returns (w : World) (cube : Text) {current : Pins}
    (h : Usable dimensions current) {list : List Text} (hlist : ∀ d ∈ list, d ∈ dimensions) (s : Search) :
    ∃ out, repair_one_pin w cube dimensions current list s = .ok out ∧
      ∀ pins, out.1 = some pins → Usable dimensions pins := by
  induction list generalizing s with
  | nil => exact ⟨_, rfl, fun _ hnone => by cases hnone⟩
  | cons d list ih =>
    rw [List.forall_mem_cons] at hlist
    obtain ⟨mdx, hmdx⟩ := exists_memberMdx cube hlist.1 h
    rw [repair_one_pin]
    simp only [hmdx, bind, Except.bind]
    split
    · exact ⟨_, rfl, fun _ hnone => by cases hnone⟩
    · split
      · exact ih hlist.2 _
      · split
        · exact ih hlist.2 _
        · rename_i best others hranked
          refine ⟨_, rfl, fun pins hpins => ?_⟩
          rw [Option.some.injEq] at hpins
          rw [← hpins]
          exact h.set hlist.1 best.1

theorem repaired_returns {current : Pins} (h : Usable dimensions current)
    (hfree : ∀ d ∈ free, d ∈ dimensions) : (repaired w cube dimensions free current).Returns := by
  intro s
  obtain ⟨out, hrepair, hpins⟩ := repair_one_pin_returns w cube h hfree s
  rw [repaired, hrepair]
  simp only [bind, Except.bind]
  cases hfound : out.1 with
  | none => exact ⟨_, rfl⟩
  | some pins => exact has_data_returns (hpins pins hfound) _

theorem Stage.Returns.orElse {first second : Stage} (h : first.Returns) (h' : second.Returns) :
    (first.orElse second).Returns := by
  intro s
  obtain ⟨out, hout⟩ := h s
  rw [Stage.orElse, hout]
  simp only [bind, Except.bind]
  cases out.1 with
  | none => exact h' _
  | some pins => exact ⟨_, rfl⟩

theorem trials_returns {stage : Pins → Stage} {list : List Pins}
    (h : ∀ trial ∈ list, (stage trial).Returns) : (trials w stage list).Returns := by
  induction list with
  | nil => exact fun s => ⟨_, rfl⟩
  | cons trial list ih =>
    rw [List.forall_mem_cons] at h
    intro s
    obtain ⟨out, hout⟩ := (h.1.orElse (ih h.2)) (out_of_time w s).2
    cases htime : (out_of_time w s).1 with
    | true => exact ⟨(none, (out_of_time w s).2), if_pos htime⟩
    | false => exact ⟨out, (if_neg (by rw [htime]; decide)).trans hout⟩

/-! ## The search as a whole -/

section

variable {described : List Described}

theorem runStages_returns {list : List (Stage × String)} (h : ∀ stage ∈ list, stage.1.Returns)
    (s : Search) : ∃ out, runStages described filters cube list s = .ok out := by
  induction list generalizing s with
  | nil => exact ⟨_, rfl⟩
  | cons stage list ih =>
    rw [List.forall_mem_cons] at h
    obtain ⟨out, hout⟩ := h.1 s
    rw [runStages, hout]
    simp only [bind, Except.bind]
    cases out.1 with
    | none => exact ih h.2 _
    | some pins => exact ⟨_, rfl⟩

/-- What is reported of stages that do what they should. -/
theorem runStages_spec {list : List (Stage × String)} {given : List (List Pins × ℕ)}
    (hspec : List.Forall₂ (fun stage g => Stage.Spec w cube filters g.1 g.2 stage.1) list given)
    {s s' : Search} {answer : Answer}
    (h : runStages described filters cube list s = .ok (answer, s')) :
    Grows w cube filters (given.map Prod.snd).sum s.log s'.log ∧ answer.fixed = filters ∧
      (answer.found = true → ∃ pins, answer.where_with_data = some pins ∧ Keeps filters pins ∧
        Holds cube s'.log pins ∧ answer.changed = changedFrom (baseOf described filters) pins) ∧
      (answer.found = false → Undisturbed s'.log →
        ∀ g ∈ given, ∀ pins ∈ g.1, Tried cube s'.log pins) := by
  induction hspec generalizing s with
  | nil =>
    obtain ⟨rfl, rfl⟩ := Prod.mk.inj (Except.ok.inj h)
    exact ⟨.refl, rfl, nofun, fun _ _ g hg => absurd hg List.not_mem_nil⟩
  | cons hstage hrest ih =>
    obtain ⟨out, hout, h⟩ := bind_eq_ok_iff.mp h
    obtain ⟨found, mid⟩ := out
    have hgrows := hstage.grows _ _ _ hout
    rw [List.map_cons, List.sum_cons]
    cases found with
    -- the first stage that finds something ends the search
    | some pins =>
      obtain ⟨hkeeps, hholds⟩ := hstage.holds _ _ _ hout
      obtain ⟨rfl, rfl⟩ := Prod.mk.inj (Except.ok.inj h)
      exact ⟨hgrows.mono (Nat.le_add_right _ _), rfl, fun _ => ⟨pins, rfl, hkeeps, hholds, rfl⟩,
        nofun⟩
    | none =>
      obtain ⟨hmore, hfixed, hfound, hnot⟩ := ih h
      refine ⟨hgrows.trans hmore, hfixed, hfound, fun hfalse hfine g hg pins hpins => ?_⟩
      rcases List.mem_cons.mp hg with rfl | hg
      · obtain ⟨events, hlog, -⟩ := hmore.added
        rw [hlog] at hfine ⊢
        -- what this stage has tried stays tried
        exact (hstage.tried _ _ hout hfine.left pins hpins).append events
      · exact hnot hfalse hfine g hg pins hpins

end

/-- What each stage is given, and how many queries it may send. -/
def givenTo (described : List Described) (filters : Pins) : List (List Pins × ℕ) :=
  let free := (freeOf described filters).length
  let combos := combosOf described filters
  [([baseOf described filters], 1), ([], free + 1),
    (combos.tail.flatMap fun trial => [trial], combos.tail.length * 1),
    ((combos.take _REPAIR_COMBOS).flatMap fun _ => [],
      (combos.take _REPAIR_COMBOS).length * (free + 1))]

theorem stages_spec (described : List Described) (filters : Pins) (w : World) (cube : Text) :
    List.Forall₂ (fun stage g => Stage.Spec w cube filters g.1 g.2 stage.1)
      (stages described filters w cube) (givenTo described filters) := by
  have hfree : ∀ d ∈ freeOf described filters, d ∉ filters.keys :=
    fun d hd => not_mem_filters_of_free hd
  refine .cons (.has_data keeps_base) (.cons (.repaired keeps_base hfree)
    (.cons (.trials fun trial htrial => ?_) (.cons (.trials fun trial htrial => ?_) .nil)))
  · exact .has_data (keeps_combo (List.mem_of_mem_tail htrial))
  · exact .repaired (keeps_combo (List.mem_of_mem_take htrial)) hfree

/-- The stages together send a number of queries that the cube's size bounds. -/
theorem sum_givenTo_le (described : List Described) (filters : Pins) :
    ((givenTo described filters).map Prod.snd).sum ≤ 29 + 5 * described.length := by
  have hcombos : (combosOf described filters).tail.length ≤ 23 := by
    have hlength := length_combos described filters
    rw [List.length_tail]
    exact Nat.sub_le_sub_right hlength 1
  have hrepair : ((combosOf described filters).take _REPAIR_COMBOS).length ≤ 4 :=
    List.length_take_le _ _
  have hfree : (freeOf described filters).length ≤ described.length := by
    have hle := List.length_filter_le (fun d => d ∉ filters.keys) (described.map Described.name)
    rwa [List.length_map] at hle
  have hmul : ((combosOf described filters).take _REPAIR_COMBOS).length
      * ((freeOf described filters).length + 1) ≤ 4 * (described.length + 1) :=
    Nat.mul_le_mul hrepair (Nat.succ_le_succ hfree)
  simp only [givenTo, List.map_cons, List.map_nil, List.sum_cons, List.sum_nil]
  rw [Nat.mul_one, Nat.add_zero]
  omega

/-- Pins of a cube's own dimensions are usable. -/
theorem usable_base {described : List Described}
    (hknown : ∀ d ∈ filters.keys, d ∈ described.map Described.name)
    (hsome : (baseOf described filters).keys ≠ []) :
    Usable (described.map Described.name) (baseOf described filters) := by
  refine ⟨hsome, fun d hd => ?_⟩
  rcases Dict.mem_keys_union.mp hd with htotal | hfilter
  · rcases Dict.mem_keys_setAll.mp htotal with hempty | ⟨pin, hpin, rfl⟩
    · cases hempty
    · obtain ⟨x, hx, htotal⟩ := List.mem_filterMap.mp hpin
      obtain ⟨element, -, rfl⟩ := Option.map_eq_some_iff.mp htotal
      exact List.mem_map_of_mem hx
  · exact hknown d hfilter

theorem usable_combo {described : List Described}
    (hbase : Usable (described.map Described.name) (baseOf described filters)) {trial : Pins}
    (h : trial ∈ combosOf described filters) : Usable (described.map Described.name) trial := by
  unfold combosOf at h
  simp only at h
  split at h
  · cases h
  · obtain ⟨combo, -, rfl⟩ := List.mem_map.mp h
    constructor
    · obtain ⟨d, others, hkeys⟩ := List.exists_cons_of_ne_nil hbase.some_pin
      have hd : d ∈ (baseOf described filters).keys := by
        rw [hkeys]
        exact List.mem_cons_self
      exact List.ne_nil_of_mem (Dict.mem_keys_setAll.mpr (.inl hd))
    · intro d hd
      rcases Dict.mem_keys_setAll.mp hd with hold | ⟨pin, hpin, rfl⟩
      · exact hbase.known d hold
      · have hambiguous := (List.of_mem_zip hpin).1
        exact List.mem_of_mem_filter (List.mem_of_mem_filter hambiguous)

/-- The stages return, where there is a pin to begin with. -/
theorem stages_return {described : List Described} (w : World) (cube : Text)
    (hbase : Usable (described.map Described.name) (baseOf described filters)) :
    ∀ stage ∈ stages described filters w cube, stage.1.Returns := by
  have hfree : ∀ d ∈ freeOf described filters, d ∈ described.map Described.name :=
    fun d hd => List.mem_of_mem_filter hd
  unfold stages
  simp only [List.forall_mem_cons]
  refine ⟨has_data_returns hbase, repaired_returns hbase hfree, trials_returns fun trial h => ?_,
    trials_returns fun trial h => ?_, fun _ h => by cases h⟩
  · exact has_data_returns (usable_combo hbase (List.mem_of_mem_tail h))
  · exact repaired_returns (usable_combo hbase (List.mem_of_mem_take h)) hfree

/-- What is changed is no filter. -/
theorem changed_not_filter {described : List Described} {pins : Pins} (h : Keeps filters pins) :
    ∀ c ∈ changedFrom (baseOf described filters) pins, c.1 ∉ filters.keys := by
  intro c hc hmem
  obtain ⟨pin, hpin, rfl⟩ := List.mem_map.mp hc
  obtain ⟨hentry, hchanged⟩ := List.mem_filter.mp hpin
  rw [decide_eq_true_eq] at hchanged
  obtain ⟨e, he⟩ := Dict.mem_keys.mp hmem
  have hpinned := Dict.mem_entries.mp (show (pin.1, pin.2) ∈ pins.entries from hentry)
  have hsame : some pin.2 = some e := hpinned.symm.trans (h _ _ he)
  exact hchanged (by rw [keeps_base _ _ he, hsame])

/-- **Each dimension has one place, and the search is sound.** By the text of a query each
dimension is in it once: the axes are those that were asked for, no axis dimension is in WHERE,
and every other pin is, at its member. The search comes to its end after a bounded number of
queries, and where there is a pin to begin with it returns. Its log is what the server and the
clock said, and all its queries are within the filters. It keeps the filters, it reports only a
combination whose cell it has seen to hold data, and where no probe failed and there was time it
reports none only if it was told of the cell of each combination that it holds nothing. -/
theorem query_placed_and_search_sound :
    (∀ (cube : Text) (dimensions : List Text) (columns : AxisSpec) (rows : List AxisSpec)
      (pins : Pins) (top_elements : Dict Text (List Text)) (mdx : Text) (pinned : Pins),
      build_mdx cube dimensions columns rows pins top_elements = .ok (mdx, pinned) →
      ∃ q, Mdx.read mdx = some q ∧ q.cube = cube ∧
        q.columns = Mdx.askedSet top_elements columns ∧
        q.rows = rows.map (Mdx.askedSet top_elements) ∧
        q.onAxes = axisDims columns rows ∧ q.dimensions.Nodup ∧
        (∀ m, m ∈ q.slicer ↔ m.hierarchy = m.dimension ∧ m.dimension ∉ axisDims columns rows ∧
          pins.get? m.dimension = some m.element) ∧
        ∀ d e, pinned.get? d = some e ↔ d ∉ axisDims columns rows ∧ pins.get? d = some e) ∧
    ∀ (described : List Described) (filters : Pins) (w : World) (cube : Text),
      ((∀ d ∈ filters.keys, d ∈ described.map Described.name) →
        (baseOf described filters).keys ≠ [] →
        ∃ answer s, find_data described filters w cube = .ok (answer, s)) ∧
      ∀ (answer : Answer) (s : Search), find_data described filters w cube = .ok (answer, s) →
        probes s.log ≤ 29 + 5 * described.length ∧ Told w s.log ∧
        (∀ mdx rows, Event.probe mdx rows ∈ s.log → AsksWithin cube filters mdx) ∧
        answer.fixed = filters ∧
        (answer.found = true → ∃ pins, answer.where_with_data = some pins ∧
          Keeps filters pins ∧ Holds cube s.log pins ∧
          ∀ c ∈ answer.changed, c.1 ∉ filters.keys) ∧
        (answer.found = false → Undisturbed s.log →
          ∀ pins ∈ baseOf described filters :: combosOf described filters,
            Tried cube s.log pins) := by
  refine ⟨fun cube dimensions columns rows pins top_elements mdx pinned h => ?_,
    fun described filters w cube => ⟨fun hknown hsome => ?_, fun answer s h => ?_⟩⟩
  · have hplaces := places_nodup h
    obtain ⟨-, -, rfl, rfl⟩ := build_mdx_eq_ok.mp h
    have hpinned : ∀ d e, (pins.filter fun d => d ∉ axisDims columns rows).get? d = some e ↔
        d ∉ axisDims columns rows ∧ pins.get? d = some e := fun _ _ => get?_pinned
    refine ⟨_, Mdx.read_statement, rfl, rfl, rfl, Mdx.onAxes_asked, ?_, fun m => ?_, hpinned⟩
    · rw [Mdx.dimensions_asked]
      exact hplaces
    · rw [Mdx.mem_slicer_asked, hpinned]
  · have hnone : (filters.keys.filter fun d => d ∉ described.map Described.name) = [] := by
      rw [List.filter_eq_nil_iff]
      intro d hd
      simpa using hknown d hd
    obtain ⟨out, hout⟩ := runStages_returns (stages_return w cube (usable_base hknown hsome))
      ⟨[], .empty⟩
    refine ⟨out.1, out.2, ?_⟩
    rw [find_data, if_neg (not_not.mpr hnone), hout]
  · rw [find_data] at h
    split at h
    · cases h
    · obtain ⟨hgrows, hfixed, hfound, hnot⟩ :=
        runStages_spec (stages_spec described filters w cube) h
      obtain ⟨events, hlog, hle, hwithin⟩ := hgrows.added
      rw [List.nil_append] at hlog
      rw [← hlog] at hle hwithin
      refine ⟨hle.trans (sum_givenTo_le described filters), hgrows.told told_nil, hwithin, hfixed,
        fun htrue => ?_, fun hfalse hfine pins hpins => ?_⟩
      · obtain ⟨pins, hwhere, hkeeps, hholds, hchanged⟩ := hfound htrue
        refine ⟨pins, hwhere, hkeeps, hholds, ?_⟩
        rw [hchanged]
        exact changed_not_filter hkeeps
      · -- the starting point is the first stage's, the other combinations are the third's
        have hbase := hnot hfalse hfine _ List.mem_cons_self (baseOf described filters)
          (List.mem_singleton_self _)
        rcases List.mem_cons.mp hpins with rfl | hcombo
        · exact hbase
        · rw [combos_head (List.ne_nil_of_mem hcombo)] at hcombo
          rcases List.mem_cons.mp hcombo with rfl | htail
          · exact hbase
          · apply hnot hfalse hfine _ (List.mem_cons_of_mem _ (List.mem_cons_of_mem _
              List.mem_cons_self)) pins
            rw [List.mem_flatMap]
            exact ⟨pins, htail, List.mem_singleton_self _⟩

/-- Two versions with no total, and one centre. -/
def twoVersions : List Described :=
  [⟨"Version".toList, none, ["Actual".toList, "Plan".toList], by decide⟩,
    ⟨"Center".toList, none, ["All".toList], by decide⟩]

/-- A server without data, that answers in time. -/
def emptyServer : World := ⟨fun _ _ => .ok [], fun _ => false⟩

/-- `query_placed_and_search_sound` for them: both versions were tried. -/
theorem twoVersions_tried :
    ∃ answer s, find_data twoVersions .empty emptyServer "Sales".toList = .ok (answer, s) ∧
      answer.found = false ∧
      ∀ pins ∈ baseOf twoVersions .empty :: combosOf twoVersions .empty,
        Tried "Sales".toList s.log pins := by
  have hpinned : (baseOf twoVersions .empty).keys ≠ [] := by decide +kernel
  obtain ⟨hreturns, hsound⟩ :=
    query_placed_and_search_sound.2 twoVersions .empty emptyServer "Sales".toList
  obtain ⟨answer, s, h⟩ := hreturns (fun d hd => by cases hd) hpinned
  have hfound : (find_data twoVersions .empty emptyServer "Sales".toList).toOption.map
      (fun out => out.1.found) = some false := by decide +kernel
  have hfine : (find_data twoVersions .empty emptyServer "Sales".toList).toOption.map
      (fun out => out.2.log.all fun e => decide e.Fine) = some true := by decide +kernel
  rw [h] at hfound hfine
  have hfalse : answer.found = false := Option.some.inj hfound
  have hundisturbed : Undisturbed s.log := by
    intro e he
    exact of_decide_eq_true (List.all_eq_true.mp (Option.some.inj hfine) e he)
  exact ⟨answer, s, h, hfalse, (hsound answer s h).2.2.2.2.2 hfalse hundisturbed⟩

end query_builder

end PaCopilot

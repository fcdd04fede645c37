/-
How severe `analyze_impact` says it is.

An object is affected by the rules, by what the process writes, and along the shortest
paths of the dependency map; the most severe of these is its severity ([`Worst`]). The
traversals report one edge for each object, whichever of the edges that reach it comes
first. So the severity is right in every order of the rows exactly when the worst of an
object is one that every order reports ([`Assured`]).
-/
import PaCopilot.Impact.Analyzer
import PaCopilot.Metadata.ShortestPath

set_option autoImplicit false

namespace PaCopilot.impact

open metadata Table

/-! ## What a change affects -/

section Affected

variable (lower : String → String) (g : Graph) (q : Query)

/-- The key under which `analyze_impact` merges what it finds. -/
def keyOf (object_type name : String) : String × String := (object_type, lower name)

/-- An edge by which the process writes, of that severity. -/
def ofWrite (s : Severity) (relationship_type : String) (_depth : ℕ) : Prop :=
  writes relationship_type = true ∧ s = writtenSeverity q

/-- A dependency of that severity. -/
def ofDependency (s : Severity) (relationship_type : String) (depth : ℕ) : Prop :=
  s = dependentSeverity q relationship_type depth

/-- Something affects the object, with that severity. -/
inductive Affects (start : TM1Object) (key : String × String) (s : Severity) : Prop
  | rules (hrules : q.rules_change = true) (hkey : key = ("cube", lower q.name)) (hs : s = .high)
  | written (hprocess : q.object_type = "process")
      (h : CanReach g .outgoing start (keyOf lower) 1 key (ofWrite q s))
  | dependent (h : CanReach g .incoming start (keyOf lower) q.max_depth key (ofDependency q s))

/-- Something that every order of the rows reports affects the object, with that severity:
the rules; the writes of the process, if all its edges to the object are writes; or the
dependencies, if all edges that end a shortest path to the object are of that severity. -/
inductive Assured (start : TM1Object) (key : String × String) (s : Severity) : Prop
  | rules (hrules : q.rules_change = true) (hkey : key = ("cube", lower q.name)) (hs : s = .high)
  | written (hprocess : q.object_type = "process")
      (h : MustReach g .outgoing start (keyOf lower) 1 key (ofWrite q s))
  | dependent (h : MustReach g .incoming start (keyOf lower) q.max_depth key (ofDependency q s))

/-- The most severe way in which the object is affected. -/
structure Worst (start : TM1Object) (key : String × String) (s : Severity) : Prop where
  affects : Affects lower g q start key s
  most : ∀ other, Affects lower g q start key other → s.index ≤ other.index

/-- The object that is changed. -/
def Changed (start : TM1Object) : Prop :=
  _resolve_object g q.organization_id q.object_type q.name = .ok start

/-- The worst of every affected object is assured. -/
def Settled : Prop :=
  ∀ start, Changed g q start → ∀ key s, Worst lower g q start key s → Assured lower g q start key s

end Affected

/-- What affects an object has a most severe one. -/
theorem exists_worst {lower : String → String} {g : Graph} {q : Query} {start : TM1Object}
    {key : String × String} {s : Severity} (h : Affects lower g q start key s) :
    ∃ worst, Worst lower g q start key worst := by
  induction hindex : s.index using Nat.strongRecOn generalizing s with
  | ind index ih =>
    by_cases hmost : ∀ other, Affects lower g q start key other → s.index ≤ other.index
    · exact ⟨s, h, hmost⟩
    · push Not at hmost
      obtain ⟨other, hother, hless⟩ := hmost
      rw [hindex] at hless
      exact ih other.index hless hother rfl

/-! ## What is promised of an analysis -/

/-- One entry for each affected object, with the most severe of what affects it. -/
structure Exact (lower : String → String) (g : Graph) (q : Query) (a : Analysis) : Prop where
  one_each : OneEach lower a.items
  severity : ∀ key s, (∃ item ∈ a.items, item.key lower = key ∧ item.severity = s) ↔
    ∃ start, Changed g q start ∧ Worst lower g q start key s

/-- Two analyses say the same of how severe it is. -/
structure Agree (lower : String → String) (a b : Analysis) : Prop where
  objects : (a.items.map fun item => (item.key lower, item.severity)).Perm
    (b.items.map fun item => (item.key lower, item.severity))
  severities : a.items.map Item.severity = b.items.map Item.severity
  summary : a.summary = b.summary
  acknowledgement : needs_acknowledgement (a.items.map Item.entry)
    = needs_acknowledgement (b.items.map Item.entry)

/-- In every order of the rows the severities are right, and so they are the same in all. -/
structure Severities (lower : String → String) (g : Graph) (q : Query) : Prop where
  exact : ∀ order : RowOrder g, Exact lower g q (analyze_impact lower order q)
  agree : ∀ order order' : RowOrder g,
    Agree lower (analyze_impact lower order q) (analyze_impact lower order' q)

/-! ## The items -/

section Items

variable {lower : String → String} {g : Graph} {q : Query} {order : RowOrder g}
  {start : TM1Object} {key : String × String} {s : Severity}

theorem Severity.index_inj {s t : Severity} (h : s.index = t.index) : s = t := by
  cases s <;> cases t <;> first | rfl | cases h

/-- The item of something that the process writes. -/
theorem writtenItem_eq_some (lower : String → String) {target : Entry} {item : Item}
    (h : writtenItem q target = some item) :
    item.key lower = keyOf lower target.object_type target.name ∧
      ofWrite q item.severity target.relationship_type target.depth := by
  unfold writtenItem at h
  by_cases hwrites : writes target.relationship_type = true
  · rw [if_pos hwrites] at h
    cases h
    exact ⟨rfl, hwrites, rfl⟩
  · rw [if_neg hwrites] at h
    cases h

theorem writtenItem_of_writes {target : Entry} (h : writes target.relationship_type = true) :
    ∃ item, writtenItem q target = some item := ⟨_, if_pos h⟩

/-- The severities of the items that are collected, and what they are of. -/
theorem collected_severity {written dependents : List Entry} :
    (∃ item ∈ collected q written dependents, item.key lower = key ∧ item.severity = s) ↔
      (q.rules_change = true ∧ key = ("cube", lower q.name) ∧ s = .high) ∨
      (∃ e ∈ written, keyOf lower e.object_type e.name = key ∧
        ofWrite q s e.relationship_type e.depth) ∨
      ∃ e ∈ dependents, keyOf lower e.object_type e.name = key ∧
        ofDependency q s e.relationship_type e.depth := by
  unfold collected
  constructor
  · rintro ⟨item, hitem, rfl, rfl⟩
    rw [List.mem_append, List.mem_append] at hitem
    -- an item is of the change of rules itself, of a write, or of a dependency
    rcases hitem with (hrules | hwritten) | hdependent
    · left
      by_cases hchange : q.rules_change = true
      · rw [if_pos hchange, List.mem_singleton] at hrules
        rw [hrules]
        exact ⟨hchange, rfl, rfl⟩
      · rw [if_neg hchange] at hrules
        exact absurd hrules List.not_mem_nil
    · obtain ⟨e, he, hsome⟩ := List.mem_filterMap.mp hwritten
      obtain ⟨hkey, hwrite⟩ := writtenItem_eq_some lower hsome
      exact .inr (.inl ⟨e, he, hkey.symm, hwrite⟩)
    · obtain ⟨e, he, rfl⟩ := List.mem_map.mp hdependent
      exact .inr (.inr ⟨e, he, rfl, rfl⟩)
  · rintro (⟨hchange, rfl, rfl⟩ | ⟨e, he, rfl, hwrites, rfl⟩ | ⟨e, he, rfl, rfl⟩)
    · refine ⟨rulesItem q, ?_, rfl, rfl⟩
      rw [if_pos hchange]
      exact List.mem_append_left _ (List.mem_append_left _ List.mem_cons_self)
    · obtain ⟨item, hitem⟩ := writtenItem_of_writes (q := q) hwrites
      obtain ⟨hkey, _, hseverity⟩ := writtenItem_eq_some lower hitem
      refine ⟨item, ?_, hkey, hseverity⟩
      refine List.mem_append_left _ (List.mem_append_right _ ?_)
      exact List.mem_filterMap.mpr ⟨e, he, hitem⟩
    · exact ⟨dependentItem q e, List.mem_append_right _ (List.mem_map_of_mem he), rfl, rfl⟩

/-- The items that are collected in an order of the rows. -/
def itemsIn (order : RowOrder g) (q : Query) (start : TM1Object) : List Item :=
  collected q (written order q start) (_traverse order .incoming start q.max_depth)

/-- An item is about something that affects the object. -/
theorem affects_of_item (lower : String → String) (hstart : start ∈ g.objects)
    (hcap : g.objects.length < MAX_TRAVERSAL_NODES) {item : Item}
    (h : item ∈ itemsIn order q start) :
    Affects lower g q start (item.key lower) item.severity := by
  rcases collected_severity.mp ⟨item, h, rfl, rfl⟩ with
    ⟨hrules, hkey, hs⟩ | ⟨e, he, hkey, hwrite⟩ | ⟨e, he, hkey, hdependency⟩
  · exact .rules hrules hkey hs
  · by_cases hprocess : q.object_type = "process"
    · rw [written, if_pos hprocess] at he
      exact .written hprocess (canReach_of_mem hstart hcap he hkey hwrite)
    · rw [written, if_neg hprocess] at he
      exact absurd he List.not_mem_nil
  · exact .dependent (canReach_of_mem hstart hcap he hkey hdependency)

/-- What is assured has an item in every order. -/
theorem Assured.item (h : Assured lower g q start key s) (hstart : start ∈ g.objects)
    (hcap : g.objects.length < MAX_TRAVERSAL_NODES) :
    ∃ item ∈ itemsIn order q start, item.key lower = key ∧ item.severity = s := by
  refine collected_severity.mpr ?_
  cases h with
  | rules hrules hkey hs => exact .inl ⟨hrules, hkey, hs⟩
  | written hprocess h =>
    rw [impact.written, if_pos hprocess]
    exact .inr (.inl (h.mem hstart hcap))
  | dependent h => exact .inr (.inr (h.mem hstart hcap))

/-- How far each traversal goes. -/
def bound (q : Query) : Direction → ℕ
  | .incoming => q.max_depth
  | .outgoing => 1

/-- The edges of a traversal that make an item of that severity. -/
def reports (q : Query) (s : Severity) : Direction → String → ℕ → Prop
  | .incoming => ofDependency q s
  | .outgoing => fun relationship_type depth =>
    q.object_type = "process" ∧ ofWrite q s relationship_type depth

/-- What is not assured has none in some order. -/
theorem exists_without_item (hdistinct : Distinct g (keyOf lower)) (hstart : start ∈ g.objects)
    (hcap : g.objects.length < MAX_TRAVERSAL_NODES) (h : ¬ Assured lower g q start key s) :
    ∃ order : RowOrder g,
      ¬ ∃ item ∈ itemsIn order q start, item.key lower = key ∧ item.severity = s := by
  have hnot : ∀ direction,
      ¬ MustReach g direction start (keyOf lower) (bound q direction) key
        (reports q s direction) := by
    intro direction hreach
    cases direction with
    | incoming => exact h (.dependent hreach)
    | outgoing =>
      obtain ⟨d, hd, x, hx, hkey, hdistance, hall⟩ := hreach
      obtain ⟨r, hlast⟩ := hdistance.lastEdge hx
      refine h (.written (hall r hlast).1 ⟨d, hd, x, hx, hkey, hdistance, fun r hlast => ?_⟩)
      exact (hall r hlast).2
  obtain ⟨order, horder⟩ := exists_avoiding hstart hcap hdistinct hnot
  refine ⟨order, fun hitem => ?_⟩
  rcases collected_severity.mp hitem with
    ⟨hrules, hkey, hs⟩ | ⟨e, he, hkey, hwrite⟩ | ⟨e, he, hkey, hdependency⟩
  · exact h (.rules hrules hkey hs)
  · by_cases hprocess : q.object_type = "process"
    · rw [written, if_pos hprocess] at he
      exact horder .outgoing e he hkey ⟨hprocess, hwrite⟩
    · rw [written, if_neg hprocess] at he
      exact absurd he List.not_mem_nil
  · exact horder .incoming e he hkey hdependency

/-- The entries are the most severe of the items about each object. -/
theorem ranked_worst {items : List Item} : (∃ item ∈ ranked lower items,
      item.key lower = key ∧ item.severity = s) ↔
    (∃ item ∈ items, item.key lower = key ∧ item.severity = s) ∧
      ∀ other ∈ items, other.key lower = key → s.index ≤ other.severity.index := by
  obtain ⟨hone, horigin, hsevere⟩ := ranked_spec lower items
  constructor
  · rintro ⟨item, hitem, rfl, rfl⟩
    refine ⟨⟨item, horigin item hitem, rfl, rfl⟩, fun other hother hkey => ?_⟩
    obtain ⟨kept, hkept, hkey', hle⟩ := hsevere other hother
    have hsame : kept = item := hone.eq hkept hitem (hkey'.trans hkey)
    rw [← hsame]
    exact hle
  · rintro ⟨⟨item, hitem, hkey, rfl⟩, hmost⟩
    obtain ⟨kept, hkept, hkey', hle⟩ := hsevere item hitem
    refine ⟨kept, hkept, hkey'.trans hkey, Severity.index_inj ?_⟩
    have hge := hmost kept (horigin kept hkept) (hkey'.trans hkey)
    omega

end Items

/-! ## Exactness -/

section Exactness

variable {lower : String → String} {g : Graph} {q : Query} {order : RowOrder g}
  {start : TM1Object} {key : String × String} {s : Severity} {a b : Analysis}

theorem Changed.mem (h : Changed g q start) : start ∈ g.objects := (resolve_object_ok h).1

theorem Changed.items (lower : String → String) (h : Changed g q start) (order : RowOrder g) :
    (analyze_impact lower order q).items = ranked lower (itemsIn order q start) :=
  analyze_impact_items h

/-- An analysis is exact when the worst of every object has an item. -/
theorem exact_of_items (hstart : Changed g q start) (hcap : g.objects.length < MAX_TRAVERSAL_NODES)
    (h : ∀ key s, Worst lower g q start key s →
      ∃ item ∈ itemsIn order q start, item.key lower = key ∧ item.severity = s) :
    Exact lower g q (analyze_impact lower order q) := by
  have hitems := hstart.items lower order
  refine ⟨by rw [hitems]; exact (ranked_spec lower _).1, fun key s => ?_⟩
  rw [hitems, ranked_worst]
  constructor
  · rintro ⟨⟨item, hitem, rfl, rfl⟩, hmost⟩
    have haffects := affects_of_item lower hstart.mem hcap hitem
    refine ⟨start, hstart, haffects, fun other hother => ?_⟩
    obtain ⟨worst, hworst⟩ := exists_worst hother
    obtain ⟨it, hit, hkey, rfl⟩ := h _ _ hworst
    exact Nat.le_trans (hmost it hit hkey) (hworst.most other hother)
  · rintro ⟨start', hstart', hworst⟩
    have hsame : start' = start := Except.ok.inj (hstart'.symm.trans hstart)
    subst hsame
    refine ⟨h key s hworst, fun other hother hkey => ?_⟩
    have haffects := affects_of_item lower hstart.mem hcap hother
    rw [hkey] at haffects
    exact hworst.most _ haffects

/-- The analysis of an object that is not in the graph says nothing. -/
theorem exact_of_missing (h : ∀ start, ¬ Changed g q start) :
    Exact lower g q (analyze_impact lower order q) := by
  have hitems : (analyze_impact lower order q).items = [] := by
    rcases hresolve : _resolve_object g q.organization_id q.object_type q.name with e | start
    · exact analyze_impact_missing hresolve
    · exact absurd hresolve (h start)
  refine ⟨?_, fun key s => ?_⟩
  · rw [hitems]
    exact List.nodup_nil
  · rw [hitems]
    constructor
    · rintro ⟨item, hitem, _⟩
      exact absurd hitem List.not_mem_nil
    · rintro ⟨start, hstart, _⟩
      exact absurd hstart (h start)

theorem OneEach.pairs (h : OneEach lower a.items) :
    (a.items.map fun item => (item.key lower, item.severity)).Nodup := by
  refine List.Nodup.of_map Prod.fst ?_
  rw [List.map_map]
  exact h

/-- Both analyses are of the same severities when both are exact. -/
theorem Exact.objects (ha : Exact lower g q a) (hb : Exact lower g q b) :
    (a.items.map fun item => (item.key lower, item.severity)).Perm
      (b.items.map fun item => (item.key lower, item.severity)) := by
  refine (List.perm_ext_iff_of_nodup ha.one_each.pairs hb.one_each.pairs).mpr ?_
  have hpair : ∀ (items : List Item) (key : String × String) (s : Severity),
      (key, s) ∈ items.map (fun item => (item.key lower, item.severity)) ↔
        ∃ item ∈ items, item.key lower = key ∧ item.severity = s := by
    intro items key s
    rw [List.mem_map]
    constructor
    · rintro ⟨item, hitem, heq⟩
      exact ⟨item, hitem, congrArg Prod.fst heq, congrArg Prod.snd heq⟩
    · rintro ⟨item, hitem, hkey, hs⟩
      exact ⟨item, hitem, Prod.ext hkey hs⟩
  rintro ⟨key, s⟩
  rw [hpair, hpair, ha.severity, hb.severity]

theorem analyze_impact_sorted :
    (analyze_impact lower order q).items.Pairwise
      fun a b => a.severity.index ≤ b.severity.index := by
  rcases hresolve : _resolve_object g q.organization_id q.object_type q.name with e | start
  · rw [analyze_impact_missing hresolve]
    exact List.Pairwise.nil
  · rw [analyze_impact_items hresolve]
    exact ranked_sorted _

/-- Exact analyses agree, whatever the order of the rows each was made in. -/
theorem Exact.agree {order order' : RowOrder g}
    (ha : Exact lower g q (analyze_impact lower order q))
    (hb : Exact lower g q (analyze_impact lower order' q)) :
    Agree lower (analyze_impact lower order q) (analyze_impact lower order' q) := by
  have hobjects := ha.objects hb
  have hperm : ((analyze_impact lower order q).items.map Item.severity).Perm
      ((analyze_impact lower order' q).items.map Item.severity) := by
    have hsnd := hobjects.map Prod.snd
    rw [List.map_map, List.map_map] at hsnd
    exact hsnd
  have hsorted : ∀ order : RowOrder g, ((analyze_impact lower order q).items.map
      Item.severity).Pairwise fun s t => s.index ≤ t.index := fun order =>
    List.pairwise_map.mpr analyze_impact_sorted
  have hseverities : (analyze_impact lower order q).items.map Item.severity
      = (analyze_impact lower order' q).items.map Item.severity := by
    refine hperm.eq_of_pairwise (fun s t _ _ hle hge => ?_) (hsorted order) (hsorted order')
    exact Severity.index_inj (Nat.le_antisymm hle hge)
  refine ⟨hobjects, hseverities, ?_, ?_⟩
  · funext s
    have hcount : ∀ items : List Item, items.countP (fun item => item.severity = s)
        = (items.map Item.severity).countP fun t => t = s := by
      intro items
      rw [List.countP_map]
      rfl
    rw [analyze_impact_summary, analyze_impact_summary, hcount, hcount, hseverities]
  · have hserious : ∀ items : List Item, needs_acknowledgement (items.map Item.entry)
        = (items.map Item.severity).any fun t => ImpactEntry.serious ⟨some t.text, ""⟩ := by
      intro items
      rw [needs_acknowledgement, List.any_map, List.any_map]
      rfl
    rw [hserious, hserious, hseverities]

/-- **The severities are right, and the same in every order of the rows, if the worst way
in which each object is affected is one that every order reports**; and where no two
objects of a type have names that differ in case only, in no other graph. -/
theorem severities_iff_settled (lower : String → String) (g : Graph) (q : Query)
    (hcap : g.objects.length < MAX_TRAVERSAL_NODES) :
    (Settled lower g q → Severities lower g q) ∧
      (Distinct g (keyOf lower) → (Severities lower g q ↔ Settled lower g q)) := by
  have henough : Settled lower g q → Severities lower g q := by
    intro hsettled
    have hexact : ∀ order : RowOrder g, Exact lower g q (analyze_impact lower order q) := by
      intro order
      by_cases hchanged : ∃ start, Changed g q start
      · obtain ⟨start, hstart⟩ := hchanged
        refine exact_of_items hstart hcap fun key s hworst => ?_
        exact (hsettled start hstart key s hworst).item hstart.mem hcap
      · exact exact_of_missing fun start hstart => hchanged ⟨start, hstart⟩
    exact ⟨hexact, fun order order' => (hexact order).agree (hexact order')⟩
  refine ⟨henough, fun hdistinct => ⟨fun h start hstart key s hworst => ?_, henough⟩⟩
  -- an order that does not report the worst of an object
  by_contra hassured
  obtain ⟨order, hnone⟩ := exists_without_item hdistinct hstart.mem hcap hassured
  have hentry := ((h.exact order).severity key s).mpr ⟨start, hstart, hworst⟩
  rw [hstart.items lower order, ranked_worst] at hentry
  exact hnone hentry.1

end Exactness

/-! ## A process that reads what it writes -/

/-- Where all last edges of an object are of one kind, nothing competes. -/
theorem settled_of_one_kind {lower : String → String} {g : Graph} {q : Query}
    (h : ∀ direction start d x r r', LastEdge g direction start d x r →
      LastEdge g direction start d x r' → r.relationship_type = r'.relationship_type) :
    Settled lower g q := by
  have hmust : ∀ {direction start max_depth key} {P : String → ℕ → Prop},
      CanReach g direction start (keyOf lower) max_depth key P →
        MustReach g direction start (keyOf lower) max_depth key P := by
    rintro direction start max_depth key P ⟨d, hd, x, r, hlast, hkey, hP⟩
    refine ⟨d, hd, x, hlast.object, hkey, hlast.depth, fun r' hlast' => ?_⟩
    rw [h direction start d x r' r hlast' hlast]
    exact hP
  intro start _ key s hworst
  cases hworst.affects with
  | rules hrules hkey hs => exact .rules hrules hkey hs
  | written hprocess hreach => exact .written hprocess (hmust hreach)
  | dependent hreach => exact .dependent (hmust hreach)

def load : TM1Object := ⟨1, 1, "process", "Load"⟩

def sales : TM1Object := ⟨2, 1, "cube", "Sales"⟩

theorem load_sales_ids : Table.Unique everyRow TM1Object.id [load, sales] := by decide

theorem load_sales_names :
    Table.Unique everyRow (fun o : TM1Object => (o.object_type, o.name)) [load, sales] := by decide

/-- Load writes the cube Sales. -/
def onlyWrites : Graph where
  objects := [load, sales]
  relationships := [⟨1, 2, "updates_cube"⟩]
  ids := load_sales_ids
  uq_tm1_objects_connection_type_name := load_sales_names
  from_object := by decide
  to_object := by decide

/-- Load reads it, too. -/
def readsAndWrites : Graph where
  objects := [load, sales]
  relationships := [⟨1, 2, "reads_cube"⟩, ⟨1, 2, "updates_cube"⟩]
  ids := load_sales_ids
  uq_tm1_objects_connection_type_name := load_sales_names
  from_object := by decide
  to_object := by decide

def deleteLoad : Query where
  organization_id := 1
  object_type := "process"
  name := "Load"
  change_kind := .delete

theorem onlyWrites_severities :
    Settled Python.lowerAscii onlyWrites deleteLoad ∧
      Severities Python.lowerAscii onlyWrites deleteLoad := by
  have hdistinct : Distinct onlyWrites (keyOf Python.lowerAscii) := by
    unfold Distinct
    decide
  have hiff := (severities_iff_settled Python.lowerAscii onlyWrites deleteLoad
    (by decide)).2 hdistinct
  have hsettled : Settled Python.lowerAscii onlyWrites deleteLoad := by
    refine settled_of_one_kind fun direction start d x r r' hlast hlast' => ?_
    rw [List.mem_singleton.mp hlast.edge, List.mem_singleton.mp hlast'.edge]
  exact ⟨hsettled, hiff.mpr hsettled⟩

/-- The rows in the opposite order. -/
def latestFirst (g : Graph) : RowOrder g where
  list_by direction object_id := (g.stored.list_by direction object_id).reverse
  perm _ _ := List.reverse_perm _

/-- What is lost with Load is not said, and does not have to be acknowledged, when the
edge by which it reads Sales comes first. -/
theorem readsAndWrites_severities :
    readsAndWrites.objects.length < MAX_TRAVERSAL_NODES ∧
      ((analyze_impact Python.lowerAscii readsAndWrites.stored deleteLoad).items.map
          Item.severity = [] ∧
        (analyze_impact Python.lowerAscii (latestFirst readsAndWrites) deleteLoad).items.map
          Item.severity = [.high]) ∧
      (needs_acknowledgement ((analyze_impact Python.lowerAscii readsAndWrites.stored
          deleteLoad).items.map Item.entry) = false ∧
        needs_acknowledgement ((analyze_impact Python.lowerAscii (latestFirst readsAndWrites)
          deleteLoad).items.map Item.entry) = true) ∧
      ¬ Severities Python.lowerAscii readsAndWrites deleteLoad := by
  have hstored : (analyze_impact Python.lowerAscii readsAndWrites.stored deleteLoad).items.map
      Item.severity = [] := by decide
  have hlatest : (analyze_impact Python.lowerAscii (latestFirst readsAndWrites)
      deleteLoad).items.map Item.severity = [.high] := by decide
  refine ⟨by decide, ⟨hstored, hlatest⟩, ⟨by decide, by decide⟩, fun h => ?_⟩
  have hsame := (h.agree readsAndWrites.stored (latestFirst readsAndWrites)).severities
  rw [hstored, hlatest] at hsame
  cases hsame

end PaCopilot.impact

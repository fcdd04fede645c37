/-
MDX as it is read: what a query asks for, by its text.

The builder puts a text together; what the text says is what a reader of MDX finds in it. The
readers here are of the MDX that the builder writes and do not know the builder: names in
brackets, members of three names, sets in braces, two axes, FROM and WHERE ([`query`]). They
read each query back from its text ([`read_text`]), and the text of a statement is that of the
query that was asked ([`statement_eq`]).
-/
import PaCopilot.Lib.Reader
import PaCopilot.Tm1.Query.Builder

set_option autoImplicit false

namespace PaCopilot.Mdx

open Reading Reading.Reader
open rules (Text)
open query_builder

/-! ## Queries -/

structure Member where
  dimension : Text
  hierarchy : Text
  element : Text
  deriving DecidableEq

/-- The set of an axis. -/
inductive MemberSet
  | members (list : List Member)
  | children (parent : Member)
  | all (dimension hierarchy : Text)
  | leaves (dimension hierarchy : Text)
  deriving DecidableEq

/-- The rows are a product of sets. -/
structure Query where
  columns : MemberSet
  rows : List MemberSet
  cube : Text
  slicer : List Member
  deriving DecidableEq

/-- The dimensions that a set is of. -/
def MemberSet.dimensions : MemberSet → List Text
  | .members list => (list.map Member.dimension).dedup
  | .children parent => [parent.dimension]
  | .all dimension _ => [dimension]
  | .leaves dimension _ => [dimension]

/-- The dimensions of the axes. -/
def Query.onAxes (q : Query) : List Text := (q.columns :: q.rows).flatMap MemberSet.dimensions

/-- The dimensions of a query, place by place. -/
def Query.dimensions (q : Query) : List Text := q.onAxes ++ q.slicer.map Member.dimension

/-! ## The readers -/

/-- What is in brackets, up to the one that closes it. Two in a row are one of the name. -/
def nameEnd : Reader Char Text
  | [] => none
  | ']' :: ']' :: rest => (nameEnd rest).map fun found => (']' :: found.1, found.2)
  | c :: rest =>
    if c = ']' then some ([], rest) else (nameEnd rest).map fun found => (c :: found.1, found.2)

def name : Reader Char Text := do
  literal ['[']
  nameEnd

def hierarchyName : Reader Char (Text × Text) := do
  let dimension ← name
  literal ['.']
  let hierarchy ← name
  pure (dimension, hierarchy)

def memberName : Reader Char Member := do
  let found ← hierarchyName
  literal ['.']
  let element ← name
  pure ⟨found.1, found.2, element⟩

def memberList : Reader Char MemberSet := do
  literal ['\x7b']
  let list ← sepBy (literal ", ".toList) memberName
  literal ['\x7d']
  pure (.members list)

def childrenOf : Reader Char MemberSet := do
  literal ['\x7b']
  let parent ← memberName
  literal ".Children\x7d".toList
  pure (.children parent)

def subset : Reader Char MemberSet := do
  literal "\x7bTM1SUBSETALL(".toList
  let found ← hierarchyName
  literal ")\x7d".toList
  pure (.all found.1 found.2)

def lowest : Reader Char MemberSet := do
  literal "\x7bTM1FILTERBYLEVEL(TM1SUBSETALL(".toList
  let found ← hierarchyName
  literal "), 0)\x7d".toList
  pure (.leaves found.1 found.2)

def set : Reader Char MemberSet := memberList.or (childrenOf.or (subset.or lowest))

def rowSets : Reader Char (List MemberSet) := do
  literal ", NON EMPTY ".toList
  let sets ← sepBy (literal " * ".toList) set
  literal " ON 1".toList
  pure sets

def slicerMembers : Reader Char (List Member) := do
  literal " WHERE (".toList
  let list ← sepBy (literal ", ".toList) memberName
  literal [')']
  pure list

def query : Reader Char Query := do
  literal "SELECT NON EMPTY ".toList
  let columns ← set
  literal " ON 0".toList
  let rows ← rowSets.or (pure [])
  literal " FROM ".toList
  let cube ← name
  let slicer ← slicerMembers.or (pure [])
  pure ⟨columns, rows, cube, slicer⟩

/-- The query that a text is. -/
def read (text : Text) : Option Query := query.whole text

/-! ## The texts -/

def hierarchyText (dimension hierarchy : Text) : Text :=
  bracketed dimension ++ (['.'] ++ bracketed hierarchy)

def Member.text (m : Member) : Text :=
  hierarchyText m.dimension m.hierarchy ++ (['.'] ++ bracketed m.element)

def memberTexts (list : List Member) : Text :=
  List.intercalate ", ".toList (list.map Member.text)

def MemberSet.text : MemberSet → Text
  | .members list => ['\x7b'] ++ (memberTexts list ++ ['\x7d'])
  | .children parent => ['\x7b'] ++ (parent.text ++ ".Children\x7d".toList)
  | .all dimension hierarchy =>
    "\x7bTM1SUBSETALL(".toList ++ (hierarchyText dimension hierarchy ++ ")\x7d".toList)
  | .leaves dimension hierarchy =>
    "\x7bTM1FILTERBYLEVEL(TM1SUBSETALL(".toList
      ++ (hierarchyText dimension hierarchy ++ "), 0)\x7d".toList)

def rowsText (rows : List MemberSet) : Text :=
  if rows = [] then []
  else ", NON EMPTY ".toList
    ++ (List.intercalate " * ".toList (rows.map MemberSet.text) ++ " ON 1".toList)

def slicerText (slicer : List Member) : Text :=
  if slicer = [] then [] else " WHERE (".toList ++ (memberTexts slicer ++ [')'])

def Query.text (q : Query) : Text :=
  "SELECT NON EMPTY ".toList ++ (q.columns.text ++ (" ON 0".toList ++ (rowsText q.rows
    ++ (" FROM ".toList ++ (bracketed q.cube ++ slicerText q.slicer)))))

/-- The braces of a set hold something. -/
def MemberSet.Filled : MemberSet → Prop
  | .members list => list ≠ []
  | _ => True

/-! ## What is written is read -/

section

/-- No bracket comes right behind a name. -/
def Open (rest : Text) : Prop := rest.head? ≠ some ']'

/-- **A name is read back**, whatever is in it. -/
theorem reads_name (text : Text) : Reads Open name (bracketed text) text := by
  have hend : Reads Open nameEnd (_escape text ++ [']']) text := by
    intro rest hrest
    induction text with
    | nil =>
      show nameEnd (']' :: rest) = some ([], rest)
      rw [nameEnd, if_pos rfl]
      rintro after - rfl
      exact hrest rfl
    | cons c text ih =>
      rw [_escape, List.flatMap_cons, ← _escape, List.append_assoc, List.append_assoc]
      rw [List.append_assoc] at ih
      by_cases hc : c = ']'
      · rw [if_pos hc, hc]
        show nameEnd (']' :: ']' :: (_escape text ++ ([']'] ++ rest))) = _
        rw [nameEnd, ih]
        rfl
      · rw [if_neg hc, List.singleton_append, nameEnd, if_neg hc, ih]
        · rfl
        · rintro after rfl
          exact absurd rfl hc
  exact Reads.after ['['] hend

theorem reads_hierarchyName (dimension hierarchy : Text) :
    Reads Open hierarchyName (hierarchyText dimension hierarchy) (dimension, hierarchy) := by
  have hsecond : Reads Open (name >>= fun hierarchy => pure (dimension, hierarchy))
      (bracketed hierarchy ++ []) (dimension, hierarchy) :=
    (reads_name hierarchy).bind .pure fun _ hrest => hrest
  rw [List.append_nil] at hsecond
  exact (reads_name dimension).bind (.after ['.'] hsecond) nofun

theorem reads_memberName (m : Member) : Reads Open memberName m.text m := by
  have helement : Reads Open (name >>= fun element => pure ⟨m.dimension, m.hierarchy, element⟩)
      (bracketed m.element ++ []) m :=
    (reads_name m.element).bind .pure fun _ hrest => hrest
  rw [List.append_nil] at helement
  exact (reads_hierarchyName m.dimension m.hierarchy).bind (.after ['.'] helement) nofun

/-- The members of a set or a slicer, before the bracket that closes it. -/
theorem reads_members {list : List Member} (h : list ≠ []) :
    Reads (fun rest => Open rest ∧ literal ", ".toList rest = none)
      (sepBy (literal ", ".toList) memberName) (memberTexts list) list :=
  reads_sepBy (literal_append _) (fun m _ => reads_memberName m) nofun h nofun

/-- **A set is read back.** -/
theorem reads_set {set : MemberSet} (h : set.Filled) : Reads Open Mdx.set set.text set := by
  cases set with
  | members list =>
    refine Reads.or_left (.after ['\x7b'] ((reads_members h).bind (.last ['\x7d'] _) ?_))
    exact fun rest _ => ⟨nofun, rfl⟩
  | children parent =>
    -- behind the one member no brace closes the list
    have hone := reads_members (List.cons_ne_nil parent [])
    rw [memberTexts, List.map_singleton, List.intercalate_singleton] at hone
    have hlist : Fails Open memberList (MemberSet.children parent).text :=
      .after ['\x7b'] (hone.bind_fails (.bind fun _ _ => rfl) fun rest _ => ⟨nofun, rfl⟩)
    refine .or_right hlist (.or_left (.after ['\x7b'] ?_))
    exact (reads_memberName parent).bind (.last _ _) nofun
  | all dimension hierarchy =>
    refine .or_right (fun _ _ => rfl) (.or_right (fun _ _ => rfl) (.or_left (.after _ ?_)))
    exact (reads_hierarchyName dimension hierarchy).bind (.last _ _) nofun
  | leaves dimension hierarchy =>
    refine .or_right (fun _ _ => rfl) (.or_right (fun _ _ => rfl) (.or_right (fun _ _ => rfl)
      (.after _ ?_)))
    exact (reads_hierarchyName dimension hierarchy).bind (.last _ _) nofun

theorem reads_rows {rows : List MemberSet} (h : ∀ set ∈ rows, set.Filled) :
    Reads (fun rest => Open rest ∧ literal ", NON EMPTY ".toList rest = none)
      (rowSets.or (pure [])) (rowsText rows) rows := by
  unfold rowsText
  split
  · rename_i hnone
    rw [hnone]
    exact .or_right (.bind fun rest hrest => hrest.2) .pure
  · rename_i hsome
    have htext : ∀ set ∈ rows, set.text ≠ [] := fun set _ => by cases set <;> nofun
    refine .or_left (.after _ ?_)
    exact (reads_sepBy (literal_append " * ".toList) (fun set hset => reads_set (h set hset)) nofun
      hsome htext).bind (.last _ _) fun rest _ => ⟨nofun, rfl⟩

theorem reads_slicer (slicer : List Member) :
    Reads (· = []) (slicerMembers.or (pure [])) (slicerText slicer) slicer := by
  unfold slicerText
  split
  · rename_i hnone
    rw [hnone]
    exact .or_right (fun rest hrest => by rw [hrest]; rfl) .pure
  · rename_i hsome
    refine .or_left (.after _ ((reads_members hsome).bind (.last _ _) ?_))
    exact fun rest _ => ⟨nofun, rfl⟩

/-- **A query is read back from its text.** -/
theorem read_text {q : Query} (h : ∀ set ∈ q.columns :: q.rows, set.Filled) :
    read q.text = some q := by
  rw [List.forall_mem_cons] at h
  refine Reads.whole (.after _ ((reads_set h.1).bind (.after _ ?_) nofun))
  refine (reads_rows h.2).bind (.after _ ?_) fun rest _ => ⟨nofun, rfl⟩
  have hslicer := (reads_slicer q.slicer).bind (f := fun slicer => pure
    (⟨q.columns, q.rows, q.cube, slicer⟩ : Query)) .pure fun _ hrest => hrest
  rw [List.append_nil] at hslicer
  refine (reads_name q.cube).bind hslicer fun rest hrest => ?_
  rw [hrest, slicerText]
  split
  · nofun
  · nofun

end

/-! ## What the builder writes -/

/-- A member in the hierarchy that is named as its dimension. -/
def own (dimension element : Text) : Member := ⟨dimension, dimension, element⟩

/-- The set that is asked for on an axis. -/
def askedSet (top_elements : Dict Text (List Text)) (spec : AxisSpec) : MemberSet :=
  let d := spec.dimension
  let tops := (top_elements.get? d).getD []
  if spec.members ≠ [] then .members (spec.members.map (own d))
  else if spec.children_of.getD [] ≠ [] then .children (own d (spec.children_of.getD []))
  else if spec.level = some "leaves".toList then .leaves d d
  else if spec.level = some "all".toList then .all d d
  else if spec.level = some "top".toList then
    if tops ≠ [] then .members (tops.map (own d)) else .all d d
  else
    -- by default the children of the total, where there is one
    match tops with
    | [] => .all d d
    | [element] => .children (own d element)
    | _ => .members (tops.map (own d))

/-- The query that is asked, every dimension in its place. -/
def asked (cube : Text) (columns : AxisSpec) (rows : List AxisSpec) (pinned : Dict Text Text)
    (top_elements : Dict Text (List Text)) : Query where
  columns := askedSet top_elements columns
  rows := rows.map (askedSet top_elements)
  cube := cube
  slicer := pinned.entries.map fun pin => own pin.1 pin.2

section

variable {cube : Text} {dimensions : List Text} {columns : AxisSpec} {rows : List AxisSpec}
  {pins pinned : Dict Text Text} {top_elements : Dict Text (List Text)}

theorem text_own (dimension element : Text) :
    (own dimension element).text = member dimension element :=
  List.append_assoc _ _ _

theorem text_members (dimension : Text) (elements : List Text) :
    (MemberSet.members (elements.map (own dimension))).text = memberSet dimension elements := by
  have hmembers : (elements.map (own dimension)).map Member.text
      = elements.map (member dimension) := by
    rw [List.map_map]
    exact List.map_congr_left fun element _ => text_own dimension element
  show ['\x7b'] ++ (memberTexts (elements.map (own dimension)) ++ ['\x7d']) = _
  rw [memberTexts, hmembers]
  rfl

theorem text_children (dimension element : Text) :
    (MemberSet.children (own dimension element)).text = childrenSet dimension element := by
  show ['\x7b'] ++ ((own dimension element).text ++ ".Children\x7d".toList) = _
  rw [text_own]
  rfl

theorem hierarchyText_own (dimension : Text) :
    hierarchyText dimension dimension = bracketed dimension ++ '.' :: bracketed dimension := rfl

theorem text_all (dimension : Text) :
    (MemberSet.all dimension dimension).text = subsetAll dimension := by
  show "\x7bTM1SUBSETALL(".toList ++ (hierarchyText dimension dimension ++ ")\x7d".toList) = _
  rw [hierarchyText_own]
  exact (List.append_assoc "\x7bTM1SUBSETALL(".toList
    (bracketed dimension ++ '.' :: bracketed dimension) ")\x7d".toList).symm

theorem text_leaves (dimension : Text) :
    (MemberSet.leaves dimension dimension).text = leaves dimension := by
  show "\x7bTM1FILTERBYLEVEL(TM1SUBSETALL(".toList
    ++ (hierarchyText dimension dimension ++ "), 0)\x7d".toList) = _
  rw [hierarchyText_own]
  exact (List.append_assoc "\x7bTM1FILTERBYLEVEL(TM1SUBSETALL(".toList
    (bracketed dimension ++ '.' :: bracketed dimension) "), 0)\x7d".toList).symm

theorem text_askedSet (spec : AxisSpec) :
    (askedSet top_elements spec).text = axis_set spec top_elements := by
  unfold askedSet axis_set
  dsimp only
  split_ifs
  · exact text_members _ _
  · exact text_children _ _
  · exact text_leaves _
  · exact text_all _
  · exact text_members _ _
  · exact text_all _
  · rcases (top_elements.get? spec.dimension).getD [] with _ | ⟨element, _ | ⟨other, others⟩⟩
    · exact text_all _
    · exact text_children _ _
    · exact text_members _ _

theorem text_rows :
    rowsText (rows.map (askedSet top_elements)) = if rows = [] then []
      else ", NON EMPTY ".toList
        ++ (List.intercalate " * ".toList (rows.map fun r => axis_set r top_elements)
          ++ " ON 1".toList) := by
  have hsets : (rows.map (askedSet top_elements)).map MemberSet.text
      = rows.map fun r => axis_set r top_elements := by
    rw [List.map_map]
    exact List.map_congr_left fun r _ => text_askedSet r
  rw [rowsText, hsets]
  simp only [List.map_eq_nil_iff]

theorem text_slicer :
    slicerText (pinned.entries.map fun pin => own pin.1 pin.2) = where_clause pinned := by
  have hmembers : (pinned.entries.map fun pin => own pin.1 pin.2).map Member.text
      = pinned.entries.map fun pin => member pin.1 pin.2 := by
    rw [List.map_map]
    exact List.map_congr_left fun pin _ => text_own pin.1 pin.2
  rw [slicerText, memberTexts, hmembers, where_clause]
  simp only [List.map_eq_nil_iff, List.append_assoc]

/-- **A statement is the text of what was asked.** -/
theorem statement_eq :
    statement cube columns rows pinned top_elements
      = (asked cube columns rows pinned top_elements).text := by
  have hasked : (asked cube columns rows pinned top_elements).text
      = "SELECT NON EMPTY ".toList ++ ((askedSet top_elements columns).text ++ (" ON 0".toList
        ++ (rowsText (rows.map (askedSet top_elements)) ++ (" FROM ".toList ++ (bracketed cube
          ++ slicerText (pinned.entries.map fun pin => own pin.1 pin.2)))))) := rfl
  rw [hasked, text_askedSet, text_rows, text_slicer]
  unfold statement axesText
  split
  · simp only [List.append_assoc, List.nil_append]
  · simp only [List.append_assoc]

theorem filled_askedSet (spec : AxisSpec) : (askedSet top_elements spec).Filled := by
  unfold askedSet
  dsimp only
  split_ifs with hmembers _ _ _ _ htops
  · exact fun hnil => hmembers (List.map_eq_nil_iff.mp hnil)
  · trivial
  · trivial
  · trivial
  · exact fun hnil => htops (List.map_eq_nil_iff.mp hnil)
  · trivial
  · rcases (top_elements.get? spec.dimension).getD [] with _ | ⟨element, _ | ⟨other, others⟩⟩
    · trivial
    · trivial
    · exact List.cons_ne_nil _ _

/-- **A built query is read as what was asked.** -/
theorem read_statement :
    read (statement cube columns rows pinned top_elements)
      = some (asked cube columns rows pinned top_elements) := by
  rw [statement_eq]
  refine read_text (List.forall_mem_cons.mpr ⟨filled_askedSet columns, fun set hset => ?_⟩)
  obtain ⟨spec, -, rfl⟩ := List.mem_map.mp hset
  exact filled_askedSet spec

example : read (statement "Sales]".toList ⟨"Version".toList, ["Actual".toList], none, none⟩ []
    .empty .empty) = some ⟨.members [own "Version".toList "Actual".toList], [], "Sales]".toList, []⟩ := by
  decide +kernel

/-- A set is of the one dimension that it was asked of. -/
theorem dimensions_askedSet (spec : AxisSpec) :
    (askedSet top_elements spec).dimensions = [spec.dimension] := by
  have hown : ∀ elements : List Text, elements ≠ [] →
      (MemberSet.members (elements.map (own spec.dimension))).dimensions = [spec.dimension] := by
    intro elements hne
    have hsame : (elements.map (own spec.dimension)).map Member.dimension
        = List.replicate elements.length spec.dimension := by
      rw [List.map_map]
      exact List.map_const' ..
    rw [MemberSet.dimensions, hsame, List.replicate_dedup]
    exact fun hzero => hne (List.length_eq_zero_iff.mp hzero)
  unfold askedSet
  dsimp only
  split_ifs with hmembers _ _ _ _ htops
  · exact hown _ hmembers
  · rfl
  · rfl
  · rfl
  · exact hown _ htops
  · rfl
  · rcases (top_elements.get? spec.dimension).getD [] with _ | ⟨element, _ | ⟨other, others⟩⟩
    · rfl
    · rfl
    · exact hown _ (List.cons_ne_nil _ _)

theorem onAxes_asked :
    (asked cube columns rows pinned top_elements).onAxes = axisDims columns rows := by
  have hsets : ∀ specs : List AxisSpec,
      (specs.map (askedSet top_elements)).flatMap MemberSet.dimensions
        = specs.map AxisSpec.dimension := by
    intro specs
    induction specs with
    | nil => rfl
    | cons spec specs ih =>
      rw [List.map_cons, List.flatMap_cons, dimensions_askedSet, ih]
      rfl
  exact hsets (columns :: rows)

theorem dimensions_asked :
    (asked cube columns rows pinned top_elements).dimensions = places columns rows pinned := by
  rw [Query.dimensions, onAxes_asked, places, asked]
  dsimp only
  rw [List.map_map]
  rfl

/-- A member is in WHERE exactly if it is pinned. -/
theorem mem_slicer_asked {m : Member} :
    m ∈ (asked cube columns rows pinned top_elements).slicer ↔
      m.hierarchy = m.dimension ∧ pinned.get? m.dimension = some m.element := by
  rw [← Dict.mem_entries]
  constructor
  · intro h
    obtain ⟨pin, hpin, rfl⟩ := List.mem_map.mp h
    exact ⟨rfl, hpin⟩
  · intro h
    refine List.mem_map.mpr ⟨(m.dimension, m.element), h.2, ?_⟩
    obtain ⟨dimension, hierarchy, element⟩ := m
    obtain rfl : hierarchy = dimension := h.1
    rfl

end

end PaCopilot.Mdx

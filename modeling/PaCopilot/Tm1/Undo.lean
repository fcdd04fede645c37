/-
What takes a write back.

For a cube's rules, a process and a view the previous content written again gives
the server back exactly, and so does a deletion of what was created. A cell is
different: TM1 is given values and keeps what it makes of them, so writing back
what was read need not give back what was held. What does hold is that a payload
overwrites an earlier one to the same cells completely (`write_cells_again`).
-/
import PaCopilot.Tm1.Services

set_option autoImplicit false

namespace PaCopilot

/-! ## Rules, processes and views -/

/-- The previous rule text, written again, gives the server back. -/
theorem cube_service.update_cube_rules_undo {name rules : String} {previous : Option String}
    {s s' : Server} (hprev : get_cube_rules name s = .ok previous)
    (hwrite : update_cube_rules name rules s = .ok s') :
    update_cube_rules name (previous.getD "") s' = .ok s := by
  rcases hc : s.cube name with _ | c
  · simp [get_cube_rules, hc] at hprev
  simp only [get_cube_rules, hc, Except.ok.injEq] at hprev
  simp only [update_cube_rules, hc, Except.ok.injEq] at hwrite
  have hrules : previous.getD "" = c.rules := by
    rw [← hprev]
    split
    · exact (‹c.rules = ""›).symm
    · rfl
  rw [← hwrite, update_cube_rules, Server.cube_setCube, hrules]
  simp only [Server.setCube_setCube, Except.ok.injEq]
  exact Server.setCube_self hc

/-- A process that was created and is deleted again. -/
theorem process_service.delete_process_undo {name : String} {p : Process} {s : Server}
    (hnew : s.process name = none) (hname : p.name = name) :
    delete_process name (s.putProcess p) = .ok s := by
  have hthere : (s.putProcess p).process name = some p := by
    rw [← hname]
    exact Server.process_putProcess s p
  rw [delete_process, hthere]
  simp only [Except.ok.injEq]
  rw [Server.dropProcess_putProcess (by rw [hname])]
  exact Server.dropProcess_self hnew

/-- A process that was replaced by another of its name and is put back. -/
theorem process_service.update_process_undo {name : String} {base p : Process} {s : Server}
    (hbase : s.process name = some base) (hname : p.name = name) :
    update_or_create_process base (s.putProcess p) = .ok s := by
  have hkey : s.key p.name = s.key base.name := by
    rw [hname, Server.key_of_process hbase]
  rw [update_or_create_process, Server.putProcess_putProcess hkey]
  exact congrArg Except.ok (Server.putProcess_self hbase)

/-- A process that was deleted and is put back. -/
theorem process_service.restore_process_undo {name : String} {base : Process} {s : Server}
    (hbase : s.process name = some base) :
    update_or_create_process base (s.dropProcess name) = .ok s := by
  rw [update_or_create_process, Server.putProcess_dropProcess (Server.key_of_process hbase)]
  exact congrArg Except.ok (Server.putProcess_self hbase)

/-- A view that was created and is deleted again. -/
theorem view_service.delete_view_undo {tm1 : TM1} {cube view_name mdx : String} {s s' : Server}
    (hcreate : create_mdx_view tm1 cube view_name mdx s = .ok s') :
    delete_view cube view_name s' = .ok s := by
  rcases hc : s.cube cube with _ | c
  · simp [create_mdx_view, hc] at hcreate
  rcases hv : s.view cube view_name with _ | v
  · simp only [create_mdx_view, hc, hv, Except.ok.injEq] at hcreate
    rw [← hcreate, delete_view, Server.view_setView]
    simp only [Server.setView_setView, Except.ok.injEq]
    exact Server.setView_self hv
  · simp [create_mdx_view, hc, hv] at hcreate

/-! ## One cell -/

/-- The two kinds of cells. -/
def Cell.isNum : Cell → Bool
  | .num _ => true
  | .text _ => false

/-- What a cell makes of a value depends on its kind only. -/
theorem TM1.taken_congr (tm1 : TM1) {a b : Cell} (h : a.isNum = b.isNum) (v : Value) :
    tm1.taken a v = tm1.taken b v := by
  rcases a with x | x <;> rcases b with y | y
  · rcases v with z | z <;> rfl
  · exact absurd h Bool.noConfusion
  · exact absurd h Bool.noConfusion
  · rcases v with z | z <;> rfl

/-- A cell keeps its kind. -/
theorem TM1.taken_isNum {tm1 : TM1} {a b : Cell} {v : Value} (h : tm1.taken a v = some b) :
    b.isNum = a.isNum := by
  rcases a with x | x <;> rcases v with z | z
  · simp only [taken, Option.some.injEq] at h
    rw [← h]
    rfl
  · obtain ⟨y, -, rfl⟩ := Option.map_eq_some_iff.mp h
    rfl
  · rw [taken] at h
    split at h
    · rw [Option.some.injEq] at h
      rw [← h]
      rfl
    · obtain ⟨y, -, rfl⟩ := Option.map_eq_some_iff.mp h
      rfl
  · simp only [taken, Option.some.injEq] at h
    rw [← h]
    rfl

/-- A cell that TM1, given the value it reports of it (0 for null), leaves as it
is. -/
def TM1.Keeps (tm1 : TM1) : Cell → Prop
  | .num x => tm1.textValues = true → Python.fifteen x = x
  | .text t => t = "" → tm1.nullText = false

/-- What is kept, and nothing else, survives being reported and written back. -/
theorem TM1.taken_report_iff (tm1 : TM1) (cell : Cell) :
    tm1.taken cell ((tm1.report cell).getD (.num 0)) = some cell ↔ tm1.Keeps cell := by
  rcases cell with x | t
  · have hvalue : (tm1.report (.num x)).getD (.num 0) = .num x := by
      simp only [report]
      split
      · rename_i h
        simp only [Bool.and_eq_true, decide_eq_true_eq] at h
        rw [h.1]
        rfl
      · rfl
    rw [hvalue, taken, Keeps]
    by_cases htext : tm1.textValues = true
    · simp [htext]
    · simp [htext]
  -- an empty text that is reported as null comes back as a number
  · by_cases hnull : t = "" ∧ tm1.nullText = true
    · obtain ⟨rfl, hnull⟩ := hnull
      have hvalue : (tm1.report (.text "")).getD (.num 0) = .num 0 := by simp [report, hnull]
      rw [hvalue, taken, Keeps]
      refine iff_of_false ?_ (by simp [hnull])
      by_cases htext : tm1.textValues = true
      · rw [if_pos htext]
        decide
      · rw [if_neg htext, Option.map_eq_some_iff]
        rintro ⟨s, hs, hcell⟩
        exact tm1.numberInText_ne 0 s hs (Cell.text.inj hcell)
    · have hvalue : (tm1.report (.text t)).getD (.num 0) = .text t := by
        have hkeep : ¬ ((decide (t = "") && tm1.nullText) = true) := by simpa using hnull
        simp only [report]
        rw [if_neg hkeep]
        rfl
      rw [hvalue, taken, Keeps]
      simpa using hnull

/-! ## A payload -/

/-- What one cell of a payload does. -/
theorem TM1.put_eq_some_iff {tm1 : TM1} {c c' : Cube} {k : List String} {v : Value} :
    tm1.put c k v = some c' ↔ ∃ m cell, c.cellOf k = some m ∧ tm1.calculated c m = false ∧
      tm1.taken (c.cells m) v = some cell ∧
      c' = c.withCells (Function.update c.cells m cell) := by
  unfold put
  rcases hm : c.cellOf k with _ | m
  · simp
  by_cases hcalc : tm1.calculated c m = true
  · simp [hcalc]
  rw [Bool.not_eq_true] at hcalc
  simp only [hcalc, Bool.false_eq_true, if_false, Option.map_eq_some_iff, Option.some.injEq]
  constructor
  · rintro ⟨cell, ht, rfl⟩
    exact ⟨m, cell, rfl, hcalc, ht, rfl⟩
  · rintro ⟨m', cell, rfl, -, ht, rfl⟩
    exact ⟨cell, ht, rfl⟩

/-- A payload changes cells only, keeps their kinds, and changes none that it does
not name. -/
theorem TM1.putAll_frame {tm1 : TM1} {payload : List (List String × Value)} {c c' : Cube}
    (h : tm1.putAll c payload = some c') :
    ∃ f, c' = c.withCells f ∧ (∀ m, (f m).isNum = (c.cells m).isNum) ∧
      ∀ m, f m ≠ c.cells m → ∃ k ∈ payload.map Prod.fst, c.cellOf k = some m := by
  induction payload generalizing c with
  | nil =>
    rw [putAll, List.foldlM_nil, Option.pure_def, Option.some.injEq] at h
    exact ⟨c.cells, h.symm, fun _ => rfl, fun m hm => absurd rfl hm⟩
  | cons entry payload ih =>
    obtain ⟨k, v⟩ := entry
    rw [putAll, List.foldlM_cons, Option.bind_eq_bind, Option.bind_eq_some_iff] at h
    obtain ⟨c₁, hput, hrest⟩ := h
    obtain ⟨m, cell, hm, -, ht, rfl⟩ := put_eq_some_iff.mp hput
    obtain ⟨f, rfl, hkind, hframe⟩ := ih hrest
    refine ⟨f, rfl, ?_, ?_⟩
    · intro m'
      rw [hkind m']
      by_cases hmm : m' = m
      · subst hmm
        simpa [Cube.withCells] using taken_isNum ht
      · simp [Cube.withCells, Function.update_of_ne hmm]
    · intro m' hne
      by_cases hmm : m' = m
      · exact ⟨k, by simp, by rw [hmm]; exact hm⟩
      · obtain ⟨k', hk', hm'⟩ := hframe m' (by simpa [Cube.withCells, Function.update_of_ne hmm])
        exact ⟨k', by simp only [List.map_cons, List.mem_cons]; exact .inr hk', hm'⟩

/-- A payload overwrites every cell it names, so what it leaves does not depend on
what these cells held. -/
theorem TM1.putAll_congr (tm1 : TM1) (payload : List (List String × Value)) (c : Cube)
    (f : List String → Cell) (hkind : ∀ m, (f m).isNum = (c.cells m).isNum)
    (hcover : ∀ m, f m ≠ c.cells m → ∃ k ∈ payload.map Prod.fst, c.cellOf k = some m) :
    tm1.putAll (c.withCells f) payload = tm1.putAll c payload := by
  induction payload generalizing c f with
  | nil =>
    have hf : f = c.cells := by
      funext m
      by_contra hne
      simpa using hcover m hne
    rw [hf]
    rfl
  | cons entry payload ih =>
    obtain ⟨k, v⟩ := entry
    rw [putAll, putAll, List.foldlM_cons, List.foldlM_cons]
    dsimp only
    -- the two cubes take or refuse the value alike, and agree on the cell from then on
    have hnext : ∀ c₁, tm1.put c k v = some c₁ → ∃ g,
        tm1.put (c.withCells f) k v = some (c₁.withCells g) ∧
        (∀ m, (g m).isNum = (c₁.cells m).isNum) ∧
        ∀ m, g m ≠ c₁.cells m → ∃ k' ∈ payload.map Prod.fst, c₁.cellOf k' = some m := by
      intro c₁ hput
      obtain ⟨m, cell, hm, hcalc, ht, rfl⟩ := put_eq_some_iff.mp hput
      refine ⟨Function.update f m cell, ?_, ?_, ?_⟩
      · refine put_eq_some_iff.mpr ⟨m, cell, hm, hcalc, ?_, rfl⟩
        rw [← ht]
        exact tm1.taken_congr (hkind m) v
      · intro m'
        by_cases hmm : m' = m
        · simp [hmm, Cube.withCells]
        · simpa [Cube.withCells, Function.update_of_ne hmm] using hkind m'
      · intro m' hne
        have hmm : m' ≠ m := by
          rintro rfl
          simp [Cube.withCells] at hne
        obtain ⟨k', hk', hm'⟩ := hcover m' (by
          simpa [Cube.withCells, Function.update_of_ne hmm] using hne)
        rcases List.mem_cons.mp hk' with rfl | hk'
        · exact absurd (Option.some.inj (hm'.symm.trans hm)) hmm
        · exact ⟨k', hk', hm'⟩
    rcases hput : tm1.put c k v with _ | c₁
    · have hput' : tm1.put (c.withCells f) k v = none := by
        by_contra hsome
        obtain ⟨c₂, hc₂⟩ := Option.ne_none_iff_exists'.mp hsome
        obtain ⟨m, cell, hm, hcalc, ht, -⟩ := put_eq_some_iff.mp hc₂
        have htaken : tm1.taken (c.cells m) v = some cell := by
          rw [← ht]
          exact tm1.taken_congr (hkind m).symm v
        have hsome' : tm1.put c k v = some (c.withCells (Function.update c.cells m cell)) :=
          put_eq_some_iff.mpr ⟨m, cell, hm, hcalc, htaken, rfl⟩
        rw [hput] at hsome'
        cases hsome'
      rw [hput']
    · obtain ⟨g, hput', hkind', hcover'⟩ := hnext c₁ hput
      rw [hput']
      exact ih c₁ g hkind' hcover'

/-- A payload whose entries each leave the cube alone leaves it alone. -/
theorem TM1.putAll_fixed {tm1 : TM1} {payload : List (List String × Value)} {c : Cube}
    (h : ∀ entry ∈ payload, tm1.put c entry.1 entry.2 = some c) :
    tm1.putAll c payload = some c := by
  induction payload with
  | nil => rfl
  | cons entry payload ih =>
    rw [putAll, List.foldlM_cons, h entry List.mem_cons_self]
    exact ih fun e he => h e (List.mem_cons_of_mem _ he)

/-- A payload that gives each cell one value leaves what the cell makes of it. -/
theorem TM1.putAll_value {tm1 : TM1} {payload : List (List String × Value)} {c c' : Cube}
    (h : tm1.putAll c payload = some c') (g : List String → Value)
    (hg : ∀ entry ∈ payload, ∀ m, c.cellOf entry.1 = some m → entry.2 = g m) :
    ∀ entry ∈ payload, ∃ m, c.cellOf entry.1 = some m ∧
      tm1.taken (c.cells m) (g m) = some (c'.cells m) := by
  induction payload generalizing c with
  | nil => intro entry hentry; cases hentry
  | cons first payload ih =>
    rw [putAll, List.foldlM_cons, Option.bind_eq_bind, Option.bind_eq_some_iff] at h
    obtain ⟨c₁, hput, hrest⟩ := h
    obtain ⟨m, cell, hm, -, ht, rfl⟩ := put_eq_some_iff.mp hput
    have hv : first.2 = g m := hg first List.mem_cons_self m hm
    have hkind : ∀ m', ((c.withCells (Function.update c.cells m cell)).cells m').isNum
        = (c.cells m').isNum := by
      intro m'
      by_cases hmm : m' = m
      · subst hmm
        simpa [Cube.withCells] using taken_isNum ht
      · simp [Cube.withCells, Function.update_of_ne hmm]
    have hlater : ∀ entry ∈ payload, ∃ m', c.cellOf entry.1 = some m' ∧
        tm1.taken (c.cells m') (g m') = some (c'.cells m') := by
      intro entry hentry
      obtain ⟨m', hm', ht'⟩ :=
        ih hrest (fun e he => hg e (List.mem_cons_of_mem _ he)) entry hentry
      exact ⟨m', hm', by rw [← ht', tm1.taken_congr (hkind m')]⟩
    intro entry hentry
    rcases List.mem_cons.mp hentry with rfl | hentry
    · refine ⟨m, hm, ?_⟩
      -- either no later entry names the cell, or one does and gives it the same value
      by_cases hnamed : ∃ k ∈ payload.map Prod.fst, c.cellOf k = some m
      · obtain ⟨k, hk, hkm⟩ := hnamed
        obtain ⟨e, he, rfl⟩ := List.mem_map.mp hk
        obtain ⟨m', hm', ht'⟩ := hlater e he
        rw [hkm, Option.some.injEq] at hm'
        rw [hm', ht']
      · obtain ⟨f, rfl, -, hframe⟩ := putAll_frame hrest
        have hsame : f m = (c.withCells (Function.update c.cells m cell)).cells m := by
          by_contra hne
          exact hnamed (hframe m hne)
        rw [← hv, ht]
        simp [Cube.withCells, hsame]
    · exact hlater entry hentry

namespace cell_service

/-- One step of building a dictionary adds the key of the entry. -/
theorem mem_dictStep {dict : List (List String × Value)} {entry : List String × Value}
    {k : List String} :
    k ∈ (if entry.1 ∈ dict.map Prod.fst then
        dict.map fun old => if old.1 = entry.1 then entry else old
      else dict ++ [entry]).map Prod.fst ↔ k ∈ dict.map Prod.fst ∨ k = entry.1 := by
  by_cases hmem : entry.1 ∈ dict.map Prod.fst
  · have hkeys : (dict.map fun old => if old.1 = entry.1 then entry else old).map Prod.fst
        = dict.map Prod.fst := by
      rw [List.map_map]
      refine List.map_congr_left fun old _ => ?_
      by_cases hold : old.1 = entry.1
      · simp [hold]
      · simp [hold]
    rw [if_pos hmem, hkeys]
    constructor
    · exact .inl
    · rintro (hk | rfl)
      · exact hk
      · exact hmem
  · rw [if_neg hmem, List.map_append, List.mem_append, List.map_singleton, List.mem_singleton]

/-- A dictionary has the keys of its entries. -/
theorem mem_asDict {values : List (List String × Value)} {k : List String} :
    k ∈ (asDict values).map Prod.fst ↔ k ∈ values.map Prod.fst := by
  have hfold : ∀ (entries dict : List (List String × Value)),
      k ∈ (entries.foldl (fun dict entry =>
        if entry.1 ∈ dict.map Prod.fst then
          dict.map fun old => if old.1 = entry.1 then entry else old
        else dict ++ [entry]) dict).map Prod.fst
      ↔ k ∈ dict.map Prod.fst ∨ k ∈ entries.map Prod.fst := by
    intro entries
    induction entries with
    | nil => simp
    | cons entry entries ih =>
      intro dict
      rw [List.foldl_cons, ih, mem_dictStep, List.map_cons, List.mem_cons, or_assoc]
  rw [asDict, hfold values []]
  simp

/-- A dictionary has entries of its payload only. -/
theorem mem_of_mem_asDict {values : List (List String × Value)} {entry : List String × Value}
    (h : entry ∈ asDict values) : entry ∈ values := by
  have hfold : ∀ (entries dict : List (List String × Value)),
      entry ∈ entries.foldl (fun dict e =>
        if e.1 ∈ dict.map Prod.fst then dict.map fun old => if old.1 = e.1 then e else old
        else dict ++ [e]) dict → entry ∈ dict ∨ entry ∈ entries := by
    intro entries
    induction entries with
    | nil => exact fun dict => .inl
    | cons e entries ih =>
      intro dict hmem
      rw [List.foldl_cons] at hmem
      rcases ih _ hmem with hdict | hlater
      · split at hdict
        · obtain ⟨old, hold, rfl⟩ := List.mem_map.mp hdict
          split
          · exact .inr List.mem_cons_self
          · exact .inl hold
        · rcases List.mem_append.mp hdict with hold | hnew
          · exact .inl hold
          · rw [List.mem_singleton.mp hnew]
            exact .inr List.mem_cons_self
      · exact .inr (List.mem_cons_of_mem _ hlater)
  exact (hfold values [] h).resolve_left (List.not_mem_nil)

/-- **A payload to the cells of an earlier one overwrites it completely**: it does
what it would have done before. -/
theorem write_cells_again {tm1 : TM1} {cube : String} {first second : List (List String × Value)}
    {s s' : Server} (hfirst : write_cells tm1 cube first s = .ok s')
    (hsame : first.map Prod.fst = second.map Prod.fst) :
    write_cells tm1 cube second s' = write_cells tm1 cube second s := by
  rcases hc : s.cube cube with _ | c
  · simp [write_cells, hc] at hfirst
  rcases hf : tm1.putAll c (asDict first) with _ | c₁
  · simp [write_cells, hc, hf] at hfirst
  simp only [write_cells, hc, hf, Except.ok.injEq] at hfirst
  obtain ⟨f, rfl, hkind, hframe⟩ := TM1.putAll_frame hf
  have hcover : ∀ m, f m ≠ c.cells m →
      ∃ k ∈ (asDict second).map Prod.fst, c.cellOf k = some m := by
    intro m hne
    obtain ⟨k, hk, hm⟩ := hframe m hne
    rw [mem_asDict, hsame, ← mem_asDict] at hk
    exact ⟨k, hk, hm⟩
  have hagain := tm1.putAll_congr (asDict second) c f hkind hcover
  rw [← hfirst, write_cells, write_cells, Server.cube_setCube, hc]
  dsimp only
  rw [hagain]
  rcases tm1.putAll c (asDict second) with _ | c₂
  · rfl
  · simp only [Server.setCube_setCube]

/-- **Cells written back with the values that were read of them** stay as they are
exactly when each of them is kept. `hread` says that each coordinate was read from
its own cell. -/
theorem write_back_iff {tm1 : TM1} {cube : String} {values : List (List String × Value)}
    {s : Server} {c : Cube} (hc : s.cube cube = some c)
    (hread : ∀ entry ∈ values, ∃ m, c.cellOf entry.1 = some m ∧ tm1.calculated c m = false ∧
      entry.2 = (tm1.report (c.cells m)).getD (.num 0)) :
    write_cells tm1 cube values s = .ok s ↔
      ∀ entry ∈ values, ∀ m, c.cellOf entry.1 = some m → tm1.Keeps (c.cells m) := by
  have hvalue : ∀ entry ∈ values, ∀ m, c.cellOf entry.1 = some m →
      entry.2 = (tm1.report (c.cells m)).getD (.num 0) := by
    intro entry hentry m hm
    obtain ⟨m', hm', -, hv⟩ := hread entry hentry
    rw [hm, Option.some.injEq] at hm'
    rw [hv, hm']
  constructor
  · intro hwrite entry hentry m hm
    rcases hput : tm1.putAll c (asDict values) with _ | c'
    · simp [write_cells, hc, hput] at hwrite
    simp only [write_cells, hc, hput, Except.ok.injEq] at hwrite
    -- the cube is as it was, so each value was put where it was read
    have hsame : c' = c := by
      have h := congrArg (fun t => t.cube cube) hwrite
      simpa [hc] using h
    subst hsame
    have hkey : entry.1 ∈ (asDict values).map Prod.fst :=
      mem_asDict.mpr (List.mem_map_of_mem hentry)
    obtain ⟨e, he, hek⟩ := List.mem_map.mp hkey
    obtain ⟨m', hm', ht⟩ := TM1.putAll_value hput
      (fun m => (tm1.report (c'.cells m)).getD (.num 0))
      (fun e he => hvalue e (mem_of_mem_asDict he)) e he
    rw [hek, hm, Option.some.injEq] at hm'
    subst hm'
    exact (tm1.taken_report_iff _).mp ht
  · intro hkeeps
    have hput : tm1.putAll c (asDict values) = some c := by
      refine TM1.putAll_fixed fun entry hentry => ?_
      have hentry := mem_of_mem_asDict hentry
      obtain ⟨m, hm, hcalc, hv⟩ := hread entry hentry
      refine TM1.put_eq_some_iff.mpr ⟨m, c.cells m, hm, hcalc, ?_, ?_⟩
      · rw [hv]
        exact (tm1.taken_report_iff _).mpr (hkeeps entry hentry m hm)
      · rw [Function.update_eq_self]
        rfl
    simp only [write_cells, hc, hput, Except.ok.injEq]
    exact Server.setCube_self hc

end cell_service

end PaCopilot

/-
What `tm1/metadata/extractor.py` does to the rows of a graph: objects and edges are added,
the edges of an object are dropped, an object goes with its edges.

Two graphs of one model differ in their identifiers, so they are compared by name: an object
is known by its type and name ([`TM1Object.key`]), an edge by those of its ends
([`Graph.Named`]).
-/
import PaCopilot.Metadata.Graph

set_option autoImplicit false

namespace PaCopilot.metadata

open Table

/-- The type of an object and its name. -/
abbrev Key := String × String

def TM1Object.key (o : TM1Object) : Key := (o.object_type, o.name)

namespace Graph

def keys (g : Graph) : List Key := g.objects.map TM1Object.key

instance decidableMemKeys (g : Graph) (k : Key) : Decidable (k ∈ g.keys) :=
  inferInstanceAs (Decidable (k ∈ g.objects.map TM1Object.key))

/-- There is an edge of that type from the one object to the other. -/
def Named (g : Graph) (a b : Key) (relationship_type : String) : Prop :=
  ∃ r ∈ g.relationships, ∃ o ∈ g.objects, ∃ p ∈ g.objects,
    o.id = r.from_object_id ∧ p.id = r.to_object_id ∧ o.key = a ∧ p.key = b ∧
      r.relationship_type = relationship_type

instance (g : Graph) (a b : Key) (relationship_type : String) :
    Decidable (g.Named a b relationship_type) :=
  inferInstanceAs (Decidable (∃ r ∈ g.relationships, ∃ o ∈ g.objects, ∃ p ∈ g.objects,
    o.id = r.from_object_id ∧ p.id = r.to_object_id ∧ o.key = a ∧ p.key = b ∧
      r.relationship_type = relationship_type))

/-! ## Operations -/

def empty : Graph where
  objects := []
  relationships := []
  ids := List.nodup_nil
  uq_tm1_objects_connection_type_name := List.nodup_nil
  from_object _ h := absurd h List.not_mem_nil
  to_object _ h := absurd h List.not_mem_nil

/-- An identifier that no object has. -/
def fresh (g : Graph) : ℕ := (g.objects.map TM1Object.id).foldr max 0 + 1

theorem lt_fresh {g : Graph} {o : TM1Object} (h : o ∈ g.objects) : o.id < g.fresh := by
  have hle : ∀ {ids : List ℕ} {i : ℕ}, i ∈ ids → i ≤ ids.foldr max 0 := by
    intro ids i hi
    induction ids with
    | nil => exact absurd hi List.not_mem_nil
    | cons j rest ih =>
      rw [List.foldr_cons]
      rcases List.mem_cons.mp hi with rfl | hrest
      · exact Nat.le_max_left _ _
      · exact Nat.le_trans (ih hrest) (Nat.le_max_right _ _)
  exact Nat.lt_succ_of_le (hle (List.mem_map_of_mem h))

/-- `add_object`: an object that is there is not added again. -/
def add_object (g : Graph) (organization_id : ℕ) (k : Key) : Graph :=
  if h : k ∈ g.keys then g
  else
    { objects := g.objects ++ [⟨g.fresh, organization_id, k.1, k.2⟩]
      relationships := g.relationships
      ids := by
        rw [unique_append_iff rfl]
        exact ⟨g.ids, fun o ho _ => Nat.ne_of_lt (lt_fresh ho)⟩
      uq_tm1_objects_connection_type_name := by
        rw [unique_append_iff rfl]
        refine ⟨g.uq_tm1_objects_connection_type_name, fun o ho _ hkey => ?_⟩
        exact h (List.mem_map.mpr ⟨o, ho, hkey⟩)
      from_object := fun r hr => by
        obtain ⟨o, ho, hid⟩ := g.from_object r hr
        exact ⟨o, List.mem_append_left _ ho, hid⟩
      to_object := fun r hr => by
        obtain ⟨o, ho, hid⟩ := g.to_object r hr
        exact ⟨o, List.mem_append_left _ ho, hid⟩ }

/-- The row of an edge between two objects that are there. -/
def row (g : Graph) (a b : Key) (relationship_type : String) : Option TM1Relationship := do
  let o ← g.get_by_name a.1 a.2
  let p ← g.get_by_name b.1 b.2
  some ⟨o.id, p.id, relationship_type⟩

theorem row_ends {g : Graph} {a b : Key} {t : String} {r : TM1Relationship}
    (h : g.row a b t = some r) : r.relationship_type = t ∧
      ∃ o ∈ g.objects, ∃ p ∈ g.objects, o.id = r.from_object_id ∧ p.id = r.to_object_id ∧
        o.key = a ∧ p.key = b := by
  unfold row at h
  obtain ⟨o, ho, h⟩ := Option.bind_eq_some_iff.mp h
  obtain ⟨p, hp, h⟩ := Option.bind_eq_some_iff.mp h
  cases h
  have hkey := List.find?_some ho
  have hkey' := List.find?_some hp
  refine ⟨rfl, o, List.mem_of_find?_eq_some ho, p, List.mem_of_find?_eq_some hp, rfl, rfl, ?_, ?_⟩
  · exact Prod.ext_iff.mpr (of_decide_eq_true hkey)
  · exact Prod.ext_iff.mpr (of_decide_eq_true hkey')

/-- `add_relationship`, of objects that are there: an edge is not added twice. -/
def add_relationship (g : Graph) (a b : Key) (relationship_type : String) : Graph :=
  match h : g.row a b relationship_type with
  | none => g
  | some r =>
    if r ∈ g.relationships then g
    else
      { objects := g.objects
        relationships := g.relationships ++ [r]
        ids := g.ids
        uq_tm1_objects_connection_type_name := g.uq_tm1_objects_connection_type_name
        from_object := fun q hq => by
          rcases List.mem_append.mp hq with hold | hnew
          · exact g.from_object q hold
          · obtain ⟨_, o, ho, _, _, hid, _⟩ := row_ends h
            rw [List.mem_singleton.mp hnew]
            exact ⟨o, ho, hid⟩
        to_object := fun q hq => by
          rcases List.mem_append.mp hq with hold | hnew
          · exact g.to_object q hold
          · obtain ⟨_, _, _, p, hp, _, hid, _⟩ := row_ends h
            rw [List.mem_singleton.mp hnew]
            exact ⟨p, hp, hid⟩ }

/-- The edges from an object are dropped. -/
def drop_outgoing (g : Graph) (object_id : ℕ) : Graph where
  objects := g.objects
  relationships := g.relationships.filter fun r => r.from_object_id ≠ object_id
  ids := g.ids
  uq_tm1_objects_connection_type_name := g.uq_tm1_objects_connection_type_name
  from_object r hr := g.from_object r (List.mem_of_mem_filter hr)
  to_object r hr := g.to_object r (List.mem_of_mem_filter hr)

/-- An object is dropped with the edges from it and into it. -/
def drop_object (g : Graph) (object_id : ℕ) : Graph where
  objects := g.objects.filter fun o => o.id ≠ object_id
  relationships := g.relationships.filter fun r =>
    r.from_object_id ≠ object_id ∧ r.to_object_id ≠ object_id
  ids := (((List.filter_sublist).filter _).map _).nodup g.ids
  uq_tm1_objects_connection_type_name :=
    (((List.filter_sublist).filter _).map _).nodup g.uq_tm1_objects_connection_type_name
  from_object r hr := by
    obtain ⟨hr, hends⟩ := List.mem_filter.mp hr
    obtain ⟨o, ho, hid⟩ := g.from_object r hr
    refine ⟨o, List.mem_filter.mpr ⟨ho, decide_eq_true ?_⟩, hid⟩
    rw [hid]
    exact (of_decide_eq_true hends).1
  to_object r hr := by
    obtain ⟨hr, hends⟩ := List.mem_filter.mp hr
    obtain ⟨o, ho, hid⟩ := g.to_object r hr
    refine ⟨o, List.mem_filter.mpr ⟨ho, decide_eq_true ?_⟩, hid⟩
    rw [hid]
    exact (of_decide_eq_true hends).2

/-! ## What they change -/

section Changes

variable {g : Graph} {a b k x y : Key} {t u : String} {o : TM1Object} {organization_id : ℕ}

theorem keys_nodup (g : Graph) : g.keys.Nodup := g.uq_tm1_objects_connection_type_name.map_nodup

theorem mem_keys : k ∈ g.keys ↔ ∃ o ∈ g.objects, o.key = k := List.mem_map

/-- An object is the only one of its type and name. -/
theorem object_eq {p : TM1Object} (ho : o ∈ g.objects) (hp : p ∈ g.objects) (h : o.key = p.key) :
    o = p :=
  g.uq_tm1_objects_connection_type_name.eq ho hp rfl rfl h

/-- The ends of an edge are there. -/
theorem Named.ends (h : g.Named a b t) : a ∈ g.keys ∧ b ∈ g.keys := by
  obtain ⟨_, _, o, ho, p, hp, _, _, ha, hb, _⟩ := h
  exact ⟨mem_keys.mpr ⟨o, ho, ha⟩, mem_keys.mpr ⟨p, hp, hb⟩⟩

theorem mem_keys_add_object : k ∈ (g.add_object organization_id x).keys ↔ k ∈ g.keys ∨ k = x := by
  unfold add_object
  by_cases hx : x ∈ g.keys
  · rw [dif_pos hx]
    exact ⟨.inl, fun h => h.elim id fun heq => heq ▸ hx⟩
  · rw [dif_neg hx, keys, List.map_append, List.mem_append]
    exact or_congr Iff.rfl List.mem_singleton

/-- A new object has no edges. -/
theorem named_add_object : (g.add_object organization_id k).Named a b t ↔ g.Named a b t := by
  unfold add_object
  by_cases hk : k ∈ g.keys
  · rw [dif_pos hk]
  · rw [dif_neg hk]
    constructor
    · rintro ⟨r, hr, o, ho, p, hp, hfrom, hto, ha, hb, ht⟩
      -- the ends of an edge are objects that were there before
      have hold : ∀ q ∈ g.objects ++ [⟨g.fresh, organization_id, k.1, k.2⟩], ∀ q' ∈ g.objects,
          q.id = q'.id → q ∈ g.objects := by
        intro q hq q' hq' hid
        rcases List.mem_append.mp hq with hq | hnew
        · exact hq
        · have hlt := lt_fresh hq'
          rw [List.mem_singleton.mp hnew] at hid
          exact absurd hid (Nat.ne_of_gt hlt)
      obtain ⟨o', ho', hid⟩ := g.from_object r hr
      obtain ⟨p', hp', hid'⟩ := g.to_object r hr
      exact ⟨r, hr, o, hold o ho o' ho' (hfrom.trans hid.symm), p,
        hold p hp p' hp' (hto.trans hid'.symm), hfrom, hto, ha, hb, ht⟩
    · rintro ⟨r, hr, o, ho, p, hp, h⟩
      exact ⟨r, hr, o, List.mem_append_left _ ho, p, List.mem_append_left _ hp, h⟩

theorem row_of_mem (ha : a ∈ g.keys) (hb : b ∈ g.keys) : ∃ r, g.row a b t = some r := by
  have hfind : ∀ k ∈ g.keys, ∃ o, g.get_by_name k.1 k.2 = some o := by
    intro k hk
    obtain ⟨o, ho, hkey⟩ := mem_keys.mp hk
    rcases hfind : g.get_by_name k.1 k.2 with _ | found
    · have hnone := List.find?_eq_none.mp hfind o ho
      rw [decide_eq_true_eq] at hnone
      exact absurd (Prod.ext_iff.mp hkey) hnone
    · exact ⟨found, rfl⟩
  obtain ⟨o, ho⟩ := hfind a ha
  obtain ⟨p, hp⟩ := hfind b hb
  exact ⟨_, by rw [row, ho, hp]; rfl⟩

theorem keys_add_relationship : (g.add_relationship a b t).keys = g.keys := by
  unfold add_relationship
  split
  · rfl
  · split
    · rfl
    · rfl

theorem named_add_relationship (ha : a ∈ g.keys) (hb : b ∈ g.keys) :
    (g.add_relationship a b t).Named x y u ↔ g.Named x y u ∨ (x = a ∧ y = b ∧ u = t) := by
  obtain ⟨r, hrow⟩ := row_of_mem (t := t) ha hb
  obtain ⟨htype, o, ho, p, hp, hfrom, hto, hoa, hpb⟩ := row_ends hrow
  -- identifiers are of one object each, so the row is between these two alone
  have hnew : ∀ o' ∈ g.objects, ∀ p' ∈ g.objects, o'.id = r.from_object_id →
      p'.id = r.to_object_id → o'.key = a ∧ p'.key = b := by
    intro o' ho' p' hp' hfrom' hto'
    rw [g.ids.eq ho' ho rfl rfl (hfrom'.trans hfrom.symm),
      g.ids.eq hp' hp rfl rfl (hto'.trans hto.symm)]
    exact ⟨hoa, hpb⟩
  unfold add_relationship
  split
  · rename_i hnone
    rw [hrow] at hnone
    cases hnone
  · rename_i r' hrow'
    have hsame : r = r' := Option.some.inj (hrow.symm.trans hrow')
    subst hsame
    by_cases hthere : r ∈ g.relationships
    · rw [if_pos hthere]
      refine ⟨.inl, fun h => h.elim id ?_⟩
      rintro ⟨rfl, rfl, rfl⟩
      exact ⟨r, hthere, o, ho, p, hp, hfrom, hto, hoa, hpb, htype⟩
    · rw [if_neg hthere]
      constructor
      · rintro ⟨q, hq, o', ho', p', hp', hfrom', hto', hx, hy, hu⟩
        rcases List.mem_append.mp hq with hold | hlast
        · exact .inl ⟨q, hold, o', ho', p', hp', hfrom', hto', hx, hy, hu⟩
        · rw [List.mem_singleton.mp hlast] at hfrom' hto' hu
          obtain ⟨hao', hbp'⟩ := hnew o' ho' p' hp' hfrom' hto'
          exact .inr ⟨hx.symm.trans hao', hy.symm.trans hbp', hu.symm.trans htype⟩
      · rintro (⟨q, hq, h⟩ | ⟨rfl, rfl, rfl⟩)
        · exact ⟨q, List.mem_append_left _ hq, h⟩
        · exact ⟨r, List.mem_append_right _ List.mem_cons_self, o, ho, p, hp, hfrom, hto, hoa, hpb,
            htype⟩

theorem named_drop_outgoing (ho : o ∈ g.objects) :
    (g.drop_outgoing o.id).Named a b t ↔ g.Named a b t ∧ a ≠ o.key := by
  constructor
  · rintro ⟨r, hr, q, hq, p, hp, hfrom, hto, ha, hb, ht⟩
    obtain ⟨hr, hne⟩ := List.mem_filter.mp hr
    refine ⟨⟨r, hr, q, hq, p, hp, hfrom, hto, ha, hb, ht⟩, fun heq => ?_⟩
    have hsame : q = o := object_eq hq ho (ha.trans heq)
    rw [hsame] at hfrom
    exact of_decide_eq_true hne hfrom.symm
  · rintro ⟨⟨r, hr, q, hq, p, hp, hfrom, hto, ha, hb, ht⟩, hne⟩
    refine ⟨r, List.mem_filter.mpr ⟨hr, decide_eq_true fun hid => ?_⟩, q, hq, p, hp, hfrom, hto,
      ha, hb, ht⟩
    have hsame : q = o := g.ids.eq hq ho rfl rfl (hfrom.trans hid)
    rw [hsame] at ha
    exact hne ha.symm

theorem mem_keys_drop_object (ho : o ∈ g.objects) :
    k ∈ (g.drop_object o.id).keys ↔ k ∈ g.keys ∧ k ≠ o.key := by
  rw [mem_keys, mem_keys]
  constructor
  · rintro ⟨p, hp, rfl⟩
    obtain ⟨hp, hne⟩ := List.mem_filter.mp hp
    refine ⟨⟨p, hp, rfl⟩, fun heq => ?_⟩
    rw [object_eq hp ho heq] at hne
    exact of_decide_eq_true hne rfl
  · rintro ⟨⟨p, hp, rfl⟩, hne⟩
    refine ⟨p, List.mem_filter.mpr ⟨hp, decide_eq_true fun hid => ?_⟩, rfl⟩
    exact hne (by rw [g.ids.eq hp ho rfl rfl hid])

theorem named_drop_object (ho : o ∈ g.objects) :
    (g.drop_object o.id).Named a b t ↔ g.Named a b t ∧ a ≠ o.key ∧ b ≠ o.key := by
  constructor
  · rintro ⟨r, hr, q, hq, p, hp, hfrom, hto, ha, hb, ht⟩
    obtain ⟨hr, _⟩ := List.mem_filter.mp hr
    obtain ⟨hq, hqid⟩ := List.mem_filter.mp hq
    obtain ⟨hp, hpid⟩ := List.mem_filter.mp hp
    refine ⟨⟨r, hr, q, hq, p, hp, hfrom, hto, ha, hb, ht⟩, fun heq => ?_, fun heq => ?_⟩
    · rw [object_eq hq ho (ha.trans heq)] at hqid
      exact of_decide_eq_true hqid rfl
    · rw [object_eq hp ho (hb.trans heq)] at hpid
      exact of_decide_eq_true hpid rfl
  · rintro ⟨⟨r, hr, q, hq, p, hp, hfrom, hto, ha, hb, ht⟩, hna, hnb⟩
    have hqid : q.id ≠ o.id := fun hid => hna (by rw [← ha, g.ids.eq hq ho rfl rfl hid])
    have hpid : p.id ≠ o.id := fun hid => hnb (by rw [← hb, g.ids.eq hp ho rfl rfl hid])
    refine ⟨r, List.mem_filter.mpr ⟨hr, decide_eq_true ?_⟩,
      q, List.mem_filter.mpr ⟨hq, decide_eq_true hqid⟩,
      p, List.mem_filter.mpr ⟨hp, decide_eq_true hpid⟩, hfrom, hto, ha, hb, ht⟩
    rw [← hfrom, ← hto]
    exact ⟨hqid, hpid⟩

end Changes

end Graph

end PaCopilot.metadata

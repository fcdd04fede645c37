/-
Creating, deciding, editing and archiving memories at the same time.

Each request reads the table once and writes at its flush what it decided from that. An edit
that was right when it read may find the version archived when it commits: by another edit,
so that one version has two approved successors, or by a person who wanted it gone, so that it
comes back. An approval may bring back a version that was approved, and edited, since it was
read as a proposal.
-/
import PaCopilot.Lib.Ancestry
import PaCopilot.Lib.Interleave
import PaCopilot.Memory.Service

set_option autoImplicit false

namespace PaCopilot.engineering_memory_service

open Ancestry Interleave Run
open reports (Time column)

/-! ## The requests as transactions -/

inductive Request
  | create (request : MemoryCreate)
  | decide (memory_id organization_id : ℕ) (approve : Bool)
  | edit (memory_id organization_id : ℕ) (text : String) (kind : Option String)
  | archive (memory_id organization_id : ℕ)

/-- A request, with the user who makes it and the tables of roles as it finds them. -/
structure Operation where
  auth : AuthDb
  now : Time
  user_id : ℕ
  request : Request

/-- What a request writes, of the table that it read. -/
def Operation.write (op : Operation) (memories : Memories) : Option (Memories → Memories) :=
  match op.request with
  | .create request => (create op.auth op.now op.user_id request).toOption
  | .decide memory_id organization_id approve =>
    (decide op.auth op.now op.user_id memories memory_id organization_id approve).toOption
  | .edit memory_id organization_id text kind =>
    (edit op.auth op.now op.user_id memories memory_id organization_id text kind).toOption
  | .archive memory_id organization_id =>
    (archive op.auth op.now op.user_id memories memory_id organization_id).toOption.join

/-- The version that a request archives, having found it approved. -/
def Operation.archives (op : Operation) (memories : Memories) : List ℕ :=
  match op.request with
  | .archive memory_id _ =>
    if (op.write memories).isSome ∧ (memories.find memory_id).any (·.status = .approved) then
      [memory_id]
    else []
  | _ => []

section Transactions

variable {Id : Type} [DecidableEq Id]

/-- The requests. Beside the table stand the versions that an archive call found approved, of
those calls that have committed. -/
def transactions (operation : Id → Operation) : System Id Memories (List ℕ) Empty where
  txn i := {
    locks := false
    body := fun memories archived =>
      ((operation i).write memories, (operation i).archives memories ++ archived) }
  outside o := o.elim

/-! ## What is asked -/

/-- The version that a version replaced. -/
def origin (memories : Memories) (id : ℕ) : Option ℕ :=
  (memories.find id).bind EngineeringMemory.supersedes

/-- A version is approved. -/
def Approved (memories : Memories) (id : ℕ) : Prop :=
  ∃ memory ∈ memories.rows, memory.id = id ∧ memory.status = .approved

instance (memories : Memories) (id : ℕ) : Decidable (Approved memories id) :=
  inferInstanceAs (Decidable (∃ memory ∈ memories.rows, memory.id = id ∧ memory.status = .approved))

/-- At most one version in each chain is approved. -/
def OneApproved (memories : Memories) : Prop := AtMostOne (origin memories) (Approved memories)

/-- The user of a request holds the permission. -/
def Operation.CanVouch (op : Operation) : Prop := _can_vouch op.auth op.user_id = .ok true

/-- A request by which a person who holds the permission wrote the version, or approved it. -/
def Operation.VouchesFor (op : Operation) (memory : EngineeringMemory) : Prop :=
  op.CanVouch ∧ memory.decided_by = some op.user_id ∧
    match op.request with
    | .create request =>
      request.source = .human ∧ memory.created_by = op.user_id ∧ memory.supersedes = none
    | .decide memory_id _ approve => memory.id = memory_id ∧ approve = true
    | .edit memory_id _ _ _ =>
      memory.created_by = op.user_id ∧ memory.supersedes = some memory_id
    | .archive _ _ => False

/-- What is true after a step. -/
structure Right (operation : Id → Operation) (σ : State Id Memories (List ℕ))
    (action : Action Id Empty) (σ' : State Id Memories (List ℕ)) : Prop where
  one_approved : OneApproved σ'.committed
  texts : ∀ memory ∈ σ.committed.rows, ∃ memory' ∈ σ'.committed.rows,
    memory'.id = memory.id ∧ memory'.text = memory.text
  vouched : ∀ organization_id connection_ids, ∀ memory ∈ inPrompt σ'.committed organization_id
    connection_ids, ∃ i, (operation i).VouchesFor memory
  stays_archived : ∀ i memories f, action = .finish i →
    writes (transactions operation) σ i memories f →
    ∀ memory_id organization_id text kind,
      (operation i).request = .edit memory_id organization_id text kind → memory_id ∈ σ.env →
      ∀ memory ∈ σ'.committed.rows, memory.supersedes = some memory_id → memory.status ≠ .approved

/-- No other version of the chain is approved than the one that is approved or edited. -/
def Operation.FindsAlone (op : Operation) (stored : Memories) : Prop :=
  match op.request with
  | .decide memory_id _ approve =>
    approve = true → Alone (origin stored) (Approved stored) memory_id
  | .edit memory_id _ _ _ => Alone (origin stored) (Approved stored) memory_id
  | _ => True

/-- When an approval or an edit commits, no other version of the chain is approved, and nobody
who found it approved has archived the version that is edited. -/
def Undisturbed (operation : Id → Operation) (σ : State Id Memories (List ℕ)) :
    Action Id Empty → Prop
  | .finish i => ∀ memories f, writes (transactions operation) σ i memories f →
    (operation i).FindsAlone σ.committed ∧
      ∀ memory_id organization_id text kind,
        (operation i).request = .edit memory_id organization_id text kind → memory_id ∉ σ.env
  | _ => True

end Transactions

/-! ## What a request writes -/

/-- The write of a request that returned. -/
inductive Write (op : Operation) (memories : Memories) : (Memories → Memories) → Prop
  | creates (request : MemoryCreate) (text : String) (vouched : Bool)
      (asked : op.request = .create request)
      (vouches : vouched = true → op.CanVouch ∧ request.source = .human) :
      Write op memories fun stored => stored.add (created op.now op.user_id request text vouched)
  | decides (organization_id : ℕ) (approve : Bool) (memory : EngineeringMemory)
      (asked : op.request = .decide memory.id organization_id approve) (vouches : op.CanVouch)
      (found : memories.find memory.id = some memory) (proposed : memory.status = .proposed) :
      Write op memories fun stored =>
        stored.update memory.id (decided op.now op.user_id approve memory)
  | edits (organization_id : ℕ) (text : String) (kind : Option String) (new_kind new_text : String)
      (old : EngineeringMemory) (asked : op.request = .edit old.id organization_id text kind)
      (vouches : op.CanVouch) (found : memories.find old.id = some old)
      (approved : old.status = .approved) :
      Write op memories fun stored => (stored.update old.id (put_away op.now)).add
        (version_after op.now op.user_id old new_kind new_text)
  | archives (organization_id : ℕ) (memory : EngineeringMemory)
      (asked : op.request = .archive memory.id organization_id)
      (found : memories.find memory.id = some memory) :
      Write op memories fun stored => stored.update memory.id (put_away op.now)

section Written

variable {op : Operation} {memories : Memories} {f : Memories → Memories}

theorem find_id {id : ℕ} {memory : EngineeringMemory} (h : memories.find id = some memory) :
    memory.id = id := by
  unfold Memories.find at h
  have hid := List.find?_some h
  exact of_decide_eq_true hid

theorem get_ok {memory_id organization_id : ℕ} {memory : EngineeringMemory}
    (h : get memories memory_id organization_id = .ok memory) :
    memories.find memory_id = some memory := by
  unfold get at h
  split at h
  · cases h
  · rename_i found hfound
    split at h
    · cases h
    · rw [← Except.ok.inj h]
      exact hfound

theorem toOption_eq_some_iff {α : Type} {x : Except AppException α} {a : α} :
    x.toOption = some a ↔ x = .ok a := by
  cases x <;> simp [Except.toOption]

theorem create_write {request : MemoryCreate} (hasked : op.request = .create request)
    (h : create op.auth op.now op.user_id request = .ok f) : Write op memories f := by
  unfold create at h
  obtain ⟨text, -, h⟩ := bind_eq_ok_iff.mp h
  obtain ⟨vouched, hvouched, h⟩ := bind_eq_ok_iff.mp h
  rw [← Except.ok.inj h]
  refine .creates request text vouched hasked fun htrue => ?_
  rw [htrue] at hvouched
  unfold vouchedFor at hvouched
  split at hvouched
  · rename_i hhuman
    exact ⟨hvouched, hhuman⟩
  · cases hvouched

theorem decide_write {memory_id organization_id : ℕ} {approve : Bool}
    (hasked : op.request = .decide memory_id organization_id approve)
    (h : decide op.auth op.now op.user_id memories memory_id organization_id approve = .ok f) :
    Write op memories f := by
  unfold decide at h
  obtain ⟨vouches, hvouches, h⟩ := bind_eq_ok_iff.mp h
  obtain ⟨hvouched, h⟩ := passed_of_bind h
  obtain ⟨memory, hmemory, h⟩ := bind_eq_ok_iff.mp h
  obtain ⟨hproposed, h⟩ := passed_of_bind h
  rw [Bool.not_eq_false] at hvouched
  rw [hvouched] at hvouches
  have hfound := get_ok hmemory
  rw [← find_id hfound] at hasked hfound
  rw [← Except.ok.inj h]
  exact .decides organization_id approve memory hasked hvouches hfound (not_not.mp hproposed)

theorem edit_write {memory_id organization_id : ℕ} {text : String} {kind : Option String}
    (hasked : op.request = .edit memory_id organization_id text kind)
    (h : edit op.auth op.now op.user_id memories memory_id organization_id text kind = .ok f) :
    Write op memories f := by
  unfold edit at h
  obtain ⟨vouches, hvouches, h⟩ := bind_eq_ok_iff.mp h
  obtain ⟨hvouched, h⟩ := passed_of_bind h
  obtain ⟨old, hold, h⟩ := bind_eq_ok_iff.mp h
  obtain ⟨happroved, h⟩ := passed_of_bind h
  obtain ⟨new_text, -, h⟩ := bind_eq_ok_iff.mp h
  rw [Bool.not_eq_false] at hvouched
  rw [hvouched] at hvouches
  have hfound := get_ok hold
  rw [← find_id hfound] at hasked hfound
  rw [← Except.ok.inj h]
  exact .edits organization_id text kind _ new_text old hasked hvouches hfound
    (not_not.mp happroved)

theorem archive_write {memory_id organization_id : ℕ}
    (hasked : op.request = .archive memory_id organization_id)
    (h : archive op.auth op.now op.user_id memories memory_id organization_id = .ok (some f)) :
    Write op memories f := by
  unfold archive at h
  obtain ⟨vouches, -, h⟩ := bind_eq_ok_iff.mp h
  obtain ⟨-, h⟩ := passed_of_bind h
  obtain ⟨memory, hmemory, h⟩ := bind_eq_ok_iff.mp h
  have hfound := get_ok hmemory
  rw [← find_id hfound] at hasked hfound
  split at h
  · cases h
  · rw [← Option.some.inj (Except.ok.inj h)]
    exact .archives organization_id memory hasked hfound

/-- **What a request writes.** -/
theorem write_of_some (h : op.write memories = some f) : Write op memories f := by
  unfold Operation.write at h
  rcases hasked : op.request with request | ⟨memory_id, organization_id, approve⟩ |
    ⟨memory_id, organization_id, text, kind⟩ | ⟨memory_id, organization_id⟩
  · rw [hasked] at h
    exact create_write hasked (toOption_eq_some_iff.mp h)
  · rw [hasked] at h
    exact decide_write hasked (toOption_eq_some_iff.mp h)
  · rw [hasked] at h
    exact edit_write hasked (toOption_eq_some_iff.mp h)
  · rw [hasked] at h
    rw [Option.join_eq_some_iff] at h
    exact archive_write hasked (toOption_eq_some_iff.mp h)

end Written

/-! ## The table under writes -/

/-- What is true of the table after any requests. -/
structure Sound (memories : Memories) : Prop where
  ids : (memories.rows.map EngineeringMemory.id).Nodup
  below : ∀ memory ∈ memories.rows, memory.id < memories.next_id
  origins : ∀ memory ∈ memories.rows, ∀ id, memory.supersedes = some id → id < memories.next_id
  undecided : ∀ memory ∈ memories.rows, memory.status = .proposed →
    memory.decided_by = none ∧ memory.decided_at = none

section Table

variable {memories : Memories} {id : ℕ} {f : EngineeringMemory → EngineeringMemory}
  {r : ℕ → EngineeringMemory}

theorem find_eq_some_iff (h : Sound memories) {memory : EngineeringMemory} :
    memories.find id = some memory ↔ memory ∈ memories.rows ∧ memory.id = id := by
  constructor
  · intro hfind
    have hid := find_id hfind
    unfold Memories.find at hfind
    exact ⟨List.mem_of_find?_eq_some hfind, hid⟩
  · rintro ⟨hmem, hid⟩
    rcases hfind : memories.find id with _ | other
    · unfold Memories.find at hfind
      have hnone := List.find?_eq_none.mp hfind memory hmem
      simp [hid] at hnone
    · have hother := find_id hfind
      unfold Memories.find at hfind
      rw [List.inj_on_of_nodup_map h.ids (List.mem_of_find?_eq_some hfind) hmem
        (hother.trans hid.symm)]

theorem mem_update {memory : EngineeringMemory} : memory ∈ (memories.update id f).rows ↔
    ∃ old ∈ memories.rows, (if old.id = id then f old else old) = memory := List.mem_map

theorem mem_add {memory : EngineeringMemory} : memory ∈ (memories.add r).rows ↔
    memory ∈ memories.rows ∨ memory = r memories.next_id := by
  simp [Memories.add]

/-- An UPDATE that leaves identifiers leaves the row of each. -/
theorem find_update (hid : ∀ memory, (f memory).id = memory.id) (other : ℕ) :
    (memories.update id f).find other =
      (memories.find other).map fun memory => if memory.id = id then f memory else memory := by
  unfold Memories.find Memories.update
  rw [List.find?_map]
  congr 2
  funext memory
  dsimp only [Function.comp]
  split
  · rw [hid]
  · rfl

/-- An UPDATE that leaves what was replaced leaves the chains. -/
theorem origin_update (hid : ∀ memory, (f memory).id = memory.id)
    (hsupersedes : ∀ memory, (f memory).supersedes = memory.supersedes) :
    origin (memories.update id f) = origin memories := by
  funext other
  rw [origin, origin, find_update hid]
  rcases memories.find other with _ | memory
  · rfl
  · dsimp only [Option.map_some, Option.bind_some]
    split
    · exact hsupersedes memory
    · rfl

/-- A new row adds one version to the chains. -/
theorem origin_add_of_ne (hid : ∀ n, (r n).id = n) {other : ℕ} (hne : other ≠ memories.next_id) :
    origin (memories.add r) other = origin memories other := by
  unfold origin Memories.find Memories.add
  rw [List.find?_append, List.find?_cons]
  have hother : ¬ (r memories.next_id).id = other := by
    rw [hid]
    exact hne.symm
  simp [hother]

theorem origin_add_self (h : Sound memories) (hid : ∀ n, (r n).id = n) :
    origin (memories.add r) memories.next_id = (r memories.next_id).supersedes := by
  unfold origin Memories.find Memories.add
  have hnone : memories.rows.find? (fun memory => memory.id = memories.next_id) = none := by
    rw [List.find?_eq_none]
    intro memory hmem
    have hlt := h.below memory hmem
    simp
    omega
  rw [List.find?_append, hnone]
  simp [hid]

theorem Sound.origin_ne (h : Sound memories) (other : ℕ) :
    origin memories other ≠ some memories.next_id := by
  intro hnext
  rw [origin, Option.bind_eq_some_iff] at hnext
  obtain ⟨memory, hfind, hsupersedes⟩ := hnext
  have hlt := h.origins memory ((find_eq_some_iff h).mp hfind).1 _ hsupersedes
  omega

theorem Sound.approved_ne (h : Sound memories) {other : ℕ} (hother : Approved memories other) :
    other ≠ memories.next_id := by
  obtain ⟨memory, hmem, hid, -⟩ := hother
  have hlt := h.below memory hmem
  omega

theorem Sound.update (h : Sound memories) (hid : ∀ memory, (f memory).id = memory.id)
    (hsupersedes : ∀ memory, (f memory).supersedes = memory.supersedes)
    (hstatus : ∀ memory, (f memory).status ≠ .proposed) : Sound (memories.update id f) := by
  refine ⟨?_, ?_, ?_, ?_⟩
  · have hids : (memories.update id f).rows.map EngineeringMemory.id =
        memories.rows.map EngineeringMemory.id := by
      unfold Memories.update
      rw [List.map_map]
      refine List.map_congr_left fun memory _ => ?_
      dsimp only [Function.comp]
      split
      · exact hid memory
      · rfl
    rw [hids]
    exact h.ids
  · intro memory hmem
    obtain ⟨old, hold, rfl⟩ := mem_update.mp hmem
    split
    · rw [hid]
      exact h.below old hold
    · exact h.below old hold
  · intro memory hmem
    obtain ⟨old, hold, rfl⟩ := mem_update.mp hmem
    split
    · rw [hsupersedes]
      exact h.origins old hold
    · exact h.origins old hold
  · intro memory hmem
    obtain ⟨old, hold, rfl⟩ := mem_update.mp hmem
    split
    · exact fun hproposed => absurd hproposed (hstatus old)
    · exact h.undecided old hold

theorem Sound.add (h : Sound memories) (hid : ∀ n, (r n).id = n)
    (hsupersedes : ∀ n id, (r n).supersedes = some id → id < memories.next_id)
    (hundecided : ∀ n, (r n).status = .proposed →
      (r n).decided_by = none ∧ (r n).decided_at = none) : Sound (memories.add r) := by
  refine ⟨?_, ?_, ?_, ?_⟩
  · unfold Memories.add
    rw [List.map_append, List.nodup_append]
    refine ⟨h.ids, List.nodup_singleton _, ?_⟩
    rintro a ha b hb rfl
    obtain ⟨memory, hmem, rfl⟩ := List.mem_map.mp ha
    have hlt := h.below memory hmem
    rw [List.map_singleton, List.mem_singleton, hid] at hb
    omega
  · intro memory hmem
    change memory.id < memories.next_id + 1
    rcases mem_add.mp hmem with hmem | rfl
    · exact Nat.lt_succ_of_lt (h.below memory hmem)
    · rw [hid]
      exact Nat.lt_succ_self _
  · intro memory hmem other hother
    change other < memories.next_id + 1
    rcases mem_add.mp hmem with hmem | rfl
    · exact Nat.lt_succ_of_lt (h.origins memory hmem other hother)
    · exact Nat.lt_succ_of_lt (hsupersedes _ other hother)
  · intro memory hmem
    rcases mem_add.mp hmem with hmem | rfl
    · exact h.undecided memory hmem
    · exact hundecided _

/-- What is approved after an UPDATE. -/
theorem approved_update (hid : ∀ memory, (f memory).id = memory.id) (other : ℕ) :
    Approved (memories.update id f) other ↔ (Approved memories other ∧ other ≠ id) ∨
      (other = id ∧ ∃ memory ∈ memories.rows, memory.id = id ∧ (f memory).status = .approved) := by
  constructor
  · rintro ⟨memory, hmem, hother, happroved⟩
    obtain ⟨old, hold, rfl⟩ := mem_update.mp hmem
    by_cases hupdated : old.id = id
    · rw [if_pos hupdated] at hother happroved
      rw [hid, hupdated] at hother
      exact .inr ⟨hother.symm, old, hold, hupdated, happroved⟩
    · rw [if_neg hupdated] at hother happroved
      exact .inl ⟨⟨old, hold, hother, happroved⟩, fun heq => hupdated (hother.trans heq)⟩
  · rintro (⟨⟨memory, hmem, hother, happroved⟩, hne⟩ | ⟨rfl, memory, hmem, hupdated, happroved⟩)
    · have hkept : ¬ memory.id = id := fun heq => hne (hother.symm.trans heq)
      exact ⟨memory, mem_update.mpr ⟨memory, hmem, if_neg hkept⟩, hother, happroved⟩
    · exact ⟨f memory, mem_update.mpr ⟨memory, hmem, if_pos hupdated⟩, (hid memory).trans hupdated,
        happroved⟩

theorem approved_add (hid : ∀ n, (r n).id = n) (other : ℕ) :
    Approved (memories.add r) other ↔ Approved memories other ∨
      (other = memories.next_id ∧ (r memories.next_id).status = .approved) := by
  constructor
  · rintro ⟨memory, hmem, hother, happroved⟩
    rcases mem_add.mp hmem with hmem | rfl
    · exact .inl ⟨memory, hmem, hother, happroved⟩
    · exact .inr ⟨hother.symm.trans (hid _), happroved⟩
  · rintro (⟨memory, hmem, hother, happroved⟩ | ⟨rfl, happroved⟩)
    · exact ⟨memory, mem_add.mpr (.inl hmem), hother, happroved⟩
    · exact ⟨_, mem_add.mpr (.inr rfl), hid _, happroved⟩

end Table

section Effect

variable {op : Operation} {memories stored : Memories} {f : Memories → Memories}

/-- A proposal that was decided has the status of the decision. -/
theorem decided_status {now : Time} {user_id : ℕ} {approve : Bool} {read : EngineeringMemory}
    (h : read.status = .proposed) (memory : EngineeringMemory) :
    (decided now user_id approve read memory).status = if approve then .approved else .rejected := by
  unfold decided column
  rw [h]
  cases approve <;> rfl

theorem decided_ne {now : Time} {user_id : ℕ} {approve : Bool} {read : EngineeringMemory}
    (h : read.status = .proposed) (memory : EngineeringMemory) :
    (decided now user_id approve read memory).status ≠ .proposed := by
  rw [decided_status h]
  cases approve <;> simp

theorem Sound.put_away (h : Sound stored) (id : ℕ) (now : Time) :
    Sound (stored.update id (put_away now)) :=
  h.update (fun _ => rfl) (fun _ => rfl) (fun _ hproposed => by cases hproposed)

/-- The rows that were read are still there. -/
def Persists (memories stored : Memories) : Prop :=
  ∀ memory ∈ memories.rows, ∃ memory' ∈ stored.rows, memory'.id = memory.id

theorem Write.sound (h : Write op memories f) (hmemories : Sound memories) (hstored : Sound stored)
    (hpersists : Persists memories stored) : Sound (f stored) := by
  cases h with
  | creates request text vouched asked vouches =>
    refine hstored.add (fun _ => rfl) (fun _ _ hnone => by cases hnone) fun n hproposed => ?_
    unfold created at hproposed ⊢
    cases vouched with
    | false => exact ⟨rfl, rfl⟩
    | true => cases hproposed
  | decides organization_id approve memory asked vouches found proposed =>
    exact hstored.update (fun _ => rfl) (fun _ => rfl) (decided_ne proposed)
  | edits organization_id text kind new_kind new_text old asked vouches found approved =>
    have hold := ((find_eq_some_iff hmemories).mp found).1
    obtain ⟨there, hthere, hid⟩ := hpersists old hold
    have hlt := hstored.below there hthere
    have harchived := hstored.put_away old.id op.now
    refine Sound.add (r := version_after op.now op.user_id old new_kind new_text) harchived
      (fun _ => rfl) ?_ ?_
    · intro n id hsupersedes
      rw [← Option.some.inj hsupersedes, ← hid]
      exact hlt
    · intro n hproposed
      cases hproposed
  | archives organization_id memory asked found =>
    exact hstored.put_away memory.id op.now

/-- A row after an UPDATE. -/
theorem exists_update {id : ℕ} {g : EngineeringMemory → EngineeringMemory}
    (hid : ∀ memory, (g memory).id = memory.id) (htext : ∀ memory, (g memory).text = memory.text)
    {memory : EngineeringMemory} (hmem : memory ∈ stored.rows) :
    ∃ memory' ∈ (stored.update id g).rows, memory'.id = memory.id ∧ memory'.text = memory.text := by
  refine ⟨_, mem_update.mpr ⟨memory, hmem, rfl⟩, ?_⟩
  split
  · exact ⟨hid memory, htext memory⟩
  · exact ⟨rfl, rfl⟩

/-- **No text changes.** -/
theorem Write.texts (h : Write op memories f) {memory : EngineeringMemory}
    (hmem : memory ∈ stored.rows) :
    ∃ memory' ∈ (f stored).rows, memory'.id = memory.id ∧ memory'.text = memory.text := by
  cases h with
  | creates request text vouched asked vouches =>
    exact ⟨memory, mem_add.mpr (.inl hmem), rfl, rfl⟩
  | decides organization_id approve read asked vouches found proposed =>
    exact exists_update (g := decided op.now op.user_id approve read) (fun _ => rfl) (fun _ => rfl) hmem
  | edits organization_id text kind new_kind new_text old asked vouches found approved =>
    have hupdated : ∃ memory' ∈ (stored.update old.id (put_away op.now)).rows,
        memory'.id = memory.id ∧ memory'.text = memory.text :=
      exists_update (g := put_away op.now) (fun _ => rfl) (fun _ => rfl) hmem
    obtain ⟨memory', hmem', hsame⟩ := hupdated
    exact ⟨memory', mem_add.mpr (.inl hmem'), hsame⟩
  | archives organization_id read asked found =>
    exact exists_update (g := put_away op.now) (fun _ => rfl) (fun _ => rfl) hmem

theorem Write.persists (h : Write op memories f) {earlier : Memories}
    (hpersists : Persists earlier stored) : Persists earlier (f stored) := by
  intro memory hmem
  obtain ⟨there, hthere, hid⟩ := hpersists memory hmem
  obtain ⟨memory', hmem', hid', -⟩ := h.texts hthere
  exact ⟨memory', hmem', hid'.trans hid⟩

/-- A row that an archive leaves approved is as it was. -/
theorem approved_put_away {id : ℕ} {now : Time} {memory : EngineeringMemory}
    (hmem : memory ∈ (stored.update id (put_away now)).rows) (happroved : memory.status = .approved) :
    memory ∈ stored.rows := by
  obtain ⟨old, hold, rfl⟩ := mem_update.mp hmem
  split at happroved
  · cases happroved
  · rename_i hother
    rw [if_neg hother]
    exact hold

/-- **Whatever becomes approved is vouched for by the request that makes it so.** -/
theorem Write.vouched (h : Write op memories f) (hmemories : Sound memories)
    {memory : EngineeringMemory} (hmem : memory ∈ (f stored).rows)
    (happroved : memory.status = .approved) : memory ∈ stored.rows ∨ op.VouchesFor memory := by
  cases h with
  | creates request text vouched asked vouches =>
    rcases mem_add.mp hmem with hmem | rfl
    · exact .inl hmem
    · right
      cases vouched with
      | false => cases happroved
      | true =>
        refine ⟨(vouches rfl).1, rfl, ?_⟩
        rw [asked]
        exact ⟨(vouches rfl).2, rfl, rfl⟩
  | decides organization_id approve read asked vouches found proposed =>
    obtain ⟨old, hold, rfl⟩ := mem_update.mp hmem
    split at happroved
    · rename_i hid
      right
      rw [if_pos hid]
      -- nobody had decided it when it was read, so the decision is this request's
      have hread := hmemories.undecided read ((find_eq_some_iff hmemories).mp found).1 proposed
      rw [decided_status proposed] at happroved
      refine ⟨vouches, ?_, ?_⟩
      · unfold decided column
        rw [hread.1]
        rfl
      · rw [asked]
        refine ⟨hid, ?_⟩
        cases approve with
        | false => cases happroved
        | true => rfl
    · rename_i hid
      rw [if_neg hid]
      exact .inl hold
  | edits organization_id text kind new_kind new_text old asked vouches found approved =>
    rcases mem_add.mp hmem with hmem | rfl
    -- what is put away was approved before, if it is approved now
    · exact .inl (approved_put_away hmem happroved)
    · right
      refine ⟨vouches, rfl, ?_⟩
      rw [asked]
      exact ⟨rfl, rfl⟩
  | archives organization_id read asked found => exact .inl (approved_put_away hmem happroved)

theorem approved_after_put_away {id : ℕ} {now : Time} (other : ℕ) :
    Approved (stored.update id (put_away now)) other ↔ Approved stored other ∧ other ≠ id := by
  have hnot : ¬ ∃ memory ∈ stored.rows, memory.id = id ∧ (put_away now memory).status = .approved := by
    rintro ⟨memory, -, -, happroved⟩
    cases happroved
  rw [approved_update (f := put_away now) (fun _ => rfl)]
  simp [hnot]

/-- **A write leaves one approved version in each chain exactly when it finds alone the version
that it is about.** -/
theorem Write.oneApproved_iff (h : Write op memories f) (hmemories : Sound memories)
    (hstored : Sound stored) (hpersists : Persists memories stored) (hone : OneApproved stored) :
    OneApproved (f stored) ↔ op.FindsAlone stored := by
  have hnew := hstored.origin_ne
  have hold : ∀ y, Approved stored y → y ≠ stored.next_id := fun _ => hstored.approved_ne
  unfold Operation.FindsAlone OneApproved
  cases h with
  | creates request text vouched asked vouches =>
    rw [asked]
    -- a memory that is new is a chain of its own
    refine iff_of_true (hone.root hnew (fun x hx => origin_add_of_ne (fun _ => rfl) hx) hold ?_ ?_)
      trivial
    · exact origin_add_self hstored fun _ => rfl
    · intro y hy
      rcases (approved_add (fun _ => rfl) y).mp hy with hy | ⟨hy, -⟩
      · exact .inr hy
      · exact .inl hy
  | decides organization_id approve read asked vouches found proposed =>
    rw [asked]
    dsimp only
    rw [origin_update (f := decided op.now op.user_id approve read) (fun _ => rfl) fun _ => rfl]
    have hread := ((find_eq_some_iff hmemories).mp found).1
    obtain ⟨there, hthere, hid⟩ := hpersists read hread
    cases approve with
    -- a rejection approves nothing
    | false =>
      refine iff_of_true (hone.mono fun y hy => ?_) (by simp)
      rcases (approved_update (f := decided op.now op.user_id false read) (fun _ => rfl) y).mp hy with
        ⟨hy, -⟩ | ⟨-, memory, -, -, happroved⟩
      · exact hy
      · rw [decided_status proposed] at happroved
        cases happroved
    | true =>
      -- an approval marks a version that the chain may have another approved one beside
      refine Iff.trans (hone.mark_iff (x := read.id) fun y => ?_) (by simp)
      rw [approved_update (f := decided op.now op.user_id true read) fun _ => rfl]
      constructor
      · rintro (⟨hy, -⟩ | ⟨hy, -⟩)
        · exact .inr hy
        · exact .inl hy
      · intro hy
        by_cases hyread : y = read.id
        · exact .inr ⟨hyread, there, hthere, hid, decided_status proposed there⟩
        · exact .inl ⟨hy.resolve_left hyread, hyread⟩
  | edits organization_id text kind new_kind new_text old asked vouches found approved =>
    rw [asked]
    have hread := ((find_eq_some_iff hmemories).mp found).1
    obtain ⟨there, hthere, hid⟩ := hpersists old hread
    have hlt := hstored.below there hthere
    have harchived : origin (stored.update old.id (put_away op.now)) = origin stored :=
      origin_update (fun _ => rfl) fun _ => rfl
    -- an edit puts the old version away and adds the next: one is approved if no other was
    refine hone.pass_iff hnew (fun x hx => ?_) hold ?_ (z := old.id) (by omega) fun y => ?_
    · rw [← harchived]
      exact origin_add_of_ne (fun _ => rfl) hx
    · exact origin_add_self (hstored.put_away old.id op.now) fun _ => rfl
    · rw [approved_add (r := version_after op.now op.user_id old new_kind new_text) fun _ => rfl,
        approved_after_put_away]
      constructor
      · rintro (hy | ⟨hy, -⟩)
        · exact .inr hy
        · exact .inl hy
      · rintro (hy | hy)
        · exact .inr ⟨hy, rfl⟩
        · exact .inl hy
  | archives organization_id read asked found =>
    rw [asked]
    dsimp only
    rw [origin_update (f := put_away op.now) (fun _ => rfl) fun _ => rfl]
    exact iff_of_true (hone.mono fun y hy => ((approved_after_put_away y).mp hy).1) trivial

end Effect

/-! ## Runs -/

section Runs

variable {Id : Type} [DecidableEq Id] {operation : Id → Operation} {σ σ' : State Id Memories (List ℕ)}
  {action : Action Id Empty} {i : Id}

/-- What every step keeps. -/
structure Invariant (operation : Id → Operation) (σ : State Id Memories (List ℕ)) : Prop where
  holder : σ.holder = none
  committed : Sound σ.committed
  read : ∀ i memories, σ.read i = some memories → Sound memories ∧ Persists memories σ.committed
  vouched : ∀ memory ∈ σ.committed.rows, memory.status = .approved →
    ∃ i, (operation i).VouchesFor memory

omit [DecidableEq Id] in
theorem write_of_writes {memories : Memories} {f : Memories → Memories}
    (h : writes (transactions operation) σ i memories f) : Write (operation i) memories f :=
  write_of_some h.2

theorem Invariant.step (hσ : Invariant operation σ)
    (h : step (transactions operation) σ action = some σ') : Invariant operation σ' := by
  cases action with
  | start i =>
    obtain ⟨-, -, rfl⟩ := step_start h
    refine ⟨hσ.holder, hσ.committed, ?_, hσ.vouched⟩
    intro j memories hread
    dsimp only at hread
    -- an operation begins with what is committed, which is sound and persists in itself
    by_cases hji : j = i
    · rw [hji, Function.update_self, Option.some.injEq] at hread
      rw [← hread]
      exact ⟨hσ.committed, fun memory hmem => ⟨memory, hmem, rfl⟩⟩
    · rw [Function.update_of_ne hji] at hread
      exact hσ.read j memories hread
  | finish i =>
    obtain ⟨memories, hread, -, hread', hholder', hcommitted⟩ := step_finish h
    have hholder : σ'.holder = none := by
      rw [hholder', hσ.holder]
      rfl
    -- the others go on with what they have read
    have hother : ∀ j other, σ'.read j = some other → σ.read j = some other := by
      intro j other hj
      rw [hread'] at hj
      by_cases hji : j = i
      · rw [hji, Function.update_self] at hj
        cases hj
      · rw [Function.update_of_ne hji] at hj
        exact hj
    rcases hcommitted with ⟨-, hsame⟩ | ⟨f, hf, -, hcommitted⟩
    · refine ⟨hholder, hsame ▸ hσ.committed, fun j other hj => ?_, hsame ▸ hσ.vouched⟩
      rw [hsame]
      exact hσ.read j other (hother j other hj)
    · have hwrite : Write (operation i) memories f := write_of_some hf
      obtain ⟨hmemories, hpersists⟩ := hσ.read i memories hread
      refine ⟨hholder, ?_, fun j other hj => ?_, fun memory hmem happroved => ?_⟩
      · rw [hcommitted]
        exact hwrite.sound hmemories hσ.committed hpersists
      · obtain ⟨hsound, hpersistsOther⟩ := hσ.read j other (hother j other hj)
        rw [hcommitted]
        exact ⟨hsound, hwrite.persists hpersistsOther⟩
      · rw [hcommitted] at hmem
        rcases hwrite.vouched hmemories hmem happroved with hbefore | hvouches
        · exact hσ.vouched memory hbefore happroved
        · exact ⟨i, hvouches⟩
  | outside o => exact o.elim

omit [DecidableEq Id] in
/-- What is shown was vouched for. -/
theorem Invariant.shown (hσ : Invariant operation σ) {organization_id : ℕ}
    {connection_ids : List ℕ} {memory : EngineeringMemory}
    (h : memory ∈ inPrompt σ.committed organization_id connection_ids) :
    ∃ i, (operation i).VouchesFor memory := by
  obtain ⟨hmem, happroved⟩ := approved_of_inPrompt σ.committed organization_id connection_ids h
  exact hσ.vouched memory hmem happroved

/-- An edit leaves an approved successor. -/
theorem Write.successor {op : Operation} {memories stored : Memories} {f : Memories → Memories}
    (h : Write op memories f) {memory_id organization_id : ℕ} {text : String} {kind : Option String}
    (hasked : op.request = .edit memory_id organization_id text kind) :
    ∃ memory ∈ (f stored).rows, memory.supersedes = some memory_id ∧ memory.status = .approved := by
  cases h with
  | edits organization_id' text' kind' new_kind new_text old asked vouches found approved =>
    rw [asked, Request.edit.injEq] at hasked
    exact ⟨_, mem_add.mpr (.inr rfl), congrArg some hasked.1, rfl⟩
  | creates request text vouched asked vouches =>
    rw [asked] at hasked
    cases hasked
  | decides organization_id approve read asked vouches found proposed =>
    rw [asked] at hasked
    cases hasked
  | archives organization_id read asked found =>
    rw [asked] at hasked
    cases hasked

omit [DecidableEq Id] in
/-- A step that leaves the table leaves what is asked. -/
theorem right_of_same (hσ' : Invariant operation σ') (hone : OneApproved σ.committed)
    (hsame : σ'.committed = σ.committed)
    (hnone : ∀ i memories f, action = .finish i → ¬ writes (transactions operation) σ i memories f) :
    Right operation σ action σ' := by
  refine ⟨hsame ▸ hone, fun memory hmem => ⟨memory, hsame ▸ hmem, rfl, rfl⟩, ?_, ?_⟩
  · exact fun _ _ _ hshown => hσ'.shown hshown
  · exact fun i memories f haction hwrites => absurd hwrites (hnone i memories f haction)

/-- **A step does what is asked exactly when it is undisturbed.** -/
theorem right_iff (hσ : Invariant operation σ) (hone : OneApproved σ.committed) :
    (∀ σ', step (transactions operation) σ action = some σ' → Right operation σ action σ') ↔
      Undisturbed operation σ action := by
  cases action with
  | start i =>
    refine iff_of_true (fun σ' hstep => ?_) trivial
    have hσ' := hσ.step hstep
    obtain ⟨-, -, rfl⟩ := step_start hstep
    exact right_of_same hσ' hone rfl (by simp)
  | finish i =>
    constructor
    · intro h memories f hwrites
      -- what the write was computed from may be older than what it is applied to
      obtain ⟨hmemories, hpersists⟩ := hσ.read i memories hwrites.1
      have hwrite := write_of_writes hwrites
      obtain ⟨σ', hstep, hcommitted⟩ := step_of_writes hσ.holder hwrites
      have hright := h σ' hstep
      constructor
      · rw [← hwrite.oneApproved_iff hmemories hσ.committed hpersists hone, ← hcommitted]
        exact hright.one_approved
      · intro memory_id organization_id text kind hasked harchived
        obtain ⟨memory, hmem, hsupersedes, happroved⟩ := hwrite.successor hasked
        rw [← hcommitted] at hmem
        exact hright.stays_archived i memories f rfl hwrites memory_id organization_id text kind
          hasked harchived memory hmem hsupersedes happroved
    · intro hundisturbed σ' hstep
      have hσ' := hσ.step hstep
      obtain ⟨memories, hread, -, -, -, ⟨hnone, hsame⟩ | ⟨f, hf, -, hcommitted⟩⟩ := step_finish hstep
      -- an operation that raises writes nothing
      · refine right_of_same hσ' hone hsame ?_
        rintro j other g hj ⟨hreadOther, hwriteOther⟩
        obtain rfl := Action.finish.inj hj
        rw [hread, Option.some.injEq] at hreadOther
        rw [← hreadOther, hnone] at hwriteOther
        cases hwriteOther
      · obtain ⟨hmemories, hpersists⟩ := hσ.read i memories hread
        have hwrite : Write (operation i) memories f := write_of_some hf
        obtain ⟨halone, harchived⟩ := hundisturbed memories f ⟨hread, hf⟩
        refine ⟨?_, ?_, fun _ _ _ hshown => hσ'.shown hshown, ?_⟩
        · rw [hcommitted]
          exact (hwrite.oneApproved_iff hmemories hσ.committed hpersists hone).mpr halone
        · intro memory hmem
          rw [hcommitted]
          exact hwrite.texts hmem
        · intro j other g hj _ memory_id organization_id text kind hasked hmem
          obtain rfl := Action.finish.inj hj
          exact absurd hmem (harchived memory_id organization_id text kind hasked)
  | outside o => exact o.elim

/-- **Every step of a run does what is asked exactly when every step is undisturbed.** -/
theorem engineering_memory_iff (operation : Id → Operation) (actions : List (Action Id Empty)) :
    Along (step (transactions operation))
        (fun σ action => ∀ σ', step (transactions operation) σ action = some σ' →
          Right operation σ action σ') (initial {} []) actions ↔
      Along (step (transactions operation)) (Undisturbed operation) (initial {} []) actions := by
  refine along_iff (I := Invariant operation) (J := fun σ => OneApproved σ.committed) ?_ ?_ ?_ ?_ ?_
  · exact fun σ action σ' hσ hstep => hσ.step hstep
  · exact fun σ action hσ hone => right_iff hσ hone
  · exact fun σ action σ' _ _ hright hstep => (hright σ' hstep).one_approved
  · refine ⟨rfl, ⟨by simp [initial], by simp [initial], by simp [initial], by simp [initial]⟩, ?_,
      by simp [initial]⟩
    intro i memories hread
    simp [initial] at hread
  · rintro x y ⟨memory, hmem, -⟩
    simp [initial] at hmem

end Runs

/-! ### Two edits, and an edit of what is archived -/

/-- A user who may write knowledge. -/
def editor : AuthDb where
  users := [⟨9, 1, .approved⟩]
  roles := [⟨5, none, "Editor", true⟩]
  permissions := [⟨6, "knowledge.write"⟩]
  role_permissions := [⟨5, 6⟩]
  user_roles := [⟨9, 5⟩]
  users_id := by decide +kernel
  roles_id := by decide +kernel
  permissions_id := by decide +kernel
  permissions_code := by decide +kernel
  uq_role_permission := by decide +kernel
  uq_user_role := by decide +kernel

/-- A memory, two edits of it, and its archive. -/
def requests : Fin 4 → Operation
  | 0 => ⟨editor, 1, 9, .create { organization_id := 1, kind := "note", text := "A", source := .human }⟩
  | 1 => ⟨editor, 2, 9, .edit 0 1 "B" none⟩
  | 2 => ⟨editor, 3, 9, .edit 0 1 "C" none⟩
  | 3 => ⟨editor, 4, 9, .archive 0 1⟩

def twoEdits : List (Action (Fin 4) Empty) :=
  [.start 0, .finish 0, .start 1, .start 2, .finish 1, .finish 2]

def archiveDuringEdit : List (Action (Fin 4) Empty) :=
  [.start 0, .finish 0, .start 1, .start 3, .finish 3]

theorem two_versions_approved :
    (∃ σ, run (step (transactions requests)) (initial {} []) twoEdits = some σ ∧
      ¬ OneApproved σ.committed) ∧
    (∃ σ σ', run (step (transactions requests)) (initial {} []) archiveDuringEdit = some σ ∧
      step (transactions requests) σ (.finish 1) = some σ' ∧ σ.env = [0] ∧
      ∃ memory ∈ σ'.committed.rows, memory.supersedes = some 0 ∧ memory.status = .approved) := by
  constructor
  · refine ⟨_, rfl, fun hone => ?_⟩
    have hsame := hone 1 2 (by decide +kernel) (by decide +kernel) ⟨0, .single rfl, .single rfl⟩
    cases hsame
  · refine ⟨_, _, rfl, rfl, rfl, ?_⟩
    decide +kernel

end PaCopilot.engineering_memory_service

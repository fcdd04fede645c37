/-
Transactions that read one row at one point and write it at another.

A transaction opens with a read of the committed row and finishes later, when it
either writes or ends without a trace. Between the two, others may finish. What
it writes was decided from the row it read, and is applied to the row it finds.
A transaction that reads with a lock keeps others from writing, and from reading
with a lock, until it finishes.

The question such systems raise is whether a transaction finds the row it read.
Under a lock it does ([`Consistent.held`], kept by every step); without one it is
a condition, and it is the only one: with it, every move of the committed row is
one that some transaction would make alone ([`moves_along`]).

Beside the row there is an environment that transactions change and no rollback
restores, such as a remote system or a count of what was done to it.
-/
import PaCopilot.Lib.Run
import Mathlib.Logic.Function.Basic

set_option autoImplicit false

namespace PaCopilot.Interleave

open Run

variable {Id Row Env Out : Type} [DecidableEq Id]

/-- A transaction: whether it locks the row it reads, and what it makes of the row
it read and the environment: the write, if it makes one, and the environment
after it. -/
structure Transaction (Row Env : Type) where
  locks : Bool
  body : Row → Env → Option (Row → Row) × Env

/-- The committed row, the environment, the row each open transaction has read, and
the one that holds the lock. -/
structure State (Id Row Env : Type) where
  committed : Row
  env : Env
  read : Id → Option Row
  holder : Option Id

/-- Transactions over one row, and what others do to the environment. -/
structure System (Id Row Env Out : Type) where
  txn : Id → Transaction Row Env
  outside : Out → Env → Env

inductive Action (Id Out : Type)
  | start (i : Id)
  | finish (i : Id)
  | outside (o : Out)
  deriving DecidableEq

/-- No transaction is open. -/
def initial (row : Row) (env : Env) : State Id Row Env := ⟨row, env, fun _ => none, none⟩

/-- One step, if it can be taken: a locking read waits for the lock, and so does a
write. -/
def step (sys : System Id Row Env Out) (σ : State Id Row Env) :
    Action Id Out → Option (State Id Row Env)
  | .start i =>
    if σ.read i = none ∧ ((sys.txn i).locks = true → σ.holder = none) then
      some { σ with
        read := Function.update σ.read i (some σ.committed)
        holder := if (sys.txn i).locks then some i else σ.holder }
    else none
  | .finish i =>
    match σ.read i with
    | none => none
    | some row =>
      let (write, env) := (sys.txn i).body row σ.env
      let closed := { σ with
        env := env
        read := Function.update σ.read i none
        holder := if σ.holder = some i then none else σ.holder }
      match write with
      -- a transaction that writes nothing releases what it holds
      | none => some closed
      | some f =>
        if σ.holder = none ∨ σ.holder = some i then
          -- the write is of what is committed now, computed from what was read
          some { closed with committed := f σ.committed }
        else none
  | .outside o => some { σ with env := sys.outside o σ.env }

/-! ## What a step does -/

variable {sys : System Id Row Env Out} {σ σ' : State Id Row Env} {i : Id}

/-- The write a transaction makes when it finishes now. -/
def writes (sys : System Id Row Env Out) (σ : State Id Row Env) (i : Id) (row : Row)
    (f : Row → Row) : Prop :=
  σ.read i = some row ∧ ((sys.txn i).body row σ.env).1 = some f

/-- A transaction that starts reads the committed row. -/
theorem step_start (h : step sys σ (.start i) = some σ') :
    σ.read i = none ∧ ((sys.txn i).locks = true → σ.holder = none) ∧
      σ' = { σ with
        read := Function.update σ.read i (some σ.committed)
        holder := if (sys.txn i).locks then some i else σ.holder } := by
  simp only [step] at h
  by_cases hcan : σ.read i = none ∧ ((sys.txn i).locks = true → σ.holder = none)
  · rw [if_pos hcan, Option.some.injEq] at h
    exact ⟨hcan.1, hcan.2, h.symm⟩
  · rw [if_neg hcan] at h
    cases h

/-- A transaction that finishes leaves the row, or writes it while nobody else holds
the lock. -/
theorem step_finish (h : step sys σ (.finish i) = some σ') :
    ∃ row, σ.read i = some row ∧ σ'.env = ((sys.txn i).body row σ.env).2 ∧
      σ'.read = Function.update σ.read i none ∧
      σ'.holder = (if σ.holder = some i then none else σ.holder) ∧
      ((((sys.txn i).body row σ.env).1 = none ∧ σ'.committed = σ.committed) ∨
        ∃ f, ((sys.txn i).body row σ.env).1 = some f ∧
          (σ.holder = none ∨ σ.holder = some i) ∧ σ'.committed = f σ.committed) := by
  simp only [step] at h
  rcases hread : σ.read i with _ | row
  · simp [hread] at h
  · simp only [hread] at h
    refine ⟨row, rfl, ?_⟩
    rcases hwrite : ((sys.txn i).body row σ.env).1 with _ | f
    · simp only [hwrite, Option.some.injEq] at h
      subst h
      exact ⟨rfl, rfl, rfl, .inl ⟨rfl, rfl⟩⟩
    · simp only [hwrite] at h
      by_cases hfree : σ.holder = none ∨ σ.holder = some i
      · rw [if_pos hfree, Option.some.injEq] at h
        subst h
        exact ⟨rfl, rfl, rfl, .inr ⟨f, rfl, hfree, rfl⟩⟩
      · rw [if_neg hfree] at h
        cases h

/-- A write is made when nobody holds the lock. -/
theorem step_of_writes {row : Row} {f : Row → Row} (hholder : σ.holder = none)
    (h : writes sys σ i row f) :
    ∃ σ', step sys σ (.finish i) = some σ' ∧ σ'.committed = f σ.committed := by
  obtain ⟨hread, hwrite⟩ := h
  simp only [step, hread, hwrite, hholder, true_or, if_true]
  exact ⟨_, rfl, rfl⟩

/-! ## The lock -/

/-- The transaction that holds the lock has read the row as it is, and nobody else
has read it with a lock. -/
structure Consistent (sys : System Id Row Env Out) (σ : State Id Row Env) : Prop where
  held : ∀ i, σ.holder = some i → σ.read i = some σ.committed
  locked : ∀ i row, (sys.txn i).locks = true → σ.read i = some row → σ.holder = some i

omit [DecidableEq Id] in
theorem consistent_initial (row : Row) (env : Env) :
    Consistent sys (initial row env : State Id Row Env) :=
  ⟨fun _ h => (nomatch h), fun _ _ _ h => (nomatch h)⟩

theorem Consistent.start (hσ : Consistent sys σ) (h : step sys σ (.start i) = some σ') :
    Consistent sys σ' := by
  obtain ⟨hclosed, hfree, rfl⟩ := step_start h
  -- whoever holds the lock is open, so it is not the one that opens
  have hother : ∀ j, σ.holder = some j → j ≠ i := by
    rintro j hj rfl
    rw [hσ.held j hj] at hclosed
    cases hclosed
  constructor
  · intro j hj
    dsimp only at hj ⊢
    by_cases hlocks : (sys.txn i).locks = true
    · rw [if_pos hlocks, Option.some.injEq] at hj
      rw [← hj, Function.update_self]
    · rw [if_neg hlocks] at hj
      rw [Function.update_of_ne (hother j hj)]
      exact hσ.held j hj
  · intro j row hlocks hread
    dsimp only at hread ⊢
    by_cases hji : j = i
    · rw [if_pos (hji ▸ hlocks), hji]
    · rw [Function.update_of_ne hji] at hread
      have hholder := hσ.locked j row hlocks hread
      have hnot : ¬ (sys.txn i).locks = true := by
        intro hi
        rw [hfree hi] at hholder
        cases hholder
      rw [if_neg hnot]
      exact hholder

theorem Consistent.finish (hσ : Consistent sys σ) (h : step sys σ (.finish i) = some σ') :
    Consistent sys σ' := by
  obtain ⟨row, hread, -, hread', hholder', hcommitted⟩ := step_finish h
  constructor
  · intro j hj
    rw [hholder'] at hj
    by_cases hi : σ.holder = some i
    · rw [if_pos hi] at hj
      cases hj
    · rw [if_neg hi] at hj
      have hji : j ≠ i := fun hji => hi (hji ▸ hj)
      rw [hread', Function.update_of_ne hji, hσ.held j hj]
      rcases hcommitted with ⟨-, hsame⟩ | ⟨f, -, hnone | hself, -⟩
      · rw [hsame]
      · rw [hnone] at hj
        cases hj
      · exact absurd hself hi
  · intro j row' hlocks hread''
    rw [hread'] at hread''
    by_cases hji : j = i
    · rw [hji, Function.update_self] at hread''
      cases hread''
    · rw [Function.update_of_ne hji] at hread''
      have hj := hσ.locked j row' hlocks hread''
      have hi : σ.holder ≠ some i := by
        rw [hj]
        exact fun heq => hji (Option.some.inj heq)
      rw [hholder', if_neg hi]
      exact hj

theorem Consistent.step {action : Action Id Out} (hσ : Consistent sys σ)
    (h : step sys σ action = some σ') : Consistent sys σ' := by
  cases action with
  | start i => exact hσ.start h
  | finish i => exact hσ.finish h
  | outside o =>
    rw [← Option.some.inj h]
    exact ⟨hσ.held, hσ.locked⟩

omit [DecidableEq Id] in
/-- A locking transaction finishes on the row it read. -/
theorem Consistent.fresh (hσ : Consistent sys σ) (hlocks : (sys.txn i).locks = true) {row : Row}
    (hread : σ.read i = some row) : row = σ.committed := by
  have hheld := hσ.held i (hσ.locked i row hlocks hread)
  rw [hread, Option.some.injEq] at hheld
  exact hheld

/-! ## The moves of the committed row -/

/-- The committed row moves along `R`, or stays. -/
def Moves (sys : System Id Row Env Out) (R : Row → Row → Prop) (σ : State Id Row Env)
    (action : Action Id Out) : Prop :=
  ∀ σ', step sys σ action = some σ' → σ'.committed = σ.committed ∨ R σ.committed σ'.committed

/-- Every write is a move along `R` of the row it is applied to. -/
def WritesMove (sys : System Id Row Env Out) (R : Row → Row → Prop) (σ : State Id Row Env) :
    Action Id Out → Prop
  | .finish i => ∀ row f, writes sys σ i row f → R σ.committed (f σ.committed)
  | _ => True

theorem moves_of_writes {R : Row → Row → Prop} {action : Action Id Out}
    (h : WritesMove sys R σ action) : Moves sys R σ action := by
  intro σ' hstep
  cases action with
  | start i =>
    obtain ⟨-, -, rfl⟩ := step_start hstep
    exact .inl rfl
  | finish i =>
    obtain ⟨row, hread, -, -, -, ⟨-, hsame⟩ | ⟨f, hf, -, hcommitted⟩⟩ := step_finish hstep
    · exact .inl hsame
    · rw [hcommitted]
      exact .inr (h row f ⟨hread, hf⟩)
  | outside o =>
    rw [← Option.some.inj hstep]
    exact .inl rfl

/-- **Along a run whose steps meet `P`, the committed row moves along `R`**, when `P`
makes every write of a consistent state a move. -/
theorem moves_along {R : Row → Row → Prop} {P : State Id Row Env → Action Id Out → Prop}
    (hP : ∀ σ action, Consistent sys σ → P σ action → WritesMove sys R σ action) {row : Row}
    {env : Env} {actions : List (Action Id Out)}
    (h : Along (step sys) P (initial row env) actions) :
    Along (step sys) (Moves sys R) (initial row env) actions :=
  along_of_invariant (fun _ _ _ hσ _ hstep => hσ.step hstep)
    (fun σ action hσ hact => moves_of_writes (hP σ action hσ hact)) (consistent_initial row env) h

end PaCopilot.Interleave

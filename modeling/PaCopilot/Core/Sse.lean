/-
`with_heartbeat` of `core/sse.py`: a stream that is never silent for long.

A background task takes the items of the source and puts them in a queue, and the generator takes
them out of it, or says that it is still there. The two tasks, the timeouts and a client that goes
away come in any order. What an item was when it was put, and how the source ended, is what the
generator hands on; nothing is lost, doubled or moved between the two ([`Sound`]).
-/
import PaCopilot.Lib.Run
import Mathlib.Data.List.Basic

set_option autoImplicit false

namespace PaCopilot.sse

open Run

/-- An SSE comment line. -/
def HEARTBEAT : List Char := ": keep-alive\n\n".toList

variable {E : Type}

/-- How the source ends. A cancelled task is not an exception that is handed on. -/
inductive Ending (E : Type)
  | finished
  | failed (exc : E)
  | cancelled

/-- What the background task puts: an item, `_END` or a `_Failure`. -/
inductive Put (E : Type)
  | item (text : List Char)
  | END
  | Failure (exc : E)

inductive Outcome (E : Type)
  | returned
  | raised (exc : E)
  | closed

/-- What is yielded. -/
inductive Piece
  | item (text : List Char)
  | heartbeat
  deriving DecidableEq

def Piece.text : Piece → List Char
  | .item text => text
  | .heartbeat => HEARTBEAT

/-- The items among what was yielded. -/
def items (sent : List Piece) : List (List Char) :=
  sent.filterMap fun
    | .item text => some text
    | .heartbeat => none

structure State (E : Type) where
  source : List (List Char)
  producing : Bool
  queue : List (Put E)
  sent : List Piece
  outcome : Option (Outcome E)

def State.start (source : List (List Char)) : State E := ⟨source, true, [], [], none⟩

/-- What is put when the source has ended. -/
def Ending.marks : Ending E → List (Put E)
  | .finished => [.END]
  | .failed exc => [.Failure exc]
  | .cancelled => []

/-- The background task goes on, the generator finds an item, or gives up waiting for one, or the
client goes away. -/
inductive Action
  | produce
  | get
  | timeout
  | close
  deriving DecidableEq

/-- One step, of a source with that ending. -/
def step (ending : Ending E) (s : State E) : Action → Option (State E)
  | .produce =>
    if s.producing = false then none
    else match s.source with
      | text :: rest => some { s with source := rest, queue := s.queue ++ [.item text] }
      | [] => some { s with producing := false, queue := s.queue ++ ending.marks }
  | .get =>
    if s.outcome.isSome then none
    else match s.queue with
      | [] => none
      | .item text :: rest => some { s with queue := rest, sent := s.sent ++ [.item text] }
      | .END :: rest => some { s with queue := rest, outcome := some .returned }
      | .Failure exc :: rest => some { s with queue := rest, outcome := some (.raised exc) }
  -- also where an item comes at the same moment: it stays in the queue
  | .timeout =>
    if s.outcome.isSome then none else some { s with sent := s.sent ++ [.heartbeat] }
  -- `finally`: the background task is stopped
  | .close =>
    if s.outcome.isSome then none else some { s with outcome := some .closed, producing := false }

/-! ## What is handed on -/

/-- How the generator ends when it comes to the end. -/
def Ending.outcome : Ending E → Option (Outcome E)
  | .finished => some .returned
  | .failed exc => some (.raised exc)
  | .cancelled => none

/-- Where the two tasks are: at work, with the source at its end, or over. -/
inductive Phase (ending : Ending E) (texts : List (List Char)) (s : State E) : Prop
  | producing (hproducing : s.producing = true) (houtcome : s.outcome = none)
      (hqueue : s.queue = texts.map .item)
  | draining (hproducing : s.producing = false) (houtcome : s.outcome = none)
      (hsource : s.source = []) (hqueue : s.queue = texts.map .item ++ ending.marks)
  | ended {outcome : Outcome E} (hproducing : s.producing = false)
      (houtcome : s.outcome = some outcome) (hending : ending.outcome = some outcome)
      (hsource : s.source = []) (htexts : texts = [])
  | closed (hproducing : s.producing = false) (houtcome : s.outcome = some .closed)

/-- What was taken from the source is what was yielded and what still waits, in order. -/
def Sound (ending : Ending E) (source : List (List Char)) (s : State E) : Prop :=
  ∃ texts, source = items s.sent ++ texts ++ s.source ∧ Phase ending texts s

section Handed

variable {ending : Ending E} {source : List (List Char)} {s s' : State E}

theorem items_append (sent sent' : List Piece) : items (sent ++ sent') = items sent ++ items sent' :=
  List.filterMap_append

theorem Sound.start (ending : Ending E) (source : List (List Char)) :
    Sound ending source (State.start source) :=
  ⟨[], rfl, .producing rfl rfl rfl⟩

theorem Sound.produce (h : Sound ending source s) (hstep : step ending s .produce = some s') :
    Sound ending source s' := by
  obtain ⟨texts, hkept, hphase⟩ := h
  rw [step] at hstep
  split at hstep
  · cases hstep
  rename_i hproducing
  cases hphase with
  | producing _ houtcome hqueue =>
    split at hstep
    · rename_i text rest hsource
      cases hstep
      refine ⟨texts ++ [text], ?_, .producing (Bool.not_eq_false _ ▸ hproducing) houtcome ?_⟩
      · rw [hkept, hsource]
        simp
      · simp [hqueue]
    · rename_i hsource
      cases hstep
      refine ⟨texts, ?_, .draining rfl houtcome hsource ?_⟩
      · rw [hkept]
      · rw [hqueue]
  | draining hproducing' => exact absurd hproducing' hproducing
  | ended hproducing' => exact absurd hproducing' hproducing
  | closed hproducing' => exact absurd hproducing' hproducing

theorem Sound.get (h : Sound ending source s) (hstep : step ending s .get = some s') :
    Sound ending source s' := by
  obtain ⟨texts, hkept, hphase⟩ := h
  rw [step] at hstep
  split at hstep
  · cases hstep
  rename_i hopen
  cases hphase with
  | producing hproducing houtcome hqueue =>
    rcases texts with _ | ⟨text, texts⟩
    · rw [List.map_nil] at hqueue
      rw [hqueue] at hstep
      cases hstep
    · rw [List.map_cons] at hqueue
      rw [hqueue] at hstep
      cases hstep
      refine ⟨texts, ?_, .producing hproducing houtcome rfl⟩
      rw [hkept, items_append]
      simp [items]
  | draining hproducing houtcome hsource hqueue =>
    rcases texts with _ | ⟨text, texts⟩
    · rw [List.map_nil, List.nil_append] at hqueue
      rcases ending with _ | exc | _
      · rw [hqueue, Ending.marks] at hstep
        cases hstep
        exact ⟨[], hkept, .ended hproducing rfl rfl hsource rfl⟩
      · rw [hqueue, Ending.marks] at hstep
        cases hstep
        exact ⟨[], hkept, .ended hproducing rfl rfl hsource rfl⟩
      · rw [hqueue, Ending.marks] at hstep
        cases hstep
    · rw [List.map_cons, List.cons_append] at hqueue
      rw [hqueue] at hstep
      cases hstep
      refine ⟨texts, ?_, .draining hproducing houtcome hsource rfl⟩
      rw [hkept, items_append]
      simp [items]
  | ended _ houtcome =>
    rw [houtcome] at hopen
    exact absurd rfl hopen
  | closed _ houtcome =>
    rw [houtcome] at hopen
    exact absurd rfl hopen

theorem Sound.timeout (h : Sound ending source s) (hstep : step ending s .timeout = some s') :
    Sound ending source s' := by
  obtain ⟨texts, hkept, hphase⟩ := h
  rw [step] at hstep
  split at hstep
  · cases hstep
  rename_i hopen
  cases hstep
  refine ⟨texts, ?_, ?_⟩
  · rw [hkept, items_append]
    simp [items]
  · cases hphase with
    | producing hproducing houtcome hqueue => exact .producing hproducing houtcome hqueue
    | draining hproducing houtcome hsource hqueue =>
      exact .draining hproducing houtcome hsource hqueue
    | ended _ houtcome =>
      rw [houtcome] at hopen
      exact absurd rfl hopen
    | closed _ houtcome =>
      rw [houtcome] at hopen
      exact absurd rfl hopen

theorem Sound.close (h : Sound ending source s) (hstep : step ending s .close = some s') :
    Sound ending source s' := by
  obtain ⟨texts, hkept, -⟩ := h
  rw [step] at hstep
  split at hstep
  · cases hstep
  · cases hstep
    exact ⟨texts, hkept, .closed rfl rfl⟩

theorem Sound.step (h : Sound ending source s) {action : Action}
    (hstep : sse.step ending s action = some s') : Sound ending source s' := by
  cases action with
  | produce => exact h.produce hstep
  | get => exact h.get hstep
  | timeout => exact h.timeout hstep
  | close => exact h.close hstep

theorem run_sound {actions : List Action}
    (h : run (sse.step ending) (State.start source) actions = some s) : Sound ending source s :=
  invariant_of_step (fun _ _ _ ht hstep => ht.step hstep) (Sound.start ending source) h

/-- What was yielded are the first items of the source. -/
theorem Sound.items_prefix (h : Sound ending source s) : items s.sent <+: source := by
  obtain ⟨texts, hkept, -⟩ := h
  rw [hkept, List.append_assoc]
  exact List.prefix_append _ _

/-- A generator that returned, or raised, has come to the end as the source has. -/
theorem Sound.items_eq (h : Sound ending source s) {outcome : Outcome E}
    (houtcome : s.outcome = some outcome) (hclosed : outcome ≠ .closed) :
    items s.sent = source ∧ ending.outcome = some outcome := by
  obtain ⟨texts, hkept, hphase⟩ := h
  cases hphase with
  | producing _ hnone =>
    rw [houtcome] at hnone
    cases hnone
  | draining _ hnone =>
    rw [houtcome] at hnone
    cases hnone
  | ended _ houtcome' hending hsource htexts =>
    rw [houtcome, Option.some.injEq] at houtcome'
    rw [hkept, hsource, htexts, List.append_nil, List.append_nil, houtcome']
    exact ⟨rfl, hending⟩
  | closed _ houtcome' =>
    rw [houtcome, Option.some.injEq] at houtcome'
    exact absurd houtcome' hclosed

end Handed

end PaCopilot.sse

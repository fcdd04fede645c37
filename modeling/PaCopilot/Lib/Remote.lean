/-
Programs that change a remote system through calls which may go unanswered.

A call ends in one of three ways: the remote system answers it, refuses it with
a definite error, or the answer is lost. A definite refusal changed nothing. A
lost answer says nothing: the call may have been carried out before the answer
was lost, and only an observer of both sides knows. Each [`Answer`] is that
observer's account of one call.

The programs are exceptions over state (`ExceptT` over `StateM`), so that what a
program did before it raised stays done. That order of the two layers is the
point of the file: a rollback has to be written, it does not come for free.

Nothing here says what the calls are for; `Compensation.lean` builds the guarded
write on top of them.
-/
import Mathlib.Tactic.Common

set_option autoImplicit false

namespace PaCopilot.Remote

/-! ## Failures and answers -/

/-- What a program raises: a definite error, or a call whose outcome is
unknown. -/
inductive Failure (R U : Type)
  | definite (r : R)
  | unknown (u : U)
  deriving DecidableEq

/-- How one call ended. `unknown applied` is a lost answer; `applied` says
whether the remote system carried the call out before the answer was lost. -/
inductive Answer (R U : Type)
  | ok
  | refused (r : R)
  | unknown (applied : Bool) (u : U)
  deriving DecidableEq

/-- The program's own state beside the remote system's. -/
structure World (L S : Type) where
  mine : L
  remote : S

/-- A program with local state `L` over a remote system `S`, raising
[`Failure`]s. State changes survive an exception. -/
abbrev Program (L S R U : Type) := ExceptT (Failure R U) (StateM (World L S))

variable {L S R U α β : Type}

/-- Run a program from a world: how it ended, and the world it left. -/
def exec (m : Program L S R U α) (w : World L S) : Except (Failure R U) α × World L S :=
  (ExceptT.run m).run w

/-! ## The primitives -/

/-- The program's own state. -/
def own : Program L S R U L := do return (← get).mine

/-- Change the program's own state. -/
def note (f : L → L) : Program L S R U Unit :=
  modify fun w => { w with mine := f w.mine }

/-- One reading call: on `ok` the remote system's reply, which may itself be a
definite error (the object does not exist). A read changes nothing. -/
def ask (a : Answer R U) (reply : S → Except R α) : Program L S R U α := do
  match a with
  | .ok =>
    match reply (← get).remote with
    | .ok x => return x
    | .error r => throw (.definite r)
  | .refused r => throw (.definite r)
  | .unknown _ u => throw (.unknown u)

/-- A stretch of the program that only reads: a function of the remote system. -/
def look (f : S → Except (Failure R U) α) : Program L S R U α := do
  match f (← get).remote with
  | .ok x => return x
  | .error e => throw e

/-- The remote system after a call it carried out: a call it refuses on its own
grounds leaves it as it was. -/
def carriedOut (effect : S → Except R S) (s : S) : S :=
  match effect s with
  | .ok s' => s'
  | .error _ => s

/-- One writing call. -/
def send (a : Answer R U) (effect : S → Except R S) : Program L S R U Unit := do
  match a with
  | .ok =>
    match effect (← get).remote with
    | .ok s' => modify fun w => { w with remote := s' }
    | .error r => throw (.definite r)
  | .refused r => throw (.definite r)
  | .unknown applied u =>
    if applied then modify fun w => { w with remote := carriedOut effect w.remote }
    throw (.unknown u)

/-- One call that changes the remote system and returns something. -/
def perform (a : Answer R U) (effect : S → Except R (α × S)) : Program L S R U α := do
  match a with
  | .ok =>
    match effect (← get).remote with
    | .ok (x, s') => do
      modify fun w => { w with remote := s' }
      return x
    | .error r => throw (.definite r)
  | .refused r => throw (.definite r)
  | .unknown applied u =>
    if applied then
      modify fun w => { w with remote := carriedOut (fun s => (effect s).map Prod.snd) w.remote }
    throw (.unknown u)

/-! ## What one call does

Pure counterparts of `ask` and `send`: a call's result and the remote system it
leaves, as functions of the answer. Every proof about a program goes through
these two and never back into the monad. -/

/-- What a reading call returns or raises. -/
def Answer.reply (a : Answer R U) (reply : S → Except R α) (s : S) :
    Except (Failure R U) α :=
  match a with
  | .ok =>
    match reply s with
    | .ok x => .ok x
    | .error r => .error (.definite r)
  | .refused r => .error (.definite r)
  | .unknown _ u => .error (.unknown u)

/-- What a writing call returns or raises, and the remote system after it. -/
def Answer.result (a : Answer R U) (effect : S → Except R S) (s : S) :
    Except (Failure R U) Unit × S :=
  match a with
  | .ok =>
    match effect s with
    | .ok s' => (.ok (), s')
    | .error r => (.error (.definite r), s)
  | .refused r => (.error (.definite r), s)
  | .unknown applied u => (.error (.unknown u), if applied then carriedOut effect s else s)

/-- The remote system carries a call out: it answers the call, or the answer is
lost on its way back. -/
def Answer.carries (a : Answer R U) (effect : S → Except R α) (s : S) : Bool :=
  match a, effect s with
  | .ok, .ok _ => true
  | .unknown true _, .ok _ => true
  | _, _ => false

/-- A write that is not carried out does not return, and changes nothing. -/
theorem result_not_carried {a : Answer R U} {effect : S → Except R S} {s : S}
    (h : a.carries effect s = false) : ∃ e, a.result effect s = (.error e, s) := by
  rcases he : effect s with r | s'
  · rcases a with _ | r' | ⟨_ | _, u⟩ <;> simp [Answer.result, carriedOut, he]
  · rcases a with _ | r' | ⟨_ | _, u⟩ <;> simp [Answer.carries, Answer.result, he] at h ⊢

/-- A write that was refused with a definite error was not carried out. -/
theorem result_refused_not_carried {a : Answer R U} {effect : S → Except R S} {s s' : S} {r : R}
    (h : a.result effect s = (.error (.definite r), s')) : a.carries effect s = false := by
  rcases he : effect s with r' | s''
  · rcases a with _ | r' | ⟨_ | _, u⟩ <;> simp [Answer.carries, he]
  · rcases a with _ | r' | ⟨_ | _, u⟩ <;> simp [Answer.carries, Answer.result, he] at h ⊢

/-- A read that returned was answered. -/
theorem reply_ok {a : Answer R U} {reply : S → Except R α} {s : S} {x : α}
    (h : a.reply reply s = .ok x) : reply s = .ok x := by
  cases a with
  | ok =>
    cases hr : reply s with
    | ok y => simp only [Answer.reply, hr, Except.ok.injEq] at h; rw [h]
    | error r => simp [Answer.reply, hr] at h
  | refused r => simp [Answer.reply] at h
  | unknown applied u => simp [Answer.reply] at h

/-- A read that returned is not one whose answer was lost. -/
theorem reply_answered {a : Answer R U} {reply : S → Except R α} {s : S} {x : α}
    (h : a.reply reply s = .ok x) : ¬ ∃ b u, a = .unknown b u := by
  rintro ⟨b, u, rfl⟩
  simp [Answer.reply] at h

/-- A read raises an unknown outcome exactly when its answer was lost. -/
theorem reply_lost_iff {a : Answer R U} {reply : S → Except R α} {s : S} {e : Failure R U}
    (h : a.reply reply s = .error e) : (∃ u, e = .unknown u) ↔ ∃ b u, a = .unknown b u := by
  cases a with
  | ok =>
    cases hr : reply s with
    | ok x => simp [Answer.reply, hr] at h
    | error r =>
      simp only [Answer.reply, hr, Except.error.injEq] at h
      simp [← h]
  | refused r =>
    simp only [Answer.reply, Except.error.injEq] at h
    simp [← h]
  | unknown b u =>
    simp only [Answer.reply, Except.error.injEq] at h
    simp [← h]

/-- An answered read returns what the remote system replies. -/
theorem reply_eq_ok_iff {reply : S → Except R α} {s : S} {x : α} :
    (Answer.ok : Answer R U).reply reply s = .ok x ↔ reply s = .ok x := by
  rcases h : reply s with r | y <;> simp [Answer.reply, h]

/-- A read the remote system answers. -/
theorem reply_of_ok {reply : S → Except R α} {s : S} {x : α} (h : reply s = .ok x) :
    (Answer.ok : Answer R U).reply reply s = .ok x := by
  simp only [Answer.reply, h]

/-- A write the remote system refuses on its own grounds. -/
theorem result_of_error {effect : S → Except R S} {s : S} {r : R} (h : effect s = .error r) :
    (Answer.ok : Answer R U).result effect s = (.error (.definite r), s) := by
  simp only [Answer.result, h]

/-- A write that returned was carried out. -/
theorem result_ok {a : Answer R U} {effect : S → Except R S} {s s' : S}
    (h : a.result effect s = (.ok (), s')) : a = .ok ∧ effect s = .ok s' := by
  cases a with
  | ok =>
    cases he : effect s with
    | ok t => simp only [Answer.result, he, Prod.mk.injEq, true_and] at h; exact ⟨rfl, by rw [h]⟩
    | error r => simp [Answer.result, he] at h
  | refused r => simp [Answer.result] at h
  | unknown applied u => simp [Answer.result] at h

/-- A write that was refused with a definite error changed nothing. -/
theorem result_definite {a : Answer R U} {effect : S → Except R S} {s s' : S} {r : R}
    (h : a.result effect s = (.error (.definite r), s')) : s' = s := by
  cases a with
  | ok =>
    cases he : effect s with
    | ok t => simp [Answer.result, he] at h
    | error q => simp only [Answer.result, he, Prod.mk.injEq] at h; exact h.2.symm
  | refused q => simp only [Answer.result, Prod.mk.injEq] at h; exact h.2.symm
  | unknown applied u => simp [Answer.result] at h

/-! ## Running the primitives -/

@[simp] theorem exec_pure (x : α) (w : World L S) :
    exec (pure x : Program L S R U α) w = (.ok x, w) := rfl

@[simp] theorem exec_throw (e : Failure R U) (w : World L S) :
    exec (throw e : Program L S R U α) w = (.error e, w) := rfl

theorem exec_bind (m : Program L S R U α) (f : α → Program L S R U β) (w : World L S) :
    exec (m >>= f) w = match exec m w with
      | (.ok x, w') => exec (f x) w'
      | (.error e, w') => (.error e, w') := by
  simp only [exec, ExceptT.run_bind, StateT.run_bind]
  rcases h : (ExceptT.run m).run w with ⟨r, w'⟩
  cases r <;> rfl

theorem exec_map (g : α → β) (m : Program L S R U α) (w : World L S) :
    exec (g <$> m) w = match exec m w with
      | (.ok x, w') => (.ok (g x), w')
      | (.error e, w') => (.error e, w') := by
  rw [map_eq_pure_bind, exec_bind]
  rcases exec m w with ⟨e | x, w'⟩ <;> rfl

theorem exec_tryCatch (m : Program L S R U α) (f : Failure R U → Program L S R U α)
    (w : World L S) :
    exec (tryCatch m f) w = match exec m w with
      | (.ok x, w') => (.ok x, w')
      | (.error e, w') => exec (f e) w' := by
  simp only [exec, ExceptT.run_tryCatch, StateT.run_bind]
  rcases h : (ExceptT.run m).run w with ⟨r, w'⟩
  cases r <;> rfl

/-- A handler sees only how its program ran. -/
theorem exec_tryCatch_congr {m m' : Program L S R U α} {w w' : World L S}
    (f : Failure R U → Program L S R U α) (h : exec m w = exec m' w') :
    exec (tryCatch m f) w = exec (tryCatch m' f) w' := by
  rw [exec_tryCatch, exec_tryCatch, h]

@[simp] theorem exec_own (w : World L S) :
    exec (own : Program L S R U L) w = (.ok w.mine, w) := rfl

@[simp] theorem exec_note (f : L → L) (w : World L S) :
    exec (note f : Program L S R U Unit) w = (.ok (), { w with mine := f w.mine }) := rfl

@[simp] theorem exec_look (f : S → Except (Failure R U) α) (w : World L S) :
    exec (look f) w = (f w.remote, w) := by
  simp only [look]
  show exec (get >>= fun w' => _) w = _
  rw [exec_bind]
  show exec (match f w.remote with | .ok x => _ | .error e => _) w = _
  cases f w.remote <;> rfl

@[simp] theorem exec_ask (a : Answer R U) (reply : S → Except R α) (w : World L S) :
    exec (ask a reply) w = (a.reply reply w.remote, w) := by
  cases a with
  | ok =>
    simp only [ask, Answer.reply]
    show exec (get >>= fun w' => _) w = _
    rw [exec_bind]
    show exec (match reply w.remote with | .ok x => _ | .error r => _) w = _
    cases reply w.remote <;> rfl
  | refused r => rfl
  | unknown applied u => rfl

@[simp] theorem exec_send (a : Answer R U) (effect : S → Except R S) (w : World L S) :
    exec (send a effect) w
      = ((a.result effect w.remote).1, { w with remote := (a.result effect w.remote).2 }) := by
  cases a with
  | ok =>
    simp only [send, Answer.result]
    show exec (get >>= fun w' => _) w = _
    rw [exec_bind]
    show exec (match effect w.remote with | .ok s' => _ | .error r => _) w = _
    cases effect w.remote <;> rfl
  | refused r => rfl
  | unknown applied u => cases applied <;> rfl

/-- A call that is not carried out does not return, and changes nothing. -/
theorem exec_perform_not_carried {a : Answer R U} {effect : S → Except R (α × S)} {w : World L S}
    (h : a.carries effect w.remote = false) :
    ∃ e, exec (perform a effect : Program L S R U α) w = (.error e, w) := by
  rcases he : effect w.remote with r | ⟨x, s'⟩
  · rcases a with _ | r' | ⟨_ | _, u⟩
    · refine ⟨.definite r, ?_⟩
      simp only [perform]
      show exec (get >>= fun w' => _) w = _
      rw [exec_bind]
      show exec (match effect w.remote with | .ok (x, s') => _ | .error r => _) w = _
      rw [he]
      rfl
    · exact ⟨_, rfl⟩
    · exact ⟨_, rfl⟩
    · refine ⟨.unknown u, ?_⟩
      show (Except.error (Failure.unknown u), World.mk w.mine (carriedOut _ w.remote)) = _
      simp [carriedOut, he, Except.map]
  · rcases a with _ | r' | ⟨_ | _, u⟩
    · simp [Answer.carries, he] at h
    · exact ⟨_, rfl⟩
    · exact ⟨_, rfl⟩
    · simp [Answer.carries, he] at h

end PaCopilot.Remote

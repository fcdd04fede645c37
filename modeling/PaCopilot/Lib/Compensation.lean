/-
The guarded write: write, verify, restore when the verification fails, and read
back what was left.

A system without transactions gets them by hand: take a snapshot, write, check
what was written, and put the snapshot back when the check fails. The hand-made
version has one gap for each call it makes, since each of them can be refused or
go unanswered. This file states the pattern once, over any remote system, and
answers the one question every user of it has: on which answers does the
program end with a definite error, or report a failure, over a remote system it
has in fact changed ([`Compensation.Stranded`], [`Compensation.told_iff`])?

An unknown outcome is never such an ending. It says that nobody knows.
-/
import PaCopilot.Lib.Remote

set_option autoImplicit false

namespace PaCopilot.Remote

variable {L S R U V A α : Type}

/-! ## The programs -/

/-- Put the previous state back and raise the error that made it necessary. A
restore that fails is swallowed: the original error is the one to report. -/
def restoreThenRaise (restore : Program L S R U Unit) (original : Failure R U) :
    Program L S R U α := do
  tryCatch restore fun _ => pure ()
  throw original

/-- Write, verify, and restore on findings; with none, read back. `seen` is what
the program notes of the verdict before it acts on it. -/
def compensated (write : Program L S R U Unit) (verify : Program L S R U V)
    (seen : V → L → L) (wrong : V → Bool) (restore : Program L S R U Unit)
    (reread : Program L S R U A) : Program L S R U (V × Option A) := do
  write
  let v ← tryCatch verify (restoreThenRaise restore)
  note (seen v)
  if wrong v then
    restore
    return (v, none)
  else
    let x ← reread
    return (v, some x)

/-! ## The same as a function of the answers -/

/-- The four calls of a guarded write, as the remote system carries them out. -/
structure Compensation (S R V A : Type) where
  effect : S → Except R S
  verify : S → Except R V
  wrong : V → Bool
  undo : S → Except R S
  reread : S → Except R A

/-- The answers the four calls get. -/
structure Calls (R U : Type) where
  write : Answer R U
  verify : Answer R U
  restore : Answer R U
  reread : Answer R U

/-- The guarded write of such calls on given answers. -/
def Compensation.run (c : Compensation S R V A) (a : Calls R U) (seen : V → L → L) :
    Program L S R U (V × Option A) :=
  compensated (send a.write c.effect) (ask a.verify c.verify) seen c.wrong
    (send a.restore c.undo) (ask a.reread c.reread)

/-- How a guarded write ends: its result, the verdict if there was one, and the
remote system it leaves. -/
structure Ending (S R U V A : Type) where
  result : Except (Failure R U) (V × Option A)
  verdict : Option V
  remote : S

/-- The ending of the calls after the write, from what the write left. -/
def Compensation.checked (c : Compensation S R V A) (a : Calls R U) (s₁ : S) :
    Ending S R U V A :=
  match a.verify.reply c.verify s₁ with
  | .error e => ⟨.error e, none, (a.restore.result c.undo s₁).2⟩
  | .ok v =>
    if c.wrong v then
      match a.restore.result c.undo s₁ with
      | (.error e, s') => ⟨.error e, some v, s'⟩
      | (.ok (), s') => ⟨.ok (v, none), some v, s'⟩
    else
      match a.reread.reply c.reread s₁ with
      | .error e => ⟨.error e, some v, s₁⟩
      | .ok x => ⟨.ok (v, some x), some v, s₁⟩

/-- The ending on given answers. -/
def Compensation.settle (c : Compensation S R V A) (a : Calls R U) (s : S) :
    Ending S R U V A :=
  match a.write.result c.effect s with
  | (.error e, s') => ⟨.error e, none, s'⟩
  | (.ok (), s₁) => c.checked a s₁

/-- The program ends as `settle` says. -/
theorem Compensation.exec_run (c : Compensation S R V A) (a : Calls R U) (seen : V → L → L)
    (w : World L S) :
    exec (c.run a seen) w
      = ((c.settle a w.remote).result,
          ⟨((c.settle a w.remote).verdict.map fun v => seen v w.mine).getD w.mine,
            (c.settle a w.remote).remote⟩) := by
  rw [run, compensated, exec_bind, exec_send, settle]
  rcases hw : a.write.result c.effect w.remote with ⟨r | r, s₁⟩
  · rfl
  · dsimp only
    rw [checked, exec_bind, exec_tryCatch, exec_ask]
    dsimp only
    cases hv : a.verify.reply c.verify s₁ with
    | error e =>
      dsimp only
      rw [restoreThenRaise, exec_bind, exec_tryCatch, exec_send]
      rcases hr : a.restore.result c.undo s₁ with ⟨r | r, s'⟩ <;> rfl
    | ok v =>
      dsimp only
      rw [exec_bind, exec_note]
      dsimp only
      cases hb : c.wrong v with
      | true =>
        rw [if_pos rfl, if_pos rfl, exec_bind, exec_send]
        rcases hr : a.restore.result c.undo s₁ with ⟨r | r, s'⟩ <;> rfl
      | false =>
        rw [if_neg Bool.false_ne_true, if_neg Bool.false_ne_true, exec_bind, exec_ask]
        dsimp only
        cases hx : a.reread.reply c.reread s₁ <;> rfl

/-! ## Which endings tell the truth -/

/-- What an ending tells whoever reads it. A definite error, and a report of
findings, say that the remote system is as it was; a clean return says that it
holds what was written, and that this was verified; a lost answer says
nothing. -/
def Compensation.Told (c : Compensation S R V A) (s : S) (e : Ending S R U V A) : Prop :=
  match e.result with
  | .error (.definite _) => e.remote = s
  | .error (.unknown _) => True
  | .ok (v, _) =>
    if c.wrong v then e.remote = s else c.effect s = .ok e.remote ∧ c.verify e.remote = .ok v

/-- After a write that turned `s` into `s₁`, one of three things happened: the
verification ended in a definite error and the restore did not bring `s` back;
it had findings, and the restore was definitely refused or brought something
else back; it had none, and the read-back ended in a definite error. -/
def Compensation.StrandedAfter (c : Compensation S R V A) (a : Calls R U) (s s₁ : S) : Prop :=
  match a.verify.reply c.verify s₁ with
  | .error (.definite _) => (a.restore.result c.undo s₁).2 ≠ s
  | .error (.unknown _) => False
  | .ok v =>
    if c.wrong v then
      (∀ b u, a.restore ≠ .unknown b u) ∧ (a.restore.result c.undo s₁).2 ≠ s
    else ∃ r, a.reread.reply c.reread s₁ = .error (.definite r) ∧ s₁ ≠ s

/-- The write was carried out, and the calls after it left its result stranded. -/
def Compensation.Stranded (c : Compensation S R V A) (a : Calls R U) (s : S) : Prop :=
  ∃ s₁, a.write = .ok ∧ c.effect s = .ok s₁ ∧ c.StrandedAfter a s s₁

/-- A write that raised an unknown outcome is one whose answer was lost. -/
theorem result_lost {a : Answer R U} {effect : S → Except R S} {s s' : S} {u : U}
    (h : a.result effect s = (.error (.unknown u), s')) : ∃ b, a = .unknown b u := by
  cases a with
  | ok => cases he : effect s <;> simp [Answer.result, he] at h
  | refused r => simp [Answer.result] at h
  | unknown b q =>
    simp only [Answer.result, Prod.mk.injEq, Except.error.injEq, Failure.unknown.injEq] at h
    exact ⟨b, by rw [h.1]⟩

/-- A write that returned, or was definitely refused, is not one whose answer
was lost. -/
theorem result_not_lost {a : Answer R U} {effect : S → Except R S} {s s' : S}
    {x : Except (Failure R U) Unit} (h : a.result effect s = (x, s'))
    (hx : ∀ u, x ≠ .error (.unknown u)) : ∀ b u, a ≠ .unknown b u := by
  rintro b u rfl
  exact hx u (Prod.mk.inj h).1.symm

/-- The calls of a guarded write that returned. -/
theorem Compensation.settle_ok {c : Compensation S R V A} {a : Calls R U} {s : S} {v : V}
    {x : Option A} (h : (c.settle a s).result = .ok (v, x)) :
    ∃ s₁, c.effect s = .ok s₁ ∧ c.verify s₁ = .ok v ∧
      ((x = none ∧ c.wrong v = true ∧ c.undo s₁ = .ok (c.settle a s).remote) ∨
        ∃ y, x = some y ∧ c.wrong v = false ∧ c.reread s₁ = .ok y ∧
          (c.settle a s).remote = s₁) := by
  revert h
  rw [settle]
  rcases hw : a.write.result c.effect s with ⟨e | u, s₁⟩
  · intro h
    exact absurd h (by simp)
  · obtain ⟨-, heff⟩ := result_ok hw
    dsimp only
    rw [checked]
    cases hv : a.verify.reply c.verify s₁ with
    | error e =>
      intro h
      exact absurd h (by simp)
    | ok v' =>
      have hver := reply_ok hv
      dsimp only
      cases hb : c.wrong v' with
      | true =>
        simp only [if_true]
        rcases hr : a.restore.result c.undo s₁ with ⟨e | u, s'⟩
        · intro h
          exact absurd h (by simp)
        · intro h
          obtain ⟨rfl, rfl⟩ : v' = v ∧ none = x := by simpa using h
          -- the write is undone, and there is nothing to reread
          exact ⟨s₁, heff, hver, .inl ⟨rfl, hb, (result_ok hr).2⟩⟩
      | false =>
        simp only [Bool.false_eq_true, if_false]
        cases hx : a.reread.reply c.reread s₁ with
        | error e =>
          intro h
          exact absurd h (by simp)
        | ok y =>
          intro h
          obtain ⟨rfl, rfl⟩ : v' = v ∧ some y = x := by simpa using h
          exact ⟨s₁, heff, hver, .inr ⟨y, rfl, hb, reply_ok hx, rfl⟩⟩

/-- The calls after the write tell the truth exactly when they leave nothing
stranded. -/
theorem Compensation.told_checked_iff (c : Compensation S R V A) (a : Calls R U) {s s₁ : S}
    (heff : c.effect s = .ok s₁) :
    c.Told s (c.checked a s₁) ↔ ¬ c.StrandedAfter a s s₁ := by
  rw [checked, StrandedAfter]
  cases hv : a.verify.reply c.verify s₁ with
  | error e =>
    cases e with
    | definite r => simp [Told]
    | unknown u => simp [Told]
  | ok v =>
    dsimp only
    cases hb : c.wrong v with
    | true =>
      simp only [if_pos]
      rcases hr : a.restore.result c.undo s₁ with ⟨e | u, s'⟩
      · cases e with
        | definite r =>
          have hnl := result_not_lost hr (by simp)
          simp [Told, hnl]
        | unknown u =>
          obtain ⟨b, hres⟩ := result_lost hr
          simp [Told, hres]
      · have hnl := result_not_lost hr (by simp)
        simp [Told, hb, hnl]
    | false =>
      simp only [Bool.false_eq_true, if_false]
      cases hx : a.reread.reply c.reread s₁ with
      | error e =>
        cases e with
        | definite r => simp [Told]
        | unknown u => simp [Told]
      | ok x => simp [Told, hb, heff, reply_ok hv]

/-- **The guarded write tells the truth exactly when it is not stranded.** -/
theorem Compensation.told_iff (c : Compensation S R V A) (a : Calls R U) (s : S) :
    c.Told s (c.settle a s) ↔ ¬ c.Stranded a s := by
  rw [settle]
  rcases hw : a.write.result c.effect s with ⟨e | u, s₁⟩
  · -- the write did not return, so it was refused or its answer was lost
    refine iff_of_true ?_ ?_
    · rw [Told]
      cases e with
      | definite r => exact result_definite hw
      | unknown u => trivial
    · rintro ⟨s₂, hok, heff, -⟩
      rw [hok] at hw
      simp [Answer.result, heff] at hw
  · obtain ⟨hok, heff⟩ := result_ok hw
    rw [c.told_checked_iff a heff, Stranded]
    simp [hok, heff]

end PaCopilot.Remote

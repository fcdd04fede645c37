/-
Pre- and postconditions of a program's own state.

A program over a remote system ends in one of two ways, and what it noted of
itself on the way survives both. So a triple has two postconditions: one for a
return and one for an exception. The remote system does not occur in it; what a
call did there is the business of `Compensation.lean`.

There is one rule for each primitive of `Remote.lean`, one for each way of putting
programs together, and one for the guarded write.
-/
import PaCopilot.Lib.Compensation

set_option autoImplicit false

namespace PaCopilot.Remote

variable {L S R U α β : Type}

/-- From a state of its own with `P`, the program leaves one with `Q` when it
returns, and one with `E` when it raises. -/
def Triple (P : L → Prop) (m : Program L S R U α) (Q : α → L → Prop)
    (E : Failure R U → L → Prop) : Prop :=
  ∀ w, P w.mine →
    match exec m w with
    | (.ok x, w') => Q x w'.mine
    | (.error e, w') => E e w'.mine

/-- A program that keeps an assertion, however it ends. -/
def Keeps (P : L → Prop) (m : Program L S R U α) : Prop :=
  Triple P m (fun _ => P) fun _ => P

variable {P P' : L → Prop} {Q Q' : α → L → Prop} {E E' : Failure R U → L → Prop}

/-! ## Reading a triple -/

theorem Triple.raised {m : Program L S R U α} {w w' : World L S} {e : Failure R U}
    (h : Triple P m Q E) (hw : P w.mine) (hrun : exec m w = (.error e, w')) : E e w'.mine := by
  have hend := h w hw
  rw [hrun] at hend
  exact hend

theorem Triple.returned {m : Program L S R U α} {w w' : World L S} {x : α}
    (h : Triple P m Q E) (hw : P w.mine) (hrun : exec m w = (.ok x, w')) : Q x w'.mine := by
  have hend := h w hw
  rw [hrun] at hend
  exact hend

/-- The rule of consequence. -/
theorem Triple.weaken {m : Program L S R U α} (h : Triple P m Q E) (hP : ∀ l, P' l → P l)
    (hQ : ∀ x l, Q x l → Q' x l) (hE : ∀ e l, E e l → E' e l) : Triple P' m Q' E' := by
  intro w hw
  have hend := h w (hP _ hw)
  rcases hrun : exec m w with ⟨e | x, w'⟩
  · rw [hrun] at hend
    exact hE _ _ hend
  · rw [hrun] at hend
    exact hQ _ _ hend

/-! ## The rules -/

theorem Triple.pure {x : α} (h : ∀ l, P l → Q x l) :
    Triple P (pure x : Program L S R U α) Q E :=
  fun w hw => h w.mine hw

theorem Triple.throw {e : Failure R U} (h : ∀ l, P l → E e l) :
    Triple P (throw e : Program L S R U α) Q E :=
  fun w hw => h w.mine hw

theorem Triple.bind {m : Program L S R U α} {f : α → Program L S R U β} {Q' : β → L → Prop}
    (hm : Triple P m Q E) (hf : ∀ x, Triple (Q x) (f x) Q' E) : Triple P (m >>= f) Q' E := by
  intro w hw
  have hend := hm w hw
  rw [exec_bind]
  rcases hrun : exec m w with ⟨e | x, w'⟩
  · rw [hrun] at hend
    exact hend
  · rw [hrun] at hend
    exact hf x w' hend

theorem Triple.tryCatch {m : Program L S R U α} {f : Failure R U → Program L S R U α}
    (hm : Triple P m Q E) (hf : ∀ e, Triple (E e) (f e) Q E') : Triple P (tryCatch m f) Q E' := by
  intro w hw
  have hend := hm w hw
  rw [exec_tryCatch]
  rcases hrun : exec m w with ⟨e | x, w'⟩
  · rw [hrun] at hend
    exact hf e w' hend
  · rw [hrun] at hend
    exact hend

theorem Triple.note {f : L → L} {Q : Unit → L → Prop} (h : ∀ l, P l → Q () (f l)) :
    Triple P (note f : Program L S R U Unit) Q E :=
  fun w hw => h w.mine hw

theorem Triple.own : Triple P (own : Program L S R U L) (fun x l => x = l ∧ P l) E :=
  fun _ hw => ⟨rfl, hw⟩

/-! ## Calls

A call changes nothing of the program's own state, so it keeps every assertion. -/

theorem Keeps.of_mine {m : Program L S R U α} (h : ∀ w, (exec m w).2.mine = w.mine) :
    Keeps P m := by
  intro w hw
  rw [← h w] at hw
  rcases hrun : exec m w with ⟨e | x, w'⟩
  · rw [hrun] at hw
    exact hw
  · rw [hrun] at hw
    exact hw

theorem Keeps.look (f : S → Except (Failure R U) α) :
    Keeps P (look f : Program L S R U α) :=
  Keeps.of_mine fun w => by rw [exec_look]

theorem Keeps.ask (a : Answer R U) (reply : S → Except R α) :
    Keeps P (ask a reply : Program L S R U α) :=
  Keeps.of_mine fun w => by rw [exec_ask]

theorem Keeps.send (a : Answer R U) (effect : S → Except R S) :
    Keeps P (send a effect : Program L S R U Unit) :=
  Keeps.of_mine fun w => by rw [exec_send]

theorem Keeps.perform (a : Answer R U) (effect : S → Except R (α × S)) :
    Keeps P (perform a effect : Program L S R U α) := by
  refine Keeps.of_mine fun w => ?_
  cases a with
  | ok =>
    simp only [Remote.perform]
    show (exec (get >>= fun w' => _) w).2.mine = w.mine
    have hget : exec (get : Program L S R U (World L S)) w = (.ok w, w) := rfl
    rw [exec_bind, hget]
    dsimp only
    rcases heffect : effect w.remote with r | ⟨x, s'⟩ <;> rfl
  | refused r => rfl
  | unknown applied u => cases applied <;> rfl

/-! ## Keeping an assertion -/

theorem Keeps.pure (x : α) : Keeps P (pure x : Program L S R U α) :=
  Triple.pure fun _ => id

theorem Keeps.throw (e : Failure R U) : Keeps P (throw e : Program L S R U α) :=
  Triple.throw fun _ => id

theorem Keeps.note {f : L → L} (h : ∀ l, P l → P (f l)) :
    Keeps P (note f : Program L S R U Unit) :=
  Triple.note h

theorem Keeps.bind {m : Program L S R U α} {f : α → Program L S R U β} (hm : Keeps P m)
    (hf : ∀ x, Keeps P (f x)) : Keeps P (m >>= f) :=
  Triple.bind hm hf

theorem Keeps.tryCatch {m : Program L S R U α} {f : Failure R U → Program L S R U α}
    (hm : Keeps P m) (hf : ∀ e, Keeps P (f e)) : Keeps P (tryCatch m f) :=
  Triple.tryCatch hm hf

/-- A guarded write keeps what noting its verdict keeps. -/
theorem Compensation.run_keeps {V A : Type} (c : Compensation S R V A) (a : Calls R U)
    {seen : V → L → L} (h : ∀ v l, P l → P (seen v l)) : Keeps P (c.run a seen) := by
  refine Keeps.bind (Keeps.send _ _) fun _ => ?_
  refine Keeps.bind (Keeps.tryCatch (Keeps.ask _ _) fun e => ?_) fun v => ?_
  · exact Keeps.bind (Keeps.tryCatch (Keeps.send _ _) fun _ => Keeps.pure _) fun _ => Keeps.throw _
  refine Keeps.bind (Keeps.note (h v)) fun _ => ?_
  by_cases hwrong : c.wrong v = true
  · rw [if_pos hwrong]
    exact Keeps.bind (Keeps.send _ _) fun _ => Keeps.pure _
  · rw [if_neg hwrong]
    exact Keeps.bind (Keeps.ask _ _) fun _ => Keeps.pure _

end PaCopilot.Remote

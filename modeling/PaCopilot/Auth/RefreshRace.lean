/-
Calls of `refresh` that present one token, next to each other.

A call is a sequence of statements. It reads the user, asks whether the token was spent, and
records that it is. `revoke`, which records it, asks once more before it inserts, and returns
without a word when the row is there. By then the call has passed the question that refuses
it, so it goes on to return a pair. The unique index stops the calls that both reached the
insertion, and only those.
-/
import PaCopilot.Auth.Revocation
import Mathlib.Logic.Function.Basic

set_option autoImplicit false

namespace PaCopilot.auth_service.race

open Run
open reports (Time seconds)

variable {Id : Type} [DecidableEq Id]

/-! ## Statements -/

/-- How far a call has come. -/
inductive Stage
  /-- It has the token, and nothing of the database. -/
  | presented
  /-- It has read the user, who may sign in. -/
  | checked (user : User)
  /-- The token was spent: what is left is to end the sessions, and to raise. -/
  | replayed (user : User)
  /-- The token was not spent, and is later than the cutoff of the user it read. -/
  | unspent (user : User)
  /-- `revoke` found no row. -/
  | inserting (user : User)
  /-- The row is inserted and the pair returned; the commit is to come. -/
  | inserted (user : User)
  /-- `revoke` found a row, and the pair is returned. -/
  | silent
  /-- The pair was returned and the transaction committed. -/
  | committed
  | raised
  deriving DecidableEq

/-- The call has returned a pair. -/
def Stage.returned : Stage → Bool
  | .inserted _ | .silent | .committed => true
  | _ => false

/-- What is committed, the calls, and the one whose inserted row is not committed yet. -/
structure Sessions (Id : Type) where
  db : State
  calls : Id → Stage := fun _ => .presented
  pending : Option Id := none

/-- The next statement of a call, or time passes. -/
inductive Event (Id : Type)
  | next (call : Id)
  | wait (duration : Time)
  deriving DecidableEq

section Step

variable (token : Payload) (jti : ℕ) (σ : Sessions Id)

/-- The call goes on to a stage. -/
def Sessions.to (σ : Sessions Id) (i : Id) (stage : Stage) : Sessions Id :=
  { σ with calls := Function.update σ.calls i stage }

/-- One statement, if it can be taken: an insertion waits for the transaction that has
inserted the same `jti`. The token is one that carries the `jti`. -/
def step : Event Id → Option (Sessions Id)
  | .wait duration => some { σ with db := after σ.db duration }
  | .next i =>
    match σ.calls i with
    | .presented =>
      match refreshing σ.db σ.db.now token with
      | .error _ => some (σ.to i .raised)
      | .ok user => some (σ.to i (.checked user))
    | .checked user =>
      if is_revoked σ.db token then some (σ.to i (.replayed user))
      else if issued_before_cutoff token user.tokens_valid_from then some (σ.to i .raised)
      else some (σ.to i (.unspent user))
    | .replayed user =>
      -- the update and the commit that follows it
      some { σ.to i .raised with db := revoke_all_for_user σ.db user.id }
    | .unspent user =>
      if revoked_exists σ.db jti then some (σ.to i .silent) else some (σ.to i (.inserting user))
    | .inserting user =>
      if σ.pending.isSome then none
      else if revoked_exists σ.db jti then some (σ.to i .raised)
      else some { σ.to i (.inserted user) with pending := some i }
    | .inserted user =>
      some { σ.to i .committed with
        db := revoke σ.db (some jti) user.id (expiry_of token) "rotated"
        pending := none }
    | .silent => some (σ.to i .committed)
    | .committed => none
    | .raised => none

end Step

/-! ## What is asked -/

/-- No two calls have returned a pair. -/
def OnePair (σ : Sessions Id) : Prop :=
  ∀ i j, (σ.calls i).returned = true → (σ.calls j).returned = true → i = j

/-- No call that asks a second time, in `revoke`, finds the row. -/
def secondFindsNothing (jti : ℕ) (σ : Sessions Id) : Event Id → Bool
  | .next i =>
    match σ.calls i with
    | .unspent _ => !revoked_exists σ.db jti
    | _ => true
  | .wait _ => true

/-! ## What a statement does -/

/-- The call has passed the question that refuses a spent token. -/
def Stage.past : Stage → Bool
  | .unspent _ | .inserting _ | .inserted _ | .silent | .committed => true
  | _ => false

/-- What the next statement of a call does. -/
inductive Next (jti : ℕ) (σ : Sessions Id) (i : Id) : Sessions Id → Prop
  | goes (stage : Stage) (before : (σ.calls i).returned = false) (no_pair : stage.returned = false)
      (fresh : stage.past = true → revoked_exists σ.db jti = false) : Next jti σ i (σ.to i stage)
  | replays (user : User) (at_ : σ.calls i = .replayed user) :
      Next jti σ i { σ.to i .raised with db := revoke_all_for_user σ.db user.id }
  | silent (user : User) (at_ : σ.calls i = .unspent user)
      (found : revoked_exists σ.db jti = true) : Next jti σ i (σ.to i .silent)
  | inserts (user : User) (at_ : σ.calls i = .inserting user) (free : σ.pending = none)
      (fresh : revoked_exists σ.db jti = false) :
      Next jti σ i { σ.to i (.inserted user) with pending := some i }
  | commits (user : User) (expires_at : Time) (at_ : σ.calls i = .inserted user) :
      Next jti σ i { σ.to i .committed with
        db := revoke σ.db (some jti) user.id expires_at "rotated", pending := none }
  | ends (at_ : σ.calls i = .silent) : Next jti σ i (σ.to i .committed)

variable {token : Payload} {jti : ℕ} {σ σ' : Sessions Id} {e : Event Id} {i : Id}

theorem step_next (hjti : token.jti = some jti) (h : step token jti σ (.next i) = some σ') :
    Next jti σ i σ' := by
  have hrevoked : is_revoked σ.db token = revoked_exists σ.db jti := by rw [is_revoked, hjti]
  unfold step at h
  dsimp only at h
  -- one case for each statement that a call may be at
  rcases hat : σ.calls i with _ | user | user | user | user | user | _ | _ | _
  · rw [hat] at h
    dsimp only at h
    split at h
    · cases h
      exact .goes _ (by rw [hat]; rfl) rfl (by simp [Stage.past])
    · cases h
      exact .goes _ (by rw [hat]; rfl) rfl (by simp [Stage.past])
  · rw [hat] at h
    dsimp only at h
    rw [hrevoked] at h
    split at h
    · cases h
      exact .goes _ (by rw [hat]; rfl) rfl (by simp [Stage.past])
    · rename_i hfresh
      split at h
      · cases h
        exact .goes _ (by rw [hat]; rfl) rfl (by simp [Stage.past])
      · cases h
        exact .goes _ (by rw [hat]; rfl) rfl fun _ => eq_false_of_ne_true hfresh
  · rw [hat] at h
    cases h
    exact .replays user hat
  · rw [hat] at h
    dsimp only at h
    split at h
    · rename_i hfound
      cases h
      -- `revoke` asks again, and finds the row that another call has inserted
      exact .silent user hat hfound
    · rename_i hfresh
      cases h
      exact .goes _ (by rw [hat]; rfl) rfl fun _ => eq_false_of_ne_true hfresh
  · rw [hat] at h
    dsimp only at h
    split at h
    · cases h
    · rename_i hfree
      split at h
      · cases h
        exact .goes _ (by rw [hat]; rfl) rfl (by simp [Stage.past])
      · rename_i hfresh
        cases h
        -- nobody else has an insertion open: this one waits for no one
        exact .inserts user hat (Option.not_isSome_iff_eq_none.mp hfree)
          (eq_false_of_ne_true hfresh)
  · rw [hat] at h
    cases h
    exact .commits user (expiry_of token) hat
  · rw [hat] at h
    cases h
    exact .ends hat
  · rw [hat] at h
    cases h
  · rw [hat] at h
    cases h

@[simp] theorem to_self (σ : Sessions Id) (i : Id) (stage : Stage) : (σ.to i stage).calls i = stage :=
  Function.update_self ..

theorem to_of_ne (σ : Sessions Id) {i j : Id} (stage : Stage) (h : j ≠ i) :
    (σ.to i stage).calls j = σ.calls j :=
  Function.update_of_ne h ..

/-! ## Two pairs -/

/-- A row that is found was committed by a call that returned, or nobody has passed the
first question. -/
def Accounted (jti : ℕ) (σ : Sessions Id) : Prop :=
  revoked_exists σ.db jti = true →
    (∃ j, σ.calls j = .committed) ∨ ∀ i, (σ.calls i).past = false

/-- What was committed stays so. -/
theorem committed_to {j : Id} {stage : Stage} (hj : σ.calls j = .committed)
    (hi : σ.calls i ≠ .committed) : (σ.to i stage).calls j = .committed := by
  have hne : j ≠ i := fun hji => hi (hji ▸ hj)
  rw [to_of_ne σ stage hne]
  exact hj

theorem accounted_to {stage : Stage} {db : State} (hσ : Accounted jti σ)
    (hdb : revoked_exists db jti = true → revoked_exists σ.db jti = true)
    (hi : σ.calls i ≠ .committed)
    (hfresh : stage.past = true → revoked_exists σ.db jti = false) :
    Accounted jti { σ.to i stage with db := db } := by
  intro hfound
  have hfound' := hdb hfound
  rcases hσ hfound' with ⟨j, hj⟩ | hnone
  · exact .inl ⟨j, committed_to hj hi⟩
  · refine .inr fun j => ?_
    dsimp only
    by_cases hji : j = i
    · rw [hji, to_self]
      refine eq_false_of_ne_true fun hpast => ?_
      rw [hfresh hpast] at hfound'
      cases hfound'
    · rw [to_of_ne σ stage hji]
      exact hnone j

theorem Accounted.next (hσ : Accounted jti σ) (h : Next jti σ i σ') : Accounted jti σ' := by
  cases h with
  | goes stage before no_pair fresh =>
    exact accounted_to hσ id (by rintro heq; rw [heq] at before; cases before) fresh
  | replays user at_ =>
    refine accounted_to hσ (fun hfound => ?_) (by rw [at_]; simp) (by simp [Stage.past])
    rw [revoke_all_rest] at hfound
    exact hfound
  | silent user at_ found =>
    intro _
    rcases hσ found with ⟨j, hj⟩ | hnone
    · exact .inl ⟨j, committed_to hj (by rw [at_]; simp)⟩
    · exact absurd (hnone i) (by rw [at_]; simp [Stage.past])
  | inserts user at_ free fresh =>
    intro hfound
    rw [show revoked_exists σ.db jti = true from hfound] at fresh
    cases fresh
  | commits user expires_at at_ => exact fun _ => .inl ⟨i, to_self ..⟩
  | ends at_ => exact fun _ => .inl ⟨i, to_self ..⟩

/-- A second question that finds the row ends in a second pair. -/
theorem secondFindsNothing_of_onePair (hσ : Accounted jti σ)
    (h : ∀ σ', step token jti σ e = some σ' → OnePair σ') : secondFindsNothing jti σ e = true := by
  cases e with
  | wait duration => rfl
  | next i =>
    rcases hat : σ.calls i with _ | _ | _ | user | _ | _ | _ | _ | _
    case unspent =>
      rw [secondFindsNothing, hat]
      rw [Bool.not_eq_true']
      refine eq_false_of_ne_true fun hfound => ?_
      have hstep : step token jti σ (.next i) = some (σ.to i .silent) := by
        rw [step, hat]
        exact if_pos hfound
      rcases hσ hfound with ⟨j, hj⟩ | hnone
      · have hne : j ≠ i := by
          rintro rfl
          rw [hat] at hj
          cases hj
        refine hne (h _ hstep j i ?_ ?_)
        · rw [to_of_ne σ _ hne, hj]
          rfl
        · rw [to_self]
          rfl
      · exact absurd (hnone i) (by rw [hat]; simp [Stage.past])
    all_goals rw [secondFindsNothing, hat]

/-! ## One pair -/

/-- A pair goes with the one row: inserted by the call that is pending, or committed. -/
structure RowHeld (jti : ℕ) (σ : Sessions Id) : Prop where
  inserted : ∀ i user, σ.calls i = .inserted user → σ.pending = some i
  spoken : ∀ i, σ.calls i ≠ .silent
  committed : ∀ i, σ.calls i = .committed → revoked_exists σ.db jti = true
  pending : ∀ i, σ.pending = some i → revoked_exists σ.db jti = false
  one : ∀ i j, σ.calls i = .committed → σ.calls j = .committed → i = j

omit [DecidableEq Id] in
theorem RowHeld.onePair (h : RowHeld jti σ) : OnePair σ := by
  -- an inserted row is not committed yet, so its call and one that committed do not meet
  have hapart : ∀ i j user, σ.calls i = .inserted user → σ.calls j ≠ .committed := by
    intro i j user hi hj
    have hstored := h.committed j hj
    rw [h.pending i (h.inserted i user hi)] at hstored
    cases hstored
  have hreturned : ∀ i, (σ.calls i).returned = true →
      (∃ user, σ.calls i = .inserted user) ∨ σ.calls i = .committed := by
    intro i hi
    have hspoken := h.spoken i
    rcases hat : σ.calls i with _ | _ | _ | _ | _ | user | _ | _ | _
    case inserted => exact .inl ⟨user, rfl⟩
    case committed => exact .inr rfl
    case silent => exact absurd hat hspoken
    all_goals
      rw [hat] at hi
      cases hi
  intro i j hi hj
  rcases hreturned i hi with ⟨user, hi⟩ | hi
  · rcases hreturned j hj with ⟨user', hj⟩ | hj
    · have hsame := (h.inserted i user hi).symm.trans (h.inserted j user' hj)
      exact Option.some.inj hsame
    · exact absurd hj (hapart i j user hi)
  · rcases hreturned j hj with ⟨user', hj⟩ | hj
    · exact absurd hi (hapart j i user' hj)
    · exact h.one i j hi hj

/-- A call moves on, and neither the row nor who holds it is affected. -/
theorem RowHeld.to {stage : Stage} {db : State} (h : RowHeld jti σ)
    (hdb : revoked_exists db jti = revoked_exists σ.db jti) (hstage : stage.returned = false) :
    RowHeld jti { σ.to i stage with db := db } := by
  have hother : ∀ j, (σ.to i stage).calls j = σ.calls j ∨ (σ.to i stage).calls j = stage := by
    intro j
    by_cases hji : j = i
    · rw [hji, to_self]
      exact .inr rfl
    · exact .inl (to_of_ne σ stage hji)
  have hkept : ∀ j, ((σ.to i stage).calls j).returned = true →
      (σ.to i stage).calls j = σ.calls j := by
    intro j hj
    rcases hother j with hsame | hnew
    · exact hsame
    · rw [hnew, hstage] at hj
      cases hj
  refine ⟨fun j user hj => ?_, fun j hj => ?_, fun j hj => ?_, fun j hj => ?_, fun j k hj hk => ?_⟩
  · rw [hkept j (by rw [hj]; rfl)] at hj
    exact h.inserted j user hj
  · rw [hkept j (by rw [hj]; rfl)] at hj
    exact h.spoken j hj
  · rw [hkept j (by rw [hj]; rfl)] at hj
    exact hdb.trans (h.committed j hj)
  · exact hdb.trans (h.pending j hj)
  · rw [hkept j (by rw [hj]; rfl)] at hj
    rw [hkept k (by rw [hk]; rfl)] at hk
    exact h.one j k hj hk

theorem RowHeld.inserts {user : User} (h : RowHeld jti σ) (hfree : σ.pending = none)
    (hfresh : revoked_exists σ.db jti = false) :
    RowHeld jti { σ.to i (.inserted user) with pending := some i } := by
  have hkept : ∀ j, j ≠ i → (σ.to i (.inserted user)).calls j = σ.calls j := fun j hji =>
    to_of_ne σ _ hji
  have hnone : ∀ j, (σ.to i (.inserted user)).calls j ≠ .committed := by
    intro j hj
    by_cases hji : j = i
    · rw [hji, to_self] at hj
      cases hj
    · rw [hkept j hji] at hj
      rw [h.committed j hj] at hfresh
      cases hfresh
  refine ⟨fun j user' hj => ?_, fun j hj => ?_, fun j hj => absurd hj (hnone j),
    fun _ _ => hfresh, fun j _ hj _ => absurd hj (hnone j)⟩
  · by_cases hji : j = i
    · rw [hji]
    · dsimp only at hj
      rw [hkept j hji] at hj
      rw [h.inserted j user' hj] at hfree
      cases hfree
  · by_cases hji : j = i
    · dsimp only at hj
      rw [hji, to_self] at hj
      cases hj
    · dsimp only at hj
      rw [hkept j hji] at hj
      exact h.spoken j hj

theorem RowHeld.commits {user : User} {db : State} (h : RowHeld jti σ)
    (hat : σ.calls i = .inserted user) (hdb : revoked_exists db jti = true) :
    RowHeld jti { σ.to i .committed with db := db, pending := none } := by
  have hpending := h.inserted i user hat
  have hkept : ∀ j, j ≠ i → (σ.to i .committed).calls j = σ.calls j := fun j hji =>
    to_of_ne σ _ hji
  have hself : ∀ j, (σ.to i .committed).calls j = .committed → j = i := by
    intro j hj
    by_contra hji
    rw [hkept j hji] at hj
    have hstored := h.committed j hj
    rw [h.pending i hpending] at hstored
    cases hstored
  refine ⟨fun j user' hj => ?_, fun j hj => ?_, fun _ _ => hdb, fun j hj => ?_,
    fun j k hj hk => (hself j hj).trans (hself k hk).symm⟩
  · dsimp only at hj
    by_cases hji : j = i
    · rw [hji, to_self] at hj
      cases hj
    · rw [hkept j hji] at hj
      exact absurd (Option.some.inj ((h.inserted j user' hj).symm.trans hpending)) hji
  · dsimp only at hj
    by_cases hji : j = i
    · rw [hji, to_self] at hj
      cases hj
    · rw [hkept j hji] at hj
      exact h.spoken j hj
  · cases hj

theorem RowHeld.next (h : RowHeld jti σ) (hnext : Next jti σ i σ')
    (hsecond : secondFindsNothing jti σ (.next i) = true) : RowHeld jti σ' := by
  cases hnext with
  | goes stage before no_pair fresh => exact h.to rfl no_pair
  | replays user at_ =>
    refine h.to ?_ rfl
    rw [revoke_all_rest]
    rfl
  | silent user at_ found =>
    rw [secondFindsNothing, at_] at hsecond
    rw [found] at hsecond
    cases hsecond
  | inserts user at_ free fresh => exact h.inserts free fresh
  | commits user expires_at at_ =>
    refine h.commits at_ ?_
    rw [revoked_exists_revoke]
    simp
  | ends at_ => exact absurd at_ (h.spoken i)

/-! ## Runs -/

/-- **A refresh token is single use** next to other calls with it, after every statement of
any run, exactly when no call asks its second question after another has committed. -/
theorem one_pair_iff (settings : Settings) (issued_at : Time) (jti subject : ℕ) (db : State)
    (es : List (Event Id)) :
    Along (step (create_refresh_token settings issued_at jti subject) jti)
        (fun σ e => ∀ σ', step (create_refresh_token settings issued_at jti subject) jti σ e = some σ' →
          OnePair σ') { db := db } es ↔
      Along (step (create_refresh_token settings issued_at jti subject) jti)
        (fun σ e => secondFindsNothing jti σ e = true) { db := db } es := by
  have hjti : (create_refresh_token settings issued_at jti subject).jti = some jti := rfl
  constructor
  · refine along_of_invariant (I := Accounted jti) ?_ ?_ ?_
    · intro σ e σ' hσ _ hstep
      cases e with
      | wait duration =>
        rw [← Option.some.inj hstep]
        exact hσ
      | next i => exact hσ.next (step_next hjti hstep)
    · exact fun σ e hσ hone => secondFindsNothing_of_onePair hσ hone
    · exact fun _ => .inr fun _ => rfl
  · have hkeeps : ∀ (σ : Sessions Id) (e : Event Id) (σ' : Sessions Id), RowHeld jti σ →
        secondFindsNothing jti σ e = true →
        step (create_refresh_token settings issued_at jti subject) jti σ e = some σ' →
        RowHeld jti σ' := by
      intro σ e σ' hσ hsecond hstep
      cases e with
      | wait duration =>
        rw [← Option.some.inj hstep]
        exact ⟨hσ.inserted, hσ.spoken, hσ.committed, hσ.pending, hσ.one⟩
      | next i => exact hσ.next (step_next hjti hstep) hsecond
    refine along_of_invariant (I := RowHeld jti) hkeeps
      (fun σ e hσ hsecond σ' hstep => (hkeeps σ e σ' hσ hsecond hstep).onePair) ?_
    exact ⟨by simp, by simp, by simp, by simp, by simp⟩

/-- The first call commits between the two questions of the second. -/
def between : List (Event (Fin 2)) :=
  [.next 0, .next 0, .next 0, .next 0, .next 1, .next 1, .next 0, .next 1]

/-- A token that its owner holds. -/
def held : State := { alone with issued := [aliceRefresh (seconds 50) 1] }

theorem two_pairs : ∃ σ, run (step (aliceRefresh (seconds 50) 1) 1) { db := held } between = some σ ∧
    ¬ OnePair σ := by
  refine ⟨_, rfl, fun hone => ?_⟩
  exact absurd (hone 0 1 (by decide +kernel) (by decide +kernel)) (by decide)

end PaCopilot.auth_service.race

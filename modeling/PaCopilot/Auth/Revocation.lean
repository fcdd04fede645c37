/-
What a token is worth over a run of requests.

A request is a sequence of writes, of few kinds ([`Write`]), so what a write preserves a run
preserves. The table of revoked tokens then says of every token that was issued whether it
was spent or logged out, and the cutoff of a user only moves forward. The one operation that
returns a pair after moving the cutoff waits until the second of the cutoff is over.
-/
import PaCopilot.Auth.Sessions
import Mathlib.Logic.Relation
import Mathlib.Order.Nat

set_option autoImplicit false

namespace PaCopilot.auth_service

open Run
open reports (Time seconds)
open Relation (ReflTransGen)

variable {settings : Settings} {s s' s'' : State} {e : Event} {token : Payload} {user : User}

/-! ## What is asked -/

/-- The account passes the checks of every path that issues tokens. -/
structure MaySignIn (now : Time) (user : User) : Prop where
  approved : user.registration_status = .approved
  active : user.is_active = true
  inTime : temporaryPasswordOver now user = false

/-- A request that does not go with a temporary password comes from somebody without one. -/
def MayAsk (may_run_with_temporary_password : Bool) (user : User) : Prop :=
  user.must_change_password = true → may_run_with_temporary_password = true

/-- The token is taken: an access token by the dependency, a refresh token by `refresh`. -/
def accepted (settings : Settings) (s : State) (pace : Pace)
    (may_run_with_temporary_password : Bool) (token : Payload) : Bool :=
  match token.type with
  | .access => (get_current_active_user s may_run_with_temporary_password token).toOption.isSome
  | .refresh =>
    match (refresh settings s pace token).2 with
    | .ok (some _) => true
    | _ => false

/-- The token was issued in a second later than that of the cutoff. -/
def IssuedAfter (cutoff : Time) (token : Payload) : Prop :=
  ∃ issued, token.iat = some issued ∧ cutoff / seconds 1 < issued

/-- A token that is not over is taken exactly when it was not spent or logged out and was
issued in a later second than that of the cutoff of its user, who may sign in. -/
def AcceptsUnrevoked (settings : Settings) (s : State) : Prop :=
  ∀ token ∈ s.issued, expired s token = false → ∀ user, get_by_id s token.sub = some user →
    ∀ pace may, MaySignIn (s.now + pace.check) user → MayAsk may user →
      (accepted settings s pace may token = true ↔
        token ∉ s.ended ∧ IssuedAfter user.tokens_valid_from token)

/-- Presenting a refresh token that was spent or logged out, and is not over, fails, and no
token that its user was issued up to then is taken at any time after. -/
def ReplayEndsSessions (settings : Settings) (s : State) : Prop :=
  ∀ token ∈ s.ended, expired s token = false → ∀ user, get_by_id s token.sub = some user →
    ∀ pace, MaySignIn (s.now + pace.check) user →
      ∃ s' error, refresh settings s pace token = (s', .error error) ∧
        ∀ es s'', run (step settings) s' es = some s'' →
          ∀ other ∈ s.issued, other.sub = user.id → ∀ pace may,
            accepted settings s'' pace may other = false

/-- Nothing between the states revoked the token. -/
def Unrevoked (s s' : State) (token : Payload) : Prop :=
  (get_by_id s' token.sub).map User.tokens_valid_from =
      (get_by_id s token.sub).map User.tokens_valid_from ∧
    token ∉ s'.ended

/-- The pair that a change of the password returns is taken until it is over or revoked. -/
def ChangeReturnsSession (settings : Settings) (s : State) : Prop :=
  ∀ pace user_id current_password new_password s' tokens,
    change_password settings s pace user_id current_password new_password
        = (s', .ok (some tokens)) →
      ∀ es s'', run (step settings) s' es = some s'' →
        ∀ token ∈ [tokens.access_token, tokens.refresh_token], expired s'' token = false →
          Unrevoked s' s'' token → ∀ user, get_by_id s'' token.sub = some user →
            ∀ pace may, MaySignIn (s''.now + pace.check) user → MayAsk may user →
              accepted settings s'' pace may token = true

/-- Nothing was issued yet, and no cutoff is ahead of the clock. -/
structure Start (s : State) : Prop where
  issued : s.issued = []
  ended : s.ended = []
  revoked : s.revoked_tokens = []
  cutoffs : ∀ user ∈ s.users, user.tokens_valid_from ≤ s.now

/-! ## Rows -/

theorem get_by_id_some {user_id : ℕ} (h : get_by_id s user_id = some user) :
    user ∈ s.users ∧ user.id = user_id := by
  rw [get_by_id] at h
  have hid := List.find?_some h
  rw [decide_eq_true_eq] at hid
  exact ⟨List.mem_of_find?_eq_some h, hid⟩

theorem get_by_id_update (s : State) (user : User) (user_id : ℕ) :
    get_by_id (update s user) user_id =
      if user_id = user.id then (get_by_id s user_id).map fun _ => user
      else get_by_id s user_id := by
  simp only [get_by_id, update]
  induction s.users with
  | nil => simp
  | cons row rows ih =>
    rw [List.map_cons, List.find?_cons, List.find?_cons, ih]
    by_cases hrow : row.id = user_id
    · by_cases hid : user_id = user.id
      · simp [hrow, hid]
      · simp [hrow, hid]
    · by_cases hwritten : row.id = user.id
      · have hid : user_id ≠ user.id := fun hid => hrow (hwritten.trans hid.symm)
        have hid' : user.id ≠ user_id := fun h => hid h.symm
        simp [hwritten, hid, hid']
      · simp [hrow, hwritten]

theorem mem_update {row : User} (h : row ∈ (update s user).users) :
    row ∈ s.users ∨ row = user := by
  obtain ⟨old, hold, rfl⟩ := List.mem_map.mp h
  by_cases hid : old.id = user.id
  · rw [if_pos hid]
    exact .inr rfl
  · rw [if_neg hid]
    exact .inl hold

/-- A person is cut off, and nobody else. -/
theorem get_by_id_revoke_all (s : State) (user_id other : ℕ) :
    get_by_id (revoke_all_for_user s user_id) other =
      (get_by_id s other).map fun user =>
        if other = user_id then { user with tokens_valid_from := s.now } else user := by
  unfold revoke_all_for_user
  rcases hget : get_by_id s user_id with _ | user
  · by_cases hother : other = user_id
    · rw [hother, hget]
      rfl
    · simp [hother]
  · have hid := (get_by_id_some hget).2
    rw [get_by_id_update]
    dsimp only
    rw [hid]
    by_cases hother : other = user_id
    · rw [if_pos hother, hother, hget]
      simp [hid]
    · simp [hother]

theorem mem_revoke_all {row : User} {user_id : ℕ}
    (h : row ∈ (revoke_all_for_user s user_id).users) :
    row ∈ s.users ∨ row.tokens_valid_from = s.now := by
  unfold revoke_all_for_user at h
  rcases hget : get_by_id s user_id with _ | user
  · rw [hget] at h
    exact .inl h
  · rw [hget] at h
    rcases mem_update h with hold | rfl
    · exact .inl hold
    · exact .inr rfl

/-- Apart from `users` a revocation of everything leaves the state as it is. -/
theorem revoke_all_rest (s : State) (user_id : ℕ) :
    revoke_all_for_user s user_id = { s with users := (revoke_all_for_user s user_id).users } := by
  unfold revoke_all_for_user
  rcases get_by_id s user_id with _ | user
  · rfl
  · rfl

/-- An identifier is in the table afterwards when it was before or is the revoked one. -/
theorem revoked_exists_revoke (s : State) (revoked : Option ℕ) (user_id : ℕ) (expires_at : Time)
    (reason : String) (jti : ℕ) :
    revoked_exists (revoke s revoked user_id expires_at reason) jti =
      (revoked_exists s jti || decide (revoked = some jti)) := by
  cases revoked with
  | none => simp [revoke]
  | some new =>
    by_cases hexists : revoked_exists s new = true
    · rw [revoke, if_pos hexists]
      by_cases heq : new = jti
      · rw [← heq, hexists]
        rfl
      · simp [heq]
    · rw [revoke, if_neg hexists]
      simp [revoked_exists, List.any_append]

theorem is_revoked_retire (s : State) (token other : Payload) (user_id : ℕ) (reason : String) :
    is_revoked (retire s token user_id reason) other =
      (is_revoked s other || (other.jti.isSome && decide (token.jti = other.jti))) := by
  unfold is_revoked
  cases other.jti with
  | none => rfl
  | some jti => exact revoked_exists_revoke s token.jti user_id (expiry_of token) reason jti

/-! ## Writes -/

/-- One write of a request. -/
inductive Write (settings : Settings) (s : State) : State → Prop
  | after (duration : Time) : Write settings s (after s duration)
  | aside (draw : ℕ) (le : s.draw ≤ draw) (reset_tokens : List PasswordResetToken)
      (temporary : List (ℕ × String)) :
      Write settings s
        { s with draw := draw, reset_tokens := reset_tokens, temporary := temporary }
  | row (old new : User) (found : get_by_id s old.id = some old) (id : new.id = old.id)
      (username : new.username = old.username)
      (cutoff : new.tokens_valid_from = old.tokens_valid_from) : Write settings s (update s new)
  | cutoff (user_id : ℕ) : Write settings s (revoke_all_for_user s user_id)
  | retire (token : Payload) (issued : token ∈ s.issued) (type : token.type = .refresh)
      (user_id : ℕ) (reason : String) :
      Write settings s (retire s token user_id reason)
  | tokens (pace : Pace) (subject : ℕ) :
      Write settings s (create_tokens settings s pace subject).1

theorem decode_token_eq_some {payload : Payload} :
    decode_token s token = some payload ↔
      payload = token ∧ token ∈ s.issued ∧ expired s token = false := by
  unfold decode_token
  split
  · rename_i h
    exact ⟨fun heq => ⟨(Option.some.inj heq).symm, h⟩, fun ⟨heq, _⟩ => by rw [heq]⟩
  · rename_i h
    exact ⟨fun heq => absurd heq (by simp), fun ⟨_, hvalid⟩ => absurd hvalid h⟩

theorem _check_can_authenticate_eq_ok {u : Unit} :
    _check_can_authenticate user = .ok u ↔
      user.registration_status = .approved ∧ user.is_active = true := by
  unfold _check_can_authenticate
  rw [bind_eq_ok_iff]
  simp only [refuse_eq_ok_iff, bind_eq_ok_iff]
  rcases user.registration_status <;> simp

/-- The checks of an account that issues tokens. -/
theorem account_eq_ok {now : Time} {found : User} :
    (do
      _check_can_authenticate found
      _check_temporary_password now found
      return found : Except AppException User) = .ok user ↔ found = user ∧ MaySignIn now found := by
  rw [bind_eq_ok_iff]
  constructor
  · rintro ⟨_, hcan, h⟩
    obtain ⟨hover, h⟩ := passed_of_bind h
    obtain ⟨happroved, hactive⟩ := _check_can_authenticate_eq_ok.mp hcan
    exact ⟨Except.ok.inj h, happroved, hactive, eq_false_of_ne_true hover⟩
  · rintro ⟨rfl, hmay⟩
    refine ⟨(), _check_can_authenticate_eq_ok.mpr ⟨hmay.approved, hmay.active⟩, ?_⟩
    rw [_check_temporary_password, refuse_of_not _ (by rw [hmay.inTime]; simp)]
    rfl

/-- The user whose refresh token passes the first checks. -/
theorem refreshing_eq_ok {now : Time} :
    refreshing s now token = .ok user ↔
      token ∈ s.issued ∧ expired s token = false ∧ token.type = .refresh ∧
        get_by_id s token.sub = some user ∧ MaySignIn now user := by
  unfold refreshing
  constructor
  · intro h
    rcases hdecode : decode_token s token with _ | payload
    · rw [hdecode] at h
      cases h
    · obtain ⟨rfl, hissued, hlive⟩ := decode_token_eq_some.mp hdecode
      rw [hdecode] at h
      obtain ⟨htype, h⟩ := passed_of_bind h
      rcases hget : get_by_id s payload.sub with _ | found
      · rw [hget] at h
        cases h
      · rw [hget] at h
        obtain ⟨rfl, hmay⟩ := account_eq_ok.mp h
        exact ⟨hissued, hlive, Decidable.not_not.mp htype, rfl, hmay⟩
  · rintro ⟨hissued, hlive, htype, hget, hmay⟩
    rw [decode_token_eq_some.mpr ⟨rfl, hissued, hlive⟩]
    dsimp only
    rw [refuse_of_not _ (not_not_intro htype), hget]
    exact account_eq_ok.mpr ⟨rfl, hmay⟩

/-- A refresh that returns: it neither finds the token retired nor before the cutoff. -/
theorem accepted_refresh_iff {pace : Pace} {may : Bool} (htype : token.type = .refresh) :
    accepted settings s pace may token = true ↔
      ∃ user, refreshing s (s.now + pace.check) token = .ok user ∧ is_revoked s token = false ∧
        issued_before_cutoff token user.tokens_valid_from = false := by
  unfold accepted refresh
  rw [htype]
  rcases hrefreshing : refreshing s (s.now + pace.check) token with error | user
  · simp [rolledBack]
  · by_cases hrevoked : is_revoked s token = true
    · simp [hrevoked]
    · by_cases hcutoff : issued_before_cutoff token user.tokens_valid_from = true
      · simp [hrevoked, hcutoff, rolledBack]
      · simp [hrevoked, hcutoff]

theorem get_current_active_user_eq_ok {may : Bool} :
    get_current_active_user s may token = .ok user ↔
      token ∈ s.issued ∧ expired s token = false ∧ token.type = .access ∧
        is_revoked s token = false ∧ get_by_id s token.sub = some user ∧
        issued_before_cutoff token user.tokens_valid_from = false ∧
        user.registration_status = .approved ∧ MayAsk may user ∧ user.is_active = true := by
  unfold get_current_active_user get_current_user
  constructor
  -- each step of the two functions lets the request pass, in the order they are taken
  · intro h
    obtain ⟨found, hcurrent, h⟩ := bind_eq_ok_iff.mp h
    obtain ⟨hactive, h⟩ := passed_of_bind h
    cases h
    rcases hdecode : decode_token s token with _ | payload
    · rw [hdecode] at hcurrent
      cases hcurrent
    · obtain ⟨rfl, hissued, hlive⟩ := decode_token_eq_some.mp hdecode
      rw [hdecode] at hcurrent
      obtain ⟨htype, hcurrent⟩ := passed_of_bind hcurrent
      obtain ⟨hrevoked, hcurrent⟩ := passed_of_bind hcurrent
      rcases hget : get_by_id s payload.sub with _ | row
      · rw [hget] at hcurrent
        cases hcurrent
      · rw [hget] at hcurrent
        obtain ⟨hcutoff, hcurrent⟩ := passed_of_bind hcurrent
        obtain ⟨happroved, hcurrent⟩ := passed_of_bind hcurrent
        obtain ⟨hmay, hcurrent⟩ := passed_of_bind hcurrent
        cases hcurrent
        refine ⟨hissued, hlive, Decidable.not_not.mp htype, eq_false_of_ne_true hrevoked,
          rfl, eq_false_of_ne_true hcutoff, Decidable.not_not.mp happroved, ?_,
          eq_true_of_ne_false hactive⟩
        intro hmust
        exact eq_true_of_ne_false fun hcannot => hmay ⟨hmust, hcannot⟩
  · rintro ⟨hissued, hlive, htype, hrevoked, hget, hcutoff, happroved, hmay, hactive⟩
    rw [decode_token_eq_some.mpr ⟨rfl, hissued, hlive⟩]
    refine bind_eq_ok_iff.mpr ⟨user, ?_, ?_⟩
    · dsimp only
      rw [refuse_of_not _ (not_not_intro htype), refuse_of_not _ (by rw [hrevoked]; simp), hget]
      dsimp only
      have hask : ¬ (user.must_change_password = true ∧ may = false) := by
        rintro ⟨hmust, hcannot⟩
        rw [hmay hmust] at hcannot
        cases hcannot
      rw [refuse_of_not _ (by rw [hcutoff]; simp), refuse_of_not _ (not_not_intro happroved),
        refuse_of_not _ hask]
      rfl
    · rw [refuse_of_not _ (by rw [hactive]; simp)]
      rfl

/-- The token was issued and is not over, the table does not name it, and its second is not
up to the cutoff of its user. -/
structure Valid (s : State) (user : User) (token : Payload) : Prop where
  found : get_by_id s token.sub = some user
  issued : token ∈ s.issued
  live : expired s token = false
  kept : is_revoked s token = false
  later : issued_before_cutoff token user.tokens_valid_from = false

theorem valid_of_accepted {pace : Pace} {may : Bool} (h : accepted settings s pace may token = true) :
    ∃ user, Valid s user token := by
  rcases htype : token.type
  · rw [accepted, htype] at h
    dsimp only at h
    rcases hactive : get_current_active_user s may token with error | user
    · rw [hactive] at h
      cases h
    · obtain ⟨hissued, hlive, -, hrevoked, hget, hcutoff, -⟩ :=
        get_current_active_user_eq_ok.mp hactive
      exact ⟨user, hget, hissued, hlive, hrevoked, hcutoff⟩
  · obtain ⟨user, hfound, hrevoked, hcutoff⟩ := (accepted_refresh_iff htype).mp h
    obtain ⟨hissued, hlive, -, hget, -⟩ := refreshing_eq_ok.mp hfound
    exact ⟨user, hget, hissued, hlive, hrevoked, hcutoff⟩

theorem accepted_of_valid {pace : Pace} {may : Bool} (h : Valid s user token)
    (hsign : MaySignIn (s.now + pace.check) user) (hmay : MayAsk may user) :
    accepted settings s pace may token = true := by
  rcases htype : token.type
  · have hactive : get_current_active_user s may token = .ok user :=
      get_current_active_user_eq_ok.mpr ⟨h.issued, h.live, htype, h.kept, h.found, h.later,
        hsign.approved, hmay, hsign.active⟩
    rw [accepted, htype]
    dsimp only
    rw [hactive]
    rfl
  · exact (accepted_refresh_iff htype).mpr
      ⟨user, refreshing_eq_ok.mpr ⟨h.issued, h.live, htype, h.found, hsign⟩, h.kept, h.later⟩

/-! ## What a request does -/

theorem login_writes (pace : Pace) (username password : String) :
    ReflTransGen (Write settings) s (login settings s pace username password).1 := by
  unfold login
  rcases signing_in s (s.now + pace.check) username password with error | user
  · exact .refl
  · exact (ReflTransGen.single (.after pace.check)).tail (.tokens pace user.id)

theorem refresh_writes (pace : Pace) (refresh_token : Payload) :
    ReflTransGen (Write settings) s (refresh settings s pace refresh_token).1 := by
  unfold refresh
  rcases hrefreshing : refreshing s (s.now + pace.check) refresh_token with error | user
  · exact .refl
  · obtain ⟨hissued, -, htype, -⟩ := refreshing_eq_ok.mp hrefreshing
    have hissued' : refresh_token ∈ (after s pace.check).issued := hissued
    dsimp only
    split
    · exact (ReflTransGen.single (.after _)).tail (.cutoff user.id)
    · split
      · exact .refl
      · exact ((ReflTransGen.single (.after pace.check)).tail
          (.retire refresh_token hissued' htype user.id "rotated")).tail (.tokens pace user.id)

theorem request_password_reset_writes (email : String) :
    ReflTransGen (Write settings) s (request_password_reset settings s email).1 := by
  unfold request_password_reset
  rcases get_by_email s email with _ | user
  · exact .refl
  · dsimp only
    split
    · exact .refl
    · exact .single (.aside (s.draw + 1) (Nat.le_succ _) _ s.temporary)

theorem resetting_eq_some {reset_token : PasswordResetToken} {token : ℕ}
    (h : resetting s token = some (reset_token, user)) :
    get_by_id s reset_token.user_id = some user ∧ user.is_active = true := by
  simp only [resetting, Option.bind_eq_bind, Option.bind_eq_some_iff, Option.ite_none_left_eq_some,
    Option.some.injEq, Prod.mk.injEq, Bool.not_eq_false] at h
  obtain ⟨row, -, -, found, hfound, hactive, rfl, rfl⟩ := h
  exact ⟨hfound, hactive⟩

theorem found_by_own_id {user_id : ℕ} (h : get_by_id s user_id = some user) :
    get_by_id s user.id = some user := by
  rw [(get_by_id_some h).2]
  exact h

theorem reset_password_writes (pace : Pace) (token : ℕ) (new_password : String) :
    ReflTransGen (Write settings) s (reset_password s pace token new_password).1 := by
  unfold reset_password
  rcases hresetting : resetting s token with _ | ⟨reset_token, user⟩
  · exact .refl
  · have hfound := found_by_own_id (resetting_eq_some hresetting).1
    have hrow : Write settings s (update s { user with
        password_hash := hash_password new_password
        email_verified_at := user.email_verified_at.or (some (s.now + pace.check)) }) :=
      .row user _ hfound rfl rfl rfl
    exact (((ReflTransGen.single hrow).tail (.aside _ (Nat.le_refl _) _ _)).tail (.after _)).tail
      (.cutoff user.id)

theorem changing_eq_ok {user_id : ℕ} {current_password new_password : String}
    (h : changing s user_id current_password new_password = .ok user) :
    get_by_id s user_id = some user := by
  unfold changing at h
  rcases hget : get_by_id s user_id with _ | found
  · rw [hget] at h
    cases h
  · rw [hget] at h
    obtain ⟨-, h⟩ := passed_of_bind h
    obtain ⟨-, h⟩ := passed_of_bind h
    cases h
    rfl

theorem change_password_writes (pace : Pace) (user_id : ℕ)
    (current_password new_password : String) :
    ReflTransGen (Write settings) s
      (change_password settings s pace user_id current_password new_password).1 := by
  unfold change_password
  rcases hchanging : changing s user_id current_password new_password with error | user
  · exact .refl
  · have hfound := found_by_own_id (changing_eq_ok hchanging)
    have hrow : Write settings s (update s { user with
        password_hash := hash_password new_password
        must_change_password := false
        temporary_password_expires_at := none }) := .row user _ hfound rfl rfl rfl
    exact ((((ReflTransGen.single hrow).tail (.after _)).tail (.cutoff user.id)).tail
      (.after _)).tail (.tokens pace user.id)

theorem logout_writes (user_id : ℕ) (refresh_token : Option Payload) :
    ReflTransGen (Write settings) s (logout s user_id refresh_token).1 := by
  unfold logout
  rcases hdecode : refresh_token.bind (decode_token s) with _ | payload
  · exact .refl
  · dsimp only
    split
    · exact .refl
    · rename_i htype
      split
      · exact .refl
      · obtain ⟨presented, -, hpresented⟩ := Option.bind_eq_some_iff.mp hdecode
        obtain ⟨rfl, hissued, -⟩ := decode_token_eq_some.mp hpresented
        exact .single (.retire payload hissued (not_not.mp htype) user_id "logout")

theorem locked_out_eq_ok {user_id caller_id : ℕ} (h : locked_out s user_id caller_id = .ok user) :
    get_by_id s user_id = some user ∧ user.is_active = true ∧
      user.registration_status = .approved := by
  unfold locked_out at h
  obtain ⟨-, h⟩ := passed_of_bind h
  rcases hget : get_by_id s user_id with _ | found
  · rw [hget] at h
    cases h
  · rw [hget] at h
    obtain ⟨hcan, h⟩ := passed_of_bind h
    obtain ⟨-, h⟩ := passed_of_bind h
    cases h
    rw [not_or, Bool.not_eq_false, not_not] at hcan
    exact ⟨rfl, hcan⟩

theorem set_temporary_password_writes (pace : Pace) (user_id caller_id : ℕ) (password : String) :
    ReflTransGen (Write settings) s
      (set_temporary_password settings s pace user_id caller_id password).1 := by
  unfold set_temporary_password
  rcases hlocked : locked_out s user_id caller_id with error | user
  · exact .refl
  · have hfound := found_by_own_id (locked_out_eq_ok hlocked).1
    have hrow : Write settings s (update s { user with
        password_hash := hash_password password
        must_change_password := true
        temporary_password_expires_at :=
          some (s.now + seconds (settings.TEMPORARY_PASSWORD_EXPIRE_HOURS * 3600)) }) :=
      .row user _ hfound rfl rfl rfl
    exact (((ReflTransGen.single hrow).tail (.after pace.next)).tail
      (.aside _ (Nat.le_refl _) _ ((user.id, password) :: s.temporary))).tail (.cutoff user.id)

/-- **A request is a sequence of writes.** -/
theorem respond_writes (e : Event) :
    ReflTransGen (Write settings) s (respond settings s e).1 := by
  cases e with
  | login pace username password => exact login_writes pace username password
  | refresh pace refresh_token => exact refresh_writes pace refresh_token
  | logout user_id refresh_token => exact logout_writes user_id refresh_token
  | logout_all user_id => exact .single (.cutoff user_id)
  | change_password pace user_id current_password new_password =>
    exact change_password_writes pace user_id current_password new_password
  | request_password_reset email => exact request_password_reset_writes email
  | reset_password pace token new_password => exact reset_password_writes pace token new_password
  | set_temporary_password pace user_id caller_id password =>
    exact set_temporary_password_writes pace user_id caller_id password
  | wait duration => exact .single (.after duration)

/-- What every write preserves, a run preserves. -/
theorem run_preserves {I : State → Prop} (hwrite : ∀ s s', I s → Write settings s s' → I s')
    {es : List Event} (hs : I s) (hrun : run (step settings) s es = some s') : I s' := by
  refine invariant_of_step (fun t e t' ht hstep => ?_) hs hrun
  rw [← Option.some.inj hstep]
  have hwrites : ReflTransGen (Write settings) t (respond settings t e).1 := respond_writes e
  generalize (respond settings t e).1 = u at hwrites
  induction hwrites with
  | refl => exact ht
  | tail _ hlast ih => exact hwrite _ _ ih hlast

/-! ## What every run keeps -/

/-- The tables agree with the history. -/
structure Consistent (s : State) : Prop where
  drawn : ∀ token ∈ s.issued, ∃ jti, token.jti = some jti ∧ jti < s.draw
  distinct : ∀ token ∈ s.issued, ∀ other ∈ s.issued, token.jti = other.jti → token = other
  stamped : ∀ token ∈ s.issued, ∃ issued, token.iat = some issued ∧ issued ≤ s.now / seconds 1
  ended : ∀ token ∈ s.ended, token ∈ s.issued ∧ token.type = .refresh
  recorded : ∀ token ∈ s.issued, is_revoked s token = true ↔ token ∈ s.ended
  rows : ∀ row ∈ s.revoked_tokens, row.jti < s.draw
  cutoffs : ∀ user ∈ s.users, user.tokens_valid_from ≤ s.now

theorem Start.consistent (h : Start s) : Consistent s where
  drawn := by simp [h.issued]
  distinct := by simp [h.issued]
  stamped := by simp [h.issued]
  ended := by simp [h.ended]
  recorded := by simp [h.issued]
  rows := by simp [h.revoked]
  cutoffs := h.cutoffs

theorem Consistent.after (h : Consistent s) (duration : Time) :
    Consistent (auth_service.after s duration) where
  drawn := h.drawn
  distinct := h.distinct
  stamped token htoken := by
    obtain ⟨issued, hiat, hle⟩ := h.stamped token htoken
    exact ⟨issued, hiat, hle.trans (Nat.div_le_div_right (Nat.le_add_right _ _))⟩
  ended := h.ended
  recorded := h.recorded
  rows := h.rows
  cutoffs user huser := (h.cutoffs user huser).trans (Nat.le_add_right _ _)

/-- A write to `users` that leaves no cutoff ahead of the clock. -/
theorem Consistent.users (h : Consistent s) {users : List User}
    (hcutoffs : ∀ user ∈ users, user.tokens_valid_from ≤ s.now) :
    Consistent { s with users := users } where
  drawn := h.drawn
  distinct := h.distinct
  stamped := h.stamped
  ended := h.ended
  recorded := h.recorded
  rows := h.rows
  cutoffs := hcutoffs

theorem Consistent.row (h : Consistent s) {old new : User} (hfound : get_by_id s old.id = some old)
    (hcutoff : new.tokens_valid_from = old.tokens_valid_from) : Consistent (update s new) := by
  refine h.users fun user huser => ?_
  rcases mem_update huser with hold | rfl
  · exact h.cutoffs user hold
  · rw [hcutoff]
    exact h.cutoffs old (get_by_id_some hfound).1

theorem Consistent.cutoff (h : Consistent s) (user_id : ℕ) :
    Consistent (revoke_all_for_user s user_id) := by
  rw [revoke_all_rest]
  refine h.users fun user huser => ?_
  rcases mem_revoke_all huser with hold | hnow
  · exact h.cutoffs user hold
  · exact hnow.le

theorem mem_revoke {revoked : Option ℕ} {user_id : ℕ} {expires_at : Time} {reason : String}
    {row : RevokedToken} (h : row ∈ (revoke s revoked user_id expires_at reason).revoked_tokens) :
    row ∈ s.revoked_tokens ∨ revoked = some row.jti := by
  unfold revoke at h
  cases revoked with
  | none => exact .inl h
  | some jti =>
    dsimp only at h
    split at h
    · exact .inl h
    · rcases List.mem_append.mp h with hold | hnew
      · exact .inl hold
      · rw [List.mem_singleton.mp hnew]
        exact .inr rfl

theorem revoke_rest (s : State) (revoked : Option ℕ) (user_id : ℕ) (expires_at : Time)
    (reason : String) :
    revoke s revoked user_id expires_at reason =
      { s with revoked_tokens := (revoke s revoked user_id expires_at reason).revoked_tokens } := by
  unfold revoke
  cases revoked with
  | none => rfl
  | some jti =>
    dsimp only
    split
    · rfl
    · rfl

theorem Consistent.retire (h : Consistent s) (htoken : token ∈ s.issued)
    (htype : token.type = .refresh) (user_id : ℕ) (reason : String) :
    Consistent (auth_service.retire s token user_id reason) := by
  have hrest : auth_service.retire s token user_id reason = { s with
      revoked_tokens := (revoke s token.jti user_id (expiry_of token) reason).revoked_tokens
      ended := s.ended ++ [token] } := by
    rw [auth_service.retire, revoke_rest]
  obtain ⟨jti, hjti, hdrawn⟩ := h.drawn token htoken
  have hrecorded : ∀ other ∈ s.issued, is_revoked (auth_service.retire s token user_id reason) other
      = true ↔ other ∈ s.ended ++ [token] := by
    intro other hother
    obtain ⟨jti', hjti', -⟩ := h.drawn other hother
    rw [is_revoked_retire, hjti', Option.isSome_some, Bool.true_and, Bool.or_eq_true,
      h.recorded other hother, decide_eq_true_eq, List.mem_append, List.mem_singleton]
    -- tokens with one identifier are one token
    refine or_congr_right ⟨fun heq => ?_, fun heq => ?_⟩
    · exact (h.distinct token htoken other hother (heq.trans hjti'.symm)).symm
    · rw [← hjti', heq]
  rw [hrest] at hrecorded ⊢
  refine ⟨h.drawn, h.distinct, h.stamped, ?_, hrecorded, ?_, h.cutoffs⟩
  · intro other hother
    rcases List.mem_append.mp hother with hold | hnew
    · exact h.ended other hold
    · rw [List.mem_singleton.mp hnew]
      exact ⟨htoken, htype⟩
  · intro row hrow
    rcases mem_revoke hrow with hold | heq
    · exact h.rows row hold
    · rw [hjti, Option.some.injEq] at heq
      rw [← heq]
      exact hdrawn

/-- A new token: nobody has its identifier, and it is stamped with the clock. -/
theorem Consistent.issue (h : Consistent s) (now : Time) (token : Payload) (hnow : s.now ≤ now)
    (hjti : token.jti = some s.draw) (hiat : token.iat = some (now / seconds 1)) :
    Consistent { s with now := now, draw := s.draw + 1, issued := s.issued ++ [token] } := by
  have hfresh : ∀ other ∈ s.issued, other.jti ≠ token.jti := by
    intro other hother heq
    obtain ⟨jti, hother', hlt⟩ := h.drawn other hother
    rw [hother', hjti, Option.some.injEq] at heq
    omega
  -- no row names a `jti` that was not drawn yet
  have hunnamed : is_revoked s token = false := by
    rw [is_revoked, hjti]
    refine List.any_eq_false.mpr fun row hrow => ?_
    have hlt := h.rows row hrow
    rw [decide_eq_true_eq]
    omega
  refine ⟨?_, ?_, ?_, ?_, ?_, ?_, ?_⟩
  · intro other hother
    rcases List.mem_append.mp hother with hold | hnew
    · obtain ⟨jti, hjti', hlt⟩ := h.drawn other hold
      exact ⟨jti, hjti', hlt.trans (Nat.lt_succ_self _)⟩
    · rw [List.mem_singleton.mp hnew]
      exact ⟨s.draw, hjti, Nat.lt_succ_self _⟩
  · intro other hother another hanother heq
    rcases List.mem_append.mp hother with hold | hnew
    · rcases List.mem_append.mp hanother with hold' | hnew'
      · exact h.distinct other hold another hold' heq
      · rw [List.mem_singleton.mp hnew'] at heq
        exact absurd heq (hfresh other hold)
    · rw [List.mem_singleton.mp hnew] at heq ⊢
      rcases List.mem_append.mp hanother with hold' | hnew'
      · exact absurd heq.symm (hfresh another hold')
      · rw [List.mem_singleton.mp hnew']
  · intro other hother
    rcases List.mem_append.mp hother with hold | hnew
    · obtain ⟨issued, hiat', hle⟩ := h.stamped other hold
      exact ⟨issued, hiat', hle.trans (Nat.div_le_div_right hnow)⟩
    · rw [List.mem_singleton.mp hnew]
      exact ⟨_, hiat, Nat.le_refl _⟩
  · intro other hother
    obtain ⟨hold, htype⟩ := h.ended other hother
    exact ⟨List.mem_append_left _ hold, htype⟩
  · intro other hother
    rcases List.mem_append.mp hother with hold | hnew
    · exact h.recorded other hold
    · rw [List.mem_singleton.mp hnew]
      constructor
      -- nothing has happened to the new token yet
      · intro hrevoked
        exact absurd (hunnamed.symm.trans hrevoked) (by simp)
      · intro hended
        exact absurd rfl (hfresh token (h.ended token hended).1)
  · exact fun row hrow => (h.rows row hrow).trans (Nat.lt_succ_self _)
  · exact fun user huser => (h.cutoffs user huser).trans hnow

theorem Consistent.tokens (h : Consistent s) (pace : Pace) (subject : ℕ) :
    Consistent (create_tokens settings s pace subject).1 := by
  have haccess := h.issue (s.now + pace.next)
    (create_access_token settings (s.now + pace.next) s.draw subject)
    (Nat.le_add_right _ _) rfl rfl
  have hrefresh := haccess.issue (s.now + pace.next + pace.last)
    (create_refresh_token settings (s.now + pace.next + pace.last) (s.draw + 1) subject)
    (Nat.le_add_right _ _) rfl rfl
  rw [List.append_assoc] at hrefresh
  exact hrefresh

theorem Consistent.write (s s' : State) (h : Consistent s) (hwrite : Write settings s s') :
    Consistent s' := by
  cases hwrite with
  | after duration => exact h.after duration
  | aside draw le reset_tokens temporary =>
    refine ⟨?_, h.distinct, h.stamped, h.ended, h.recorded, ?_, h.cutoffs⟩
    · intro token htoken
      obtain ⟨jti, hjti, hlt⟩ := h.drawn token htoken
      exact ⟨jti, hjti, hlt.trans_le le⟩
    · exact fun row hrow => (h.rows row hrow).trans_le le
  | row old new found id username cutoff => exact h.row found cutoff
  | cutoff user_id => exact h.cutoff user_id
  | retire token issued type user_id reason => exact h.retire issued type user_id reason
  | tokens pace subject => exact h.tokens pace subject

theorem Consistent.run {es : List Event} (h : Consistent s)
    (hrun : Run.run (step settings) s es = some s') : Consistent s' :=
  run_preserves Consistent.write h hrun

/-- A token stays issued. -/
theorem issued_write (token : Payload) (s s' : State) (h : token ∈ s.issued)
    (hwrite : Write settings s s') : token ∈ s'.issued := by
  cases hwrite with
  | after duration => exact h
  | aside draw le reset_tokens temporary => exact h
  | row old new found id username cutoff => exact h
  | cutoff user_id =>
    rw [revoke_all_rest]
    exact h
  | retire other issued type user_id reason =>
    rw [retire, revoke_rest]
    exact h
  | tokens pace subject => exact List.mem_append_left _ h

/-- The user was cut off at an instant that is past. -/
structure CutOffSince (user_id : ℕ) (instant : Time) (s : State) : Prop where
  past : instant ≤ s.now
  cutoff : ∀ user, get_by_id s user_id = some user → instant ≤ user.tokens_valid_from

/-- No write takes a cutoff back. -/
theorem CutOffSince.write {user_id : ℕ} {instant : Time} (s s' : State)
    (h : CutOffSince user_id instant s) (hwrite : Write settings s s') :
    CutOffSince user_id instant s' := by
  cases hwrite with
  | after duration => exact ⟨h.past.trans (Nat.le_add_right _ _), h.cutoff⟩
  | aside draw le reset_tokens temporary => exact ⟨h.past, h.cutoff⟩
  | row old new found id username cutoff =>
    refine ⟨h.past, fun user huser => ?_⟩
    rw [get_by_id_update] at huser
    by_cases hid : user_id = new.id
    · rw [if_pos hid, hid, id, found, Option.map_some, Option.some.injEq] at huser
      rw [← huser, cutoff]
      exact h.cutoff old (by rw [hid, id, found])
    · rw [if_neg hid] at huser
      exact h.cutoff user huser
  | cutoff other =>
    refine ⟨?_, fun user huser => ?_⟩
    · rw [revoke_all_rest]
      exact h.past
    · rw [get_by_id_revoke_all] at huser
      obtain ⟨row, hrow, rfl⟩ := Option.map_eq_some_iff.mp huser
      split
      · exact h.past
      · exact h.cutoff row hrow
  | retire token issued type other reason =>
    rw [retire, revoke_rest]
    exact ⟨h.past, h.cutoff⟩
  | tokens pace subject =>
    exact ⟨(h.past.trans (Nat.le_add_right _ _)).trans (Nat.le_add_right _ _), h.cutoff⟩

/-! ## The second of a cutoff -/

theorem issuedAfter_iff {cutoff : Time} (hs : Consistent s) (htoken : token ∈ s.issued) :
    issued_before_cutoff token cutoff = false ↔ IssuedAfter cutoff token := by
  obtain ⟨issued, hiat, -⟩ := hs.stamped token htoken
  simp [issued_before_cutoff, IssuedAfter, hiat]

/-- The wait is over in a later second than the one it began in. -/
theorem second_after_wait (cutoff more : ℕ) :
    cutoff / seconds 1 < (cutoff + waitAfter cutoff + more) / seconds 1 := by
  have hsecond : seconds 1 = 1000000 := rfl
  rw [waitAfter, hsecond]
  omega

theorem acceptsUnrevoked_of_consistent (hs : Consistent s) : AcceptsUnrevoked settings s := by
  intro token htoken hlive user hget pace may hsign hmay
  rw [← issuedAfter_iff hs htoken, ← hs.recorded token htoken, Bool.not_eq_true]
  constructor
  · intro haccepted
    obtain ⟨found, hvalid⟩ := valid_of_accepted haccepted
    have hsame := hvalid.found
    rw [hget, Option.some.injEq] at hsame
    rw [hsame]
    exact ⟨hvalid.kept, hvalid.later⟩
  · rintro ⟨hkept, hlater⟩
    exact accepted_of_valid ⟨hget, htoken, hlive, hkept, hlater⟩ hsign hmay

/-- A token from before the cutoff is not taken while the cutoff stands. -/
theorem not_accepted_of_cutOff {user_id : ℕ} {instant : Time} {pace : Pace} {may : Bool}
    (hcut : CutOffSince user_id instant s) (hsub : token.sub = user_id) {issued : ℕ}
    (hiat : token.iat = some issued) (hbefore : issued ≤ instant / seconds 1) :
    accepted settings s pace may token = false := by
  rw [← Bool.not_eq_true]
  intro haccepted
  obtain ⟨user, hvalid⟩ := valid_of_accepted haccepted
  have hcutoff := hcut.cutoff user (hsub ▸ hvalid.found)
  have hlater := hvalid.later
  rw [issued_before_cutoff, hiat, decide_eq_false_iff_not] at hlater
  exact hlater (hbefore.trans (Nat.div_le_div_right hcutoff))

theorem replayEndsSessions_of_consistent (hs : Consistent s) : ReplayEndsSessions settings s := by
  intro token htoken hlive user hget pace hsign
  obtain ⟨hissued, htype⟩ := hs.ended token htoken
  have hrefreshing : refreshing s (s.now + pace.check) token = .ok user :=
    refreshing_eq_ok.mpr ⟨hissued, hlive, htype, hget, hsign⟩
  have hrevoked := (hs.recorded token hissued).mpr htoken
  refine ⟨_, _, by rw [refresh, hrefreshing]; exact if_pos hrevoked, ?_⟩
  intro es s'' hrun other hother hsub pace' may
  have hcut : CutOffSince user.id (s.now + (pace.check + pace.next))
      (revoke_all_for_user (after s (pace.check + pace.next)) user.id) := by
    refine ⟨?_, fun row hrow => ?_⟩
    · rw [revoke_all_rest]
      exact Nat.le_refl _
    · rw [get_by_id_revoke_all] at hrow
      obtain ⟨old, -, rfl⟩ := Option.map_eq_some_iff.mp hrow
      rw [if_pos rfl]
      exact Nat.le_refl _
  obtain ⟨issued, hiat, hle⟩ := hs.stamped other hother
  exact not_accepted_of_cutOff (run_preserves CutOffSince.write hcut hrun) hsub hiat
    (hle.trans (Nat.div_le_div_right (Nat.le_add_right _ _)))

theorem cutoff_of_revoke_all {user_id : ℕ}
    (h : get_by_id (revoke_all_for_user s user_id) user_id = some user) :
    user.tokens_valid_from = s.now := by
  rw [get_by_id_revoke_all] at h
  obtain ⟨row, -, rfl⟩ := Option.map_eq_some_iff.mp h
  rw [if_pos rfl]

/-- The end of `change_password`: the pair is minted once the second of the cutoff is over. -/
theorem tokens_after_cutoff (s : State) (pace : Pace) (user_id : ℕ) (s' : State)
    (tokens : TokenResponse)
    (h : create_tokens settings (after (revoke_all_for_user s user_id)
      (waitAfter (revoke_all_for_user s user_id).now)) pace user_id = (s', tokens)) :
    (∀ user, get_by_id s' user_id = some user → user.tokens_valid_from = s.now) ∧
      ∀ token ∈ [tokens.access_token, tokens.refresh_token],
        token ∈ s'.issued ∧ token.sub = user_id ∧ IssuedAfter s.now token := by
  have hnow : (revoke_all_for_user s user_id).now = s.now := by rw [revoke_all_rest]
  cases h
  refine ⟨fun user huser => cutoff_of_revoke_all huser, fun token htoken => ?_⟩
  rw [List.mem_cons, List.mem_singleton] at htoken
  rcases htoken with rfl | rfl
  · refine ⟨List.mem_append_right _ (List.mem_cons_self ..), rfl, _, rfl, ?_⟩
    rw [after, hnow]
    exact second_after_wait s.now pace.next
  · refine ⟨List.mem_append_right _ (List.mem_cons_of_mem _ (List.mem_cons_self ..)), rfl, _, rfl, ?_⟩
    rw [after, hnow, Nat.add_assoc]
    exact second_after_wait s.now (pace.next + pace.last)

/-- A change of the password that returns: the cutoff is the instant of the change, and the
pair is of a later second. -/
theorem change_password_returns {pace : Pace} {user_id : ℕ}
    {current_password new_password : String} {tokens : TokenResponse}
    (h : change_password settings s pace user_id current_password new_password
      = (s', .ok (some tokens))) :
    ∃ cutoff : Time, (∀ user, get_by_id s' user_id = some user → user.tokens_valid_from = cutoff) ∧
      ∀ token ∈ [tokens.access_token, tokens.refresh_token],
        token ∈ s'.issued ∧ token.sub = user_id ∧ IssuedAfter cutoff token := by
  unfold change_password at h
  rcases hchanging : changing s user_id current_password new_password with error | user
  · rw [hchanging] at h
    cases h
  · rw [hchanging] at h
    have hid := (get_by_id_some (changing_eq_ok hchanging)).2
    rw [Prod.mk.injEq, Except.ok.injEq, Option.some.injEq] at h
    have hend := tokens_after_cutoff _ pace user.id s' tokens (Prod.ext h.1 h.2)
    rw [hid] at hend
    exact ⟨_, hend⟩

theorem changeReturnsSession_of_consistent (hs : Consistent s) :
    ChangeReturnsSession settings s := by
  intro pace user_id current_password new_password s' tokens hchange es s'' hrun token htoken hlive
    hunrevoked user hget pace' may hsign hmay
  obtain ⟨cutoff, hcutoff, htokens⟩ := change_password_returns hchange
  obtain ⟨hissued, hsub, hafter⟩ := htokens token htoken
  have hs' : Consistent s' := by
    have hstep : step settings s (.change_password pace user_id current_password new_password)
        = some s' := by
      rw [step, respond, hchange]
    exact hs.run (run_cons_eq_some_iff.mpr ⟨s', hstep, run_nil s'⟩)
  have hissued'' : token ∈ s''.issued := run_preserves (issued_write token) hissued hrun
  refine (acceptsUnrevoked_of_consistent (hs'.run hrun) token hissued'' hlive user hget pace' may
    hsign hmay).mpr ⟨hunrevoked.2, ?_⟩
  -- the cutoff is still that of the change
  have hsame := hunrevoked.1
  rw [hget, Option.map_some, eq_comm, Option.map_eq_some_iff] at hsame
  obtain ⟨user', hget', hsame⟩ := hsame
  rw [← hsame, hcutoff user' (hsub ▸ hget')]
  exact hafter

/-- **Session revocation.** After every run of requests: a token that is not over is taken
exactly when it was not spent or logged out and is of a later second than the cutoff; a
spent token that is presented again before it is over ends every session up to then; and
the pair of a changed password is taken until it is over or revoked. -/
theorem session_revocation (settings : Settings) {s₀ s : State} {es : List Event}
    (hstart : Start s₀) (hrun : run (step settings) s₀ es = some s) :
    AcceptsUnrevoked settings s ∧ ReplayEndsSessions settings s ∧
      ChangeReturnsSession settings s := by
  have hs : Consistent s := hstart.consistent.run hrun
  exact ⟨acceptsUnrevoked_of_consistent hs, replayEndsSessions_of_consistent hs,
    changeReturnsSession_of_consistent hs⟩

/-! ### One person -/

/-- One user, at a hundred seconds past the epoch. -/
def alone : State where
  now := seconds 100
  users := [{
    id := 1
    username := "alice"
    email := "alice@example.com"
    password_hash := hash_password "correct horse" }]

def signIn : Event := .login {} "alice" "correct horse"

def aliceRefresh (issued_at : Time) (jti : ℕ) : Payload :=
  create_refresh_token defaultSettings issued_at jti 1

def aliceAccess (issued_at : Time) (jti : ℕ) : Payload :=
  create_access_token defaultSettings issued_at jti 1

/-- A token is spent and its lifetime passes; then its owner signs in again. -/
def spentLongAgo : List Event :=
  [signIn, .refresh {} (aliceRefresh (seconds 100) 1), .wait (seconds 700000), signIn]

theorem start_alone : Start alone := ⟨rfl, rfl, rfl, by decide⟩

theorem session_revocation_alone : ∃ s, run (step defaultSettings) alone spentLongAgo = some s ∧
    AcceptsUnrevoked defaultSettings s ∧ ReplayEndsSessions defaultSettings s ∧
      ChangeReturnsSession defaultSettings s := by
  have hrun : run (step defaultSettings) alone spentLongAgo = some _ := rfl
  exact ⟨_, hrun, session_revocation defaultSettings start_alone hrun⟩

/-- A spent token that is presented after its own lifetime ends nothing, and the pair of a
changed password is not taken after the lifetime of its tokens, though nothing revoked it. -/
theorem lifetimes_come_first :
    (∃ s, run (step defaultSettings) alone spentLongAgo = some s ∧
      aliceRefresh (seconds 100) 1 ∈ s.ended ∧
      aliceAccess (seconds 700100) 4 ∈ s.issued ∧
      accepted defaultSettings
        (respond defaultSettings s (.refresh {} (aliceRefresh (seconds 100) 1))).1 {} false
        (aliceAccess (seconds 700100) 4) = true) ∧
    ∃ s' s'' tokens, change_password defaultSettings alone {} 1 "correct horse" "battery staple"
        = (s', .ok (some tokens)) ∧
      run (step defaultSettings) s' [.wait (seconds 1801)] = some s'' ∧
      Unrevoked s' s'' tokens.access_token ∧
      accepted defaultSettings s'' {} false tokens.access_token = false := by
  refine ⟨⟨_, rfl, by decide +kernel, by decide +kernel, by decide +kernel⟩, ?_⟩
  exact ⟨_, _, _, rfl, rfl, ⟨by decide +kernel, by decide +kernel⟩, by decide +kernel⟩

end PaCopilot.auth_service

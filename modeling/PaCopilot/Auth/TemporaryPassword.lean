/-
Who is refused as the holder of an expired temporary password.

Whether a password is a temporary one is written beside it, in two columns that every
operation that replaces the password has to keep in step with it. `set_temporary_password`
sets them and `change_password` clears them. `reset_password` leaves them as they are, so
the password that somebody chose through a reset link counts as temporary when the columns
were set before, and stops signing in when the temporary one would have.
-/
import PaCopilot.Auth.Revocation
import Mathlib.Data.List.Nodup

set_option autoImplicit false

namespace PaCopilot.auth_service

open Run
open reports (Time seconds)

variable {settings : Settings} {s s' : State} {e : Event} {user user' : User}

/-! ## What is asked -/

/-- The last temporary password that was set for a user. -/
def temporary_of (s : State) (user_id : ℕ) : Option String :=
  (s.temporary.find? fun entry => entry.1 = user_id).map Prod.snd

/-- The password of the row is the temporary one that was set. -/
def HasTemporary (s : State) (user : User) : Prop :=
  temporary_of s user.id = some user.password_hash.password

instance (s : State) (user : User) : Decidable (HasTemporary s user) :=
  inferInstanceAs (Decidable (_ = _))

/-- A login with the current password, now or later, and a refresh, is refused as an expired
temporary password only where the password is the temporary one. -/
structure OnlyTemporary (settings : Settings) (s : State) : Prop where
  login : ∀ pace username password user, get_by_username s username = some user →
    verify_password password user.password_hash = true →
    (login settings s pace username password).2 = .error expiredTemporaryPassword →
    HasTemporary s user
  refresh : ∀ pace token user, get_by_id s token.sub = some user →
    (refresh settings s pace token).2 = .error expiredTemporaryPassword → HasTemporary s user

/-- The columns of a temporary password are set. -/
def Marked (user : User) : Prop :=
  user.must_change_password = true ∧ user.temporary_password_expires_at ≠ none

instance (user : User) : Decidable (Marked user) := inferInstanceAs (Decidable (_ ∧ _))

/-- A reset that goes through finds the columns clear, or is to the temporary password. -/
def resetsUnmarked (s : State) : Event → Bool
  | .reset_password _ token new_password =>
    (resetting s token).all fun (_, user) =>
      decide (¬ Marked user ∨ temporary_of s user.id = some new_password)
  | _ => true

/-- The keys of `users` are apart, and nobody has a temporary password yet. -/
structure NobodyMarked (s : State) : Prop where
  ids : (s.users.map User.id).Nodup
  usernames : (s.users.map User.username).Nodup
  unmarked : ∀ user ∈ s.users, ¬ Marked user

/-! ## Who is refused -/

theorem temporaryPasswordOver_iff {now : Time} :
    temporaryPasswordOver now user = true ↔ user.must_change_password = true ∧
      ∃ expires_at, user.temporary_password_expires_at = some expires_at ∧ expires_at < now := by
  rw [temporaryPasswordOver, Bool.and_eq_true, Option.any_eq_true]
  simp only [decide_eq_true_eq]

theorem marked_of_over {now : Time} (h : temporaryPasswordOver now user = true) : Marked user := by
  obtain ⟨hmust, expires_at, hexpires, -⟩ := temporaryPasswordOver_iff.mp h
  exact ⟨hmust, by rw [hexpires]; simp⟩

/-- A marked password is over some time. -/
theorem exists_over (h : Marked user) (now : Time) :
    ∃ duration, temporaryPasswordOver (now + duration) user = true := by
  obtain ⟨expires_at, hexpires⟩ := Option.ne_none_iff_exists'.mp h.2
  refine ⟨expires_at + 1, temporaryPasswordOver_iff.mpr ⟨h.1, expires_at, hexpires, ?_⟩⟩
  exact Nat.lt_of_lt_of_le (Nat.lt_succ_self _) (Nat.le_add_left _ _)

/-- The checks of an account end with the message about the temporary password only where
its time is over. -/
theorem account_eq_expired {now : Time} :
    (do
      _check_can_authenticate user
      _check_temporary_password now user
      return user : Except AppException User) = .error expiredTemporaryPassword ↔
      user.registration_status = .approved ∧ user.is_active = true ∧
        temporaryPasswordOver now user = true := by
  unfold _check_can_authenticate _check_temporary_password expiredTemporaryPassword
  rcases user.registration_status
  · simp [refuse, bind, Except.bind]
  · cases user.is_active
    · simp [refuse, bind, Except.bind]
    · cases temporaryPasswordOver now user
      · simp [refuse, bind, Except.bind, pure, Except.pure]
      · simp [refuse, bind, Except.bind]
  · simp [refuse, bind, Except.bind]

theorem signing_in_eq_expired {now : Time} {username password : String} :
    signing_in s now username password = .error expiredTemporaryPassword ↔
      ∃ user, get_by_username s username = some user ∧
        verify_password password user.password_hash = true ∧
        user.registration_status = .approved ∧ user.is_active = true ∧
        temporaryPasswordOver now user = true := by
  unfold signing_in
  constructor
  · intro h
    rcases hget : get_by_username s username with _ | user
    · rw [hget] at h
      exact absurd (Except.error.inj h) (by decide)
    · rw [hget] at h
      rcases bind_eq_error_iff.mp h with hrefused | ⟨_, hpassed, h⟩
      · exact absurd (refuse_eq_error_iff.mp hrefused).2 (by decide)
      · exact ⟨user, rfl, eq_true_of_ne_false (refuse_eq_ok_iff.mp hpassed),
          account_eq_expired.mp h⟩
  · rintro ⟨user, hget, hverify, haccount⟩
    rw [hget]
    refine bind_eq_error_iff.mpr (.inr ⟨(), ?_, account_eq_expired.mpr haccount⟩)
    exact refuse_of_not _ (by rw [hverify]; simp)

theorem login_eq_expired {pace : Pace} {username password : String} :
    (login settings s pace username password).2 = .error expiredTemporaryPassword ↔
      signing_in s (s.now + pace.check) username password = .error expiredTemporaryPassword := by
  unfold login
  rcases signing_in s (s.now + pace.check) username password with error | user
  · simp [rolledBack]
  · simp

theorem over_of_refresh {pace : Pace} {token : Payload}
    (hget : get_by_id s token.sub = some user)
    (h : (refresh settings s pace token).2 = .error expiredTemporaryPassword) :
    temporaryPasswordOver (s.now + pace.check) user = true := by
  unfold refresh at h
  rcases hrefreshing : refreshing s (s.now + pace.check) token with error | found
  · rw [hrefreshing] at h
    have herror := Except.error.inj h
    subst herror
    unfold refreshing at hrefreshing
    rcases hdecode : decode_token s token with _ | payload
    · rw [hdecode] at hrefreshing
      exact absurd (Except.error.inj hrefreshing) (by decide)
    · obtain ⟨rfl, -⟩ := decode_token_eq_some.mp hdecode
      rw [hdecode] at hrefreshing
      rcases bind_eq_error_iff.mp hrefreshing with hrefused | ⟨_, -, hrest⟩
      · exact absurd (refuse_eq_error_iff.mp hrefused).2 (by decide)
      · rw [hget] at hrest
        exact (account_eq_expired.mp hrest).2.2
  · rw [hrefreshing] at h
    dsimp only at h
    split at h
    · exact absurd (Except.error.inj h) (by decide)
    · split at h
      · exact absurd (Except.error.inj h) (by decide)
      · cases h

/-- Where marked passwords are temporary ones nobody else is refused. -/
theorem onlyTemporary_of_marked
    (h : ∀ user ∈ s.users, Marked user → HasTemporary s user) : OnlyTemporary settings s where
  login pace username password user hget _ hrefused := by
    obtain ⟨found, hfound, -, -, -, hover⟩ := signing_in_eq_expired.mp (login_eq_expired.mp hrefused)
    rw [hget, Option.some.injEq] at hfound
    subst hfound
    exact h user (List.mem_of_find?_eq_some hget) (marked_of_over hover)
  refresh pace token user hget hrefused :=
    h user (get_by_id_some hget).1 (marked_of_over (over_of_refresh hget hrefused))

/-! ## What a request does to the columns -/

/-- The columns that say whether somebody is refused. -/
structure SameMark (user user' : User) : Prop where
  id : user'.id = user.id
  password : user'.password_hash = user.password_hash
  must : user'.must_change_password = user.must_change_password
  expires : user'.temporary_password_expires_at = user.temporary_password_expires_at
  status : user'.registration_status = user.registration_status
  active : user'.is_active = user.is_active

/-- Every row has the columns of a row before, and no temporary password was set. -/
structure Kept (s s' : State) : Prop where
  temporary : s'.temporary = s.temporary
  rows : ∀ user' ∈ s'.users, ∃ user ∈ s.users, SameMark user user'

theorem SameMark.rfl' (user : User) : SameMark user user := ⟨rfl, rfl, rfl, rfl, rfl, rfl⟩

theorem kept_of_eq (htemporary : s'.temporary = s.temporary) (husers : s'.users = s.users) :
    Kept s s' :=
  ⟨htemporary, fun user huser => ⟨user, husers ▸ huser, .rfl' user⟩⟩

theorem kept_revoke_all (s : State) (user_id : ℕ) : Kept s (revoke_all_for_user s user_id) := by
  unfold revoke_all_for_user
  rcases hget : get_by_id s user_id with _ | user
  · exact kept_of_eq rfl rfl
  · refine ⟨rfl, fun row hrow => ?_⟩
    rcases mem_update hrow with hold | rfl
    · exact ⟨row, hold, .rfl' row⟩
    · exact ⟨user, (get_by_id_some hget).1, rfl, rfl, rfl, rfl, rfl, rfl⟩

theorem SameMark.marked (h : SameMark user user') (hmarked : Marked user') : Marked user := by
  rw [Marked, h.must, h.expires] at hmarked
  exact hmarked

theorem Kept.hasTemporary (h : Kept s s') (hsame : SameMark user user') :
    HasTemporary s' user' ↔ HasTemporary s user := by
  rw [HasTemporary, HasTemporary, temporary_of, temporary_of, h.temporary, hsame.id, hsame.password]

/-- Every marked row is of somebody who may sign in. -/
def Standing (s : State) : Prop :=
  ∀ user ∈ s.users, Marked user →
    user.registration_status = .approved ∧ user.is_active = true

/-- Every marked password is the temporary one. -/
def MarkedTemporary (s : State) : Prop := ∀ user ∈ s.users, Marked user → HasTemporary s user

theorem Standing.kept (hs : Standing s) (h : Kept s s') : Standing s' := by
  intro user' huser' hmarked
  obtain ⟨user, huser, hsame⟩ := h.rows user' huser'
  rw [hsame.status, hsame.active]
  exact hs user huser (hsame.marked hmarked)

theorem MarkedTemporary.kept (hs : MarkedTemporary s) (h : Kept s s') : MarkedTemporary s' := by
  intro user' huser' hmarked
  obtain ⟨user, huser, hsame⟩ := h.rows user' huser'
  exact (h.hasTemporary hsame).mpr (hs user huser (hsame.marked hmarked))

/-- What a request does to the passwords: nothing, or it replaces one. -/
inductive Replaces (s s' : State) : Event → Prop
  | nothing (e : Event) (kept : Kept s s') : Replaces s s' e
  | changed (pace : Pace) (user_id : ℕ) (current_password new_password : String) (new : User)
      (unmarked : ¬ Marked new) (kept : Kept (update s new) s') :
      Replaces s s' (.change_password pace user_id current_password new_password)
  | reset (pace : Pace) (token : ℕ) (new_password : String) (reset_token : PasswordResetToken)
      (user : User) (found : resetting s token = some (reset_token, user)) (verified : Option Time)
      (kept : Kept (update s { user with
        password_hash := hash_password new_password, email_verified_at := verified }) s') :
      Replaces s s' (.reset_password pace token new_password)
  | temporary (pace : Pace) (user_id caller_id : ℕ) (password : String) (new : User)
      (approved : new.registration_status = .approved) (active : new.is_active = true)
      (hash : new.password_hash = hash_password password)
      (kept : Kept { update s new with temporary := (new.id, password) :: s.temporary } s') :
      Replaces s s' (.set_temporary_password pace user_id caller_id password)

theorem refresh_kept (pace : Pace) (token : Payload) :
    Kept s (refresh settings s pace token).1 := by
  unfold refresh
  rcases refreshing s (s.now + pace.check) token with error | user
  · exact kept_of_eq rfl rfl
  · dsimp only
    split
    · have hcut := kept_revoke_all (after s (pace.check + pace.next)) user.id
      exact ⟨hcut.temporary, hcut.rows⟩
    · split
      · exact kept_of_eq rfl rfl
      · rw [retire, revoke_rest]
        exact kept_of_eq rfl rfl

theorem logout_kept (user_id : ℕ) (token : Option Payload) : Kept s (logout s user_id token).1 := by
  unfold logout
  rcases token.bind (decode_token s) with _ | payload
  · exact kept_of_eq rfl rfl
  · dsimp only
    split
    · exact kept_of_eq rfl rfl
    · split
      · exact kept_of_eq rfl rfl
      · rw [retire, revoke_rest]
        exact kept_of_eq rfl rfl

theorem login_kept (pace : Pace) (username password : String) :
    Kept s (login settings s pace username password).1 := by
  unfold login
  rcases signing_in s (s.now + pace.check) username password with error | user
  · exact kept_of_eq rfl rfl
  · exact kept_of_eq rfl rfl

theorem request_password_reset_kept (email : String) :
    Kept s (request_password_reset settings s email).1 := by
  unfold request_password_reset
  rcases get_by_email s email with _ | user
  · exact kept_of_eq rfl rfl
  · dsimp only
    split
    · exact kept_of_eq rfl rfl
    · exact kept_of_eq rfl rfl

/-- **What a request does to the passwords.** -/
theorem respond_replaces (e : Event) : Replaces s (respond settings s e).1 e := by
  cases e with
  | login pace username password => exact .nothing _ (login_kept pace username password)
  | refresh pace token => exact .nothing _ (refresh_kept pace token)
  | logout user_id token => exact .nothing _ (logout_kept user_id token)
  | logout_all user_id => exact .nothing _ (kept_revoke_all s user_id)
  | request_password_reset email => exact .nothing _ (request_password_reset_kept email)
  | wait duration => exact .nothing _ (kept_of_eq rfl rfl)
  | change_password pace user_id current_password new_password =>
    unfold respond change_password
    dsimp only
    rcases changing s user_id current_password new_password with error | user
    · exact .nothing _ (kept_of_eq rfl rfl)
    · let new : User := { user with
        password_hash := hash_password new_password
        must_change_password := false
        temporary_password_expires_at := none }
      -- the password is the user's own now, and the old tokens are cut off after it
      have hcut := kept_revoke_all (after (update s new) pace.check) user.id
      exact .changed pace user_id current_password new_password new (fun h => (nomatch h.1))
        ⟨hcut.temporary, hcut.rows⟩
  | reset_password pace token new_password =>
    unfold respond reset_password
    dsimp only
    rcases hresetting : resetting s token with _ | ⟨reset_token, user⟩
    · exact .nothing _ (kept_of_eq rfl rfl)
    -- who can follow the link has the address
    · let verified := user.email_verified_at.or (some (s.now + pace.check))
      let new : User := { user with
        password_hash := hash_password new_password, email_verified_at := verified }
      have hcut := kept_revoke_all
        (after (mark_used (update s new) reset_token s.now) (pace.check + pace.next)) user.id
      exact .reset pace token new_password reset_token user hresetting verified
        ⟨hcut.temporary, hcut.rows⟩
  | set_temporary_password pace user_id caller_id password =>
    unfold respond set_temporary_password
    dsimp only
    rcases hlocked : locked_out s user_id caller_id with error | user
    · exact .nothing _ (kept_of_eq rfl rfl)
    -- the one branch that sets a temporary password, for a user who may sign in
    · obtain ⟨-, hactive, happroved⟩ := locked_out_eq_ok hlocked
      let new : User := { user with
        password_hash := hash_password password
        must_change_password := true
        temporary_password_expires_at :=
          some (s.now + seconds (settings.TEMPORARY_PASSWORD_EXPIRE_HOURS * 3600)) }
      have hcut := kept_revoke_all { after (update s new) pace.next with
        temporary := (user.id, password) :: s.temporary } user.id
      exact .temporary pace user_id caller_id password new happroved hactive rfl
        ⟨hcut.temporary, hcut.rows⟩

/-! ## Runs -/

/-- A row after a write is the written one, or another one that was there. -/
theorem mem_update_of_ne {new row : User} (h : row ∈ (update s new).users) :
    row = new ∨ row ∈ s.users ∧ row.id ≠ new.id := by
  obtain ⟨old, hold, rfl⟩ := List.mem_map.mp h
  by_cases hid : old.id = new.id
  · rw [if_pos hid]
    exact .inl rfl
  · rw [if_neg hid]
    exact .inr ⟨hold, hid⟩

theorem Standing.replaces (hs : Standing s) (h : Replaces s s' e) : Standing s' := by
  cases h with
  | nothing _ kept => exact hs.kept kept
  | changed pace user_id current_password new_password new unmarked kept =>
    refine Standing.kept (fun row hrow hmarked => ?_) kept
    rcases mem_update_of_ne hrow with rfl | ⟨hold, -⟩
    · exact absurd hmarked unmarked
    · exact hs row hold hmarked
  | reset pace token new_password reset_token user found verified kept =>
    refine Standing.kept (fun row hrow hmarked => ?_) kept
    rcases mem_update_of_ne hrow with rfl | ⟨hold, -⟩
    · exact hs user (get_by_id_some (resetting_eq_some found).1).1 hmarked
    · exact hs row hold hmarked
  | temporary pace user_id caller_id password new approved active hash kept =>
    refine Standing.kept (fun row hrow hmarked => ?_) kept
    rcases mem_update_of_ne hrow with rfl | ⟨hold, -⟩
    · exact ⟨approved, active⟩
    · exact hs row hold hmarked

theorem MarkedTemporary.replaces (hs : MarkedTemporary s) (h : Replaces s s' e)
    (hreset : resetsUnmarked s e = true) : MarkedTemporary s' := by
  cases h with
  | nothing _ kept => exact hs.kept kept
  | changed pace user_id current_password new_password new unmarked kept =>
    refine MarkedTemporary.kept (fun row hrow hmarked => ?_) kept
    rcases mem_update_of_ne hrow with rfl | ⟨hold, -⟩
    · exact absurd hmarked unmarked
    · exact hs row hold hmarked
  | reset pace token new_password reset_token user found verified kept =>
    rw [resetsUnmarked, found, Option.all_some, decide_eq_true_eq] at hreset
    refine MarkedTemporary.kept (fun row hrow hmarked => ?_) kept
    rcases mem_update_of_ne hrow with rfl | ⟨hold, -⟩
    · exact hreset.resolve_left (not_not_intro hmarked)
    · exact hs row hold hmarked
  | temporary pace user_id caller_id password new approved active hash kept =>
    refine MarkedTemporary.kept (fun row hrow hmarked => ?_) kept
    rcases mem_update_of_ne hrow with rfl | ⟨hold, hne⟩
    · rw [HasTemporary, temporary_of, hash]
      simp [hash_password]
    · have htemporary := hs row hold hmarked
      rw [HasTemporary, temporary_of] at htemporary ⊢
      rw [List.find?_cons_of_neg (by simpa using hne.symm)]
      exact htemporary

/-! ### The keys of the table -/

/-- The unique columns of `users`. -/
structure Keys (s : State) : Prop where
  ids : (s.users.map User.id).Nodup
  usernames : (s.users.map User.username).Nodup

theorem Keys.update (hs : Keys s) {old new : User} (hfound : get_by_id s old.id = some old)
    (hid : new.id = old.id) (husername : new.username = old.username) :
    Keys (auth_service.update s new) := by
  have hsame : ∀ row ∈ s.users, row.id = new.id → row = old := fun row hrow hrowId =>
    List.inj_on_of_nodup_map hs.ids hrow (get_by_id_some hfound).1 (hrowId.trans hid)
  have hids : (auth_service.update s new).users.map User.id = s.users.map User.id := by
    rw [auth_service.update, List.map_map]
    refine List.map_congr_left fun row hrow => ?_
    by_cases hrowId : row.id = new.id
    · simp [hrowId]
    · simp [hrowId]
  have husernames : (auth_service.update s new).users.map User.username
      = s.users.map User.username := by
    rw [auth_service.update, List.map_map]
    refine List.map_congr_left fun row hrow => ?_
    by_cases hrowId : row.id = new.id
    · rw [hsame row hrow hrowId]
      simp [hid, husername]
    · simp [hrowId]
  exact ⟨hids ▸ hs.ids, husernames ▸ hs.usernames⟩

theorem Keys.write (s s' : State) (hs : Keys s) (hwrite : Write settings s s') : Keys s' := by
  cases hwrite with
  | after duration => exact ⟨hs.ids, hs.usernames⟩
  | aside draw le reset_tokens temporary => exact ⟨hs.ids, hs.usernames⟩
  | row old new found id username cutoff => exact hs.update found id username
  | cutoff user_id =>
    unfold revoke_all_for_user
    rcases hget : get_by_id s user_id with _ | user
    · exact hs
    · exact hs.update (found_by_own_id hget) rfl rfl
  | retire token issued type user_id reason =>
    rw [retire, revoke_rest]
    exact ⟨hs.ids, hs.usernames⟩
  | tokens pace subject => exact ⟨hs.ids, hs.usernames⟩

/-- A row is found by its username. -/
theorem Keys.get_by_username (hs : Keys s) (huser : user ∈ s.users) :
    auth_service.get_by_username s user.username = some user := by
  rcases hget : auth_service.get_by_username s user.username with _ | found
  · have hnone := List.find?_eq_none.mp hget user huser
    simp at hnone
  · have hname := List.find?_some hget
    rw [decide_eq_true_eq] at hname
    rw [List.inj_on_of_nodup_map hs.usernames (List.mem_of_find?_eq_some hget) huser hname]

/-! ### A reset that leaves somebody marked -/

/-- The row that a reset leaves. -/
theorem row_after_reset (pace : Pace) {token : ℕ} (new_password : String)
    {reset_token : PasswordResetToken} (hfound : resetting s token = some (reset_token, user)) :
    ∃ row, get_by_id (reset_password s pace token new_password).1 user.id = some row ∧
      row.password_hash = hash_password new_password ∧
      row.must_change_password = user.must_change_password ∧
      row.temporary_password_expires_at = user.temporary_password_expires_at ∧
      row.registration_status = user.registration_status ∧ row.is_active = user.is_active := by
  have hget := found_by_own_id (resetting_eq_some hfound).1
  let new : User := { user with
    password_hash := hash_password new_password
    email_verified_at := user.email_verified_at.or (some (s.now + pace.check)) }
  have hcut := get_by_id_revoke_all
    (after (mark_used (update s new) reset_token s.now) (pace.check + pace.next)) user.id user.id
  have hupdate : get_by_id (update s new) user.id = some new := by
    rw [get_by_id_update, if_pos rfl, hget]
    rfl
  have hrow : get_by_id (after (mark_used (update s new) reset_token s.now)
      (pace.check + pace.next)) user.id = some new := hupdate
  rw [hrow, Option.map_some, if_pos rfl] at hcut
  refine ⟨{ new with tokens_valid_from := s.now + (pace.check + pace.next) }, ?_,
    rfl, rfl, rfl, rfl, rfl⟩
  unfold reset_password
  rw [hfound]
  exact hcut

theorem resetsUnmarked_of_onlyTemporary (hkeys : Keys (respond settings s e).1)
    (hstanding : Standing s) (h : OnlyTemporary settings (respond settings s e).1) :
    resetsUnmarked s e = true := by
  cases e with
  | reset_password pace token new_password =>
    rw [resetsUnmarked, Option.all_eq_true]
    rintro ⟨reset_token, user⟩ hfound
    rw [decide_eq_true_eq]
    by_cases hmarked : Marked user
    · right
      have huser := (get_by_id_some (resetting_eq_some hfound).1).1
      obtain ⟨happroved, hactive⟩ := hstanding user huser hmarked
      obtain ⟨row, hrow, hhash, hmust, hexpires, hstatus, hrowActive⟩ :=
        row_after_reset pace new_password hfound
      have hrowMarked : Marked row := by
        rw [Marked, hmust, hexpires]
        exact hmarked
      -- once the columns say so, a login with the new password is refused
      obtain ⟨duration, hover⟩ := exists_over hrowMarked (reset_password s pace token new_password).1.now
      have hmem := get_by_id_some hrow
      have hverify : verify_password new_password row.password_hash = true := by
        rw [hhash, verify_password, decide_eq_true_eq]
      have hrefused := h.login { check := duration } row.username new_password row
        (hkeys.get_by_username hmem.1) hverify (login_eq_expired.mpr (signing_in_eq_expired.mpr
          ⟨row, hkeys.get_by_username hmem.1, hverify, hstatus.trans happroved,
            hrowActive.trans hactive, hover⟩))
      have htemporary : (respond settings s (.reset_password pace token new_password)).1.temporary
          = s.temporary := by
        unfold respond reset_password
        dsimp only
        rw [hfound]
        dsimp only
        rw [revoke_all_rest]
        rfl
      rw [HasTemporary, temporary_of, htemporary, hmem.2, hhash] at hrefused
      exact hrefused
    · exact .inl hmarked
  | _ => rfl

/-- **Temporary passwords.** Over a history of requests only temporary passwords are refused
as expired, after each of them, exactly when every reset that goes through finds the columns
clear or is to the temporary password itself. -/
theorem only_temporary_refused_iff (settings : Settings) {s : State} (hs : NobodyMarked s)
    (es : List Event) :
    Along (step settings) (fun s e => ∀ s', step settings s e = some s' → OnlyTemporary settings s')
        s es ↔
      Along (step settings) (fun s e => resetsUnmarked s e = true) s es := by
  constructor
  · refine along_of_invariant (I := fun s => Keys s ∧ Standing s) ?_ ?_
      ⟨⟨hs.ids, hs.usernames⟩, fun user huser hmarked => absurd hmarked (hs.unmarked user huser)⟩
    · rintro t e t' ⟨hkeys, hstanding⟩ - hstep
      have hkeys' : Keys t' := run_preserves Keys.write hkeys
        (run_cons_eq_some_iff.mpr ⟨t', hstep, run_nil t'⟩)
      rw [← Option.some.inj hstep] at hkeys' ⊢
      exact ⟨hkeys', hstanding.replaces (respond_replaces e)⟩
    · rintro t e ⟨hkeys, hstanding⟩ honly
      have hkeys' : Keys (respond settings t e).1 := run_preserves Keys.write hkeys
        (run_cons_eq_some_iff.mpr ⟨_, rfl, run_nil _⟩)
      exact resetsUnmarked_of_onlyTemporary hkeys' hstanding (honly _ rfl)
  · refine along_of_invariant (I := MarkedTemporary) ?_ ?_
      fun user huser hmarked => absurd hmarked (hs.unmarked user huser)
    · intro t e t' ht hreset hstep
      rw [← Option.some.inj hstep]
      exact ht.replaces (respond_replaces e) hreset
    · intro t e ht hreset t' hstep
      rw [← Option.some.inj hstep]
      exact onlyTemporary_of_marked (ht.replaces (respond_replaces e) hreset)

/-! ### Somebody who was locked out -/

/-- A temporary password is set, its holder resets the password by mail after all, and a
day passes. -/
def lockedOut : List Event :=
  [.request_password_reset "alice@example.com",
    .set_temporary_password {} 1 2 "abcde-fghjk-mnpqr",
    .reset_password {} 0 "battery staple",
    .wait (seconds 86401)]

theorem nobodyMarked_alone : NobodyMarked alone := ⟨by decide, by decide, by decide⟩

theorem only_temporary_refused_iff_alone :
    Along (step defaultSettings)
        (fun s e => ∀ s', step defaultSettings s e = some s' → OnlyTemporary defaultSettings s')
        alone lockedOut ↔
      Along (step defaultSettings) (fun s e => resetsUnmarked s e = true) alone lockedOut :=
  only_temporary_refused_iff defaultSettings nobodyMarked_alone lockedOut

/-- The password that she chose through the link is refused as the expired temporary one. -/
theorem chosen_password_refused :
    ∃ s, run (step defaultSettings) alone lockedOut = some s ∧
      (login defaultSettings s {} "alice" "battery staple").2 = .error expiredTemporaryPassword ∧
      temporary_of s 1 = some "abcde-fghjk-mnpqr" ∧
      (get_by_id s 1).map User.password_hash = some (hash_password "battery staple") :=
  ⟨_, rfl, by decide +kernel, by decide +kernel, by decide +kernel⟩

end PaCopilot.auth_service

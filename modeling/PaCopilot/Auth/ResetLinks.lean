/-
Password reset links, used one after another and next to each other.

`reset_password` reads the row of its link and the user, `change_password` the user whose
password it checks, and neither takes a lock. What a call has found in order it writes later,
whatever was committed in between. `mark_used` retires the link that was used, and no other:
the links that a person was sent before stay open until they expire.

The writes of a call begin with the row of the user, which holds back the writes of others until
the commit. So they are one step here. The tokens that `change_password` returns are left out.
-/
import PaCopilot.Auth.Revocation

set_option autoImplicit false

namespace PaCopilot.auth_service.links

open Run
open reports (Time seconds column)

/-! ## Calls -/

inductive Call
  | reset_password (token : ℕ) (new_password : String)
  | change_password (user_id : ℕ) (current_password new_password : String)
  deriving DecidableEq

/-- A call that has passed its checks: what it has read, and the password that it sets. -/
inductive Flight
  | reset_password (reset_token : PasswordResetToken) (user : User) (now : Time)
      (new_password : String)
  | change_password (user : User) (new_password : String)
  deriving DecidableEq

/-- The user whose password a call sets. -/
def Flight.user : Flight → User
  | .reset_password _ user _ _ => user
  | .change_password user _ => user

/-- The link by which it does. -/
def Flight.link : Flight → Option ℕ
  | .reset_password reset_token _ _ _ => some reset_token.token_hash
  | .change_password _ _ => none

section Statements

variable (s : State)

/-- What a call reads and checks. A call that is refused raises, and leaves nothing. -/
def Call.read : Call → Option Flight
  | .reset_password token new_password =>
    (resetting s token).map fun (reset_token, user) =>
      .reset_password reset_token user s.now new_password
  | .change_password user_id current_password new_password =>
    match changing s user_id current_password new_password with
    | .error _ => none
    | .ok user => some (.change_password user new_password)

/-- The row of a user after a flush. A new hash differs from the one before it in any case. -/
def flush (read new stored : User) : User :=
  { stored with
    password_hash := new.password_hash
    email_verified_at := column read.email_verified_at new.email_verified_at
      stored.email_verified_at
    must_change_password := column read.must_change_password new.must_change_password
      stored.must_change_password
    temporary_password_expires_at := column read.temporary_password_expires_at
      new.temporary_password_expires_at stored.temporary_password_expires_at }

/-- The table with the changes to a user that was read. -/
def flushed (read new : User) : State :=
  { s with users := s.users.map fun row => if row.id = read.id then flush read new row else row }

/-- What a call writes before it commits. -/
def Flight.write : Flight → State
  | .reset_password reset_token user now new_password =>
    let s := flushed s user { user with
      password_hash := hash_password new_password
      email_verified_at := user.email_verified_at.or (some s.now) }
    revoke_all_for_user (mark_used s reset_token now) user.id
  | .change_password user new_password =>
    let s := flushed s user { user with
      password_hash := hash_password new_password
      must_change_password := false
      temporary_password_expires_at := none }
    revoke_all_for_user s user.id

end Statements

/-! ## Histories -/

/-- A link was issued to a user; a user has set a new password, by a link or without one. -/
inductive Entry
  | issued (user_id token : ℕ)
  | set (user_id : ℕ) (link : Option ℕ)
  deriving DecidableEq

def issuedEntry (row : PasswordResetToken) : Entry := .issued row.user_id row.token_hash

/-- What is committed, the calls between their reads and their writes, and what has happened. -/
structure Links where
  db : State
  flights : List Flight
  log : List Entry
  deriving DecidableEq

/-- A history begins with the links of a table. -/
def opened (db : State) : Links := ⟨db, [], db.reset_tokens.map issuedEntry⟩

inductive Event
  | request_password_reset (email : String)
  /-- A call reads. -/
  | read (call : Call)
  /-- One of the calls writes and commits. -/
  | commit (n : ℕ)
  /-- One of them is rolled back. -/
  | fail (n : ℕ)
  | wait (duration : Time)
  deriving DecidableEq

def step (settings : Settings) (σ : Links) : Event → Option Links
  | .request_password_reset email =>
    let db := (request_password_reset settings σ.db email).1
    let rows := db.reset_tokens.drop σ.db.reset_tokens.length
    some { σ with db := db, log := σ.log ++ rows.map issuedEntry }
  | .read call => some { σ with flights := σ.flights ++ (call.read σ.db).toList }
  | .commit n => σ.flights[n]?.map fun f =>
    { db := f.write σ.db
      flights := σ.flights.eraseIdx n
      log := σ.log ++ [.set f.user.id f.link] }
  | .fail n => σ.flights[n]?.map fun _ => { σ with flights := σ.flights.eraseIdx n }
  | .wait duration => some { σ with db := after σ.db duration }

/-! ## What is asked -/

/-- A link was issued to a person who has set a new password since. -/
def Retired (log : List Entry) (token : ℕ) : Prop :=
  ∃ before user_id link after, log = before ++ .set user_id link :: after ∧
    .issued user_id token ∈ before

/-- After a person has set a new password, no link sets one that was issued to them before. And
each link sets one at most once. -/
structure Lawful (log : List Entry) : Prop where
  retired : ∀ before user_id link after, log = before ++ .set user_id link :: after →
    ∀ token, .issued user_id token ∈ before → ∀ other, .set other (some token) ∉ after
  once : ∀ token before user_id after, log = before ++ .set user_id (some token) :: after →
    ∀ other, .set other (some token) ∉ before ++ after

/-- No retired link can set a password any more: it is refused, and no call is past its checks
with it. -/
def Closed (σ : Links) : Prop :=
  ∀ token, Retired σ.log token →
    resetting σ.db token = none ∧ ∀ f ∈ σ.flights, f.link ≠ some token

/-- A step leaves no retired link open. -/
def Closes (settings : Settings) (σ : Links) (x : Event) : Prop :=
  ∀ σ', step settings σ x = some σ' → Closed σ'

/-- Whenever a person sets a password, each other link of theirs is refused, and no other call
is past its checks with one. -/
def OnlyLink (σ : Links) : Event → Prop
  | .commit n => ∀ f, σ.flights[n]? = some f → ∀ row ∈ σ.db.reset_tokens,
    row.user_id = f.user.id →
      (f.link = some row.token_hash ∨ resetting σ.db row.token_hash = none) ∧
        ∀ g ∈ σ.flights.eraseIdx n, g.link ≠ some row.token_hash
  | _ => True

/-! ## What a link is refused for -/

section Rows

variable {s s' : State} {token : ℕ} {f : Flight}

theorem get_by_token_hash_some {row : PasswordResetToken} (h : get_by_token_hash s token = some row) :
    row ∈ s.reset_tokens ∧ row.token_hash = token := by
  have hhash := List.find?_some h
  exact ⟨List.mem_of_find?_eq_some h, of_decide_eq_true hhash⟩

theorem resetting_eq_none : resetting s token = none ↔
    ∀ row, get_by_token_hash s token = some row → row.used_at ≠ none ∨ row.expires_at < s.now ∨
      (get_by_id s row.user_id).map User.is_active ≠ some true := by
  cases hrow : get_by_token_hash s token with
  | none => simp [resetting, hrow]
  | some row =>
    cases huser : get_by_id s row.user_id with
    | none => simp [resetting, hrow, huser]
    | some user =>
      simp only [resetting, hrow, huser, Option.bind_eq_bind, Option.bind_some, ite_eq_left_iff,
        Option.some.injEq, forall_eq', Option.map_some, reduceCtorEq, imp_false, ne_eq,
        Bool.not_eq_true, Bool.not_eq_false]
      tauto

/-- A link is refused alike where its row, the clock and the accounts are alike. -/
theorem resetting_congr (hrow : get_by_token_hash s' token = get_by_token_hash s token)
    (hnow : s'.now = s.now)
    (hactive : ∀ id, (get_by_id s' id).map User.is_active = (get_by_id s id).map User.is_active) :
    resetting s' token = none ↔ resetting s token = none := by
  rw [resetting_eq_none, resetting_eq_none, hrow, hnow]
  simp only [hactive]

/-- What is refused stays refused while time passes. -/
theorem resetting_after (h : resetting s token = none) (duration : Time) :
    resetting (after s duration) token = none := by
  rw [resetting_eq_none] at h ⊢
  intro row hrow
  rcases h row hrow with hused | hover | hactive
  · exact .inl hused
  · exact .inr (.inl (Nat.lt_of_lt_of_le hover (Nat.le_add_right ..)))
  · exact .inr (.inr hactive)

theorem resetting_some {reset_token : PasswordResetToken} {user : User}
    (h : resetting s token = some (reset_token, user)) :
    reset_token ∈ s.reset_tokens ∧ reset_token.token_hash = token ∧
      reset_token.user_id = user.id := by
  have huser := (get_by_id_some (resetting_eq_some h).1).2
  cases hrow : get_by_token_hash s token with
  | none => simp [resetting, hrow] at h
  | some row =>
    have hfound : row = reset_token := by
      simp only [resetting, hrow, Option.bind_eq_bind, Option.bind_some,
        Option.ite_none_left_eq_some, Option.bind_eq_some_iff, Option.some.injEq,
        Prod.mk.injEq] at h
      obtain ⟨-, found, -, -, hsame, -⟩ := h
      exact hsame
    obtain ⟨hmem, hhash⟩ := get_by_token_hash_some hrow
    rw [hfound] at hmem hhash
    exact ⟨hmem, hhash, huser.symm⟩

theorem get_by_id_flushed (read new : User) (id : ℕ) :
    get_by_id (flushed s read new) id =
      (get_by_id s id).map fun row => if row.id = read.id then flush read new row else row := by
  rw [get_by_id, get_by_id, flushed]
  dsimp only
  rw [List.find?_map]
  congr 2
  funext row
  rw [Function.comp_apply]
  split <;> rfl

theorem get_by_token_hash_mark_used (row : PasswordResetToken) (used_at : Time) :
    get_by_token_hash (mark_used s row used_at) token =
      (get_by_token_hash s token).map fun found =>
        if found.token_hash = row.token_hash then { found with used_at := some used_at }
        else found := by
  rw [get_by_token_hash, get_by_token_hash, mark_used]
  dsimp only
  rw [List.find?_map]
  congr 2
  funext found
  rw [Function.comp_apply]
  split <;> rfl

/-- A call that writes leaves the clock and the accounts. -/
theorem write_rest (f : Flight) (s : State) : (f.write s).now = s.now ∧
    ∀ id, (get_by_id (f.write s) id).map User.is_active = (get_by_id s id).map User.is_active := by
  have hflushed : ∀ (read new : User) (id : ℕ),
      (get_by_id (flushed s read new) id).map User.is_active
        = (get_by_id s id).map User.is_active := by
    intro read new id
    rw [get_by_id_flushed, Option.map_map]
    congr 1
    funext row
    rw [Function.comp_apply]
    split <;> rfl
  have hrevoked : ∀ (t : State) (user_id id : ℕ),
      (get_by_id (revoke_all_for_user t user_id) id).map User.is_active
        = (get_by_id t id).map User.is_active := by
    intro t user_id id
    rw [get_by_id_revoke_all, Option.map_map]
    congr 1
    funext row
    rw [Function.comp_apply]
    split <;> rfl
  cases f with
  | reset_password reset_token user now new_password =>
    refine ⟨?_, fun id => (hrevoked ..).trans (hflushed ..)⟩
    rw [Flight.write, revoke_all_rest]
    rfl
  | change_password user new_password =>
    refine ⟨?_, fun id => (hrevoked ..).trans (hflushed ..)⟩
    rw [Flight.write, revoke_all_rest]
    rfl

theorem write_reset_tokens (f : Flight) (s : State) :
    (f.write s).reset_tokens = match f with
      | .reset_password reset_token _ now _ => (mark_used s reset_token now).reset_tokens
      | .change_password _ _ => s.reset_tokens := by
  cases f with
  | reset_password | change_password =>
    rw [Flight.write, revoke_all_rest]
    rfl

/-- The table has the same links afterwards. -/
theorem write_entries (f : Flight) (s : State) :
    (f.write s).reset_tokens.map issuedEntry = s.reset_tokens.map issuedEntry := by
  rw [write_reset_tokens]
  cases f with
  | change_password => rfl
  | reset_password reset_token user now new_password =>
    dsimp only
    rw [mark_used, List.map_map]
    refine List.map_congr_left fun row _ => ?_
    rw [Function.comp_apply]
    split <;> rfl

/-- **A call retires the link that it uses, and no other.** -/
theorem resetting_write (f : Flight) (s : State) (token : ℕ) :
    resetting (f.write s) token = none ↔ f.link = some token ∨ resetting s token = none := by
  obtain ⟨hnow, hactive⟩ := write_rest f s
  have hrow : get_by_token_hash (f.write s) token = (get_by_token_hash s token).map fun found =>
      match f with
      | .reset_password reset_token _ now _ =>
        if found.token_hash = reset_token.token_hash then { found with used_at := some now }
        else found
      | .change_password _ _ => found := by
    cases f with
    | change_password user new_password =>
      rw [get_by_token_hash, write_reset_tokens]
      exact Option.map_id'.symm
    | reset_password reset_token user now new_password =>
      rw [← get_by_token_hash_mark_used, get_by_token_hash, write_reset_tokens]
      rfl
  -- the row of the link that was used is marked; every other one is as it was
  by_cases hlink : f.link = some token
  · refine ⟨fun _ => .inl hlink, fun _ => resetting_eq_none.mpr fun row hfound => ?_⟩
    cases f with
    | change_password user new_password => cases hlink
    | reset_password reset_token user now new_password =>
      rw [hrow] at hfound
      obtain ⟨found, hold, hmarked⟩ := Option.map_eq_some_iff.mp hfound
      have hhash := (get_by_token_hash_some hold).2
      have hown : found.token_hash = reset_token.token_hash :=
        hhash.trans (Option.some.inj hlink).symm
      dsimp only at hmarked
      rw [if_pos hown] at hmarked
      rw [← hmarked]
      exact .inl (Option.some_ne_none _)
  · have hsame : get_by_token_hash (f.write s) token = get_by_token_hash s token := by
      rw [hrow]
      cases hold : get_by_token_hash s token with
      | none => rfl
      | some found =>
        have hhash := (get_by_token_hash_some hold).2
        cases f with
        | change_password user new_password => rfl
        | reset_password reset_token user now new_password =>
          have hother : found.token_hash ≠ reset_token.token_hash :=
            fun heq => hlink (congrArg some (heq.symm.trans hhash))
          rw [Option.map_some]
          dsimp only
          rw [if_neg hother]
    rw [resetting_congr hsame hnow hactive]
    exact ⟨.inr, fun h => h.resolve_left hlink⟩

/-- What is flushed with nothing committed in between is the row as it was set. -/
theorem flushed_alone {user new : User} (hids : (s.users.map User.id).Nodup)
    (huser : get_by_id s user.id = some user) (hnew : flush user new user = new)
    (hid : new.id = user.id) : flushed s user new = update s new := by
  have hmem := (get_by_id_some huser).1
  rw [flushed, update, hid]
  congr 1
  refine List.map_congr_left fun row hrow => ?_
  by_cases hown : row.id = user.id
  · have hsame : row = user := List.inj_on_of_nodup_map hids hrow hmem hown
    rw [if_pos hown, if_pos hown, hsame, hnew]
  · rw [if_neg hown, if_neg hown]

/-- **A link that is used with nothing committed in between** is used as `reset_password` says. -/
theorem write_alone {reset_token : PasswordResetToken} {user : User}
    (hids : (s.users.map User.id).Nodup) (h : resetting s token = some (reset_token, user))
    (new_password : String) :
    (Flight.reset_password reset_token user s.now new_password).write s
      = (reset_password s {} token new_password).1 := by
  have huser := found_by_own_id (resetting_eq_some h).1
  have hnew : flush user { user with
        password_hash := hash_password new_password
        email_verified_at := user.email_verified_at.or (some s.now) } user
      = { user with
        password_hash := hash_password new_password
        email_verified_at := user.email_verified_at.or (some s.now) } := by
    simp only [flush, reports.column_self]
  have hflushed := flushed_alone hids huser hnew rfl
  rw [Flight.write, reset_password, h]
  dsimp only
  rw [hflushed]
  rfl

/-- A link that is asked for is a new row, and nothing else changes. -/
theorem request_spec (settings : Settings) (s : State) (email : String) :
    ∃ rows, (request_password_reset settings s email).1.reset_tokens = s.reset_tokens ++ rows ∧
      (request_password_reset settings s email).1.now = s.now ∧
      (request_password_reset settings s email).1.users = s.users := by
  rw [request_password_reset]
  cases get_by_email s email with
  | none => exact ⟨[], (List.append_nil _).symm, rfl, rfl⟩
  | some user =>
    dsimp only
    split
    · exact ⟨[], (List.append_nil _).symm, rfl, rfl⟩
    · exact ⟨_, rfl, rfl, rfl⟩

end Rows

/-! ## The log -/

section Log

variable {log before after : List Entry} {user_id token : ℕ} {link : Option ℕ}
  {rows : List PasswordResetToken}

theorem set_not_issued : Entry.set user_id link ∉ rows.map issuedEntry := by
  intro h
  obtain ⟨row, -, heq⟩ := List.mem_map.mp h
  cases heq

/-- A password that was set in a longer log was set before the links were issued. -/
theorem set_before_issued (h : log ++ rows.map issuedEntry = before ++ .set user_id link :: after) :
    ∃ more, log = before ++ .set user_id link :: more ∧ after = more ++ rows.map issuedEntry := by
  rcases List.append_eq_append_iff.mp h with ⟨middle, -, hrows⟩ | ⟨middle, hlog, hrest⟩
  · have hmem : Entry.set user_id link ∈ rows.map issuedEntry := by
      rw [hrows]
      exact List.mem_append_right _ List.mem_cons_self
    exact absurd hmem set_not_issued
  · cases middle with
    | nil =>
      have hmem : Entry.set user_id link ∈ rows.map issuedEntry := by
        rw [List.nil_append] at hrest
        rw [← hrest]
        exact List.mem_cons_self
      exact absurd hmem set_not_issued
    | cons e more =>
      rw [List.cons_append, List.cons.injEq] at hrest
      obtain ⟨rfl, rfl⟩ := hrest
      exact ⟨more, hlog, rfl⟩

/-- A password that was set in a longer log is the last entry, or was set before. -/
theorem set_before_last {e : Entry} (h : log ++ [e] = before ++ .set user_id link :: after) :
    (after = [] ∧ before = log ∧ e = .set user_id link) ∨
      ∃ more, log = before ++ .set user_id link :: more ∧ after = more ++ [e] := by
  rcases List.eq_nil_or_concat after with rfl | ⟨more, last, rfl⟩
  · obtain ⟨hlog, he⟩ := List.append_inj' h rfl
    exact .inl ⟨rfl, hlog.symm, (List.cons.inj he).1⟩
  · rw [List.concat_eq_append, ← List.cons_append, ← List.append_assoc] at h
    obtain ⟨hlog, he⟩ := List.append_inj' h rfl
    obtain ⟨rfl, -⟩ := List.cons.inj he
    exact .inr ⟨more, hlog, List.concat_eq_append⟩

theorem retired_append_issued : Retired (log ++ rows.map issuedEntry) token ↔ Retired log token := by
  constructor
  · rintro ⟨before, user_id, link, after, heq, hissued⟩
    obtain ⟨more, hlog, -⟩ := set_before_issued heq
    exact ⟨before, user_id, link, more, hlog, hissued⟩
  · rintro ⟨before, user_id, link, after, rfl, hissued⟩
    refine ⟨before, user_id, link, after ++ rows.map issuedEntry, ?_, hissued⟩
    rw [List.append_assoc, List.cons_append]

theorem retired_append_set : Retired (log ++ [.set user_id link]) token ↔
    Retired log token ∨ .issued user_id token ∈ log := by
  constructor
  · rintro ⟨before, other, by_, after, heq, hissued⟩
    rcases set_before_last heq with ⟨-, rfl, he⟩ | ⟨more, hlog, -⟩
    · cases he
      exact .inr hissued
    · exact .inl ⟨before, other, by_, more, hlog, hissued⟩
  · rintro (⟨before, other, by_, after, rfl, hissued⟩ | hissued)
    · refine ⟨before, other, by_, after ++ [.set user_id link], ?_, hissued⟩
      rw [List.append_assoc, List.cons_append]
    · exact ⟨log, user_id, link, [], rfl, hissued⟩

theorem lawful_append_issued (h : Lawful log) : Lawful (log ++ rows.map issuedEntry) where
  retired before user_id link after heq token hissued other hset := by
    obtain ⟨more, hlog, rfl⟩ := set_before_issued heq
    rcases List.mem_append.mp hset with hmem | hmem
    · exact h.retired before user_id link more hlog token hissued other hmem
    · exact set_not_issued hmem
  once token before user_id after heq other hset := by
    obtain ⟨more, hlog, rfl⟩ := set_before_issued heq
    rw [← List.append_assoc] at hset
    rcases List.mem_append.mp hset with hmem | hmem
    · exact h.once token before user_id more hlog other hmem
    · exact set_not_issued hmem

/-- A password that is set by no retired link, and by none that has set one. -/
theorem lawful_append_set (h : Lawful log)
    (hsets : ∀ before user_id token after, log = before ++ .set user_id (some token) :: after →
      .issued user_id token ∈ before)
    (hlink : ∀ token, link = some token → ¬ Retired log token) :
    Lawful (log ++ [.set user_id link]) where
  retired before user link' after heq token hissued other hset := by
    rcases set_before_last heq with ⟨rfl, -, -⟩ | ⟨more, hlog, rfl⟩
    · exact absurd hset List.not_mem_nil
    · rcases List.mem_append.mp hset with hmem | hmem
      · exact h.retired before user link' more hlog token hissued other hmem
      · cases List.mem_singleton.mp hmem
        exact hlink token rfl ⟨before, user, link', more, hlog, hissued⟩
  once token before user after heq other hset := by
    rcases set_before_last heq with ⟨rfl, rfl, he⟩ | ⟨more, hlog, rfl⟩
    · cases he
      rw [List.append_nil] at hset
      obtain ⟨first, rest, hsplit⟩ := List.append_of_mem hset
      exact hlink token rfl ⟨first, other, some token, rest, hsplit, hsets first other token rest hsplit⟩
    · rw [← List.append_assoc] at hset
      rcases List.mem_append.mp hset with hmem | hmem
      · exact h.once token before user more hlog other hmem
      · cases List.mem_singleton.mp hmem
        exact hlink token rfl
          ⟨before, user, some token, more, hlog, hsets before user token more hlog⟩

end Log

/-! ## Steps -/

/-- The log says which links there are, and each link was issued before it is used. -/
structure Sound (σ : Links) : Prop where
  issued : ∀ user_id token, .issued user_id token ∈ σ.log ↔
    .issued user_id token ∈ σ.db.reset_tokens.map issuedEntry
  flights : ∀ f ∈ σ.flights, ∀ token, f.link = some token → .issued f.user.id token ∈ σ.log
  sets : ∀ before user_id token after, σ.log = before ++ .set user_id (some token) :: after →
    .issued user_id token ∈ before

theorem issued_iff {rows : List PasswordResetToken} {user_id token : ℕ} :
    .issued user_id token ∈ rows.map issuedEntry ↔
      ∃ row ∈ rows, row.user_id = user_id ∧ row.token_hash = token := by
  rw [List.mem_map]
  refine exists_congr fun row => and_congr_right fun _ => ?_
  rw [issuedEntry, Entry.issued.injEq]

section Step

variable {settings : Settings} {σ σ' : Links} {x : Event}

theorem sound_opened (db : State) : Sound (opened db) where
  issued _ _ := Iff.rfl
  flights f hf := absurd hf List.not_mem_nil
  sets before user_id token after heq := by
    have hmem : Entry.set user_id (some token) ∈ db.reset_tokens.map issuedEntry := by
      rw [show db.reset_tokens.map issuedEntry = _ from heq]
      exact List.mem_append_right _ List.mem_cons_self
    exact absurd hmem set_not_issued

theorem closed_opened (db : State) : Closed (opened db) := by
  rintro token ⟨before, user_id, link, after, heq, -⟩
  have hmem : Entry.set user_id link ∈ db.reset_tokens.map issuedEntry := by
    rw [show db.reset_tokens.map issuedEntry = _ from heq]
    exact List.mem_append_right _ List.mem_cons_self
  exact absurd hmem set_not_issued

/-- A call that passes its checks with a link has found it open. -/
theorem read_link {s : State} {call : Call} {f : Flight} {token : ℕ} (h : call.read s = some f)
    (hlink : f.link = some token) :
    resetting s token ≠ none ∧ .issued f.user.id token ∈ s.reset_tokens.map issuedEntry := by
  cases call with
  | change_password user_id current_password new_password =>
    rw [Call.read] at h
    split at h
    · cases h
    · cases h
      cases hlink
  | reset_password link new_password =>
    rw [Call.read, Option.map_eq_some_iff] at h
    obtain ⟨⟨reset_token, user⟩, hresetting, rfl⟩ := h
    obtain ⟨hmem, hhash, huser⟩ := resetting_some hresetting
    have htoken : reset_token.token_hash = token := Option.some.inj hlink
    refine ⟨?_, issued_iff.mpr ⟨reset_token, hmem, huser, htoken⟩⟩
    rw [← htoken, hhash, hresetting]
    exact Option.some_ne_none _

/-- What a step does to the log, and which calls it leaves. -/
theorem step_cases (h : step settings σ x = some σ') :
    (∃ email rows, x = .request_password_reset email ∧
      σ'.db.reset_tokens = σ.db.reset_tokens ++ rows ∧ σ'.db.now = σ.db.now ∧
      σ'.db.users = σ.db.users ∧ σ'.flights = σ.flights ∧ σ'.log = σ.log ++ rows.map issuedEntry) ∨
    (∃ call, x = .read call ∧ σ' = { σ with flights := σ.flights ++ (call.read σ.db).toList }) ∨
    (∃ n f, x = .commit n ∧ σ.flights[n]? = some f ∧ σ' = {
      db := f.write σ.db
      flights := σ.flights.eraseIdx n
      log := σ.log ++ [.set f.user.id f.link] }) ∨
    (∃ n, x = .fail n ∧ σ' = { σ with flights := σ.flights.eraseIdx n }) ∨
    ∃ duration, x = .wait duration ∧ σ' = { σ with db := after σ.db duration } := by
  cases x with
  | request_password_reset email =>
    cases h
    obtain ⟨rows, hrows, hnow, husers⟩ := request_spec settings σ.db email
    refine .inl ⟨email, rows, rfl, hrows, hnow, husers, rfl, ?_⟩
    dsimp only
    rw [hrows, List.drop_left]
  | read call =>
    cases h
    exact .inr (.inl ⟨call, rfl, rfl⟩)
  | commit n =>
    obtain ⟨f, hf, rfl⟩ := Option.map_eq_some_iff.mp h
    exact .inr (.inr (.inl ⟨n, f, rfl, hf, rfl⟩))
  | fail n =>
    obtain ⟨f, -, rfl⟩ := Option.map_eq_some_iff.mp h
    exact .inr (.inr (.inr (.inl ⟨n, rfl, rfl⟩)))
  | wait duration =>
    cases h
    exact .inr (.inr (.inr (.inr ⟨duration, rfl, rfl⟩)))

theorem Sound.step (hσ : Sound σ) (h : links.step settings σ x = some σ') : Sound σ' := by
  rcases step_cases h with ⟨email, rows, -, hrows, -, -, hflights, hlog⟩ | ⟨call, -, rfl⟩ |
    ⟨n, f, -, hf, rfl⟩ | ⟨n, -, rfl⟩ | ⟨duration, -, rfl⟩
  · refine ⟨fun user_id token => ?_, fun f hf token hlink => ?_, fun before user_id token after heq => ?_⟩
    · rw [hlog, hrows, List.map_append, List.mem_append, List.mem_append, hσ.issued]
    · rw [hflights] at hf
      rw [hlog]
      exact List.mem_append_left _ (hσ.flights f hf token hlink)
    · rw [hlog] at heq
      obtain ⟨more, hsplit, -⟩ := set_before_issued heq
      exact hσ.sets before user_id token more hsplit
  · refine ⟨hσ.issued, fun f hf token hlink => ?_, hσ.sets⟩
    rcases List.mem_append.mp hf with hold | hnew
    · exact hσ.flights f hold token hlink
    · exact (hσ.issued ..).mpr (read_link (Option.mem_toList.mp hnew) hlink).2
  · have hissued : ∀ user_id token, Entry.issued user_id token ∈ σ.log ++ [.set f.user.id f.link] ↔
        Entry.issued user_id token ∈ σ.log := by
      intro user_id token
      rw [List.mem_append, List.mem_singleton]
      exact ⟨fun hmem => hmem.resolve_right (by rintro ⟨⟩), .inl⟩
    refine ⟨fun user_id token => ?_, fun g hg token hlink => ?_,
      fun before user_id token after heq => ?_⟩
    · rw [hissued, write_entries, hσ.issued]
    · exact (hissued ..).mpr (hσ.flights g (List.mem_of_mem_eraseIdx hg) token hlink)
    · rcases set_before_last heq with ⟨-, rfl, he⟩ | ⟨more, hlog, -⟩
      · obtain ⟨huser, hlink⟩ := Entry.set.inj he
        rw [← huser]
        exact hσ.flights f (List.mem_of_getElem? hf) token hlink
      · exact hσ.sets before user_id token more hlog
  · exact ⟨hσ.issued, fun f hf => hσ.flights f (List.mem_of_mem_eraseIdx hf), hσ.sets⟩
  · exact ⟨hσ.issued, hσ.flights, hσ.sets⟩

/-- A link that is retired is one of the table. -/
theorem Sound.retired_mem (hσ : Sound σ) {token : ℕ} (h : Retired σ.log token) :
    ∃ row ∈ σ.db.reset_tokens, row.token_hash = token := by
  obtain ⟨before, user_id, link, after, hlog, hissued⟩ := h
  have hmem : Entry.issued user_id token ∈ σ.log := by
    rw [hlog]
    exact List.mem_append_left _ hissued
  obtain ⟨row, hrow, -, hhash⟩ := issued_iff.mp ((hσ.issued ..).mp hmem)
  exact ⟨row, hrow, hhash⟩

/-- A link that is asked for leaves the others as they are. -/
theorem resetting_request {rows : List PasswordResetToken} {s s' : State} {token : ℕ}
    (hmem : ∃ row ∈ s.reset_tokens, row.token_hash = token)
    (hrows : s'.reset_tokens = s.reset_tokens ++ rows) (hnow : s'.now = s.now)
    (husers : s'.users = s.users) : resetting s' token = none ↔ resetting s token = none := by
  refine resetting_congr ?_ hnow fun id => ?_
  · obtain ⟨row, hrow, hhash⟩ := hmem
    have hfound : (s.reset_tokens.find? fun row => row.token_hash = token).isSome = true :=
      List.find?_isSome.mpr ⟨row, hrow, decide_eq_true hhash⟩
    rw [get_by_token_hash, get_by_token_hash, hrows, List.find?_append,
      Option.or_of_isSome hfound]
  · rw [get_by_id, get_by_id, husers]

/-- **A step leaves no retired link open** exactly if it is not a new password that a person sets
while another link of theirs can still be used. -/
theorem closes_iff (hσ : Sound σ) (hclosed : Closed σ) (x : Event) :
    Closes settings σ x ↔ OnlyLink σ x := by
  cases x with
  | request_password_reset email =>
    refine ⟨fun _ => trivial, fun _ σ' hstep token hretired => ?_⟩
    rcases step_cases hstep with ⟨_, rows, -, hrows, hnow, husers, hflights, hlog⟩ | ⟨_, h, -⟩ |
      ⟨_, _, h, -, -⟩ | ⟨_, h, -⟩ | ⟨_, h, -⟩ <;> try cases h
    rw [hlog, retired_append_issued] at hretired
    rw [resetting_request (hσ.retired_mem hretired) hrows hnow husers, hflights]
    exact hclosed token hretired
  | read call =>
    refine ⟨fun _ => trivial, fun _ σ' hstep token hretired => ?_⟩
    cases hstep
    obtain ⟨hrefused, hflights⟩ := hclosed token hretired
    refine ⟨hrefused, fun f hf hlink => ?_⟩
    rcases List.mem_append.mp hf with hold | hnew
    · exact hflights f hold hlink
    · exact (read_link (Option.mem_toList.mp hnew) hlink).1 hrefused
  | fail n =>
    refine ⟨fun _ => trivial, fun _ σ' hstep token hretired => ?_⟩
    obtain ⟨f, -, rfl⟩ := Option.map_eq_some_iff.mp hstep
    obtain ⟨hrefused, hflights⟩ := hclosed token hretired
    exact ⟨hrefused, fun f hf => hflights f (List.mem_of_mem_eraseIdx hf)⟩
  | wait duration =>
    refine ⟨fun _ => trivial, fun _ σ' hstep token hretired => ?_⟩
    cases hstep
    obtain ⟨hrefused, hflights⟩ := hclosed token hretired
    exact ⟨resetting_after hrefused duration, hflights⟩
  | commit n =>
    constructor
    · intro hcloses f hf row hrow huser
      have hstep : step settings σ (.commit n) = some _ := congrArg (Option.map _) hf
      -- the links of the person are retired from now on
      have hissued : .issued f.user.id row.token_hash ∈ σ.log :=
        (hσ.issued ..).mpr (issued_iff.mpr ⟨row, hrow, huser, rfl⟩)
      obtain ⟨hrefused, hflights⟩ := hcloses _ hstep row.token_hash
        (retired_append_set.mpr (.inr hissued))
      exact ⟨(resetting_write f σ.db row.token_hash).mp hrefused, hflights⟩
    · intro honly σ' hstep token hretired
      obtain ⟨f, hf, rfl⟩ := Option.map_eq_some_iff.mp hstep
      rcases retired_append_set.mp hretired with hbefore | hissued
      · obtain ⟨hrefused, hflights⟩ := hclosed token hbefore
        exact ⟨(resetting_write ..).mpr (.inr hrefused),
          fun g hg => hflights g (List.mem_of_mem_eraseIdx hg)⟩
      · obtain ⟨row, hrow, huser, rfl⟩ := issued_iff.mp ((hσ.issued ..).mp hissued)
        obtain ⟨hlink, hflights⟩ := honly f hf row hrow huser
        exact ⟨(resetting_write ..).mpr hlink, hflights⟩

/-- A step from where no retired link is open keeps the law. -/
theorem lawful_step (hσ : Sound σ) (hclosed : Closed σ) (hlawful : Lawful σ.log)
    (h : step settings σ x = some σ') : Lawful σ'.log := by
  rcases step_cases h with ⟨_, rows, -, -, -, -, -, hlog⟩ | ⟨_, -, rfl⟩ | ⟨n, f, -, hf, rfl⟩ |
    ⟨_, -, rfl⟩ | ⟨_, -, rfl⟩
  · rw [hlog]
    exact lawful_append_issued hlawful
  · exact hlawful
  · refine lawful_append_set hlawful hσ.sets fun token hlink hretired => ?_
    exact (hclosed token hretired).2 f (List.mem_of_getElem? hf) hlink
  · exact hlawful
  · exact hlawful

theorem lawful_opened (db : State) : Lawful (opened db).log := by
  have hempty : Lawful [] := by
    refine ⟨fun before user_id link after heq => ?_, fun token before user_id after heq => ?_⟩
    · exact absurd heq.symm (List.append_ne_nil_of_right_ne_nil _ (List.cons_ne_nil _ _))
    · exact absurd heq.symm (List.append_ne_nil_of_right_ne_nil _ (List.cons_ne_nil _ _))
  have hissued : Lawful ([] ++ db.reset_tokens.map issuedEntry) := lawful_append_issued hempty
  exact hissued

/-- **No link outlives a new password**, and each sets one at most once, in a history in which a
person sets a password only while no other link of theirs can be used. Where one can be used,
a retired link stays open. -/
theorem old_links_closed_iff (settings : Settings) (db : State) (xs : List Event) :
    (Along (step settings) (Closes settings) (opened db) xs ↔
      Along (step settings) OnlyLink (opened db) xs) ∧
    (Along (step settings) OnlyLink (opened db) xs →
      ∀ σ, run (step settings) (opened db) xs = some σ → Lawful σ.log) := by
  constructor
  · exact along_iff (I := Sound) (J := Closed) (fun _ _ _ hσ hstep => hσ.step hstep)
      (fun _ x hσ hclosed => closes_iff hσ hclosed x)
      (fun _ _ σ' _ _ hcloses hstep => hcloses σ' hstep) (sound_opened db) (closed_opened db)
  · intro honly σ hrun
    have hall : Sound σ ∧ Closed σ ∧ Lawful σ.log := by
      refine run_invariant (P := OnlyLink) (I := fun σ => Sound σ ∧ Closed σ ∧ Lawful σ.log) ?_
        ⟨sound_opened db, closed_opened db, lawful_opened db⟩ honly hrun
      rintro σ x σ' ⟨hσ, hclosed, hlawful⟩ hx hstep
      exact ⟨hσ.step hstep, (closes_iff hσ hclosed x).mpr hx σ' hstep,
        lawful_step hσ hclosed hlawful hstep⟩
    exact hall.2.2

/-- Where a retired link is open, a use of it breaks the law. -/
theorem open_link_sets (settings : Settings) (h : ¬ Closed σ) :
    ∃ xs σ', run (step settings) σ xs = some σ' ∧ ¬ Lawful σ'.log := by
  have hbreaks : ∀ user_id token, Retired σ.log token →
      ¬ Lawful (σ.log ++ [.set user_id (some token)]) := by
    rintro user_id token ⟨before, owner, link, after, hlog, hissued⟩ hlawful
    refine hlawful.retired before owner link (after ++ [.set user_id (some token)]) ?_ token hissued
      user_id (List.mem_append_right _ List.mem_cons_self)
    rw [hlog, List.append_assoc, List.cons_append]
  rw [Closed] at h
  push Not at h
  obtain ⟨token, hretired, hopen⟩ := h
  by_cases hrefused : resetting σ.db token = none
  · -- a call is past its checks with the link
    obtain ⟨f, hf, hlink⟩ := hopen hrefused
    obtain ⟨n, hn⟩ := List.mem_iff_getElem?.mp hf
    have hstep : step settings σ (.commit n) = some _ := congrArg (Option.map _) hn
    refine ⟨[.commit n], _, run_cons_eq_some_iff.mpr ⟨_, hstep, rfl⟩, ?_⟩
    dsimp only
    rw [hlink]
    exact hbreaks f.user.id token hretired
  · -- the link passes the checks now
    obtain ⟨⟨reset_token, user⟩, hresetting⟩ := Option.ne_none_iff_exists'.mp hrefused
    let f : Flight := .reset_password reset_token user σ.db.now "Another 1"
    have hread : (Call.reset_password token "Another 1").read σ.db = some f := by
      rw [Call.read, hresetting]
      rfl
    let mid : Links := { σ with flights := σ.flights ++ [f] }
    have hfirst : step settings σ (.read (.reset_password token "Another 1")) = some mid := by
      rw [step, hread]
      rfl
    have hsecond : step settings mid (.commit σ.flights.length) = some _ :=
      congrArg (Option.map _) List.getElem?_concat_length
    refine ⟨[.read (.reset_password token "Another 1"), .commit σ.flights.length], _,
      run_cons_eq_some_iff.mpr ⟨mid, hfirst, run_cons_eq_some_iff.mpr ⟨_, hsecond, rfl⟩⟩, ?_⟩
    have hlink : f.link = some token := congrArg some (resetting_some hresetting).2.1
    dsimp only
    rw [hlink]
    exact hbreaks f.user.id token hretired

end Step

/-! ### A password that was changed in between, and a link that is opened twice -/

/-- A link is sent, its owner changes the password, and somebody uses the link. -/
def changedSince : List Event :=
  [ .request_password_reset "alice@example.com",
    .read (.change_password 1 "correct horse" "battery staple"),
    .commit 0,
    .read (.reset_password 0 "tr0ub4dor"),
    .commit 0 ]

/-- Two calls read the row of a link before either of them writes. -/
def usedTwice : List Event :=
  [ .request_password_reset "alice@example.com",
    .read (.reset_password 0 "battery staple"),
    .read (.reset_password 0 "tr0ub4dor"),
    .commit 0,
    .commit 0 ]

theorem old_link_sets_password :
    (∃ σ, run (step defaultSettings) (opened alone) changedSince = some σ ∧ ¬ Lawful σ.log) ∧
      ∃ σ, run (step defaultSettings) (opened alone) usedTwice = some σ ∧ ¬ Lawful σ.log := by
  constructor
  · have hlog : (run (step defaultSettings) (opened alone) changedSince).map Links.log
        = some [.issued 1 0, .set 1 none, .set 1 (some 0)] := by
      decide +kernel
    obtain ⟨σ, hrun, heq⟩ := Option.map_eq_some_iff.mp hlog
    refine ⟨σ, hrun, fun hlawful => ?_⟩
    rw [heq] at hlawful
    exact hlawful.retired [.issued 1 0] 1 none [.set 1 (some 0)] rfl 0 (List.mem_singleton.mpr rfl) 1
      (List.mem_singleton.mpr rfl)
  · have hlog : (run (step defaultSettings) (opened alone) usedTwice).map Links.log
        = some [.issued 1 0, .set 1 (some 0), .set 1 (some 0)] := by
      decide +kernel
    obtain ⟨σ, hrun, heq⟩ := Option.map_eq_some_iff.mp hlog
    refine ⟨σ, hrun, fun hlawful => ?_⟩
    rw [heq] at hlawful
    exact hlawful.once 0 [.issued 1 0] 1 [.set 1 (some 0)] rfl 1
      (List.mem_append_right _ (List.mem_singleton.mpr rfl))

end PaCopilot.auth_service.links

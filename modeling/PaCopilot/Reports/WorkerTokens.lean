/-
What the tokens of a worker are worth over a run of requests.

A token is taken while its version is that of the row. Every operation that replaces the
secret of a row raises the version, but for `enroll`, which may count on it that a row with
an enrollment token outstanding has no secret: `register` and `reissue_enrollment` leave
none. `rotate_credential` can give such a row one. It refuses a row that is pending, but
not one that was pending when it was disabled. Tokens that were minted from this secret
outlive it, when the enrollment replaces it after all.

So the tokens are worth what they should be exactly as long as no enrollment is of a row
that has a token of its present version about which is not over.
-/
import PaCopilot.Reports.Workers

set_option autoImplicit false

namespace PaCopilot.workers

open Run

variable {settings : Settings} {s s' : State} {e : Event} {w w' worker : ReportWorker}
  {token : WorkerToken} {secret : Secret}

/-! ## What is asked -/

/-- A token that is taken was minted, from the secret that its worker has now; the worker is
enabled and of the organization that the token names. An enrollment token is spent once. -/
structure Sound (s : State) : Prop where
  minted : ∀ token worker, get_current_worker s token = .ok worker →
    ∃ secret, (token, secret) ∈ s.issued
  current : ∀ token worker, get_current_worker s token = .ok worker →
    ∀ secret, (token, secret) ∈ s.issued → worker.secret_hash = some (hash_secret secret)
  enabled : ∀ token worker, get_current_worker s token = .ok worker →
    worker.status ≠ .DISABLED ∧ worker.organization_id = token.org
  spent : s.spent.Nodup

/-- After the step that is so, and no row has a lower version than before it. -/
def Credentials (settings : Settings) (s : State) (e : Event) : Prop :=
  ∀ s', step settings s e = some s' → Sound s' ∧
    ∀ w ∈ s.rows, ∃ w' ∈ s'.rows, w'.id = w.id ∧ w.secret_version ≤ w'.secret_version

/-- The row that an enrollment is of. -/
def enrolledBy (s : State) : Event → Option ReportWorker
  | .enroll enrollment_token host_facts =>
    match enrollment s enrollment_token host_facts with
    | .ok (worker, _) => some worker
    | .error _ => none
  | _ => none

/-- The tokens of the present version of a row are over. -/
def tokensOver (s : State) (worker : ReportWorker) : Bool :=
  s.issued.all fun (token, _) =>
    token.sub ≠ worker.id || token.sv ≠ worker.secret_version || token.exp < s.now / reports.seconds 1

/-- An enrollment finds a row without a token that is not over. -/
def replacesNothing (s : State) (e : Event) : Bool := (enrolledBy s e).all (tokensOver s)

theorem tokensOver_iff : tokensOver s worker = true ↔
    ∀ token secret, (token, secret) ∈ s.issued → token.sub = worker.id →
      token.sv = worker.secret_version → token.exp < s.now / reports.seconds 1 := by
  rw [tokensOver, List.all_eq_true]
  constructor
  · intro h token secret hmem hsub hsv
    have hover := h (token, secret) hmem
    simpa [hsub, hsv] using hover
  · rintro h ⟨token, secret⟩ hmem
    by_cases hsub : token.sub = worker.id
    · by_cases hsv : token.sv = worker.secret_version
      · simpa [hsub, hsv] using h token secret hmem hsub hsv
      · simp [hsv]
    · simp [hsub]

/-! ## What a step does -/

/-- A row written over the one it was made of. -/
structure Of (w w' : ReportWorker) : Prop where
  id : w'.id = w.id
  organization_id : w'.organization_id = w.organization_id

/-- What a step does, as far as credentials go; with the row that an enrollment is of. -/
inductive Stepped (s : State) : Option ReportWorker → State → Prop
  | same : Stepped s none s
  | waited (duration : reports.Time) : Stepped s none { s with now := s.now + duration }
  | registered (worker : ReportWorker) (id : worker.id = s.draw)
      (token : ∀ d, worker.enrollment_token_hash = some d → d.value.draw = s.draw)
      (secret : worker.secret_hash = none) :
      Stepped s none { s with rows := s.rows ++ [worker], draw := s.draw + 1 }
  | minted (worker : ReportWorker) (mem : worker ∈ s.rows) (secret : Secret)
      (found : worker.secret_hash = some (hash_secret secret)) (token : WorkerToken)
      (sub : token.sub = worker.id) (org : token.org = worker.organization_id)
      (sv : token.sv = worker.secret_version) :
      Stepped s none { s with draw := s.draw + 1, issued := s.issued ++ [(token, secret)] }
  | kept (w w' : ReportWorker) (mem : w ∈ s.rows) (same : Of w w')
      (token : w'.enrollment_token_hash = w.enrollment_token_hash)
      (secret : w'.secret_hash = w.secret_hash) (version : w'.secret_version = w.secret_version) :
      Stepped s none (update s w')
  | replaced (w w' : ReportWorker) (mem : w ∈ s.rows) (same : Of w w')
      (token : ∀ d, w'.enrollment_token_hash = some d →
        w.enrollment_token_hash = some d ∨ d.value.draw = s.draw)
      (secret : ∀ d, w'.secret_hash = some d → d.value.draw = s.draw)
      (version : w'.secret_version = w.secret_version + 1) :
      Stepped s none { update s w' with draw := s.draw + 1 }
  | enrolled (w w' : ReportWorker) (mem : w ∈ s.rows) (same : Of w w') (spent : Secret)
      (found : w.enrollment_token_hash = some (hash_secret spent))
      (token : w'.enrollment_token_hash = none)
      (secret : w'.secret_hash = some (hash_secret (generate_worker_secret s.draw)))
      (version : w'.secret_version = w.secret_version) (status : w'.status = .ONLINE) :
      Stepped s (some w)
        { update s w' with draw := s.draw + 1, spent := s.spent ++ [spent] }

theorem mem_of_get_by_id {worker_id : ℕ} (h : get_by_id s worker_id = some worker) :
    worker ∈ s.rows ∧ worker.id = worker_id := by
  rw [get_by_id] at h
  have hid := List.find?_some h
  rw [decide_eq_true_eq] at hid
  exact ⟨List.mem_of_find?_eq_some h, hid⟩

theorem get_worker_ok {worker_id organization_id : ℕ}
    (h : get_worker s worker_id organization_id = .ok worker) : worker ∈ s.rows := by
  unfold get_worker at h
  rcases hget : get_by_id s worker_id with _ | found
  · rw [hget] at h
    cases h
  · rw [hget] at h
    dsimp only at h
    split at h
    · cases h
    · cases h
      exact (mem_of_get_by_id hget).1

theorem authenticate_ok {worker_id : ℕ} (h : authenticate s worker_id secret = .ok worker) :
    worker ∈ s.rows ∧ worker.secret_hash = some (hash_secret secret) := by
  unfold authenticate at h
  rcases hget : get_by_id s worker_id with _ | found
  · rw [hget] at h
    cases h
  · rw [hget] at h
    obtain ⟨hverified, h⟩ := passed_of_bind h
    obtain ⟨-, h⟩ := passed_of_bind h
    cases h
    refine ⟨(mem_of_get_by_id hget).1, ?_⟩
    rcases hhash : worker.secret_hash with _ | expected
    · rw [hhash] at hverified
      exact absurd rfl hverified
    · rw [hhash, verify_secret, Bool.not_eq_false, decide_eq_true_eq] at hverified
      rw [hverified]

/-- A token that is taken. -/
theorem get_current_worker_ok_iff : get_current_worker s token = .ok worker ↔
    (∃ secret, (token, secret) ∈ s.issued) ∧ ¬ token.exp < s.now / reports.seconds 1 ∧
      get_by_id s token.sub = some worker ∧ token.sv = worker.secret_version ∧
      worker.organization_id = token.org ∧ worker.status ≠ .DISABLED ∧
      worker.secret_hash ≠ none := by
  have hissued : token ∈ s.issued.map Prod.fst ↔ ∃ secret, (token, secret) ∈ s.issued := by
    rw [List.mem_map]
    exact ⟨fun ⟨⟨_, secret⟩, hmem, rfl⟩ => ⟨secret, hmem⟩, fun ⟨secret, hmem⟩ => ⟨_, hmem, rfl⟩⟩
  rw [get_current_worker, bind_eq_ok_iff]
  constructor
  · rintro ⟨payload, hdecode, hresolve⟩
    -- the refusals in their order, none of which was the answer
    obtain ⟨hsigned, hdecode⟩ := passed_of_bind hdecode
    obtain ⟨hlive, hdecode⟩ := passed_of_bind hdecode
    cases hdecode
    unfold resolve_token_subject at hresolve
    rcases hget : get_by_id s token.sub with _ | found
    · rw [hget] at hresolve
      cases hresolve
    · rw [hget] at hresolve
      obtain ⟨hversion, hresolve⟩ := passed_of_bind hresolve
      obtain ⟨horg, hresolve⟩ := passed_of_bind hresolve
      obtain ⟨henabled, hresolve⟩ := passed_of_bind hresolve
      obtain ⟨hhash, hresolve⟩ := passed_of_bind hresolve
      cases hresolve
      exact ⟨hissued.mp (Decidable.not_not.mp hsigned), hlive, rfl, Decidable.not_not.mp hversion,
        Decidable.not_not.mp horg, henabled, hhash⟩
  · rintro ⟨hsigned, hlive, hget, hversion, horg, henabled, hhash⟩
    refine ⟨token, ?_, ?_⟩
    · rw [decode_worker_token, refuse_of_not _ (not_not_intro (hissued.mpr hsigned)),
        refuse_of_not _ hlive]
      rfl
    · rw [resolve_token_subject, hget]
      dsimp only
      rw [refuse_of_not _ (not_not_intro hversion), refuse_of_not _ (not_not_intro horg),
        refuse_of_not _ henabled, refuse_of_not _ hhash]
      rfl

/-! ### What an operation does to the credentials of its row -/

section Rows

variable {now : reports.Time} {host_facts : HostFacts}

theorem rotate_credential_ok (h : rotate_credential now secret w = .ok w') :
    Of w w' ∧ w'.enrollment_token_hash = w.enrollment_token_hash ∧
      w'.secret_hash = some (hash_secret secret) ∧ w'.secret_version = w.secret_version + 1 := by
  obtain ⟨-, h⟩ := passed_of_bind h
  cases h
  exact ⟨⟨rfl, rfl⟩, rfl, rfl, rfl⟩

theorem reissue_enrollment_ok (h : reissue_enrollment settings now secret w = .ok w') :
    Of w w' ∧ w'.enrollment_token_hash = some (hash_secret secret) ∧ w'.secret_hash = none ∧
      w'.secret_version = w.secret_version + 1 := by
  obtain ⟨-, h⟩ := passed_of_bind h
  cases h
  exact ⟨⟨rfl, rfl⟩, rfl, rfl, rfl⟩

theorem enroll_ok (h : enroll now secret host_facts w = .ok w') :
    Of w w' ∧ w'.enrollment_token_hash = none ∧ w'.secret_hash = some (hash_secret secret) ∧
      w'.secret_version = w.secret_version ∧ w'.status = .ONLINE := by
  obtain ⟨-, h⟩ := passed_of_bind h
  rcases hexpires : w.enrollment_expires_at with _ | expires_at
  · rw [hexpires] at h
    cases h
  · rw [hexpires] at h
    obtain ⟨-, h⟩ := passed_of_bind h
    cases h
    exact ⟨⟨rfl, rfl⟩, rfl, rfl, rfl, rfl⟩

/-- The credentials of a row are as they were. -/
structure Untouched (w w' : ReportWorker) : Prop where
  same : Of w w'
  token : w'.enrollment_token_hash = w.enrollment_token_hash
  secret : w'.secret_hash = w.secret_hash
  version : w'.secret_version = w.secret_version

theorem set_enabled_untouched (now : reports.Time) (enabled : Bool) (w : ReportWorker) :
    Untouched w (set_enabled now enabled w) := by
  unfold set_enabled
  split
  · split
    · exact ⟨⟨rfl, rfl⟩, rfl, rfl, rfl⟩
    · exact ⟨⟨rfl, rfl⟩, rfl, rfl, rfl⟩
  · exact ⟨⟨rfl, rfl⟩, rfl, rfl, rfl⟩

theorem heartbeat_untouched (now : reports.Time) (host_facts : Option HostFacts) (busy : Bool)
    (last_error : Option String) (w : ReportWorker) :
    Untouched w (heartbeat now host_facts busy last_error w) := by
  cases host_facts with
  | none => exact ⟨⟨rfl, rfl⟩, rfl, rfl, rfl⟩
  | some facts => exact ⟨⟨rfl, rfl⟩, rfl, rfl, rfl⟩

end Rows

theorem enrollment_ok {enrollment_token : Secret} {host_facts : HostFacts}
    (h : enrollment s enrollment_token host_facts = .ok (w, w')) :
    w ∈ s.rows ∧ w.enrollment_token_hash = some (hash_secret enrollment_token) ∧
      enroll s.now (generate_worker_secret s.draw) host_facts w = .ok w' := by
  unfold enrollment at h
  rcases hget : get_by_enrollment_token_hash s (hash_secret enrollment_token) with _ | found
  · rw [hget] at h
    cases h
  · rw [hget] at h
    obtain ⟨enrolled, henrolled, h⟩ := bind_eq_ok_iff.mp h
    cases h
    rw [get_by_enrollment_token_hash] at hget
    have hfound := List.find?_some hget
    rw [decide_eq_true_eq] at hfound
    exact ⟨List.mem_of_find?_eq_some hget, hfound, henrolled⟩

/-- Nothing is enrolled by another request than `enroll`. -/
theorem outcome_stepped (h : outcome settings s e = .ok s') : Stepped s (enrolledBy s e) s' := by
  cases e with
  | register organization_id user_id name description =>
    obtain ⟨worker, hworker, h⟩ := bind_eq_ok_iff.mp h
    cases h
    obtain ⟨-, hworker⟩ := passed_of_bind hworker
    obtain ⟨-, hworker⟩ := passed_of_bind hworker
    cases hworker
    refine .registered _ rfl (fun d hd => ?_) rfl
    cases hd
    rfl
  | enroll enrollment_token host_facts =>
    obtain ⟨⟨w, w'⟩, henrollment, h⟩ := bind_eq_ok_iff.mp h
    cases h
    obtain ⟨hmem, hfound, henroll⟩ := enrollment_ok henrollment
    obtain ⟨hsame, htoken, hsecret, hversion, hstatus⟩ := enroll_ok henroll
    rw [enrolledBy, henrollment]
    exact .enrolled w w' hmem hsame enrollment_token hfound htoken hsecret hversion hstatus
  | rotate_credential worker_id organization_id =>
    obtain ⟨w, hget, h⟩ := bind_eq_ok_iff.mp h
    obtain ⟨w', hrotated, h⟩ := bind_eq_ok_iff.mp h
    cases h
    obtain ⟨hsame, htoken, hsecret, hversion⟩ := rotate_credential_ok hrotated
    -- the secret is gone, and the enrollment token stays what it was
    refine .replaced w w' (get_worker_ok hget) hsame (fun d hd => .inl (htoken ▸ hd))
      (fun d hd => ?_) hversion
    rw [hsecret] at hd
    cases hd
    rfl
  | reissue_enrollment worker_id organization_id =>
    obtain ⟨w, hget, h⟩ := bind_eq_ok_iff.mp h
    obtain ⟨w', hreissued, h⟩ := bind_eq_ok_iff.mp h
    cases h
    obtain ⟨hsame, htoken, hsecret, hversion⟩ := reissue_enrollment_ok hreissued
    -- the token is the one that was drawn, and there is no secret until it is used
    refine .replaced w w' (get_worker_ok hget) hsame (fun d hd => .inr ?_) (fun d hd => ?_) hversion
    · rw [htoken] at hd
      cases hd
      rfl
    · rw [hsecret] at hd
      cases hd
  | set_enabled worker_id organization_id enabled =>
    obtain ⟨w, hget, h⟩ := bind_eq_ok_iff.mp h
    cases h
    have huntouched := set_enabled_untouched s.now enabled w
    exact .kept w _ (get_worker_ok hget) huntouched.same huntouched.token huntouched.secret
      huntouched.version
  | issue_token worker_id worker_secret =>
    obtain ⟨w, hauthenticated, h⟩ := bind_eq_ok_iff.mp h
    cases h
    obtain ⟨hmem, hsecret⟩ := authenticate_ok hauthenticated
    exact .minted w hmem worker_secret hsecret _ rfl rfl rfl
  | heartbeat token host_facts busy last_error =>
    obtain ⟨w, hcurrent, h⟩ := bind_eq_ok_iff.mp h
    cases h
    have huntouched := heartbeat_untouched s.now host_facts busy last_error w
    obtain ⟨-, -, hget, -⟩ := get_current_worker_ok_iff.mp hcurrent
    exact .kept w _ (mem_of_get_by_id hget).1 huntouched.same huntouched.token huntouched.secret
      huntouched.version
  | wait duration =>
    cases h
    exact .waited duration

theorem step_stepped (h : step settings s e = some s') : Stepped s (enrolledBy s e) s' := by
  unfold step at h
  rcases houtcome : outcome settings s e with error | after
  · rw [houtcome] at h
    cases h
    have hnone : enrolledBy s e = none := by
      cases e with
      | enroll enrollment_token host_facts =>
        rcases henrollment : enrollment s enrollment_token host_facts with raised | ⟨w, w'⟩
        · rw [enrolledBy, henrollment]
        · rw [outcome, henrollment] at houtcome
          cases houtcome
      | _ => rfl
    rw [hnone]
    exact .same
  · rw [houtcome] at h
    cases h
    exact outcome_stepped houtcome

/-! ## What holds of every run -/

/-- Whatever the enrollments are of. -/
structure Consistent (s : State) : Prop where
  ids : (s.rows.map ReportWorker.id).Nodup
  drawn : ∀ w ∈ s.rows, w.id < s.draw ∧ ∀ d, w.secret_hash = some d → d.value.draw < s.draw
  outstanding : ∀ w ∈ s.rows, ∀ d, w.enrollment_token_hash = some d →
    d.value.draw < s.draw ∧ d.value ∉ s.spent
  apart : ∀ w ∈ s.rows, ∀ w' ∈ s.rows, ∀ d, w.enrollment_token_hash = some d →
    w'.enrollment_token_hash = some d → w.id = w'.id
  spent : s.spent.Nodup
  spentDrawn : ∀ secret ∈ s.spent, secret.draw < s.draw
  minted : ∀ token secret, (token, secret) ∈ s.issued → secret.draw < s.draw ∧
    ∃ w ∈ s.rows, w.id = token.sub ∧ w.organization_id = token.org ∧
      token.sv ≤ w.secret_version ∧ (token.sv = w.secret_version → w.secret_hash ≠ none)

/-- A token of the present version of its row that is not over was minted from the secret
that the row has. -/
def Current (s : State) : Prop :=
  ∀ token secret, (token, secret) ∈ s.issued → ∀ w ∈ s.rows, w.id = token.sub →
    token.sv = w.secret_version → ¬ token.exp < s.now / reports.seconds 1 →
    w.secret_hash = some (hash_secret secret)

theorem Consistent.unique (h : Consistent s) (hw : w ∈ s.rows) (hw' : w' ∈ s.rows)
    (hid : w.id = w'.id) : w = w' :=
  List.inj_on_of_nodup_map h.ids hw hw' hid

theorem Consistent.get_by_id (h : Consistent s) (hw : w ∈ s.rows) :
    get_by_id s w.id = some w := by
  rcases hget : workers.get_by_id s w.id with _ | found
  · rw [workers.get_by_id, List.find?_eq_none] at hget
    exact absurd (decide_eq_true rfl) (hget w hw)
  · obtain ⟨hmem, hid⟩ := mem_of_get_by_id hget
    rw [h.unique hmem hw hid]

/-! ### One row written -/

section Update

theorem mem_update {row : ReportWorker} (h : row ∈ (update s w').rows) :
    row = w' ∨ (row ∈ s.rows ∧ row.id ≠ w'.id) := by
  obtain ⟨before, hbefore, rfl⟩ := List.mem_map.mp h
  by_cases hid : before.id = w'.id
  · rw [if_pos hid]
    exact .inl rfl
  · rw [if_neg hid]
    exact .inr ⟨hbefore, hid⟩

theorem update_mem (hw : w ∈ s.rows) (hsame : Of w w') : w' ∈ (update s w').rows :=
  List.mem_map.mpr ⟨w, hw, if_pos hsame.id.symm⟩

theorem update_mem_of_ne {row : ReportWorker} (hrow : row ∈ s.rows) (hid : row.id ≠ w'.id) :
    row ∈ (update s w').rows :=
  List.mem_map.mpr ⟨row, hrow, if_neg hid⟩

theorem update_ids : (update s w').rows.map ReportWorker.id = s.rows.map ReportWorker.id := by
  rw [update, List.map_map]
  apply List.map_congr_left
  intro row _
  dsimp only [Function.comp]
  by_cases hid : row.id = w'.id
  · rw [if_pos hid, hid]
  · rw [if_neg hid]

/-- **Everything else is unchanged.** A row that is written keeps the state consistent if its
credentials are drawn, its tokens have its version or a lower one, and its enrollment token
is its own. -/
theorem Consistent.update (h : Consistent s) (hw : w ∈ s.rows) (hsame : Of w w') {draw : ℕ}
    {spent : List Secret} (hdraw : s.draw ≤ draw) (hspent : spent.Nodup)
    (hspentDrawn : ∀ secret ∈ spent, secret.draw < draw)
    (hothers : ∀ row ∈ s.rows, row.id ≠ w.id → ∀ d, row.enrollment_token_hash = some d →
      d.value ∉ spent)
    (hsecret : ∀ d, w'.secret_hash = some d → d.value.draw < draw)
    (htoken : ∀ d, w'.enrollment_token_hash = some d → d.value ∉ spent ∧
      (w.enrollment_token_hash = some d ∨ (s.draw ≤ d.value.draw ∧ d.value.draw < draw)))
    (hversion : (w'.secret_version = w.secret_version ∧ (w.secret_hash ≠ none → w'.secret_hash ≠ none))
      ∨ w'.secret_version = w.secret_version + 1) :
    Consistent { update s w' with draw := draw, spent := spent } := by
  have hdrawn : ∀ d, w'.enrollment_token_hash = some d → d.value.draw < draw := by
    intro d hd
    rcases (htoken d hd).2 with hold | ⟨-, hlt⟩
    · exact Nat.lt_of_lt_of_le (h.outstanding w hw d hold).1 hdraw
    · exact hlt
  -- the token of another row is not that of the one that is written
  have hother : ∀ row ∈ s.rows, row.id ≠ w'.id → ∀ d, w'.enrollment_token_hash = some d →
      row.enrollment_token_hash ≠ some d := by
    intro row hrow hid d hd hrowToken
    rcases (htoken d hd).2 with hold | ⟨hle, -⟩
    · exact hid ((h.apart row hrow w hw d hrowToken hold).trans hsame.id.symm)
    · exact Nat.not_lt.mpr hle (h.outstanding row hrow d hrowToken).1
  constructor
  · change ((workers.update s w').rows.map ReportWorker.id).Nodup
    rw [update_ids]
    exact h.ids
  · intro row hrow
    rcases mem_update hrow with rfl | ⟨hrow, -⟩
    · exact ⟨hsame.id ▸ Nat.lt_of_lt_of_le (h.drawn w hw).1 hdraw, hsecret⟩
    · obtain ⟨hid, hdrawnRow⟩ := h.drawn row hrow
      exact ⟨Nat.lt_of_lt_of_le hid hdraw, fun d hd => Nat.lt_of_lt_of_le (hdrawnRow d hd) hdraw⟩
  · intro row hrow d hd
    rcases mem_update hrow with rfl | ⟨hrow, hid⟩
    · exact ⟨hdrawn d hd, (htoken d hd).1⟩
    · exact ⟨Nat.lt_of_lt_of_le (h.outstanding row hrow d hd).1 hdraw,
        hothers row hrow (hsame.id ▸ hid) d hd⟩
  · intro row hrow row' hrow' d hd hd'
    rcases mem_update hrow with rfl | ⟨hin, hid⟩
    · rcases mem_update hrow' with rfl | ⟨hin', hid'⟩
      · rfl
      · exact absurd hd' (hother row' hin' hid' d hd)
    · rcases mem_update hrow' with rfl | ⟨hin', hid'⟩
      · exact absurd hd (hother row hin hid d hd')
      · exact h.apart row hin row' hin' d hd hd'
  · exact hspent
  · exact hspentDrawn
  · intro token secret hmem
    obtain ⟨hdrawnSecret, row, hrow, hsub, horg, hle, hhas⟩ := h.minted token secret hmem
    refine ⟨Nat.lt_of_lt_of_le hdrawnSecret hdraw, ?_⟩
    by_cases hid : row.id = w'.id
    · obtain rfl := h.unique hrow hw (hid.trans hsame.id)
      refine ⟨w', update_mem hw hsame, hsame.id.trans hsub, hsame.organization_id.trans horg, ?_⟩
      rcases hversion with ⟨heq, hkept⟩ | heq
      · exact ⟨heq ▸ hle, fun hsv => hkept (hhas (heq ▸ hsv))⟩
      · exact ⟨heq ▸ Nat.le_succ_of_le hle, fun hsv =>
          absurd hle (Nat.not_le.mpr (by rw [hsv, heq]; exact Nat.lt_succ_self _))⟩
    · exact ⟨row, update_mem_of_ne hrow hid, hsub, horg, hle, hhas⟩

end Update

/-! ### Every step -/

section Steps

variable {enrolled : Option ReportWorker}

theorem consistent_start (now : reports.Time) : Consistent { now := now } where
  ids := List.nodup_nil
  drawn _ h := absurd h List.not_mem_nil
  outstanding _ h := absurd h List.not_mem_nil
  apart _ h := absurd h List.not_mem_nil
  spent := List.nodup_nil
  spentDrawn _ h := absurd h List.not_mem_nil
  minted _ _ h := absurd h List.not_mem_nil

theorem Consistent.registered (h : Consistent s) (hid : worker.id = s.draw)
    (htoken : ∀ d, worker.enrollment_token_hash = some d → d.value.draw = s.draw)
    (hsecret : worker.secret_hash = none) :
    Consistent { s with rows := s.rows ++ [worker], draw := s.draw + 1 } := by
  have hnew : ∀ row ∈ s.rows ++ [worker], row ∈ s.rows ∨ row = worker := fun row hrow => by
    rwa [List.mem_append, List.mem_singleton] at hrow
  -- the token of the new row is drawn last, so no other row has it
  have hold : ∀ row ∈ s.rows, ∀ d, row.enrollment_token_hash = some d →
      worker.enrollment_token_hash ≠ some d := fun row hrow d hd hd' =>
    Nat.ne_of_lt (h.outstanding row hrow d hd).1 (htoken d hd')
  constructor
  · dsimp only
    rw [List.map_append, List.nodup_append]
    refine ⟨h.ids, List.nodup_singleton _, ?_⟩
    intro a ha b hb
    obtain ⟨row, hrow, rfl⟩ := List.mem_map.mp ha
    rw [List.map_cons, List.map_nil, List.mem_singleton] at hb
    rw [hb, hid]
    exact Nat.ne_of_lt (h.drawn row hrow).1
  · intro row hrow
    rcases hnew row hrow with hrow | rfl
    · obtain ⟨hlt, hdrawn⟩ := h.drawn row hrow
      exact ⟨Nat.lt_succ_of_lt hlt, fun d hd => Nat.lt_succ_of_lt (hdrawn d hd)⟩
    · refine ⟨hid ▸ Nat.lt_succ_self _, fun d hd => ?_⟩
      rw [hsecret] at hd
      cases hd
  · intro row hrow d hd
    rcases hnew row hrow with hrow | rfl
    · obtain ⟨hlt, hnot⟩ := h.outstanding row hrow d hd
      exact ⟨Nat.lt_succ_of_lt hlt, hnot⟩
    -- what is spent was drawn before
    · refine ⟨htoken d hd ▸ Nat.lt_succ_self _, fun hspent => ?_⟩
      exact Nat.ne_of_lt (h.spentDrawn d.value hspent) (htoken d hd)
  · intro row hrow row' hrow' d hd hd'
    rcases hnew row hrow with hin | rfl
    · rcases hnew row' hrow' with hin' | rfl
      · exact h.apart row hin row' hin' d hd hd'
      · exact absurd hd' (hold row hin d hd)
    · rcases hnew row' hrow' with hin' | rfl
      · exact absurd hd (hold row' hin' d hd')
      · rfl
  · exact h.spent
  · exact fun secret hmem => Nat.lt_succ_of_lt (h.spentDrawn secret hmem)
  · intro token secret hmem
    obtain ⟨hlt, row, hrow, hrest⟩ := h.minted token secret hmem
    exact ⟨Nat.lt_succ_of_lt hlt, row, List.mem_append_left _ hrow, hrest⟩

theorem Consistent.issued (h : Consistent s) (hw : w ∈ s.rows)
    (hfound : w.secret_hash = some (hash_secret secret)) (hsub : token.sub = w.id)
    (horg : token.org = w.organization_id) (hsv : token.sv = w.secret_version) :
    Consistent { s with draw := s.draw + 1, issued := s.issued ++ [(token, secret)] } where
  ids := h.ids
  drawn row hrow := ⟨Nat.lt_succ_of_lt (h.drawn row hrow).1, fun d hd =>
    Nat.lt_succ_of_lt ((h.drawn row hrow).2 d hd)⟩
  outstanding row hrow d hd := ⟨Nat.lt_succ_of_lt (h.outstanding row hrow d hd).1,
    (h.outstanding row hrow d hd).2⟩
  apart := h.apart
  spent := h.spent
  spentDrawn secret hmem := Nat.lt_succ_of_lt (h.spentDrawn secret hmem)
  minted := by
    intro token' secret' hmem
    rw [List.mem_append, List.mem_singleton] at hmem
    rcases hmem with hmem | heq
    · obtain ⟨hlt, hrest⟩ := h.minted token' secret' hmem
      exact ⟨Nat.lt_succ_of_lt hlt, hrest⟩
    · obtain ⟨rfl, rfl⟩ := Prod.mk.inj heq
      refine ⟨Nat.lt_succ_of_lt ((h.drawn w hw).2 _ hfound), w, hw, hsub.symm, horg.symm,
        Nat.le_of_eq hsv, fun _ hnone => ?_⟩
      rw [hfound] at hnone
      cases hnone

theorem Consistent.step (h : Consistent s) (hs : Stepped s enrolled s') : Consistent s' := by
  cases hs with
  | same => exact h
  | waited duration => exact { h with }
  | registered worker hid htoken hsecret => exact h.registered hid htoken hsecret
  | minted w hw secret hfound token hsub horg hsv => exact h.issued hw hfound hsub horg hsv
  | kept w w' hw hsame htoken hsecret hversion =>
    refine h.update hw hsame le_rfl h.spent h.spentDrawn
      (fun row hrow _ d hd => (h.outstanding row hrow d hd).2)
      (fun d hd => (h.drawn w hw).2 d (hsecret ▸ hd)) (fun d hd => ?_)
      (.inl ⟨hversion, fun hne => hsecret ▸ hne⟩)
    rw [htoken] at hd
    exact ⟨(h.outstanding w hw d hd).2, .inl hd⟩
  | replaced w w' hw hsame htoken hsecret hversion =>
    refine h.update hw hsame (Nat.le_succ _) h.spent
      (fun secret hmem => Nat.lt_succ_of_lt (h.spentDrawn secret hmem))
      (fun row hrow _ d hd => (h.outstanding row hrow d hd).2)
      (fun d hd => hsecret d hd ▸ Nat.lt_succ_self _) (fun d hd => ?_) (.inr hversion)
    rcases htoken d hd with hold | hnew
    · exact ⟨(h.outstanding w hw d hold).2, .inl hold⟩
    · refine ⟨fun hspent => Nat.ne_of_lt (h.spentDrawn d.value hspent) hnew, .inr ⟨?_, ?_⟩⟩
      · exact Nat.le_of_eq hnew.symm
      · exact hnew ▸ Nat.lt_succ_self _
  | enrolled w w' hw hsame spent hfound htoken hsecret hversion hstatus =>
    obtain ⟨hspentDrawn, hunspent⟩ := h.outstanding w hw _ hfound
    refine h.update hw hsame (Nat.le_succ _) ?_ ?_ ?_ (fun d hd => ?_) (fun d hd => ?_)
      (.inl ⟨hversion, fun _ hnone => ?_⟩)
    · rw [List.nodup_append]
      refine ⟨h.spent, List.nodup_singleton _, fun a ha b hb => ?_⟩
      rw [List.mem_singleton.mp hb]
      exact fun heq => hunspent (heq ▸ ha)
    · intro secret hmem
      rw [List.mem_append, List.mem_singleton] at hmem
      rcases hmem with hmem | rfl
      · exact Nat.lt_succ_of_lt (h.spentDrawn secret hmem)
      · exact Nat.lt_succ_of_lt hspentDrawn
    · -- no other row has the token that is spent
      intro row hrow hid d hd hmem
      rw [List.mem_append, List.mem_singleton] at hmem
      rcases hmem with hmem | heq
      · exact (h.outstanding row hrow d hd).2 hmem
      · exact hid (h.apart row hrow w hw d hd (by rw [hfound, hash_secret, ← heq]))
    · rw [hsecret] at hd
      cases hd
      exact Nat.lt_succ_self _
    · rw [htoken] at hd
      cases hd
    · rw [hsecret] at hnone
      cases hnone

/-- **A token stays with the secret it was minted from**, unless an enrollment is of a row
with a token that is not over. -/
theorem Current.step (h : Current s) (hconsistent : Consistent s) (hs : Stepped s enrolled s')
    (hover : enrolled.all (tokensOver s) = true) : Current s' := by
  -- a token that is over now was over before
  have hlater : ∀ {a b c : ℕ}, a ≤ b → ¬ c < b → ¬ c < a := fun hle hnot hlt =>
    hnot (Nat.lt_of_lt_of_le hlt hle)
  cases hs with
  | same => exact h
  | waited duration =>
    intro token secret hmem w hw hsub hsv hlive
    exact h token secret hmem w hw hsub hsv
      (hlater (Nat.div_le_div_right (Nat.le_add_right _ _)) hlive)
  | registered worker hid htoken hsecret =>
    intro token secret hmem w hw hsub hsv hlive
    rw [List.mem_append, List.mem_singleton] at hw
    rcases hw with hw | rfl
    · exact h token secret hmem w hw hsub hsv hlive
    · -- no token is for a row that is new
      obtain ⟨-, row, hrow, hrowSub, -⟩ := hconsistent.minted token secret hmem
      have hlt := (hconsistent.drawn row hrow).1
      rw [hrowSub, ← hsub, hid] at hlt
      exact absurd hlt (Nat.lt_irrefl _)
  | minted worker hworker secret hfound token hsub horg hsv =>
    intro token' secret' hmem w hw hsub' hsv' hlive
    rw [List.mem_append, List.mem_singleton] at hmem
    rcases hmem with hmem | heq
    · exact h token' secret' hmem w hw hsub' hsv' hlive
    · obtain ⟨rfl, rfl⟩ := Prod.mk.inj heq
      rw [hconsistent.unique hw hworker (hsub'.trans hsub)]
      exact hfound
  | kept w w' hw hsame htoken hsecret hversion =>
    intro token secret hmem row hrow hsub hsv hlive
    rcases mem_update hrow with rfl | ⟨hin, -⟩
    · rw [hsecret]
      exact h token secret hmem w hw (hsame.id.symm.trans hsub) (hsv.trans hversion) hlive
    · exact h token secret hmem row hin hsub hsv hlive
  | replaced w w' hw hsame htoken hsecret hversion =>
    intro token secret hmem row hrow hsub hsv hlive
    rcases mem_update hrow with rfl | ⟨hin, -⟩
    · -- no token has the version that is new
      obtain ⟨-, before, hbefore, hbeforeSub, -, hle, -⟩ := hconsistent.minted token secret hmem
      rw [hconsistent.unique hbefore hw (hbeforeSub.trans (hsub.symm.trans hsame.id)), hsv,
        hversion] at hle
      exact absurd hle (Nat.not_succ_le_self _)
    · exact h token secret hmem row hin hsub hsv hlive
  | enrolled w w' hw hsame spent hfound htoken hsecret hversion hstatus =>
    intro token secret hmem row hrow hsub hsv hlive
    rcases mem_update hrow with rfl | ⟨hin, -⟩
    · exact absurd (tokensOver_iff.mp hover token secret hmem (hsub.symm.trans hsame.id)
        (hsv.trans hversion)) hlive
    · exact h token secret hmem row hin hsub hsv hlive

/-- No step lowers a version. -/
theorem Consistent.versions (h : Consistent s) (hs : Stepped s enrolled s') {row : ReportWorker}
    (hrow : row ∈ s.rows) :
    ∃ row' ∈ s'.rows, row'.id = row.id ∧ row.secret_version ≤ row'.secret_version := by
  have hwritten : ∀ w ∈ s.rows, ∀ w', Of w w' → w.secret_version ≤ w'.secret_version →
      ∃ row' ∈ (workers.update s w').rows, row'.id = row.id ∧ row.secret_version ≤ row'.secret_version := by
    intro w hw w' hsame hle
    by_cases hid : row.id = w'.id
    · rw [h.unique hrow hw (hid.trans hsame.id)]
      exact ⟨w', update_mem hw hsame, hsame.id, hle⟩
    · exact ⟨row, update_mem_of_ne hrow hid, rfl, le_rfl⟩
  cases hs with
  | same => exact ⟨row, hrow, rfl, le_rfl⟩
  | waited => exact ⟨row, hrow, rfl, le_rfl⟩
  | registered => exact ⟨row, List.mem_append_left _ hrow, rfl, le_rfl⟩
  | minted => exact ⟨row, hrow, rfl, le_rfl⟩
  | kept w w' hw hsame _ _ hversion => exact hwritten w hw w' hsame (Nat.le_of_eq hversion.symm)
  | replaced w w' hw hsame _ _ hversion =>
    exact hwritten w hw w' hsame (hversion ▸ Nat.le_succ _)
  | enrolled w w' hw hsame _ _ _ _ hversion =>
    exact hwritten w hw w' hsame (Nat.le_of_eq hversion.symm)

end Steps

theorem sound_of_current (hconsistent : Consistent s) (h : Current s) : Sound s where
  minted _ _ haccepted := (get_current_worker_ok_iff.mp haccepted).1
  current token worker haccepted secret hmem := by
    obtain ⟨-, hlive, hget, hsv, -⟩ := get_current_worker_ok_iff.mp haccepted
    obtain ⟨hworker, hid⟩ := mem_of_get_by_id hget
    exact h token secret hmem worker hworker hid hsv hlive
  enabled _ _ haccepted := by
    obtain ⟨-, -, -, -, horg, henabled, -⟩ := get_current_worker_ok_iff.mp haccepted
    exact ⟨henabled, horg⟩
  spent := hconsistent.spent

/-- An enrollment that replaces the secret of a token that is not over leaves that token
good. -/
theorem replacesNothing_of_sound (hconsistent : Consistent s)
    (hs : Stepped s (enrolledBy s e) s') (h : Sound s') : replacesNothing s e = true := by
  unfold replacesNothing
  generalize enrolledBy s e = enrolled at hs
  cases hs with
  | enrolled w w' hw hsame spent hfound htoken hsecret hversion hstatus =>
    rw [Option.all_some, tokensOver_iff]
    intro token secret hmem hsub hsv
    by_contra hlive
    obtain ⟨hdrawn, row, hrow, hrowSub, horg, -, -⟩ := hconsistent.minted token secret hmem
    obtain rfl := hconsistent.unique hrow hw (hrowSub.trans hsub)
    have hconsistent' := hconsistent.step (.enrolled row w' hw hsame spent hfound htoken hsecret
      hversion hstatus)
    have hget := hconsistent'.get_by_id (update_mem hw hsame)
    rw [hsame.id, hrowSub] at hget
    have haccepted := (get_current_worker_ok_iff (s := { update s w' with
      draw := s.draw + 1, spent := s.spent ++ [spent] })).mpr ⟨⟨secret, hmem⟩, hlive, hget,
      hsv.trans hversion.symm, hsame.organization_id.trans horg, by rw [hstatus]; nofun,
      by rw [hsecret]; nofun⟩
    have hcurrent := h.current token w' haccepted secret hmem
    rw [hsecret, Option.some.injEq, hash_secret, hash_secret, Digest.mk.injEq] at hcurrent
    rw [← hcurrent, generate_worker_secret] at hdrawn
    exact Nat.lt_irrefl _ hdrawn
  | _ => rfl

/-- **A run keeps what is asked of credentials exactly when none of its enrollments is of a
worker that has a token of its present version about which is not over.** -/
theorem credentials_kept_iff (settings : Settings) (now : reports.Time) (events : List Event) :
    Along (step settings) (Credentials settings) { now := now } events ↔
      Along (step settings) (fun s e => replacesNothing s e = true) { now := now } events := by
  constructor
  · refine fun h => along_of_invariant (I := Consistent)
      (fun s e s' hs _ hstep => hs.step (step_stepped hstep)) (fun s e hs hkept => ?_)
      (consistent_start now) h
    rcases houtcome : outcome settings s e with error | s'
    · have hstep : step settings s e = some s := by rw [step, houtcome]
      exact replacesNothing_of_sound hs (step_stepped hstep) (hkept s hstep).1
    · exact replacesNothing_of_sound hs (outcome_stepped houtcome)
        (hkept s' (by rw [step, houtcome])).1
  · refine fun h => along_of_invariant (I := fun s => Consistent s ∧ Current s)
      (fun s e s' hs hover hstep => ⟨hs.1.step (step_stepped hstep),
        hs.2.step hs.1 (step_stepped hstep) hover⟩)
      (fun s e hs hover s' hstep => ?_)
      ⟨consistent_start now, fun _ _ hmem => absurd hmem List.not_mem_nil⟩ h
    have hstepped := step_stepped hstep
    exact ⟨sound_of_current (hs.1.step hstepped) (hs.2.step hs.1 hstepped hover),
      fun w hw => hs.1.versions hstepped hw⟩

/-- A worker that is disabled before it enrolls, is given a secret while it is, and enrolls
when it is enabled again. -/
def enrolledLate : List Event :=
  [.register 1 1 "reports-01" none, .set_enabled 0 1 false, .rotate_credential 0 1,
    .set_enabled 0 1 true, .issue_token 0 (generate_worker_secret 1),
    .enroll (generate_enrollment_token 0) {}]

/-- The worker then. -/
def enrolledLateWorker : ReportWorker where
  id := 0
  organization_id := 1
  created_by := 1
  name := "reports-01"
  description := none
  status := .ONLINE
  enrollment_token_hash := none
  enrollment_expires_at := none
  enrolled_at := some 0
  secret_hash := some (hash_secret (generate_worker_secret 3))
  secret_version := 2
  secret_rotated_at := some 0
  capabilities := some []
  last_heartbeat_at := some 0

theorem enrolledLate_accepted : ∃ s token secret worker,
    run (step defaultSettings) { now := 0 } enrolledLate = some s ∧
      (token, secret) ∈ s.issued ∧ get_current_worker s token = .ok worker ∧
      worker.secret_hash ≠ some (hash_secret secret) := by
  refine ⟨{ now := 0, draw := 4, rows := [enrolledLateWorker]
            issued := [(⟨0, 1, 2, 0, 900, 2⟩, generate_worker_secret 1)]
            spent := [generate_enrollment_token 0] },
    ⟨0, 1, 2, 0, 900, 2⟩, generate_worker_secret 1, enrolledLateWorker, ?_, ?_, ?_, ?_⟩
  · decide +kernel
  · decide
  · decide +kernel
  · decide

end PaCopilot.workers

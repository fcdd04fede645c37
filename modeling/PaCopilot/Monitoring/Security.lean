/-
The rule that watches who is in which group, `_check_security`.

A check compares the membership with the one that the last check saw, and raises an alert
when they differ. The alert's key is a digest of the membership, not of its change: when
the membership changes to one that it has changed to before, the key is there already, and
nobody hears of it ([`changes_alerted_iff`]).
-/
import PaCopilot.Monitoring.Rules
import PaCopilot.Lib.Run
import Mathlib.Data.List.Sort

set_option autoImplicit false

namespace PaCopilot.monitoring_rules.security

open Dedup Run

/-! ## The check -/

/-- A user of the server, with their groups. -/
structure User where
  name : String
  groups : List String
  deriving DecidableEq

def sorted (texts : List String) : List String := texts.insertionSort fun a b => a ≤ b

/-- `snapshot`: the groups of at least one user, each with its members. -/
def snapshotOf (users : List User) : Snapshot :=
  let entries := users.flatMap fun user =>
    ((sorted user.groups).take MAX_GROUPS).map fun group => (group, user.name)
  (sorted (entries.map Prod.fst).dedup).map fun group =>
    (group, sorted ((entries.filter fun entry => entry.1 = group).map Prod.snd))

/-- `snapshot.get(group, [])`. -/
def members (snapshot : Snapshot) (group : String) : List String :=
  ((snapshot.find? fun entry => entry.1 = group).map Prod.snd).getD []

/-- `set(after) - set(before)`, sorted. -/
def difference (after before : List String) : List String :=
  sorted (after.filter (· ∉ before)).dedup

/-- `lines`. -/
def changeLines (baseline snapshot : Snapshot) : List String :=
  (sorted ((baseline ++ snapshot).map Prod.fst).dedup).flatMap fun group =>
    let added := difference (members snapshot group) (members baseline group)
    let removed := difference (members baseline group) (members snapshot group)
    let gained := ", ".intercalate added
    let lost := ", ".intercalate removed
    (if added = [] then [] else [s!"{group}: added {gained}"])
      ++ (if removed = [] then [] else [s!"{group}: removed {lost}"])

/-- `_check_security`, from the users that the server named. -/
def _check_security (users : List User) (rule : MonitorRule Snapshot) :
    List (Found (List String)) × Option Snapshot :=
  let snapshot := snapshotOf users
  match rule.state with
  -- the first check is the baseline
  | none => ([], some snapshot)
  | some baseline =>
    if baseline = snapshot then ([], some snapshot)
    else
      let lines := changeLines baseline snapshot
      let critical := lines.any fun line => line.startsWith "ADMIN:" && Python.contains line "added"
      ([{ severity := if critical then "critical" else "warning"
          title := s!"Security changed: {lines.length} group membership change(s)"
          detail := some ("\n".intercalate (lines.take 50))
          evidence := .found (lines.take 200)
          dedup_key := .security snapshot }], some snapshot)

/-! ## Checks one after another -/

/-- The rule and its alerts. Kept beside them: what the last check saw, and the memberships
that were found to have changed, by the check that found it. -/
structure State where
  now : Time
  rule : MonitorRule Snapshot
  alerts : List (MonitorAlert (List String)) := []
  previous : Option Snapshot := none
  changes : List Snapshot := []

inductive Event
  | check (users : List User)
  /-- The server does not answer. -/
  | fail (text cls : String)
  | wait (duration : Time)
  deriving DecidableEq

/-- What a check sees is not what the last one saw. -/
def changed (s : State) (users : List User) : Bool :=
  s.previous.any fun previous => previous ≠ snapshotOf users

def step (s : State) : Event → Option State
  | .check users =>
    let checked := check_rule s.now s.now (.ok (_check_security users s.rule)) s.rule s.alerts
    some { s with
      rule := checked.1
      alerts := checked.2.1
      previous := some (snapshotOf users)
      changes := if changed s users then s.changes ++ [snapshotOf users] else s.changes }
  | .fail text cls =>
    let checked := check_rule s.now s.now (.error (text, cls)) s.rule s.alerts
    some { s with rule := checked.1, alerts := checked.2.1 }
  | .wait duration => some { s with now := s.now + duration }

/-- A rule that was made now. -/
def State.start (name : String) (now : Time) : State :=
  { now := now, rule := { name := name, created_at := now } }

/-! ## What is asked -/

/-- A check that sees another membership than the last one creates an alert, and one that
sees the same creates none. -/
def Alerted (s : State) (e : Event) : Prop :=
  ∀ s', step s e = some s' → ∀ users, e = .check users →
    (changed s users = true → ∃ alert, s'.alerts = s.alerts ++ [alert]) ∧
    (s.previous = some (snapshotOf users) → s'.alerts = s.alerts)

/-- A membership that is found to have changed has not been changed to before. -/
def firstTime (s : State) : Event → Bool
  | .check users => !changed s users || snapshotOf users ∉ s.changes
  | _ => true

/-- The baseline of the rule is what the last check saw, and the alerts are of the
memberships that were changed to. -/
structure Kept (s : State) : Prop where
  baseline : s.rule.state = s.previous
  alerted : ∀ snapshot, .security snapshot ∈ s.alerts.map MonitorAlert.dedup_key ↔
    snapshot ∈ s.changes

section Steps

variable {s s' : State} {e : Event} {users : List User}

theorem raiseAll_one {now : Time} {item : Found (List String)}
    {alerts : List (MonitorAlert (List String))} :
    (raiseAll now ([item].take MAX_ALERTS_PER_CHECK) alerts).2
      = insertOne MonitorAlert.dedup_key alerts (alertOf now item) := raiseAll_snd

/-- A check without a difference adds nothing. -/
theorem step_check_same (h : Kept s) (hsame : changed s users = false)
    (hstep : step s (.check users) = some s') :
    s'.alerts = s.alerts ∧ s'.rule.state = some (snapshotOf users) := by
  have hfound : _check_security users s.rule = ([], some (snapshotOf users)) := by
    unfold _check_security
    rw [h.baseline]
    rcases hprevious : s.previous with _ | previous
    · rfl
    · have heq : previous = snapshotOf users := by
        simpa [changed, hprevious] using hsame
      dsimp only
      rw [if_pos heq]
  simp only [step, hfound, check_rule_ok] at hstep
  rw [← Option.some.inj hstep]
  exact ⟨rfl, rfl⟩

/-- A check with a difference adds an alert under the key of the membership it sees. -/
theorem step_check_changed (h : Kept s) (hchanged : changed s users = true)
    (hstep : step s (.check users) = some s') : ∃ alert,
      alert.dedup_key = .security (snapshotOf users) ∧
      s'.alerts = insertOne MonitorAlert.dedup_key s.alerts alert ∧
      s'.rule.state = some (snapshotOf users) := by
  rcases hprevious : s.previous with _ | previous
  · rw [changed, hprevious] at hchanged
    cases hchanged
  have hne : previous ≠ snapshotOf users := by
    simpa [changed, hprevious] using hchanged
  have hfound : ∃ item, item.dedup_key = .security (snapshotOf users) ∧
      _check_security users s.rule = ([item], some (snapshotOf users)) := by
    unfold _check_security
    rw [h.baseline, hprevious]
    dsimp only
    rw [if_neg hne]
    exact ⟨_, rfl, rfl⟩
  obtain ⟨item, hkey, hfound⟩ := hfound
  simp only [step, hfound, check_rule_ok] at hstep
  rw [← Option.some.inj hstep]
  exact ⟨alertOf s.now item, hkey, raiseAll_one, rfl⟩

theorem mem_insertOne_keys {alerts : List (MonitorAlert (List String))}
    {alert : MonitorAlert (List String)} {k : DedupKey} :
    k ∈ (insertOne MonitorAlert.dedup_key alerts alert).map MonitorAlert.dedup_key ↔
      k ∈ alerts.map MonitorAlert.dedup_key ∨ k = alert.dedup_key := by
  have hkeys : k ∈ (insertAll MonitorAlert.dedup_key alerts [alert]).map MonitorAlert.dedup_key ↔
      k ∈ alerts.map MonitorAlert.dedup_key ∨ k ∈ [alert].map MonitorAlert.dedup_key :=
    mem_keys_insertAll
  rwa [insertAll_cons, insertAll_nil, List.map_cons, List.map_nil, List.mem_singleton] at hkeys

theorem Kept.step (h : Kept s) (hstep : step s e = some s') : Kept s' := by
  cases e with
  | wait duration =>
    rw [← Option.some.inj hstep]
    exact ⟨h.baseline, h.alerted⟩
  | fail text cls =>
    have hadded := check_rule_error s.now s.now s.rule s.alerts text cls
    obtain ⟨hstate, -, -, halerts⟩ := hadded
    rw [← Option.some.inj hstep]
    refine ⟨hstate.trans h.baseline, fun snapshot => ?_⟩
    rw [← h.alerted snapshot]
    change .security snapshot ∈ (check_rule s.now s.now (.error (text, cls)) s.rule
      s.alerts).2.1.map MonitorAlert.dedup_key ↔ _
    rcases halerts with hsame | ⟨alert, hinsert, hkey, -⟩
    · rw [hsame]
    · -- the alert that the server does not answer has a key of another kind
      rw [hinsert, mem_insertOne_keys, hkey]
      simp
  | check users =>
    rcases hchanged : changed s users with _ | _
    · obtain ⟨halerts, hstate⟩ := step_check_same h hchanged hstep
      have hghost : s'.previous = some (snapshotOf users) ∧ s'.changes = s.changes := by
        rw [← Option.some.inj hstep]
        simp [hchanged]
      refine ⟨hstate.trans hghost.1.symm, fun snapshot => ?_⟩
      rw [halerts, hghost.2]
      exact h.alerted snapshot
    · obtain ⟨alert, hkey, halerts, hstate⟩ := step_check_changed h hchanged hstep
      have hghost : s'.previous = some (snapshotOf users) ∧
          s'.changes = s.changes ++ [snapshotOf users] := by
        rw [← Option.some.inj hstep]
        simp [hchanged]
      refine ⟨hstate.trans hghost.1.symm, fun snapshot => ?_⟩
      rw [halerts, hghost.2, mem_insertOne_keys, hkey, h.alerted snapshot, List.mem_append,
        List.mem_singleton, DedupKey.security.injEq]

/-- **A check answers exactly when it does not see a membership that was changed to
before.** -/
theorem Kept.alerted_iff (h : Kept s) : Alerted s e ↔ firstTime s e = true := by
  cases e with
  | wait duration => exact iff_of_true (fun _ _ _ he => nomatch he) rfl
  | fail text cls => exact iff_of_true (fun _ _ _ he => nomatch he) rfl
  | check users =>
    obtain ⟨s', hstep⟩ : ∃ s', security.step s (.check users) = some s' := ⟨_, rfl⟩
    have hiff : Alerted s (.check users) ↔
        (changed s users = true → ∃ alert, s'.alerts = s.alerts ++ [alert]) ∧
          (s.previous = some (snapshotOf users) → s'.alerts = s.alerts) := by
      constructor
      · intro hall
        exact hall s' hstep users rfl
      · intro hboth after hafter other hother
        cases hother
        rw [hstep, Option.some.injEq] at hafter
        rwa [← hafter]
    rw [hiff, firstTime]
    rcases hchanged : changed s users with _ | _
    · refine iff_of_true ⟨nofun, fun _ => (step_check_same h hchanged hstep).1⟩ rfl
    · obtain ⟨alert, hkey, halerts, -⟩ := step_check_changed h hchanged hstep
      have hdiffers : s.previous ≠ some (snapshotOf users) := by
        intro heq
        rw [changed, heq] at hchanged
        simp at hchanged
      rw [halerts, insertOne, hkey]
      by_cases hbefore : snapshotOf users ∈ s.changes
      · -- the key is taken: the insert does nothing
        rw [if_pos ((h.alerted _).mpr hbefore)]
        simp [hbefore]
      · rw [if_neg fun hkey' => hbefore ((h.alerted _).mp hkey')]
        simp [hbefore, hdiffers]

end Steps

/-- **Every change of the membership is alerted, and nothing else is, exactly when no check
finds it changed to one that it has changed to before.** -/
theorem changes_alerted_iff (name : String) (now : Time) (events : List Event) :
    Along step Alerted (State.start name now) events ↔
      Along step (fun s e => firstTime s e = true) (State.start name now) events := by
  have hstart : Kept (State.start name now) :=
    ⟨rfl, fun _ => iff_of_false List.not_mem_nil List.not_mem_nil⟩
  constructor
  · exact along_of_invariant (fun _ _ _ h _ hstep => h.step hstep)
      (fun _ _ h halerted => h.alerted_iff.mp halerted) hstart
  · exact along_of_invariant (fun _ _ _ h _ hstep => h.step hstep)
      (fun _ _ h hfirst => h.alerted_iff.mpr hfirst) hstart

/-- One of two admins is taken out of the group and put back; then out again. -/
def outAndIn : List Event :=
  let both := [⟨"ann", ["ADMIN"]⟩, ⟨"bob", ["ADMIN"]⟩]
  [.check both, .wait 900000000, .check [⟨"ann", ["ADMIN"]⟩, ⟨"bob", []⟩], .wait 900000000,
    .check both, .wait 900000000]

theorem outAndIn_unheard : ∃ s s', run step (State.start "admins" 0) outAndIn = some s ∧
    step s (.check [⟨"ann", ["ADMIN"]⟩, ⟨"bob", []⟩]) = some s' ∧
    changed s [⟨"ann", ["ADMIN"]⟩, ⟨"bob", []⟩] = true ∧ s'.alerts = s.alerts := by
  refine ⟨_, _, rfl, rfl, ?_, ?_⟩
  · decide +kernel
  · decide +kernel

end PaCopilot.monitoring_rules.security

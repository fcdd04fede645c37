/-
Replacing the key of the stored credentials: `tm1/crypto.py`, and `scripts/rotate_tm1_key.py`,
which goes through the rows while the application runs.

The new key is deployed beside the old one, the script encrypts each row again, and the old key is
removed. For each row the script reads and writes in a transaction of its own. Requests come in
between, the script may die at any point, and may be run again. No credential is lost on the way
([`credentials_kept`]), and after a run that could read every row the old key is needed no more
([`old_key_over`]). What is lost is a password that is entered between the two halves of the
transaction on its row: the script writes the one before over it.

A text that is no Fernet key is not part of the model, and neither is what the script prints.
-/
import PaCopilot.Lib.Keyring
import PaCopilot.Lib.Run
import PaCopilot.Tm1.Connection
import Mathlib.Data.List.Nodup

set_option autoImplicit false

namespace PaCopilot

open Keyring Run

/-! ## `tm1/crypto.py` -/

namespace crypto

variable {Key Text Token : Type} (fernet : Cipher Key Text Token)

/-- What a process is configured with. It keeps its keys as long as it runs. -/
structure Settings (Key : Type) where
  TM1_CREDENTIALS_KEY : Option Key
  TM1_CREDENTIALS_KEY_PREVIOUS : Option Key

/-- `_get_fernet`. -/
def _get_fernet (settings : Settings Key) : Except AppException (Keychain Key) :=
  match settings.TM1_CREDENTIALS_KEY with
  | none =>
    .error (TM1ConnectionError ("TM1_CREDENTIALS_KEY is not configured. Generate one with "
      ++ "Fernet.generate_key() and set it in the environment."))
  | some key => .ok ⟨key, settings.TM1_CREDENTIALS_KEY_PREVIOUS.toList⟩

def encrypt_password (settings : Settings Key) (draw : ℕ) (plain : Text) :
    Except AppException Token := do
  let keychain ← _get_fernet settings
  return fernet.encrypt keychain.primary draw plain

def decrypt_password (settings : Settings Key) (token : Token) : Except AppException Text := do
  let keychain ← _get_fernet settings
  match decryptWith fernet keychain.keys token with
  | some plain => return plain
  | none => .error (TM1ConnectionError "Stored TM1 credentials could not be decrypted.")

def rotate_token (settings : Settings Key) (draw : ℕ) (token : Token) :
    Except AppException Token := do
  let keychain ← _get_fernet settings
  match Keyring.rotate fernet keychain draw token with
  | some token => return token
  | none =>
    .error (TM1ConnectionError ("Stored TM1 credentials could not be decrypted. The key that "
      ++ "encrypted them is not among the configured keys."))

end crypto

/-! ## The script -/

namespace rotate_tm1_key

open crypto

/-- The tables with a column of ciphertext. -/
inductive Target
  | TM1Connection
  | PlanningAnalyticsConnection
  deriving DecidableEq

def TARGETS : List Target := [.TM1Connection, .PlanningAnalyticsConnection]

/-- A row, with `encrypted_password` or `encrypted_credential`. -/
structure Record (Token : Type) where
  table : Target
  id : ℕ
  token : Option Token

/-- A run of the script: the tables it has not come to, the rows of the present one, and the row
whose transaction is open with what is to be written. -/
structure Script (Key Token : Type) where
  settings : Settings Key
  dry_run : Bool
  targets : List Target
  table : Target
  identifiers : List ℕ
  held : Option (ℕ × Token)
  rotated : ℕ
  failed : ℕ

def Script.start {Key Token : Type} (settings : Settings Key) (dry_run : Bool) : Script Key Token :=
  ⟨settings, dry_run, TARGETS, .TM1Connection, [], none, 0, 0⟩

/-- Where a run is after a step. -/
inductive Progress (Key Token : Type)
  | running (script : Script Key Token)
  | returned (script : Script Key Token)
  | died

section Steps

variable {Key Text Token : Type} (fernet : Cipher Key Text Token)

/-- `session.get(model, identifier)`. -/
def get (rows : List (Record Token)) (table : Target) (id : ℕ) : Option (Record Token) :=
  rows.find? fun row => row.table = table ∧ row.id = id

/-- The ciphertext of a row is replaced. -/
def put (rows : List (Record Token)) (table : Target) (id : ℕ) (token : Token) :
    List (Record Token) :=
  rows.map fun row => if row.table = table ∧ row.id = id then { row with token := some token } else row

/-- The next thing that `rotate` does with the database. -/
def proceed (draw : ℕ) (rows : List (Record Token)) (script : Script Key Token) :
    List (Record Token) × Progress Key Token :=
  match script.held, script.identifiers, script.targets with
  | some (id, new_token), _, _ =>
    -- an update that matches no row is an error
    match get rows script.table id with
    | none => (rows, .died)
    | some _ =>
      (put rows script.table id new_token,
        .running { script with held := none, rotated := script.rotated + 1 })
  | none, id :: rest, _ =>
    let script := { script with identifiers := rest }
    match (get rows script.table id).bind Record.token with
    | none => (rows, .running script)
    | some token =>
      match rotate_token fernet script.settings draw token with
      | .error _ => (rows, .running { script with failed := script.failed + 1 })
      | .ok new_token =>
        if script.dry_run then (rows, .running { script with rotated := script.rotated + 1 })
        else (rows, .running { script with held := some (id, new_token) })
  | none, [], table :: rest =>
    (rows, .running { script with
      targets := rest
      table := table
      identifiers := (rows.filter fun row => row.table = table).map Record.id })
  | none, [], [] => (rows, .returned script)

/-- The database, what was entered last for each row, and the script. -/
structure World (Key Text Token : Type) where
  rows : List (Record Token)
  next_id : ℕ
  entered : Target → ℕ → Option Text
  script : Option (Script Key Token)
  returned : List (Script Key Token)

/-- A request of the application, by a process with those settings; or something that the script
does, or that happens to it. -/
inductive Action (Key Text : Type)
  | create_connection (settings : Settings Key) (draw : ℕ) (password : Text)
  | create_planning (settings : Settings Key) (draw : ℕ) (credential : Option Text)
  | update_connection (settings : Settings Key) (draw : ℕ) (id : ℕ) (password : Text)
  | delete (table : Target) (id : ℕ)
  | rotate (settings : Settings Key) (dry_run : Bool)
  | proceed (draw : ℕ)
  | kill

/-- The settings of who encrypts. -/
def Action.settings : Action Key Text → Option (Settings Key)
  | .create_connection settings _ _ | .create_planning settings _ _
  | .update_connection settings _ _ _ | .rotate settings _ => some settings
  | _ => none

/-- Whoever encrypts does so under one of the keys. -/
def Action.EncryptsUnder (keys : List Key) (action : Action Key Text) : Prop :=
  ∀ settings ∈ action.settings, ∀ key ∈ settings.TM1_CREDENTIALS_KEY, key ∈ keys

instance [DecidableEq Key] (keys : List Key) (action : Action Key Text) :
    Decidable (action.EncryptsUnder keys) :=
  inferInstanceAs (Decidable (∀ settings ∈ action.settings, _))

namespace World

def empty : World Key Text Token := ⟨[], 0, fun _ _ => none, none, []⟩

/-- A row with a credential, or without. -/
def add (s : World Key Text Token) (table : Target) (credential : Option (Text × Token)) :
    World Key Text Token :=
  { s with
    rows := s.rows ++ [⟨table, s.next_id, credential.map Prod.snd⟩]
    next_id := s.next_id + 1
    entered := fun t id =>
      if t = table ∧ id = s.next_id then credential.map Prod.fst else s.entered t id }

/-- One step. A request that raises changes nothing. -/
def step (s : World Key Text Token) : Action Key Text → Option (World Key Text Token)
  | .create_connection settings draw password =>
    match encrypt_password fernet settings draw password with
    | .error _ => some s
    | .ok token => some (s.add .TM1Connection (some (password, token)))
  | .create_planning settings draw credential =>
    match credential with
    | none => some (s.add .PlanningAnalyticsConnection none)
    | some credential =>
      match encrypt_password fernet settings draw credential with
      | .error _ => some s
      | .ok token => some (s.add .PlanningAnalyticsConnection (some (credential, token)))
  | .update_connection settings draw id password =>
    match get s.rows .TM1Connection id, encrypt_password fernet settings draw password with
    | some _, .ok token =>
      some { s with
        rows := put s.rows .TM1Connection id token
        entered := fun t i =>
          if t = .TM1Connection ∧ i = id then some password else s.entered t i }
    | _, _ => some s
  | .delete table id =>
    some { s with rows := s.rows.filter fun row => !(row.table = table && row.id = id) }
  | .rotate settings dry_run =>
    -- `main` returns at once without a key
    match s.script, settings.TM1_CREDENTIALS_KEY with
    | none, some _ => some { s with script := some (.start settings dry_run) }
    | none, none => some s
    | some _, _ => none
  | .proceed draw =>
    match s.script with
    | none => none
    | some script =>
      match rotate_tm1_key.proceed fernet draw s.rows script with
      | (rows, .running script) => some { s with rows := rows, script := some script }
      | (rows, .returned script) =>
        some { s with rows := rows, script := none, returned := s.returned ++ [script] }
      | (rows, .died) => some { s with rows := rows, script := none }
  | .kill => s.script.map fun _ => { s with script := none }

/-- The action enters no password for the row that the script has read and not yet written. -/
def Clear (s : World Key Text Token) : Action Key Text → Prop
  | .update_connection _ _ id _ => ∀ script ∈ s.script, script.table = .TM1Connection →
    script.held.map Prod.fst ≠ some id
  | _ => True

instance (s : World Key Text Token) (action : Action Key Text) : Decidable (s.Clear action) :=
  match action with
  | .update_connection _ _ id _ => inferInstanceAs (Decidable (∀ script ∈ s.script,
      script.table = .TM1Connection → script.held.map Prod.fst ≠ some id))
  | .create_connection .. | .create_planning .. | .delete .. | .rotate .. | .proceed .. | .kill =>
    inferInstanceAs (Decidable True)

end World

/-- What `proceed` does, said once. -/
inductive Proceeded (draw : ℕ) (rows : List (Record Token)) (script : Script Key Token) :
    List (Record Token) → Progress Key Token → Prop
  | died (id : ℕ) (token : Token) (hheld : script.held = some (id, token))
      (hgone : get rows script.table id = none) :
      Proceeded draw rows script rows .died
  | wrote (id : ℕ) (token : Token) (hheld : script.held = some (id, token)) :
      Proceeded draw rows script (put rows script.table id token)
        (.running { script with held := none, rotated := script.rotated + 1 })
  | skipped (id : ℕ) (rest : List ℕ) (hheld : script.held = none)
      (hidentifiers : script.identifiers = id :: rest)
      (hnone : (get rows script.table id).bind Record.token = none) :
      Proceeded draw rows script rows (.running { script with identifiers := rest })
  | unread (id : ℕ) (rest : List ℕ) (hheld : script.held = none)
      (hidentifiers : script.identifiers = id :: rest) :
      Proceeded draw rows script rows
        (.running { script with identifiers := rest, failed := script.failed + 1 })
  | rehearsed (id : ℕ) (rest : List ℕ) (hheld : script.held = none)
      (hidentifiers : script.identifiers = id :: rest) (hdry : script.dry_run = true) :
      Proceeded draw rows script rows
        (.running { script with identifiers := rest, rotated := script.rotated + 1 })
  | took (id : ℕ) (rest : List ℕ) (token new_token : Token) (hheld : script.held = none)
      (hidentifiers : script.identifiers = id :: rest) (hdry : script.dry_run = false)
      (htoken : (get rows script.table id).bind Record.token = some token)
      (hrotate : rotate_token fernet script.settings draw token = .ok new_token) :
      Proceeded draw rows script rows
        (.running { script with identifiers := rest, held := some (id, new_token) })
  | turned (table : Target) (rest : List Target) (hheld : script.held = none)
      (hidentifiers : script.identifiers = []) (htargets : script.targets = table :: rest) :
      Proceeded draw rows script rows (.running { script with
        targets := rest
        table := table
        identifiers := (rows.filter fun row => row.table = table).map Record.id })
  | ended (hheld : script.held = none) (hidentifiers : script.identifiers = [])
      (htargets : script.targets = []) :
      Proceeded draw rows script rows (.returned script)

variable {fernet} in
theorem proceed_cases {draw : ℕ} {rows rows' : List (Record Token)} {script : Script Key Token}
    {progress : Progress Key Token} (h : proceed fernet draw rows script = (rows', progress)) :
    Proceeded fernet draw rows script rows' progress := by
  unfold proceed at h
  split at h
  · rename_i id token hheld
    split at h
    · rename_i hgone
      cases h
      exact .died id token hheld hgone
    · cases h
      exact .wrote id token hheld
  · rename_i id rest hheld hidentifiers
    dsimp only at h
    split at h
    · rename_i hnone
      cases h
      exact .skipped id rest hheld hidentifiers hnone
    · rename_i token htoken
      split at h
      · cases h
        exact .unread id rest hheld hidentifiers
      · rename_i new_token hrotate
        split at h
        · rename_i hdry
          cases h
          exact .rehearsed id rest hheld hidentifiers hdry
        · rename_i hdry
          cases h
          exact .took id rest token new_token hheld hidentifiers (Bool.not_eq_true _ ▸ hdry) htoken
            hrotate
  · rename_i table rest hheld hidentifiers htargets
    cases h
    exact .turned table rest hheld hidentifiers htargets
  · rename_i hheld hidentifiers htargets
    cases h
    exact .ended hheld hidentifiers htargets

end Steps

/-! ## No credential is lost -/

section Kept

variable {Key Text Token : Type} {fernet : Cipher Key Text Token} {keys : List Key}
  {rows : List (Record Token)} {table : Target} {id : ℕ} {s s' : World Key Text Token}

theorem encrypt_password_ok {settings : Settings Key} {draw : ℕ} {plain : Text} {token : Token}
    (h : encrypt_password fernet settings draw plain = .ok token) :
    ∃ key, settings.TM1_CREDENTIALS_KEY = some key ∧ token = fernet.encrypt key draw plain := by
  rcases hkey : settings.TM1_CREDENTIALS_KEY with _ | key
  · rw [encrypt_password, _get_fernet, hkey] at h
    cases h
  · rw [encrypt_password, _get_fernet, hkey] at h
    cases h
    exact ⟨key, rfl, rfl⟩

/-- The token is of the text, under one of the keys. -/
def Encrypted (fernet : Cipher Key Text Token) (keys : List Key) (token : Token) (text : Text) : Prop :=
  ∃ key ∈ keys, ∃ draw, token = fernet.encrypt key draw text

theorem rotate_token_encrypted {settings : Settings Key} {draw : ℕ} {token new_token : Token}
    {text : Text} (hsettings : ∀ key, settings.TM1_CREDENTIALS_KEY = some key → key ∈ keys)
    (htoken : Encrypted fernet keys token text)
    (h : rotate_token fernet settings draw token = .ok new_token) :
    Encrypted fernet keys new_token text := by
  obtain ⟨key, -, draw', rfl⟩ := htoken
  rcases hkey : settings.TM1_CREDENTIALS_KEY with _ | primary
  · rw [rotate_token, _get_fernet, hkey] at h
    cases h
  · rw [rotate_token, _get_fernet, hkey] at h
    rcases hrotate : Keyring.rotate fernet ⟨primary, settings.TM1_CREDENTIALS_KEY_PREVIOUS.toList⟩ draw
      (fernet.encrypt key draw' text) with _ | token'
    · simp [bind, Except.bind, hrotate] at h
    · simp only [bind, Except.bind, hrotate, pure, Except.pure, Except.ok.injEq] at h
      rw [← h]
      exact ⟨primary, hsettings primary hkey, draw, Keyring.rotate_encrypt hrotate⟩

/-- A row has what was entered for it, encrypted; or nothing, if nothing was. -/
def Holds (fernet : Cipher Key Text Token) (keys : List Key) (entered : Target → ℕ → Option Text)
    (row : Record Token) : Prop :=
  row.token = none ∧ entered row.table row.id = none ∨
    ∃ token text, row.token = some token ∧ entered row.table row.id = some text ∧
      Encrypted fernet keys token text

/-- Every row has what was entered for it. -/
structure Stored (fernet : Cipher Key Text Token) (keys : List Key) (rows : List (Record Token))
    (next_id : ℕ) (entered : Target → ℕ → Option Text) : Prop where
  known : ∀ row ∈ rows, row.id < next_id
  apart : (rows.map fun row => (row.table, row.id)).Nodup
  holds : ∀ row ∈ rows, Holds fernet keys entered row

/-- What the script is about to write is what was entered. -/
structure Ready (fernet : Cipher Key Text Token) (keys : List Key) (rows : List (Record Token))
    (next_id : ℕ) (entered : Target → ℕ → Option Text) (script : Script Key Token) : Prop where
  settings : ∀ key, script.settings.TM1_CREDENTIALS_KEY = some key → key ∈ keys
  held : ∀ id token, script.held = some (id, token) → id < next_id ∧
    ∃ text, Encrypted fernet keys token text ∧
      ∀ row ∈ rows, row.table = script.table → row.id = id → entered script.table id = some text

structure World.Kept (fernet : Cipher Key Text Token) (keys : List Key) (s : World Key Text Token) :
    Prop where
  stored : Stored fernet keys s.rows s.next_id s.entered
  ready : ∀ script, s.script = some script →
    Ready fernet keys s.rows s.next_id s.entered script

theorem World.Kept.empty : (World.empty : World Key Text Token).Kept fernet keys where
  stored := ⟨fun _ h => absurd h List.not_mem_nil, List.nodup_nil,
    fun _ h => absurd h List.not_mem_nil⟩
  ready := nofun

theorem mem_put {row : Record Token} {token : Token} (h : row ∈ put rows table id token) :
    ∃ row' ∈ rows, row.table = row'.table ∧ row.id = row'.id ∧
      (row'.table = table ∧ row'.id = id ∧ row.token = some token ∨
        ¬ (row'.table = table ∧ row'.id = id) ∧ row = row') := by
  obtain ⟨row', hrow', rfl⟩ := List.mem_map.mp h
  refine ⟨row', hrow', ?_⟩
  by_cases hsame : row'.table = table ∧ row'.id = id
  · rw [if_pos hsame]
    exact ⟨rfl, rfl, .inl ⟨hsame.1, hsame.2, rfl⟩⟩
  · rw [if_neg hsame]
    exact ⟨rfl, rfl, .inr ⟨hsame, rfl⟩⟩

/-- The keys of the rows stay. -/
theorem put_keys (rows : List (Record Token)) (table : Target) (id : ℕ) (token : Token) :
    ((put rows table id token).map fun row => (row.table, row.id))
      = rows.map fun row => (row.table, row.id) := by
  rw [put, List.map_map]
  refine List.map_congr_left fun row _ => ?_
  dsimp only [Function.comp_apply]
  split <;> rfl

theorem get_some {row : Record Token} (h : get rows table id = some row) :
    row ∈ rows ∧ row.table = table ∧ row.id = id := by
  have hkey := List.find?_some h
  rw [decide_eq_true_eq] at hkey
  exact ⟨List.mem_of_find?_eq_some h, hkey⟩

/-- A row that is there is the one that is found. -/
theorem get_of_mem (hapart : (rows.map fun row => (row.table, row.id)).Nodup) {row : Record Token}
    (hrow : row ∈ rows) : get rows row.table row.id = some row := by
  rcases hfound : get rows row.table row.id with _ | row'
  · have hno := List.find?_eq_none.mp hfound row hrow
    simp at hno
  · obtain ⟨hmem, htable, hid⟩ := get_some hfound
    rw [List.inj_on_of_nodup_map hapart hmem hrow (by rw [htable, hid])]

section Rows

variable {next_id : ℕ} {entered entered' : Target → ℕ → Option Text} {script : Script Key Token}
  {token : Token} {text : Text}

/-- A row gets the ciphertext of what was entered for it. -/
theorem Stored.put (h : Stored fernet keys rows next_id entered)
    (htoken : Encrypted fernet keys token text)
    (hrow : ∀ row ∈ rows, row.table = table → row.id = id → entered' table id = some text)
    (hother : ∀ t i, ¬ (t = table ∧ i = id) → entered' t i = entered t i) :
    Stored fernet keys (put rows table id token) next_id entered' := by
  constructor
  · intro row hmem
    obtain ⟨row', hrow', -, hid, -⟩ := mem_put hmem
    rw [hid]
    exact h.known row' hrow'
  · rw [put_keys]
    exact h.apart
  · intro row hmem
    obtain ⟨row', hrow', htable, hid, ⟨htable', hid', hnew⟩ | ⟨hne, rfl⟩⟩ := mem_put hmem
    · refine .inr ⟨token, text, hnew, ?_, htoken⟩
      rw [htable, hid, htable', hid']
      exact hrow row' hrow' htable' hid'
    · rw [Holds, hother _ _ hne]
      exact h.holds row hrow'

/-- A row without a credential, or with one. -/
theorem Stored.add (h : Stored fernet keys rows next_id entered) {credential : Option (Text × Token)}
    (hcredential : ∀ text token, credential = some (text, token) →
      Encrypted fernet keys token text) :
    Stored fernet keys (rows ++ [⟨table, next_id, credential.map Prod.snd⟩]) (next_id + 1)
      fun t i => if t = table ∧ i = next_id then credential.map Prod.fst else entered t i := by
  constructor
  · intro row hrow
    rcases List.mem_append.mp hrow with hrow | hrow
    · exact Nat.lt_succ_of_lt (h.known row hrow)
    · rw [List.mem_singleton.mp hrow]
      exact Nat.lt_succ_self _
  · rw [List.map_append, List.nodup_append]
    refine ⟨h.apart, List.nodup_singleton _, ?_⟩
    intro key hkey key' hkey' heq
    obtain ⟨row, hrow, rfl⟩ := List.mem_map.mp hkey
    rw [List.map_singleton, List.mem_singleton] at hkey'
    rw [hkey', Prod.mk.injEq] at heq
    exact absurd heq.2 (Nat.ne_of_lt (h.known row hrow))
  · intro row hrow
    rcases List.mem_append.mp hrow with hrow | hrow
    · have hne : ¬ (row.table = table ∧ row.id = next_id) := fun heq =>
        absurd heq.2 (Nat.ne_of_lt (h.known row hrow))
      rw [Holds, if_neg hne]
      exact h.holds row hrow
    · rw [List.mem_singleton.mp hrow, Holds, if_pos ⟨rfl, rfl⟩]
      rcases credential with _ | ⟨text, token⟩
      · exact .inl ⟨rfl, rfl⟩
      · exact .inr ⟨token, text, rfl, rfl, hcredential text token rfl⟩

theorem Stored.delete (h : Stored fernet keys rows next_id entered) (p : Record Token → Bool) :
    Stored fernet keys (rows.filter p) next_id entered where
  known := fun row hrow => h.known row (List.mem_of_mem_filter hrow)
  apart := h.apart.sublist (List.filter_sublist.map _)
  holds := fun row hrow => h.holds row (List.mem_of_mem_filter hrow)

/-- The script does not mind other rows. -/
theorem Ready.frame {rows' : List (Record Token)} {next_id' : ℕ}
    (h : Ready fernet keys rows next_id entered script) (hle : next_id ≤ next_id')
    (hrows : ∀ row ∈ rows', row.id < next_id → ∃ row' ∈ rows,
      row'.table = row.table ∧ row'.id = row.id)
    (hentered : ∀ id token, script.held = some (id, token) → entered' script.table id
      = entered script.table id) :
    Ready fernet keys rows' next_id' entered' script where
  settings := h.settings
  held := by
    intro id token hheld
    obtain ⟨hlt, text, hencrypted, hrow⟩ := h.held id token hheld
    refine ⟨Nat.lt_of_lt_of_le hlt hle, text, hencrypted, fun row hmem htable hid => ?_⟩
    obtain ⟨row', hmem', htable', hid'⟩ := hrows row hmem (hid ▸ hlt)
    rw [hentered id token hheld]
    exact hrow row' hmem' (htable'.trans htable) (hid'.trans hid)

/-- A script that holds no row. -/
theorem Ready.of_free {script' : Script Key Token} (h : Ready fernet keys rows next_id entered script)
    (hsettings : script'.settings = script.settings) (hheld : script'.held = none) :
    Ready fernet keys rows next_id entered script' where
  settings := hsettings ▸ h.settings
  held := fun id token hsome => by
    rw [hheld] at hsome
    cases hsome

/-- **What the script does keeps the credentials.** -/
theorem proceed_kept {draw : ℕ} {rows' : List (Record Token)} {progress : Progress Key Token}
    (h : Stored fernet keys rows next_id entered)
    (hready : Ready fernet keys rows next_id entered script)
    (hproceed : proceed fernet draw rows script = (rows', progress)) :
    Stored fernet keys rows' next_id entered ∧
      ∀ script', progress = .running script' → Ready fernet keys rows' next_id entered script' := by
  cases proceed_cases hproceed with
  | died id token hheld hgone => exact ⟨h, nofun⟩
  | wrote id token hheld =>
    obtain ⟨-, text, hencrypted, hrow⟩ := hready.held id token hheld
    refine ⟨h.put hencrypted hrow fun _ _ _ => rfl, ?_⟩
    rintro _ ⟨⟩
    exact ⟨hready.settings, nofun⟩
  | skipped id rest hheld hidentifiers hnone =>
    refine ⟨h, ?_⟩
    rintro _ ⟨⟩
    exact hready.of_free rfl hheld
  | unread id rest hheld hidentifiers =>
    refine ⟨h, ?_⟩
    rintro _ ⟨⟩
    exact hready.of_free rfl hheld
  | rehearsed id rest hheld hidentifiers hdry =>
    refine ⟨h, ?_⟩
    rintro _ ⟨⟩
    exact hready.of_free rfl hheld
  | took id rest token new_token hheld hidentifiers hdry htoken hrotate =>
    refine ⟨h, ?_⟩
    rintro _ ⟨⟩
    refine ⟨hready.settings, ?_⟩
    rintro id' token' ⟨⟩
    -- the row that was read
    obtain ⟨row, hget, hrowtoken⟩ := Option.bind_eq_some_iff.mp htoken
    obtain ⟨hrow, htable, hid⟩ := get_some hget
    rcases h.holds row hrow with ⟨hnone, -⟩ | ⟨token'', text, hsome, hentered, hencrypted⟩
    · rw [hnone] at hrowtoken
      cases hrowtoken
    · rw [hsome, Option.some.injEq] at hrowtoken
      subst hrowtoken
      refine ⟨hid ▸ h.known row hrow, text,
        rotate_token_encrypted hready.settings hencrypted hrotate, fun _ _ _ _ => ?_⟩
      rw [← htable, ← hid]
      exact hentered
  | turned table rest hheld hidentifiers htargets =>
    refine ⟨h, ?_⟩
    rintro _ ⟨⟩
    exact hready.of_free rfl hheld
  | ended hheld hidentifiers htargets => exact ⟨h, nofun⟩

end Rows

/-- What a step does to the world. -/
inductive World.Deed (fernet : Cipher Key Text Token) (s : World Key Text Token)
    (action : Action Key Text) : World Key Text Token → Prop
  | refused : World.Deed fernet s action s
  | added (table : Target) (credential : Option (Text × Token))
      (hcredential : ∀ text token, credential = some (text, token) →
        ∀ keys, action.EncryptsUnder keys → Encrypted fernet keys token text) :
      World.Deed fernet s action (s.add table credential)
  | entered (settings : Settings Key) (draw id : ℕ) (password : Text) (token : Token)
      (haction : action = .update_connection settings draw id password)
      (htoken : ∀ keys, action.EncryptsUnder keys → Encrypted fernet keys token password) :
      World.Deed fernet s action { s with
        rows := put s.rows .TM1Connection id token
        entered := fun t i =>
          if t = .TM1Connection ∧ i = id then some password else s.entered t i }
  | deleted (p : Record Token → Bool) :
      World.Deed fernet s action { s with rows := s.rows.filter p }
  | started (settings : Settings Key) (dry_run : Bool) (key : Key)
      (hkey : settings.TM1_CREDENTIALS_KEY = some key)
      (hkeys : ∀ keys, action.EncryptsUnder keys → key ∈ keys) :
      World.Deed fernet s action { s with script := some (.start settings dry_run) }
  | went_on (script script' : Script Key Token) (draw : ℕ) (rows : List (Record Token))
      (hscript : s.script = some script)
      (hproceed : proceed fernet draw s.rows script = (rows, .running script')) :
      World.Deed fernet s action { s with rows := rows, script := some script' }
  | returned (script script' : Script Key Token) (draw : ℕ) (rows : List (Record Token))
      (hscript : s.script = some script)
      (hproceed : proceed fernet draw s.rows script = (rows, .returned script')) :
      World.Deed fernet s action
        { s with rows := rows, script := none, returned := s.returned ++ [script'] }
  | died (script : Script Key Token) (draw : ℕ) (rows : List (Record Token))
      (hscript : s.script = some script)
      (hproceed : proceed fernet draw s.rows script = (rows, .died)) :
      World.Deed fernet s action { s with rows := rows, script := none }
  | killed : World.Deed fernet s action { s with script := none }

theorem step_deed {action : Action Key Text} (hstep : s.step fernet action = some s') :
    s.Deed fernet action s' := by
  have hencrypted : ∀ {settings draw plain token}, action.settings = some settings →
      encrypt_password fernet settings draw plain = .ok token →
      ∀ keys, action.EncryptsUnder keys → Encrypted fernet keys token plain := by
    intro settings draw plain token hsettings hok keys hkeys
    obtain ⟨key, hkey, rfl⟩ := encrypt_password_ok hok
    exact ⟨key, hkeys settings hsettings key hkey, draw, rfl⟩
  cases action with
  | create_connection settings draw password =>
    rw [World.step] at hstep
    split at hstep
    · cases hstep
      exact .refused
    · rename_i token hok
      cases hstep
      refine .added _ _ fun text token' hcredential => ?_
      cases hcredential
      exact hencrypted rfl hok
  | create_planning settings draw credential =>
    rcases credential with _ | credential
    · cases hstep
      exact .added _ _ fun text token hcredential => absurd hcredential.symm (Option.some_ne_none _)
    · rw [World.step] at hstep
      split at hstep
      · cases hstep
        exact .refused
      · rename_i token hok
        cases hstep
        refine .added _ _ fun text token' hcredential => ?_
        cases hcredential
        exact hencrypted rfl hok
  | update_connection settings draw id password =>
    rw [World.step] at hstep
    split at hstep
    · rename_i row token hget hok
      cases hstep
      exact .entered settings draw id password token rfl (hencrypted rfl hok)
    · cases hstep
      exact .refused
  | delete table id =>
    cases hstep
    exact .deleted _
  | rotate settings dry_run =>
    rw [World.step] at hstep
    split at hstep
    · rename_i key _ hkey
      cases hstep
      exact .started settings dry_run key hkey fun keys hkeys => hkeys settings rfl key hkey
    · cases hstep
      exact .refused
    · cases hstep
  | proceed draw =>
    rw [World.step] at hstep
    split at hstep
    · cases hstep
    · rename_i script hscript
      split at hstep
      · rename_i rows script' hproceed
        cases hstep
        exact .went_on script script' draw rows hscript hproceed
      · rename_i rows script' hproceed
        cases hstep
        exact .returned script script' draw rows hscript hproceed
      · rename_i rows hproceed
        cases hstep
        exact .died script draw rows hscript hproceed
  | kill =>
    obtain ⟨script, -, rfl⟩ := Option.map_eq_some_iff.mp hstep
    exact .killed

/-- **A step keeps the credentials**, unless it enters a password that is written over. -/
theorem World.Kept.step {action : Action Key Text} (h : s.Kept fernet keys)
    (hkeys : action.EncryptsUnder keys) (hclear : s.Clear action)
    (hstep : s.step fernet action = some s') : s'.Kept fernet keys := by
  cases step_deed hstep with
  | refused => exact h
  | added table credential hcredential =>
    refine ⟨h.stored.add fun text token heq => hcredential text token heq keys hkeys,
      fun script hscript => ?_⟩
    have hready := h.ready script hscript
    refine hready.frame (Nat.le_succ _) (fun row hrow hlt => ?_) fun id token hheld => ?_
    · rcases List.mem_append.mp hrow with hrow | hrow
      · exact ⟨row, hrow, rfl, rfl⟩
      · rw [List.mem_singleton.mp hrow] at hlt
        exact absurd hlt (Nat.lt_irrefl _)
    · exact if_neg fun heq => absurd heq.2 (Nat.ne_of_lt (hready.held id token hheld).1)
  | entered settings draw id password token haction htoken =>
    subst haction
    refine ⟨h.stored.put (htoken keys hkeys) (fun _ _ _ _ => if_pos ⟨rfl, rfl⟩)
      fun t i hne => if_neg hne, fun script hscript => ?_⟩
    refine (h.ready script hscript).frame (Nat.le_refl _) (fun row hrow _ => ?_)
      fun id' token' hheld => ?_
    · obtain ⟨row', hrow', htable, hid, -⟩ := mem_put hrow
      exact ⟨row', hrow', htable.symm, hid.symm⟩
    · refine if_neg ?_
      rintro ⟨htable, rfl⟩
      refine hclear script hscript htable ?_
      rw [hheld]
      rfl
  | deleted p =>
    refine ⟨h.stored.delete p, fun script hscript => ?_⟩
    exact (h.ready script hscript).frame (Nat.le_refl _)
      (fun row hrow _ => ⟨row, List.mem_of_mem_filter hrow, rfl, rfl⟩) fun _ _ _ => rfl
  | started settings dry_run key hkey hallowed =>
    refine ⟨h.stored, ?_⟩
    rintro _ ⟨⟩
    refine ⟨fun key' hkey' => ?_, nofun⟩
    rw [Script.start, hkey, Option.some.injEq] at hkey'
    exact hkey' ▸ hallowed keys hkeys
  | went_on script script' draw rows hscript hproceed =>
    obtain ⟨hstored, hnext⟩ := proceed_kept h.stored (h.ready script hscript) hproceed
    refine ⟨hstored, ?_⟩
    rintro _ ⟨⟩
    exact hnext script' rfl
  | returned script script' draw rows hscript hproceed =>
    exact ⟨(proceed_kept h.stored (h.ready script hscript) hproceed).1, nofun⟩
  | died script draw rows hscript hproceed =>
    exact ⟨(proceed_kept h.stored (h.ready script hscript) hproceed).1, nofun⟩
  | killed => exact ⟨h.stored, nofun⟩

theorem run_kept {actions : List (Action Key Text)}
    (hkeys : ∀ action ∈ actions, action.EncryptsUnder keys)
    (hclear : Along (World.step fernet) World.Clear World.empty actions)
    (hrun : run (World.step fernet) World.empty actions = some s) : s.Kept fernet keys :=
  run_invariant (I := World.Kept fernet keys)
    (fun _ _ _ h haction hstep => h.step haction.2 haction.1 hstep) .empty
    (hclear.and (along_of_forall hkeys)) hrun

/-- A row that holds its credential is read with its key. -/
theorem Holds.read {entered : Target → ℕ → Option Text} {row : Record Token}
    (h : Holds fernet keys entered row) {settings : Settings Key} {keychain : Keychain Key}
    (hsettings : _get_fernet settings = .ok keychain) (hkeys : ∀ key ∈ keys, key ∈ keychain.keys) :
    row.token.map (decrypt_password fernet settings)
      = (entered row.table row.id).map Except.ok := by
  rcases h with ⟨htoken, hentered⟩ | ⟨token, text, htoken, hentered, key, hkey, draw, rfl⟩
  · rw [htoken, hentered]
    rfl
  · rw [htoken, hentered, Option.map_some, Option.map_some, decrypt_password, hsettings]
    have hread : decryptWith fernet keychain.keys (fernet.encrypt key draw text) = some text :=
      decryptWith_encrypt (hkeys key hkey)
    simp only [bind, Except.bind, hread, pure, Except.pure]

/-- **No credential is lost.** In every run of requests and of the script, which may be killed and
started again: a process that has all the keys that were used reads of every row what was entered
for it, at any time. No password may be entered for the row whose transaction the script has
open. -/
theorem credentials_kept {actions : List (Action Key Text)} {settings : Settings Key}
    {keychain : Keychain Key} (hsettings : _get_fernet settings = .ok keychain)
    (hkeys : ∀ action ∈ actions, action.EncryptsUnder keychain.keys)
    (hclear : Along (World.step fernet) World.Clear World.empty actions)
    (hrun : run (World.step fernet) World.empty actions = some s) :
    ∀ row ∈ s.rows, row.token.map (decrypt_password fernet settings)
      = (s.entered row.table row.id).map Except.ok :=
  fun row hrow => ((run_kept hkeys hclear hrun).stored.holds row hrow).read hsettings fun _ h => h

end Kept

/-! ## The old key is needed no more -/

section Renewed

variable {Key Text Token : Type} {fernet : Cipher Key Text Token} {new : Key} {n : ℕ}
  {rows rows' : List (Record Token)} {script : Script Key Token} {s s' : World Key Text Token}

/-- The row needs no other key. -/
def Under (fernet : Cipher Key Text Token) (new : Key) (row : Record Token) : Prop :=
  ∀ token, row.token = some token → ∃ text, Encrypted fernet [new] token text

theorem Under.of_token {row : Record Token} {token : Token} {text : Text}
    (hrow : row.token = some token) (htoken : Encrypted fernet [new] token text) :
    Under fernet new row := by
  intro token' htoken'
  rw [hrow, Option.some.injEq] at htoken'
  exact ⟨text, htoken' ▸ htoken⟩

/-- The script has still to come to the row, or is at it. -/
def Pending (script : Script Key Token) (row : Record Token) : Prop :=
  row.table ∈ script.targets ∨ row.table = script.table ∧
    (row.id ∈ script.identifiers ∨ ∃ token, script.held = some (row.id, token))

/-- A script that holds no row has still to read the row. -/
theorem Pending.of_free {row : Record Token} (h : Pending script row) (hheld : script.held = none) :
    row.table ∈ script.targets ∨ row.table = script.table ∧ row.id ∈ script.identifiers := by
  refine h.imp_right fun ⟨htable, hplace⟩ => ⟨htable, hplace.resolve_right ?_⟩
  rintro ⟨token, hsome⟩
  rw [hheld] at hsome
  cases hsome

/-- What a run that has met no unreadable row has behind it needs the new key alone. -/
structure Renewing (fernet : Cipher Key Text Token) (new : Key) (rows : List (Record Token))
    (script : Script Key Token) : Prop where
  settings : script.settings.TM1_CREDENTIALS_KEY = some new
  held : ∀ id token, script.held = some (id, token) → ∃ text, Encrypted fernet [new] token text
  behind : script.dry_run = false → script.failed = 0 →
    ∀ row ∈ rows, Pending script row ∨ Under fernet new row

/-- The same of the world, and of the runs after the first `n` that returned. -/
structure World.Renewed (fernet : Cipher Key Text Token) (new : Key) (n : ℕ)
    (s : World Key Text Token) : Prop where
  running : ∀ script, s.script = some script → Renewing fernet new s.rows script
  ended : ∀ script ∈ s.returned.drop n, script.dry_run = false → script.failed = 0 →
    ∀ row ∈ s.rows, Under fernet new row

theorem rotate_token_under {settings : Settings Key} {draw : ℕ} {token new_token : Token}
    (hsettings : settings.TM1_CREDENTIALS_KEY = some new)
    (h : rotate_token fernet settings draw token = .ok new_token) :
    ∃ text, Encrypted fernet [new] new_token text := by
  rw [rotate_token, _get_fernet, hsettings] at h
  rcases hrotate : Keyring.rotate fernet ⟨new, settings.TM1_CREDENTIALS_KEY_PREVIOUS.toList⟩ draw
    token with _ | token'
  · simp [bind, Except.bind, hrotate] at h
  · simp only [bind, Except.bind, hrotate, pure, Except.pure, Except.ok.injEq] at h
    obtain ⟨text, htoken⟩ := rotate_eq_some hrotate
    exact ⟨text, new, List.mem_singleton_self _, draw, h ▸ htoken⟩

/-- Every row is one that was there, or needs the new key alone. -/
def Amended (fernet : Cipher Key Text Token) (new : Key) (rows rows' : List (Record Token)) : Prop :=
  ∀ row' ∈ rows', row' ∈ rows ∨ Under fernet new row'

theorem Amended.put {table : Target} {id : ℕ} {token : Token} {text : Text}
    (htoken : Encrypted fernet [new] token text) :
    Amended fernet new rows (put rows table id token) := by
  intro row hrow
  obtain ⟨row', hrow', -, -, ⟨-, -, hnew⟩ | ⟨-, rfl⟩⟩ := mem_put hrow
  · exact .inr (Under.of_token hnew htoken)
  · exact .inl hrow'

/-- The script may be anywhere when a row is added, deleted or written by somebody else. -/
theorem Renewing.amended (h : Renewing fernet new rows script) (hrows : Amended fernet new rows rows') :
    Renewing fernet new rows' script where
  settings := h.settings
  held := h.held
  behind := fun hdry hfailed row hrow =>
    (hrows row hrow).elim (h.behind hdry hfailed row) .inr

theorem proceed_amended {draw : ℕ} {progress : Progress Key Token}
    (h : Renewing fernet new rows script)
    (hproceed : proceed fernet draw rows script = (rows', progress)) :
    Amended fernet new rows rows' := by
  cases proceed_cases hproceed with
  | wrote id token hheld =>
    obtain ⟨text, htoken⟩ := h.held id token hheld
    exact .put htoken
  | _ => exact fun row hrow => .inl hrow

/-- **What the script has behind it needs the new key alone.** -/
theorem proceed_renewing {draw : ℕ} {script' : Script Key Token}
    (hapart : (rows.map fun row => (row.table, row.id)).Nodup)
    (h : Renewing fernet new rows script)
    (hproceed : proceed fernet draw rows script = (rows', .running script')) :
    Renewing fernet new rows' script' := by
  -- a row that was ahead and is the one that was read, or is still ahead
  have hahead : ∀ {id : ℕ} {rest : List ℕ} {row : Record Token}, script.held = none →
      script.identifiers = id :: rest → Pending script row →
      row.table ∈ script.targets ∨ row.table = script.table ∧ (row.id = id ∨ row.id ∈ rest) := by
    intro id rest row hheld hidentifiers hpending
    rw [← List.mem_cons, ← hidentifiers]
    exact hpending.of_free hheld
  cases proceed_cases hproceed with
  | wrote id token hheld =>
    obtain ⟨text, htoken⟩ := h.held id token hheld
    refine ⟨h.settings, nofun, fun hdry hfailed row hrow => ?_⟩
    obtain ⟨row', hrow', htable, hid, ⟨-, -, hnew⟩ | ⟨hne, rfl⟩⟩ := mem_put hrow
    · exact .inr (.of_token hnew htoken)
    · refine (h.behind hdry hfailed row hrow').imp_left ?_
      rintro (htarget | ⟨htable, hidentifier | ⟨token', hheld'⟩⟩)
      · exact .inl htarget
      · exact .inr ⟨htable, .inl hidentifier⟩
      · rw [hheld, Option.some.injEq, Prod.mk.injEq] at hheld'
        exact absurd ⟨htable, hheld'.1.symm⟩ hne
  | skipped id rest hheld hidentifiers hnone =>
    refine ⟨h.settings, h.held, fun hdry hfailed row hrow => ?_⟩
    rcases h.behind hdry hfailed row hrow with hpending | hunder
    · rcases hahead hheld hidentifiers hpending with htarget | ⟨htable, rfl | hrest⟩
      · exact .inl (.inl htarget)
      · right
        intro token htoken
        rw [← htable, get_of_mem hapart hrow, Option.bind_some, htoken] at hnone
        cases hnone
      · exact .inl (.inr ⟨htable, .inl hrest⟩)
    · exact .inr hunder
  | unread id rest hheld hidentifiers =>
    exact ⟨h.settings, h.held, fun _ hfailed => absurd hfailed (Nat.succ_ne_zero _)⟩
  | rehearsed id rest hheld hidentifiers hdry =>
    exact ⟨h.settings, h.held, fun hnot => absurd (hnot.symm.trans hdry) Bool.false_ne_true⟩
  | took id rest token new_token hheld hidentifiers hdry htoken hrotate =>
    refine ⟨h.settings, ?_, fun hdry hfailed row hrow => ?_⟩
    · rintro id' token' ⟨⟩
      exact rotate_token_under h.settings hrotate
    · refine (h.behind hdry hfailed row hrow).imp_left fun hpending => ?_
      rcases hahead hheld hidentifiers hpending with htarget | ⟨htable, rfl | hrest⟩
      · exact .inl htarget
      · exact .inr ⟨htable, .inr ⟨new_token, rfl⟩⟩
      · exact .inr ⟨htable, .inl hrest⟩
  | turned table rest hheld hidentifiers htargets =>
    refine ⟨h.settings, fun id token hsome => ?_, fun hdry hfailed row hrow => ?_⟩
    · exact h.held id token hsome
    · refine (h.behind hdry hfailed row hrow).imp_left fun hpending => ?_
      rcases hpending.of_free hheld with htarget | ⟨-, hidentifier⟩
      · rw [htargets, List.mem_cons] at htarget
        rcases htarget with htable | htarget
        · right
          refine ⟨htable, .inl (List.mem_map.mpr ⟨row, List.mem_filter.mpr ⟨hrow, ?_⟩, rfl⟩)⟩
          exact decide_eq_true htable
        · exact .inl htarget
      · rw [hidentifiers] at hidentifier
        exact absurd hidentifier List.not_mem_nil

/-- A run that returns has every row behind it. -/
theorem proceed_renewed {draw : ℕ} {script' : Script Key Token}
    (h : Renewing fernet new rows script)
    (hproceed : proceed fernet draw rows script = (rows', .returned script'))
    (hdry : script'.dry_run = false) (hfailed : script'.failed = 0) :
    ∀ row ∈ rows', Under fernet new row := by
  intro row hrow
  cases proceed_cases hproceed with
  | ended hheld hidentifiers htargets =>
    refine (h.behind hdry hfailed row hrow).resolve_left fun hpending => ?_
    rcases hpending.of_free hheld with htarget | ⟨-, hidentifier⟩
    · rw [htargets] at htarget
      exact absurd htarget List.not_mem_nil
    · rw [hidentifiers] at hidentifier
      exact absurd hidentifier List.not_mem_nil

/-- Requests that encrypt under the new key leave behind what the script has left behind. -/
theorem World.Renewed.amended (h : s.Renewed fernet new n) (hscript : s'.script = s.script)
    (hreturned : s'.returned = s.returned) (hrows : Amended fernet new s.rows s'.rows) :
    s'.Renewed fernet new n where
  running := fun script hrunning => (h.running script (hscript ▸ hrunning)).amended hrows
  ended := fun script hover hdry hfailed row hrow => by
    rw [hreturned] at hover
    exact (hrows row hrow).elim (h.ended script hover hdry hfailed row) id

theorem World.Renewed.step {action : Action Key Text} (h : s.Renewed fernet new n)
    (hapart : (s.rows.map fun row => (row.table, row.id)).Nodup)
    (hkeys : action.EncryptsUnder [new]) (hn : n ≤ s.returned.length)
    (hstep : s.step fernet action = some s') : s'.Renewed fernet new n := by
  have hlater : ∀ {rows}, Amended fernet new s.rows rows → ∀ script ∈ s.returned.drop n,
      script.dry_run = false → script.failed = 0 → ∀ row ∈ rows, Under fernet new row :=
    fun hrows script hover hdry hfailed row hrow =>
      (hrows row hrow).elim (h.ended script hover hdry hfailed row) id
  cases step_deed hstep with
  | refused => exact h
  | added table credential hcredential =>
    refine h.amended rfl rfl fun row hrow => (List.mem_append.mp hrow).imp_right fun hrow => ?_
    rw [List.mem_singleton.mp hrow]
    intro token htoken
    obtain ⟨⟨text, token'⟩, hpair, rfl⟩ := Option.map_eq_some_iff.mp htoken
    exact ⟨text, hcredential text token' hpair _ hkeys⟩
  | entered settings draw id password token haction htoken =>
    exact h.amended rfl rfl (.put (htoken _ hkeys))
  | deleted p =>
    exact h.amended rfl rfl fun row hrow => .inl (List.mem_of_mem_filter hrow)
  | started settings dry_run key hkey hallowed =>
    refine ⟨?_, h.ended⟩
    rintro _ ⟨⟩
    have hnew : key = new := List.mem_singleton.mp (hallowed _ hkeys)
    refine ⟨hnew ▸ hkey, nofun, fun _ _ row _ => .inl (.inl ?_)⟩
    show row.table ∈ TARGETS
    cases row.table <;> decide
  | went_on script script' draw rows hscript hproceed =>
    refine ⟨?_, hlater (proceed_amended (h.running script hscript) hproceed)⟩
    rintro _ ⟨⟩
    exact proceed_renewing hapart (h.running script hscript) hproceed
  | returned script script' draw rows hscript hproceed =>
    have hrunning := h.running script hscript
    refine ⟨nofun, fun script hover hdry hfailed row hrow => ?_⟩
    rw [List.drop_append_of_le_length hn] at hover
    rcases List.mem_append.mp hover with hover | hover
    · exact hlater (proceed_amended hrunning hproceed) script hover hdry hfailed row hrow
    · rw [List.mem_singleton.mp hover] at hdry hfailed
      exact proceed_renewed hrunning hproceed hdry hfailed row hrow
  | died script draw rows hscript hproceed =>
    exact ⟨nofun, hlater (proceed_amended (h.running script hscript) hproceed)⟩
  | killed => exact ⟨nofun, h.ended⟩

/-- What has returned stays so. -/
theorem returned_le {action : Action Key Text} (hstep : s.step fernet action = some s') :
    s.returned.length ≤ s'.returned.length := by
  cases step_deed hstep with
  | returned script script' draw rows hscript hproceed =>
    rw [List.length_append]
    exact Nat.le_add_right _ _
  | _ => exact Nat.le_refl _

/-- **The old key is over.** From some time on, when no script runs, all processes encrypt under
the new key. Once a run of the script that was started since has returned, wrote what it read, and
counted no failure, a process with the new key alone reads of every row what was entered for it,
then and at any later time. -/
theorem old_key_over {keys : List Key} {before after : List (Action Key Text)}
    {s₁ : World Key Text Token} (hkeys : ∀ action ∈ before, action.EncryptsUnder keys)
    (hnew : ∀ action ∈ after, action.EncryptsUnder [new])
    (hclear : Along (World.step fernet) World.Clear World.empty (before ++ after))
    (hbefore : run (World.step fernet) World.empty before = some s₁) (hidle : s₁.script = none)
    (hafter : run (World.step fernet) s₁ after = some s)
    (hscript : script ∈ s.returned.drop s₁.returned.length) (hdry : script.dry_run = false)
    (hfailed : script.failed = 0) :
    ∀ row ∈ s.rows, row.token.map (decrypt_password fernet ⟨some new, none⟩)
      = (s.entered row.table row.id).map Except.ok := by
  have hall : ∀ action ∈ before ++ after, action.EncryptsUnder (new :: keys) := by
    intro action haction settings hsettings key hkey
    rcases List.mem_append.mp haction with haction | haction
    · exact List.mem_cons_of_mem _ (hkeys action haction settings hsettings key hkey)
    · rw [List.mem_singleton.mp (hnew action haction settings hsettings key hkey)]
      exact List.mem_cons_self
  obtain ⟨hclear₁, hclear₂⟩ := hclear.append
  have hkept₁ := run_kept (fun action haction => hall action (List.mem_append_left _ haction))
    hclear₁ hbefore
  have hstart : s₁.Renewed fernet new s₁.returned.length := by
    refine ⟨fun script hrunning => ?_, fun script hover => ?_⟩
    · rw [hidle] at hrunning
      cases hrunning
    · rw [List.drop_length] at hover
      exact absurd hover List.not_mem_nil
  obtain ⟨hkept, hrenewed, -⟩ := run_invariant
    (I := fun t => t.Kept fernet (new :: keys) ∧ t.Renewed fernet new s₁.returned.length ∧
      s₁.returned.length ≤ t.returned.length)
    (fun t action t' ht haction hstep => by
      refine ⟨ht.1.step (hall action (List.mem_append_right _ haction.2)) haction.1 hstep,
        ht.2.1.step ht.1.stored.apart (hnew action haction.2) ht.2.2 hstep,
        ht.2.2.trans (returned_le hstep)⟩)
    ⟨hkept₁, hstart, Nat.le_refl _⟩ ((hclear₂ s₁ hbefore).and (along_of_forall fun _ h => h)) hafter
  intro row hrow
  have hholds : Holds fernet [new] s.entered row := by
    rcases hkept.stored.holds row hrow with
      hnone | ⟨token, text, htoken, hentered, key, -, draw, rfl⟩
    · exact .inl hnone
    · obtain ⟨text', key', hkey', draw', heq⟩ :=
        hrenewed.ended script hscript hdry hfailed row hrow _ htoken
      -- a token is of one text only
      have hread : decryptWith fernet [key'] (fernet.encrypt key draw text) = some text' := by
        rw [heq]
        exact decryptWith_encrypt (List.mem_singleton_self _)
      refine .inr ⟨_, text, htoken, hentered, key', hkey', draw', heq.trans ?_⟩
      rw [decryptWith_eq hread]
  exact hholds.read rfl fun key hkey => hkey

end Renewed

/-! ## A rotation -/

/-- Tokens that carry their key in the open. -/
def labelled : Cipher ℕ String (ℕ × ℕ × String) where
  encrypt key draw text := (key, draw, text)
  decrypt key token := if token.1 = key then some token.2.2 else none
  decrypt_encrypt _ _ _ := if_pos rfl
  decrypt_other _ _ _ _ h := if_neg h

/-- The key `1`, and the key `2` beside it. -/
def oldSettings : Settings ℕ := ⟨some 1, none⟩

def bothSettings : Settings ℕ := ⟨some 2, some 1⟩

/-- Two connections, of the time of the old key. -/
def oldDays : List (Action ℕ String) :=
  [.create_connection oldSettings 7 "apple", .create_connection oldSettings 8 "pear"]

/-- The script is killed with a row in its hands; the other row gets a new password, and the
script is run again. -/
def killedOnce : List (Action ℕ String) :=
  [.rotate bothSettings false, .proceed 9, .proceed 10, .kill,
    .update_connection bothSettings 11 1 "plum", .rotate bothSettings false] ++
    (List.range 7).map .proceed

theorem credentials_kept_killed :
    ∃ s, run (World.step labelled) World.empty (oldDays ++ killedOnce) = some s ∧
      s.rows.map (fun row => row.token.map (decrypt_password labelled bothSettings))
        = [some (.ok "apple"), some (.ok "plum")] := by
  refine ⟨_, rfl, ?_⟩
  have hkept := @credentials_kept _ _ _ labelled _ (oldDays ++ killedOnce) bothSettings ⟨2, [1]⟩ rfl
    (by decide) (by decide +kernel) rfl
  exact List.map_congr_left hkept

theorem old_key_over_killed :
    ∃ s, run (World.step labelled) World.empty (oldDays ++ killedOnce) = some s ∧
      s.rows.map (fun row => row.token.map (decrypt_password labelled ⟨some 2, none⟩))
        = [some (.ok "apple"), some (.ok "plum")] := by
  refine ⟨_, rfl, ?_⟩
  have hover := @old_key_over _ _ _ labelled 2
    ⟨bothSettings, false, [], .PlanningAnalyticsConnection, [], none, 2, 0⟩ _ [1] oldDays killedOnce
    _ (by decide) (by decide) (by decide +kernel) rfl rfl rfl (List.mem_singleton_self _) rfl rfl
  exact List.map_congr_left hover

end rotate_tm1_key

end PaCopilot

/-
Where bytes are kept (`reports/storage.py` and `reports/s3_storage.py`).

There are two backends, and they differ in what is left when something fails. A blob of
the database is a row of the request's transaction: a put that fails is a flush that
fails, after which the session can only be rolled back. An object of the bucket is there
at once and stays, whatever becomes of the transaction, and a put that fails is an
exception like any other. It may have left its object all the same, when only the answer
was lost.

A reference is taken apart here: its scheme, and what the code reads from the rest.
-/
import PaCopilot.Errors

set_option autoImplicit false

namespace PaCopilot.reports.storage

/-! ## The backends -/

/-- `db://<id>`, or `s3://<bucket>/org/<organization_id>/<id>`. -/
inductive Reference
  | db (id : ℕ)
  | s3 (bucket : String) (organization_id id : ℕ)
  deriving DecidableEq

def Reference.id : Reference → ℕ
  | .db id => id
  | .s3 _ _ id => id

structure ReportBlob where
  id : ℕ
  organization_id : ℕ
  content : List UInt8
  size_bytes : ℕ
  content_type : String
  deriving DecidableEq

/-- An object, with its key `org/<organization_id>/<id>`. -/
structure StoredObject where
  bucket : String
  organization_id : ℕ
  id : ℕ
  body : List UInt8
  content_type : String
  deriving DecidableEq

/-- The blobs, the objects, and how many UUIDs were drawn: the next one is this number. -/
structure Storage where
  blobs : List ReportBlob
  objects : List StoredObject
  drawn : ℕ

inductive StorageBackend
  | database
  | s3 (S3_BUCKET : String)
  deriving DecidableEq

/-- An exception: its text, and whether a flush raised it. -/
structure Raised where
  text : String
  flush : Bool
  deriving DecidableEq

/-- How a put ends. The bucket may have kept the object of one that failed. -/
inductive Put
  | stored
  | failed (kept : Bool) (text : String)
  deriving DecidableEq

section Backends

variable (backend : StorageBackend) (organization_id : ℕ)

/-- `StorageBackend.put`. -/
def put (outcome : Put) (data : List UInt8) (content_type : String) (s : Storage) :
    Except Raised Reference × Storage :=
  let id := s.drawn
  let s := { s with drawn := id + 1 }
  match backend with
  | .database =>
    match outcome with
    | .stored =>
      (.ok (.db id),
        { s with blobs := s.blobs ++ [⟨id, organization_id, data, data.length, content_type⟩] })
    -- the flush fails, and with it the session
    | .failed _ text => (.error ⟨text, true⟩, s)
  | .s3 S3_BUCKET =>
    let object := StoredObject.mk S3_BUCKET organization_id id data content_type
    match outcome with
    | .stored =>
      (.ok (.s3 S3_BUCKET organization_id id), { s with objects := s.objects ++ [object] })
    | .failed kept text =>
      (.error ⟨text, false⟩,
        -- the bucket may have kept what it answered with an error
        { s with objects := if kept then s.objects ++ [object] else s.objects })

/-- The blob of an organization with this identifier. -/
def Storage.blob (s : Storage) (id : ℕ) : Option ReportBlob :=
  s.blobs.find? fun blob => blob.id = id ∧ blob.organization_id = organization_id

/-- The object of a bucket with this key. -/
def Storage.object (s : Storage) (bucket : String) (id : ℕ) : Option StoredObject :=
  s.objects.find? fun object =>
    object.bucket = bucket ∧ object.organization_id = organization_id ∧ object.id = id

/-- `StorageBackend.get`. -/
def get (reference : Reference) (s : Storage) : Except AppException (List UInt8) :=
  let missing := NotFoundException "The stored file could not be found."
  match backend, reference with
  | .database, .db id =>
    match s.blob organization_id id with
    | some blob => .ok blob.content
    | none => .error missing
  | .s3 S3_BUCKET, .s3 bucket owner id =>
    if owner ≠ organization_id ∨ bucket ≠ S3_BUCKET then .error missing
    else
      match s.object organization_id bucket id with
      | some object => .ok object.body
      | none => .error missing
  -- a reference of the other backend finds nothing
  | .database, .s3 _ _ _ => .error missing
  | .s3 _, .db _ => .error missing

/-- `StorageBackend.delete`. An object that the bucket does not delete stays, which is
logged. -/
def delete (deleted : Bool) (reference : Reference) (s : Storage) : Storage :=
  match backend, reference with
  | .database, .db id =>
    { s with blobs :=
        s.blobs.filter fun blob => ¬ (blob.id = id ∧ blob.organization_id = organization_id) }
  | .s3 _, .s3 bucket owner id =>
    if owner = organization_id ∧ deleted then
      { s with objects := s.objects.filter fun object =>
          ¬ (object.bucket = bucket ∧ object.organization_id = owner ∧ object.id = id) }
    else s
  | .database, .s3 _ _ _ => s
  | .s3 _, .db _ => s

end Backends

/-! ## What is read back -/

/-- A UUID is drawn once: what is stored has one that was drawn before. -/
structure Storage.Fresh (s : Storage) : Prop where
  blobs : ∀ blob ∈ s.blobs, blob.id < s.drawn
  objects : ∀ object ∈ s.objects, object.id < s.drawn

section Rows

variable {α : Type} {p keep : α → Bool} {l : List α} {x : α}

/-- What is added is found when nothing before it is. -/
theorem find_added (hbefore : ∀ y ∈ l, p y = false) (hx : p x = true) :
    (l ++ [x]).find? p = some x := by
  have hnone : l.find? p = none := List.find?_eq_none.mpr fun y hy => by simp [hbefore y hy]
  rw [List.find?_append, hnone, Option.none_or, List.find?_cons_of_pos hx]

/-- What is added is not found by those who look for something else. -/
theorem find_beside (hx : p x = false) : (l ++ [x]).find? p = l.find? p := by
  rw [List.find?_append, List.find?_cons_of_neg (by simp [hx]), List.find?_nil, Option.or_none]

/-- What is not deleted is found as before. -/
theorem find_kept (h : ∀ y, p y = true → keep y = true) :
    (l.filter keep).find? p = l.find? p := by
  rw [List.find?_filter]
  congr 1
  funext y
  rcases hp : p y with _ | _
  · exact decide_eq_false (by simp)
  · exact decide_eq_true ⟨h y hp, rfl⟩

variable {s : Storage} (organization_id : ℕ) {id : ℕ}

theorem Storage.Fresh.blob_added (h : s.Fresh) (content : List UInt8) (size_bytes : ℕ)
    (content_type : String) :
    Storage.blob organization_id
        { s with
          blobs := s.blobs ++ [⟨s.drawn, organization_id, content, size_bytes, content_type⟩]
          drawn := s.drawn + 1 } s.drawn
      = some ⟨s.drawn, organization_id, content, size_bytes, content_type⟩ := by
  refine find_added (fun blob hblob => ?_) ?_
  · have hlt := h.blobs blob hblob
    simp only [decide_eq_false_iff_not]
    omega
  · simp only [and_self, decide_true]

theorem blob_beside (blob : ReportBlob) (n : ℕ) (hne : id ≠ blob.id) :
    Storage.blob organization_id { s with blobs := s.blobs ++ [blob], drawn := n } id
      = s.blob organization_id id := by
  refine find_beside ?_
  simp only [decide_eq_false_iff_not]
  exact fun h => hne h.1.symm

theorem blob_kept {other : ℕ} (hne : id ≠ other) :
    Storage.blob organization_id { s with blobs := s.blobs.filter fun blob =>
        ¬ (blob.id = other ∧ blob.organization_id = organization_id) } id
      = s.blob organization_id id := by
  refine find_kept fun blob h => ?_
  simp only [decide_eq_true_eq] at h ⊢
  exact fun hother => hne (h.1.symm.trans hother.1)

theorem Storage.Fresh.object_added (h : s.Fresh) (bucket : String) (body : List UInt8)
    (content_type : String) :
    Storage.object organization_id
        { s with
          objects := s.objects ++ [⟨bucket, organization_id, s.drawn, body, content_type⟩]
          drawn := s.drawn + 1 } bucket s.drawn
      = some ⟨bucket, organization_id, s.drawn, body, content_type⟩ := by
  refine find_added (fun object hobject => ?_) ?_
  · have hlt := h.objects object hobject
    simp only [decide_eq_false_iff_not]
    omega
  · simp only [and_self, decide_true]

theorem object_beside (object : StoredObject) (n : ℕ) (bucket : String) (hne : id ≠ object.id) :
    Storage.object organization_id { s with objects := s.objects ++ [object], drawn := n } bucket id
      = s.object organization_id bucket id := by
  refine find_beside ?_
  simp only [decide_eq_false_iff_not]
  exact fun h => hne h.2.2.symm

theorem object_kept (bucket : String) {other owner : ℕ} (holder : String) (hne : id ≠ other) :
    Storage.object organization_id { s with objects := s.objects.filter fun object =>
        ¬ (object.bucket = holder ∧ object.organization_id = owner ∧ object.id = other) } bucket id
      = s.object organization_id bucket id := by
  refine find_kept fun object h => ?_
  simp only [decide_eq_true_eq] at h ⊢
  exact fun hother => hne (h.2.2.symm.trans hother.2.2)

end Rows

section ReadBack

variable {s : Storage}

/-- What a put leaves that was carried out: its bytes under a new reference, and everything
older as it was. -/
structure PutSpec (backend : StorageBackend) (organization_id : ℕ) (data : List UInt8)
    (s s' : Storage) (reference : Reference) : Prop where
  id : reference.id = s.drawn
  drawn : s'.drawn = s.drawn + 1
  fresh : s'.Fresh
  read : get backend organization_id reference s' = .ok data
  older : ∀ r : Reference, r.id < s.drawn →
    get backend organization_id r s' = get backend organization_id r s
  objects : backend ≠ .database → s'.objects.length = s.objects.length + 1
  bucket : backend = .database → s'.objects = s.objects

section Puts

variable (backend : StorageBackend) (organization_id : ℕ) (data : List UInt8)
  (content_type : String)

/-- **A put stores the bytes under a new reference.** -/
theorem put_stored (hfresh : s.Fresh) : ∃ reference s',
    put backend organization_id .stored data content_type s = (.ok reference, s') ∧
      PutSpec backend organization_id data s s' reference := by
  cases backend with
  | database =>
    -- a row of the database, under an identifier that was not drawn yet
    have hfound := hfresh.blob_added organization_id data data.length content_type
    refine ⟨_, _, rfl, rfl, rfl, ?_, ?_, ?_, ?_, ?_⟩
    · constructor
      · intro blob hblob
        rcases List.mem_append.mp hblob with hold | hnew
        · exact Nat.lt_succ_of_lt (hfresh.blobs blob hold)
        · rw [List.mem_singleton.mp hnew]
          exact Nat.lt_succ_self _
      · exact fun object hobject => Nat.lt_succ_of_lt (hfresh.objects object hobject)
    · simp only [get, hfound]
    · intro r hr
      cases r with
      | db id =>
        have hne : id ≠ s.drawn := Nat.ne_of_lt hr
        unfold get
        dsimp only
        rw [blob_beside organization_id
          ⟨s.drawn, organization_id, data, data.length, content_type⟩ (s.drawn + 1) hne]
      | s3 bucket owner id => rfl
    · exact fun hne => absurd rfl hne
    · exact fun _ => rfl
  | s3 S3_BUCKET =>
    -- an object of the bucket, under such an identifier
    have hfound := hfresh.object_added organization_id S3_BUCKET data content_type
    refine ⟨_, _, rfl, rfl, rfl, ?_, ?_, ?_, ?_, ?_⟩
    · constructor
      · exact fun blob hblob => Nat.lt_succ_of_lt (hfresh.blobs blob hblob)
      · intro object hobject
        rcases List.mem_append.mp hobject with hold | hnew
        · exact Nat.lt_succ_of_lt (hfresh.objects object hold)
        · rw [List.mem_singleton.mp hnew]
          exact Nat.lt_succ_self _
    · simp only [get, hfound, ne_eq, not_true_eq_false, or_self, if_false]
    · intro r hr
      cases r with
      | db id => rfl
      | s3 bucket owner id =>
        have hne : id ≠ s.drawn := Nat.ne_of_lt hr
        unfold get
        dsimp only
        rw [object_beside organization_id
          ⟨S3_BUCKET, organization_id, s.drawn, data, content_type⟩ (s.drawn + 1) bucket hne]
    · exact fun _ => List.length_append
    · exact nofun

/-- What a put leaves that failed: nothing, but for the object that the bucket kept. -/
theorem put_failed (kept : Bool) (text : String) : ∃ s',
    put backend organization_id (.failed kept text) data content_type s
        = (.error ⟨text, decide (backend = .database)⟩, s') ∧
      s'.blobs = s.blobs ∧ (backend = .database → s'.objects = s.objects) ∧
      (backend ≠ .database →
        (s'.objects = s.objects ↔ kept = false) ∧ s.objects.length ≤ s'.objects.length) := by
  cases backend with
  | database => exact ⟨_, rfl, rfl, fun _ => rfl, fun hne => absurd rfl hne⟩
  | s3 S3_BUCKET =>
    refine ⟨_, rfl, rfl, nofun, fun _ => ?_⟩
    cases kept with
    | false => exact ⟨iff_of_true rfl rfl, Nat.le_refl _⟩
    | true =>
      dsimp only
      rw [if_pos rfl, List.length_append]
      refine ⟨iff_of_false ?_ nofun, Nat.le_add_right _ _⟩
      intro heq
      have hlen := congrArg List.length heq
      rw [List.length_append, List.length_singleton] at hlen
      omega

end Puts

/-- Deleting leaves what has another reference. -/
theorem get_delete {backend : StorageBackend} {organization_id : ℕ} (deleted : Bool)
    {reference r : Reference} (hne : r.id ≠ reference.id) :
    get backend organization_id r (delete backend organization_id deleted reference s)
      = get backend organization_id r s := by
  cases backend with
  | database =>
    cases reference with
    | s3 bucket owner id => rfl
    | db id =>
      cases r with
      | s3 bucket owner other => rfl
      | db other =>
        have hother : other ≠ id := hne
        unfold get delete
        dsimp only
        rw [blob_kept organization_id hother]
  | s3 S3_BUCKET =>
    cases reference with
    | db id => rfl
    | s3 holder owner id =>
      cases r with
      | db other => rfl
      | s3 bucket claimant other =>
        have hother : other ≠ id := hne
        unfold get delete
        dsimp only
        by_cases hown : owner = organization_id ∧ deleted
        · rw [if_pos hown, object_kept organization_id bucket holder hother]
        · rw [if_neg hown]

end ReadBack

end PaCopilot.reports.storage

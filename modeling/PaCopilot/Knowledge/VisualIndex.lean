/-
The visual index of a document (`knowledge/visual/service.py`), built at the end of an
upload (`upload_document` of `knowledge/service.py`).

`index_document` deletes the old pages, embeds the new ones, and stores an image and a row
for each, one after the other; the old images go last. When it raises, it counts on the
transaction to bring the rows back. But `upload_document` catches what it raises and
returns, so the request commits what was done up to there. What keeps an index whole is
only that nothing had been done, or that the session cannot commit any more: after a blob
of the database failed to flush ([`all_or_nothing_iff`]).

An exception stands here for its text, which is all that its caller keeps of it, and for
whether a flush raised it. The inserts of rows and the deletes of the database are taken to
succeed, but for the unique index of the pages. The text index is done before and writes
other tables.
-/
import PaCopilot.Lib.Table
import PaCopilot.Reports.Storage

set_option autoImplicit false

namespace PaCopilot.knowledge.visual

open Table reports.storage

/-! ## Pages -/

structure RenderedPage where
  page_number : ℕ
  image_bytes : List UInt8
  width : ℕ
  height : ℕ
  text : String
  deriving DecidableEq

def RenderedPage.media_type (_page : RenderedPage) : String := "image/jpeg"

/-- What pypdfium2 and PIL make of a page. -/
structure Rendering where
  image_bytes : List UInt8
  width : ℕ
  height : ℕ
  text : String
  deriving DecidableEq

/-- The loop of `_render`, from an index on. -/
def _render : ℕ → List (Except String Rendering) → Except String (List RenderedPage)
  | _, [] => .ok []
  | index, page :: rest => do
    let image ← page
    let pages ← _render (index + 1) rest
    return ⟨index + 1, image.image_bytes, image.width, image.height, image.text⟩ :: pages

/-- `rasterize_pdf` of a file, given its pages; `none` is a file that does not open. -/
def rasterize_pdf (document : Option (List (Except String Rendering))) (max_pages : ℕ) :
    Except String (List RenderedPage) :=
  match document with
  | none => .error ("This PDF could not be opened for rendering. It may be "
      ++ "corrupt or password-protected.")
  | some [] => .error "This PDF has no pages."
  | some (page :: rest) => _render 0 ((page :: rest).take max_pages)

/-! ## Embeddings -/

/-- A matrix, with the bytes that `codec.pack` makes of it. It has its two dimensions by its
type, which is all that `pack` asks. -/
structure Matrix where
  vectors : ℕ
  dimensions : ℕ
  packed : List UInt8
  deriving DecidableEq

def Matrix.size (m : Matrix) : ℕ := m.vectors * m.dimensions

structure Availability where
  available : Bool
  reason : String
  deriving DecidableEq

/-- A provider embeds all pages or none: it returns one matrix for each, in their order. -/
structure VisualEmbeddingProvider where
  name : String
  availability : Availability
  embed_pages : List RenderedPage → Except String (List Matrix)
  one_each : ∀ pages embeddings, embed_pages pages = .ok embeddings →
    embeddings.length = pages.length

section TextProxy

variable {V : Type} (embed : List String → Except String (List V)) (as_array : V → Matrix)

def MINIMUM_TEXT_CHARACTERS : ℕ := 40

/-- `TextProxyVisualProvider.embed_pages`: the pages with enough text, embedded by that. -/
def text_proxy_embed_pages (pages : List RenderedPage) : Except String (List Matrix) :=
  -- a page with hardly any text is stored, and not embedded
  let indexed := pages.zipIdx.filter fun entry => MINIMUM_TEXT_CHARACTERS ≤ entry.1.text.length
  let embeddings := pages.map fun _ => Matrix.mk 0 0 []
  if indexed.isEmpty then .ok embeddings
  else do
    let vectors ← embed (indexed.map fun entry => entry.1.text)
    return (indexed.zip vectors).foldl
      (fun embeddings found => embeddings.set found.1.2 (as_array found.2)) embeddings

/-- Setting entries of a list leaves as many. -/
theorem foldl_set_length (found : List ((RenderedPage × ℕ) × V)) (embeddings : List Matrix) :
    (found.foldl (fun embeddings found => embeddings.set found.1.2 (as_array found.2))
      embeddings).length = embeddings.length := by
  induction found generalizing embeddings with
  | nil => rfl
  | cons entry found ih => rw [List.foldl_cons, ih, List.length_set]

theorem text_proxy_one_each {pages : List RenderedPage} {embeddings : List Matrix}
    (h : text_proxy_embed_pages embed as_array pages = .ok embeddings) :
    embeddings.length = pages.length := by
  unfold text_proxy_embed_pages at h
  dsimp only at h
  split at h
  · rw [← Except.ok.inj h, List.length_map]
  · obtain ⟨vectors, -, hset⟩ := bind_eq_ok_iff.mp h
    rw [← Except.ok.inj hset, foldl_set_length, List.length_map]

/-- `text_proxy_visual_provider`, with the embeddings of OpenAI. -/
def text_proxy_visual_provider (OPENAI_API_KEY : String) : VisualEmbeddingProvider where
  name := "text-proxy"
  availability :=
    if OPENAI_API_KEY = "" then
      ⟨false, "Visual search needs the text embedding provider, and "
        ++ "OPENAI_API_KEY is not configured."⟩
    else ⟨true, "Ready."⟩
  embed_pages := text_proxy_embed_pages embed as_array
  one_each := fun _ _ => text_proxy_one_each embed as_array

end TextProxy

/-! ## The tables -/

structure KnowledgeDocument where
  id : ℕ
  visual_index_error : Option String
  deriving DecidableEq

structure VisualPage where
  document_id : ℕ
  organization_id : ℕ
  page_number : ℕ
  image_reference : Reference
  width : ℕ
  height : ℕ
  text : String
  embedding : Option (List UInt8)
  embedding_vectors : Option ℕ
  embedding_dimensions : Option ℕ
  embedding_model : String
  deriving DecidableEq

/-- What `uq_visual_page_document_page` keeps apart. -/
def VisualPage.slot (page : VisualPage) : ℕ × ℕ := (page.document_id, page.page_number)

/-- The pages, as the session of the request has them, and the storage. -/
structure State where
  visual_pages : List VisualPage
  storage : Storage

namespace visual_page_repository

/-- `list_by_document`. -/
def list_by_document (document_id : ℕ) (s : State) : List VisualPage :=
  s.visual_pages.filter fun page => page.document_id = document_id

/-- `delete_for_document`: the references of the pages that are deleted. -/
def delete_for_document (document_id : ℕ) (s : State) : List Reference × State :=
  ((list_by_document document_id s).map VisualPage.image_reference,
    { s with visual_pages := s.visual_pages.filter fun page => page.document_id ≠ document_id })

/-- `create`. -/
def create (page : VisualPage) (s : State) : Except Raised Unit × State :=
  match Table.insert everyRow VisualPage.slot (Raised.mk "IntegrityError" true) s.visual_pages
      page with
  | .ok pages => (.ok (), { s with visual_pages := pages })
  | .error e => (.error e, s)

end visual_page_repository

/-! ## `index_document` -/

/-- The settings, and what they select. -/
structure Deployment where
  VISUAL_RAG_ENABLED : Bool
  VISUAL_RAG_MAX_PAGES : ℕ
  get_visual_provider : Except String VisualEmbeddingProvider
  get_storage_backend : StorageBackend

/-- How the puts of the images end, by page number, and which of the old objects the bucket
deletes. -/
structure Outcomes where
  put : ℕ → Put
  deleted : Reference → Bool

structure VisualIndexResult where
  pages_indexed : ℕ
  pages_embedded : ℕ
  provider : String
  deriving DecidableEq

section Index

variable (settings : Deployment) (outcomes : Outcomes)

/-- `visual_rag_availability`. -/
def visual_rag_availability : Except String Availability :=
  if settings.VISUAL_RAG_ENABLED = false then
    .ok ⟨false, "Visual search is disabled on this deployment."⟩
  else settings.get_visual_provider.map VisualEmbeddingProvider.availability

/-- `index_document` until it touches the old pages. -/
def prepare (document : Option (List (Except String Rendering))) :
    Except String (VisualEmbeddingProvider × List RenderedPage) := do
  let availability ← visual_rag_availability settings
  if availability.available = false then .error availability.reason
  else
    let provider ← settings.get_visual_provider
    let pages ← rasterize_pdf document settings.VISUAL_RAG_MAX_PAGES
    return (provider, pages)

variable (document_id organization_id : ℕ) (provider_name : String)

/-- The row of a page. -/
def pageRow (page : RenderedPage) (matrix : Matrix) (reference : Reference) : VisualPage :=
  let embedded := matrix.size ≠ 0
  { document_id := document_id
    organization_id := organization_id
    page_number := page.page_number
    image_reference := reference
    width := page.width
    height := page.height
    text := page.text
    embedding := if embedded then some matrix.packed else none
    embedding_vectors := if embedded then some matrix.vectors else none
    embedding_dimensions := if embedded then some matrix.dimensions else none
    embedding_model := provider_name }

/-- The body of the loop over the pages. -/
def storePage (page : RenderedPage) (matrix : Matrix) (s : State) : Except Raised Unit × State :=
  match put settings.get_storage_backend organization_id (outcomes.put page.page_number)
      page.image_bytes page.media_type s.storage with
  | (.error e, storage) => (.error e, { s with storage := storage })
  | (.ok reference, storage) =>
    visual_page_repository.create
      (pageRow document_id organization_id provider_name page matrix reference)
      { s with storage := storage }

/-- The loop over the pages, with how many were embedded so far. -/
def storePages : List (RenderedPage × Matrix) → ℕ → State → Except Raised ℕ × State
  | [], embedded, s => (.ok embedded, s)
  | (page, matrix) :: rest, embedded, s =>
    match storePage settings outcomes document_id organization_id provider_name page matrix s with
    | (.error e, s) => (.error e, s)
    | (.ok (), s) => storePages rest (if matrix.size ≠ 0 then embedded + 1 else embedded) s

/-- The loop over the old references. -/
def deleteImages : List Reference → State → State
  | [], s => s
  | reference :: rest, s =>
    deleteImages rest { s with
      storage := delete settings.get_storage_backend organization_id (outcomes.deleted reference)
        reference s.storage }

/-- `index_document`. -/
def index_document (document : Option (List (Except String Rendering))) (s : State) :
    Except Raised VisualIndexResult × State :=
  match prepare settings document with
  | .error text => (.error ⟨text, false⟩, s)
  | .ok (provider, pages) =>
    -- re-indexing replaces, and the rows go before anything can fail
    let (stale_references, s) := visual_page_repository.delete_for_document document_id s
    match provider.embed_pages pages with
    | .error text => (.error ⟨text, false⟩, s)
    | .ok embeddings =>
      match storePages settings outcomes document_id organization_id provider.name
          (pages.zip embeddings) 0 s with
      | (.error e, s) => (.error e, s)
      | (.ok embedded, s) =>
        -- the old objects last: restored rows would point at them
        (.ok ⟨pages.length, embedded, provider.name⟩,
          deleteImages settings outcomes organization_id stale_references s)

end Index

/-! ## What the loop leaves -/

theorem _render_numbers {renderings : List (Except String Rendering)} {index : ℕ}
    {pages : List RenderedPage} (h : _render index renderings = .ok pages) :
    pages.map RenderedPage.page_number = List.range' (index + 1) pages.length := by
  induction renderings generalizing index pages with
  | nil =>
    rw [← Except.ok.inj h]
    rfl
  | cons page rest ih =>
    obtain ⟨image, -, hrest⟩ := bind_eq_ok_iff.mp h
    obtain ⟨later, hlater, hpages⟩ := bind_eq_ok_iff.mp hrest
    rw [← Except.ok.inj hpages, List.map_cons, ih hlater, List.length_cons, List.range'_succ]

/-- No two pages have one number. -/
theorem rasterize_distinct {document : Option (List (Except String Rendering))} {max_pages : ℕ}
    {pages : List RenderedPage} (h : rasterize_pdf document max_pages = .ok pages) :
    (pages.map RenderedPage.page_number).Nodup := by
  rcases document with _ | _ | ⟨page, rest⟩
  · cases h
  · cases h
  · rw [_render_numbers h]
    exact List.nodup_range'

section Loop

variable {settings : Deployment} {outcomes : Outcomes} {document_id organization_id : ℕ}
  {provider_name : String} {s s' s'' : State}

theorem prepare_eq_ok {document : Option (List (Except String Rendering))}
    {provider : VisualEmbeddingProvider} {pages : List RenderedPage}
    (h : prepare settings document = .ok (provider, pages)) :
    rasterize_pdf document settings.VISUAL_RAG_MAX_PAGES = .ok pages := by
  obtain ⟨availability, -, h⟩ := bind_eq_ok_iff.mp h
  by_cases havailable : availability.available = false
  · rw [if_pos havailable] at h
    cases h
  · rw [if_neg havailable] at h
    obtain ⟨provider', -, h⟩ := bind_eq_ok_iff.mp h
    obtain ⟨pages', hpages, h⟩ := bind_eq_ok_iff.mp h
    cases h
    exact hpages

/-- What is stored once pages have been: a row for each with its image, and everything older
as it was. -/
structure Stored (settings : Deployment) (document_id organization_id : ℕ)
    (entries : List (RenderedPage × Matrix)) (s s' : State) : Prop where
  rows : ∃ rows, s'.visual_pages = s.visual_pages ++ rows ∧
    (∀ row ∈ rows, row.document_id = document_id ∧
      ∃ entry ∈ entries, row.page_number = entry.1.page_number) ∧
    ∀ entry ∈ entries, ∃ row ∈ rows, row.page_number = entry.1.page_number ∧
      s.storage.drawn ≤ row.image_reference.id ∧
      get settings.get_storage_backend organization_id row.image_reference s'.storage
        = .ok entry.1.image_bytes
  drawn : s.storage.drawn ≤ s'.storage.drawn
  fresh : s'.storage.Fresh
  older : ∀ r : Reference, r.id < s.storage.drawn →
    get settings.get_storage_backend organization_id r s'.storage
      = get settings.get_storage_backend organization_id r s.storage
  objects : settings.get_storage_backend ≠ .database →
    s'.storage.objects.length = s.storage.objects.length + entries.length
  bucket : settings.get_storage_backend = .database → s'.storage.objects = s.storage.objects

theorem stored_nil (hfresh : s.storage.Fresh) :
    Stored settings document_id organization_id [] s s where
  rows := ⟨[], (List.append_nil _).symm, nofun, nofun⟩
  drawn := Nat.le_refl _
  fresh := hfresh
  older := fun _ _ => rfl
  objects := fun _ => rfl
  bucket := fun _ => rfl

section Steps

variable (settings outcomes document_id organization_id provider_name)

/-- A page that is stored. -/
theorem storePage_stored {page : RenderedPage} (matrix : Matrix) (hfresh : s.storage.Fresh)
    (hput : outcomes.put page.page_number = .stored)
    (hfree : ∀ row ∈ s.visual_pages, row.document_id = document_id →
      row.page_number ≠ page.page_number) :
    ∃ row s', storePage settings outcomes document_id organization_id provider_name page matrix s
        = (.ok (), s') ∧
      s'.visual_pages = s.visual_pages ++ [row] ∧
      row.document_id = document_id ∧ row.page_number = page.page_number ∧
      PutSpec settings.get_storage_backend organization_id page.image_bytes s.storage s'.storage
        row.image_reference := by
  obtain ⟨reference, storage, hstored, hspec⟩ := put_stored settings.get_storage_backend
    organization_id page.image_bytes page.media_type hfresh
  have hinsert : Table.insert everyRow VisualPage.slot (Raised.mk "IntegrityError" true)
      s.visual_pages (pageRow document_id organization_id provider_name page matrix reference)
      = .ok (s.visual_pages
          ++ [pageRow document_id organization_id provider_name page matrix reference]) := by
    refine if_neg ?_
    rintro ⟨-, row, hrow, -, hslot⟩
    obtain ⟨hdocument, hnumber⟩ := Prod.mk.inj hslot
    exact hfree row hrow hdocument hnumber
  refine ⟨pageRow document_id organization_id provider_name page matrix reference,
    ⟨_, storage⟩, ?_, rfl, rfl, rfl, hspec⟩
  unfold storePage
  rw [hput, hstored]
  dsimp only
  unfold visual_page_repository.create
  dsimp only
  rw [hinsert]

/-- A page whose image is not stored. -/
theorem storePage_failed {page : RenderedPage} (matrix : Matrix) {kept : Bool} {text : String}
    (hput : outcomes.put page.page_number = .failed kept text) :
    ∃ s', storePage settings outcomes document_id organization_id provider_name page matrix s
        = (.error ⟨text, decide (settings.get_storage_backend = .database)⟩, s') ∧
      s'.visual_pages = s.visual_pages ∧ s'.storage.blobs = s.storage.blobs ∧
      (settings.get_storage_backend = .database → s'.storage.objects = s.storage.objects) ∧
      (settings.get_storage_backend ≠ .database →
        (s'.storage.objects = s.storage.objects ↔ kept = false) ∧
          s.storage.objects.length ≤ s'.storage.objects.length) := by
  obtain ⟨storage, hfailed, hleft⟩ := put_failed settings.get_storage_backend
    organization_id page.image_bytes page.media_type kept text (s := s.storage)
  refine ⟨{ s with storage := storage }, ?_, rfl, hleft⟩
  unfold storePage
  rw [hput, hfailed]

end Steps

/-- One page, and then the others. -/
theorem Stored.cons {page : RenderedPage} {matrix : Matrix} {row : VisualPage}
    {entries : List (RenderedPage × Matrix)} (hpages : s'.visual_pages = s.visual_pages ++ [row])
    (hdocument : row.document_id = document_id) (hnumber : row.page_number = page.page_number)
    (hput : PutSpec settings.get_storage_backend organization_id page.image_bytes s.storage
      s'.storage row.image_reference)
    (h : Stored settings document_id organization_id entries s' s'') :
    Stored settings document_id organization_id ((page, matrix) :: entries) s s'' := by
  have hnext : s.storage.drawn ≤ s'.storage.drawn := by
    rw [hput.drawn]
    exact Nat.le_succ _
  constructor
  case rows =>
    obtain ⟨rows, hrows, hown, heach⟩ := h.rows
    refine ⟨row :: rows, ?_, ?_, ?_⟩
    · rw [hrows, hpages, List.append_assoc, List.singleton_append]
    · intro r hr
      rcases List.mem_cons.mp hr with rfl | hr
      · exact ⟨hdocument, (page, matrix), List.mem_cons_self, hnumber⟩
      · obtain ⟨hd, entry, hentry, hn⟩ := hown r hr
        exact ⟨hd, entry, List.mem_cons_of_mem _ hentry, hn⟩
    · intro entry hentry
      rcases List.mem_cons.mp hentry with rfl | hentry
      · -- the image is older than those of the other pages
        have hid : row.image_reference.id < s'.storage.drawn := by
          rw [hput.id, hput.drawn]
          exact Nat.lt_succ_self _
        refine ⟨row, List.mem_cons_self, hnumber, Nat.le_of_eq hput.id.symm, ?_⟩
        rw [h.older _ hid]
        exact hput.read
      · obtain ⟨r, hr, hn, hdrawn, hread⟩ := heach entry hentry
        exact ⟨r, List.mem_cons_of_mem _ hr, hn, Nat.le_trans hnext hdrawn, hread⟩
  case drawn => exact Nat.le_trans hnext h.drawn
  case fresh => exact h.fresh
  case older =>
    intro r hr
    rw [h.older r (Nat.lt_of_lt_of_le hr hnext)]
    exact hput.older r hr
  case objects =>
    intro hne
    rw [h.objects hne, hput.objects hne, List.length_cons]
    omega
  case bucket => exact fun heq => (h.bucket heq).trans (hput.bucket heq)

section Run

variable (settings outcomes document_id organization_id provider_name)

/-- **The loop stores every page, or stops at the first image that is not stored.** -/
theorem storePages_cases {entries : List (RenderedPage × Matrix)} (hfresh : s.storage.Fresh)
    (hdistinct : (entries.map fun entry => entry.1.page_number).Nodup)
    (hfree : ∀ row ∈ s.visual_pages, row.document_id = document_id →
      ∀ entry ∈ entries, row.page_number ≠ entry.1.page_number) (embedded : ℕ) :
    (∃ n s', storePages settings outcomes document_id organization_id provider_name entries
        embedded s = (.ok n, s') ∧
      (∀ entry ∈ entries, outcomes.put entry.1.page_number = .stored) ∧
      Stored settings document_id organization_id entries s s') ∨
    ∃ done entry rest kept text s' s'',
      entries = done ++ entry :: rest ∧
      (∀ e ∈ done, outcomes.put e.1.page_number = .stored) ∧
      outcomes.put entry.1.page_number = .failed kept text ∧
      Stored settings document_id organization_id done s s' ∧ (done = [] → s' = s) ∧
      storePages settings outcomes document_id organization_id provider_name entries embedded s
        = (.error ⟨text, decide (settings.get_storage_backend = .database)⟩, s'') ∧
      s''.visual_pages = s'.visual_pages ∧ s''.storage.blobs = s'.storage.blobs ∧
      (settings.get_storage_backend = .database → s''.storage.objects = s'.storage.objects) ∧
      (settings.get_storage_backend ≠ .database →
        (s''.storage.objects = s'.storage.objects ↔ kept = false) ∧
          s'.storage.objects.length ≤ s''.storage.objects.length) := by
  induction entries generalizing s embedded with
  | nil => exact .inl ⟨embedded, s, rfl, nofun, stored_nil hfresh⟩
  | cons entry entries ih =>
    rw [List.map_cons, List.nodup_cons] at hdistinct
    rcases hput : outcomes.put entry.1.page_number with _ | ⟨kept, text⟩
    · -- the page is stored, and the loop goes on behind it
      obtain ⟨row, s₁, hstep, hpages, hdocument, hnumber, hspec⟩ :=
        storePage_stored settings outcomes document_id organization_id provider_name entry.2 hfresh
          hput fun row hrow hown => hfree row hrow hown entry List.mem_cons_self
      have hlater : ∀ r ∈ s₁.visual_pages, r.document_id = document_id →
          ∀ e ∈ entries, r.page_number ≠ e.1.page_number := by
        intro r hr hown e he
        rw [hpages] at hr
        rcases List.mem_append.mp hr with hold | hnew
        · exact hfree r hold hown e (List.mem_cons_of_mem _ he)
        · rw [List.mem_singleton.mp hnew, hnumber]
          intro heq
          exact hdistinct.1 (List.mem_map.mpr ⟨e, he, heq.symm⟩)
      have hrun : storePages settings outcomes document_id organization_id provider_name
            (entry :: entries) embedded s
          = storePages settings outcomes document_id organization_id provider_name entries
            (if entry.2.size ≠ 0 then embedded + 1 else embedded) s₁ := by
        rw [storePages, hstep]
      rw [hrun]
      rcases ih hspec.fresh hdistinct.2 hlater _ with ⟨n, s', hloop, hputs, hstored⟩ |
        ⟨done, e, rest, kept, text, s', s'', rfl, hputs, hfailed, hstored, -, hloop, hrest⟩
      · refine .inl ⟨n, s', hloop, ?_, hstored.cons hpages hdocument hnumber hspec⟩
        exact List.forall_mem_cons.mpr ⟨hput, hputs⟩
      · refine .inr ⟨entry :: done, e, rest, kept, text, s', s'', rfl, ?_, hfailed,
          hstored.cons hpages hdocument hnumber hspec, nofun, hloop, hrest⟩
        exact List.forall_mem_cons.mpr ⟨hput, hputs⟩
    -- the page is not stored, and nothing behind it is tried
    · obtain ⟨s', hstep, hleft⟩ := storePage_failed settings outcomes document_id
        organization_id provider_name entry.2 hput (s := s)
      refine .inr ⟨[], entry, entries, kept, text, s, s', rfl, nofun, hput, stored_nil hfresh,
        fun _ => rfl, ?_, hleft⟩
      rw [storePages, hstep]

end Run

/-- Deleting the old images leaves the rows, and every image with another reference. -/
theorem deleteImages_keeps (settings : Deployment) (outcomes : Outcomes) (organization_id : ℕ)
    (stale : List Reference) (s : State) :
    (deleteImages settings outcomes organization_id stale s).visual_pages = s.visual_pages ∧
      ∀ r : Reference, (∀ old ∈ stale, r.id ≠ old.id) →
        get settings.get_storage_backend organization_id r
            (deleteImages settings outcomes organization_id stale s).storage
          = get settings.get_storage_backend organization_id r s.storage := by
  induction stale generalizing s with
  | nil => exact ⟨rfl, fun _ _ => rfl⟩
  | cons reference rest ih =>
    rw [deleteImages]
    obtain ⟨hpages, hread⟩ := ih { s with
      storage := delete settings.get_storage_backend organization_id (outcomes.deleted reference)
        reference s.storage }
    refine ⟨hpages, fun r hr => ?_⟩
    rw [hread r fun old hold => hr old (List.mem_cons_of_mem _ hold)]
    exact get_delete _ (hr reference List.mem_cons_self)

/-- A document whose pages are deleted has none. -/
theorem list_deleted (document_id : ℕ) (s : State) :
    visual_page_repository.list_by_document document_id
      (visual_page_repository.delete_for_document document_id s).2 = [] := by
  refine List.filter_eq_nil_iff.mpr fun row hrow => ?_
  have hkept := (List.mem_filter.mp hrow).2
  simpa using hkept

end Loop

/-! ## The end of an upload -/

/-- A document whose text is indexed, and the file that it came in. -/
structure Upload where
  document : KnowledgeDocument
  organization_id : ℕ
  content_type : String
  file : Option (List (Except String Rendering))

section Request

variable (settings : Deployment) (outcomes : Outcomes) (upload : Upload)

/-- The upload is to be indexed by its pages. -/
def Upload.attempted : Prop :=
  settings.VISUAL_RAG_ENABLED = true ∧ upload.content_type = "application/pdf"

instance : Decidable (upload.attempted settings) := inferInstanceAs (Decidable (_ ∧ _))

/-- `knowledge_document_repository.update`: a session whose flush failed refuses it. -/
def update (flush_failed : Bool) (document : KnowledgeDocument) : Except String KnowledgeDocument :=
  if flush_failed then
    .error ("This Session's transaction has been rolled back due to a previous exception "
      ++ "during flush.")
  else .ok document

/-- `upload_document` from the visual index on. -/
def upload_document (s : State) : Except String KnowledgeDocument × State :=
  let document := upload.document
  if upload.attempted settings then
    match index_document settings outcomes document.id upload.organization_id upload.file s with
    | (.ok _, s) => (update false document, s)
    -- additive and non-fatal: the document stays searchable by its text
    | (.error e, s) => (update e.flush { document with visual_index_error := some e.text }, s)
  else (update false document, s)

/-- A rollback: the tables are as before, and the bucket is as it is. -/
def State.rollback (before s : State) : State :=
  { before with
    storage := { before.storage with objects := s.storage.objects, drawn := s.storage.drawn } }

/-- The request, with the session of `get_db` around it: it commits when the upload returns,
and rolls back when it raises. -/
def request (before : State) : State :=
  match upload_document settings outcomes upload before with
  | (.ok _, s) => s
  | (.error _, s) => before.rollback s

/-- Every page of the new index is stored, and its image is read back. -/
def Indexed (pages : List RenderedPage) (s : State) : Prop :=
  ∀ page ∈ pages, ∃ row ∈ visual_page_repository.list_by_document upload.document.id s,
    row.page_number = page.page_number ∧
      get settings.get_storage_backend upload.organization_id row.image_reference s.storage
        = .ok page.image_bytes

/-- The pages of the document are those from before, and so are all images. -/
def Unchanged (before s : State) : Prop :=
  visual_page_repository.list_by_document upload.document.id s
      = visual_page_repository.list_by_document upload.document.id before ∧
    s.storage.blobs = before.storage.blobs ∧ s.storage.objects = before.storage.objects

/-- The whole new index, or nothing of it. -/
def AllOrNothing (before s : State) : Prop :=
  (∃ pages, rasterize_pdf upload.file settings.VISUAL_RAG_MAX_PAGES = .ok pages ∧
      Indexed settings upload pages s) ∨
    Unchanged upload before s

/-- The document has no pages yet. -/
def New (before : State) : Prop :=
  visual_page_repository.list_by_document upload.document.id before = []

/-- What becomes of the pages is whole: there is none to store; or the embedding fails, and
there were none before; or all images are stored; or one is not, and it is a blob of the
database, so that the request rolls back; or the first one is not, leaving nothing in the
bucket, and there were no pages before. -/
def SurvivesPages (before : State) (provider : VisualEmbeddingProvider)
    (pages : List RenderedPage) : Prop :=
  pages = [] ∨
    match provider.embed_pages pages with
    | .error _ => New upload before
    | .ok _ =>
      (∀ page ∈ pages, outcomes.put page.page_number = .stored) ∨
      settings.get_storage_backend = .database ∨
      (New upload before ∧ ∃ page text, pages.head? = some page ∧
        outcomes.put page.page_number = .failed false text)

/-- Nothing that is committed was half done: the upload fails before the old pages are
deleted, or what becomes of the pages is whole. -/
def Survives (before : State) : Prop :=
  upload.attempted settings →
    ∀ provider pages, prepare settings upload.file = .ok (provider, pages) →
      SurvivesPages settings outcomes upload before provider pages

end Request

/-! ## When an index is whole -/

section Whole

variable {settings : Deployment} {outcomes : Outcomes} {upload : Upload} {before s s' s'' : State}

/-- A UUID is drawn once: what is stored, and every reference to it, has one that was drawn
before. -/
structure State.Fresh (s : State) : Prop where
  storage : s.storage.Fresh
  references : ∀ page ∈ s.visual_pages, page.image_reference.id < s.storage.drawn

theorem request_of_ok {result : VisualIndexResult} (h : upload.attempted settings)
    (hindex : index_document settings outcomes upload.document.id upload.organization_id upload.file
      before = (.ok result, s)) :
    request settings outcomes upload before = s := by
  unfold request upload_document
  dsimp only
  rw [if_pos h, hindex]
  rfl

theorem request_of_error {e : Raised} (h : upload.attempted settings)
    (hindex : index_document settings outcomes upload.document.id upload.organization_id upload.file
      before = (.error e, s)) :
    request settings outcomes upload before = if e.flush then before.rollback s else s := by
  unfold request upload_document
  dsimp only
  rw [if_pos h, hindex]
  unfold update
  by_cases hflush : e.flush = true
  · rw [if_pos hflush]
    dsimp only
    rw [if_pos hflush]
  · rw [if_neg hflush]
    dsimp only
    rw [if_neg hflush]

/-- The state that the loop starts from. -/
def cleared (upload : Upload) (before : State) : State :=
  (visual_page_repository.delete_for_document upload.document.id before).2

/-- A document has no pages where its old ones are deleted and no others stored. -/
theorem list_of_cleared (hrows : s.visual_pages = (cleared upload before).visual_pages) :
    visual_page_repository.list_by_document upload.document.id s = [] := by
  have hempty := list_deleted upload.document.id before
  unfold visual_page_repository.list_by_document at hempty ⊢
  rw [hrows]
  exact hempty

theorem cleared_free (row : VisualPage) (hrow : row ∈ (cleared upload before).visual_pages)
    (hown : row.document_id = upload.document.id) : False := by
  have hkept := (List.mem_filter.mp hrow).2
  simp [hown] at hkept

section Prepared

variable {provider : VisualEmbeddingProvider} {pages : List RenderedPage}
  {embeddings : List Matrix}

/-- The pages do not embed. -/
theorem index_document_unembedded {text : String}
    (hprepare : prepare settings upload.file = .ok (provider, pages))
    (hembed : provider.embed_pages pages = .error text) :
    index_document settings outcomes upload.document.id upload.organization_id upload.file before
      = (.error ⟨text, false⟩, cleared upload before) := by
  unfold index_document
  rw [hprepare]
  dsimp only
  rw [hembed]
  rfl

/-- The loop ends with every page. -/
theorem index_document_stored {n : ℕ}
    (hprepare : prepare settings upload.file = .ok (provider, pages))
    (hembed : provider.embed_pages pages = .ok embeddings)
    (hloop : storePages settings outcomes upload.document.id upload.organization_id provider.name
      (pages.zip embeddings) 0 (cleared upload before) = (.ok n, s)) :
    index_document settings outcomes upload.document.id upload.organization_id upload.file before
      = (.ok ⟨pages.length, n, provider.name⟩,
        deleteImages settings outcomes upload.organization_id
          (visual_page_repository.delete_for_document upload.document.id before).1 s) := by
  unfold cleared at hloop
  unfold index_document
  rw [hprepare]
  dsimp only
  rw [hembed]
  dsimp only
  rw [hloop]

/-- The loop stops. -/
theorem index_document_stopped {e : Raised}
    (hprepare : prepare settings upload.file = .ok (provider, pages))
    (hembed : provider.embed_pages pages = .ok embeddings)
    (hloop : storePages settings outcomes upload.document.id upload.organization_id provider.name
      (pages.zip embeddings) 0 (cleared upload before) = (.error e, s)) :
    index_document settings outcomes upload.document.id upload.organization_id upload.file before
      = (.error e, s) := by
  unfold cleared at hloop
  unfold index_document
  rw [hprepare]
  dsimp only
  rw [hembed]
  dsimp only
  rw [hloop]

end Prepared

/-- When every image is stored, the new index is whole: the old images that are deleted are
none of the new ones. -/
theorem stored_indexed {pages : List RenderedPage} {embeddings : List Matrix}
    (hfresh : before.Fresh) (hlength : embeddings.length = pages.length)
    (hstored : Stored settings upload.document.id upload.organization_id (pages.zip embeddings)
      (cleared upload before) s) :
    Indexed settings upload pages (deleteImages settings outcomes upload.organization_id
      (visual_page_repository.delete_for_document upload.document.id before).1 s) := by
  intro page hpage
  have hmap : (pages.zip embeddings).map Prod.fst = pages :=
    List.map_fst_zip (Nat.le_of_eq hlength.symm)
  obtain ⟨entry, hentry, rfl⟩ : ∃ entry ∈ pages.zip embeddings, entry.1 = page := by
    rw [← hmap, List.mem_map] at hpage
    exact hpage
  obtain ⟨rows, hrows, hown, heach⟩ := hstored.rows
  obtain ⟨row, hrow, hnumber, hdrawn, hread⟩ := heach entry hentry
  obtain ⟨hpages, hkept⟩ := deleteImages_keeps settings outcomes upload.organization_id
    (visual_page_repository.delete_for_document upload.document.id before).1 s
  refine ⟨row, ?_, hnumber, ?_⟩
  · refine List.mem_filter.mpr ⟨?_, decide_eq_true (hown row hrow).1⟩
    rw [hpages, hrows]
    exact List.mem_append_right _ hrow
  · rw [hkept row.image_reference ?_]
    · exact hread
    · intro old hold
      obtain ⟨page, hpage, rfl⟩ := List.mem_map.mp hold
      have hlt := hfresh.references page (List.mem_filter.mp hpage).1
      have hge : before.storage.drawn ≤ row.image_reference.id := hdrawn
      omega

/-- **When an image is not stored in the bucket, the index is whole only if it was the first
and there was nothing before.** -/
theorem stopped_iff {pages : List RenderedPage} {done rest : List (RenderedPage × Matrix)}
    {entry : RenderedPage × Matrix} {kept : Bool}
    (hpages : rasterize_pdf upload.file settings.VISUAL_RAG_MAX_PAGES = .ok pages)
    (hentries : pages = (done ++ entry :: rest).map Prod.fst)
    (hbucket : settings.get_storage_backend ≠ .database)
    (hstored : Stored settings upload.document.id upload.organization_id done
      (cleared upload before) s')
    (hnone : done = [] → s' = cleared upload before)
    (hrows : s''.visual_pages = s'.visual_pages) (hblobs : s''.storage.blobs = s'.storage.blobs)
    (hobjects : (s''.storage.objects = s'.storage.objects ↔ kept = false) ∧
      s'.storage.objects.length ≤ s''.storage.objects.length) :
    AllOrNothing settings upload before s'' ↔ New upload before ∧ done = [] ∧ kept = false := by
  constructor
  · rintro (⟨pages', hpages', hindexed⟩ | ⟨hsame, -, hkept⟩)
    · -- the page whose image is not stored has no row
      exfalso
      obtain rfl : pages = pages' := Except.ok.inj (hpages.symm.trans hpages')
      have hdistinct := rasterize_distinct hpages
      obtain ⟨row, hrow, hnumber, -⟩ := hindexed entry.1 (by rw [hentries]; simp)
      obtain ⟨hmem, hown⟩ := List.mem_filter.mp hrow
      obtain ⟨rows, happend, hof, -⟩ := hstored.rows
      rw [hrows, happend] at hmem
      rcases List.mem_append.mp hmem with hold | hnew
      · exact cleared_free row hold (by simpa using hown)
      · obtain ⟨-, e, he, heq⟩ := hof row hnew
        rw [hentries, List.map_append, List.map_append, List.nodup_append] at hdistinct
        refine hdistinct.2.2 e.1.page_number ?_ entry.1.page_number ?_ (heq.symm.trans hnumber)
        · exact List.mem_map_of_mem (List.mem_map_of_mem he)
        · exact List.mem_map_of_mem (List.mem_map_of_mem List.mem_cons_self)
    · -- what is in the bucket is in nobody's index
      have hlength := hstored.objects hbucket
      have hdone : done = [] := by
        have hle := hobjects.2
        rw [hlength, hkept] at hle
        have hclear : (cleared upload before).storage.objects = before.storage.objects := rfl
        rw [hclear] at hle
        exact List.length_eq_zero_iff.mp (by omega)
      have hcleared := hnone hdone
      rw [hcleared] at hrows hobjects
      exact ⟨hsame.symm.trans (list_of_cleared hrows), hdone, hobjects.1.mp hkept⟩
  · rintro ⟨hnew, hdone, hkept⟩
    have hcleared := hnone hdone
    rw [hcleared] at hrows hblobs hobjects
    exact .inr ⟨(list_of_cleared hrows).trans hnew.symm, hblobs, hobjects.1.mpr hkept⟩

/-- When the embedding fails, the old pages are gone. -/
theorem unembedded_iff {pages : List RenderedPage}
    (hpages : rasterize_pdf upload.file settings.VISUAL_RAG_MAX_PAGES = .ok pages) :
    AllOrNothing settings upload before (cleared upload before) ↔
      pages = [] ∨ New upload before := by
  have hempty : visual_page_repository.list_by_document upload.document.id (cleared upload before)
      = [] := list_of_cleared rfl
  constructor
  · rintro (⟨pages', hpages', hindexed⟩ | ⟨hsame, -, -⟩)
    · obtain rfl : pages = pages' := Except.ok.inj (hpages.symm.trans hpages')
      rcases pages with _ | ⟨page, rest⟩
      · exact .inl rfl
      · obtain ⟨row, hrow, -⟩ := hindexed page List.mem_cons_self
        rw [hempty] at hrow
        cases hrow
    · exact .inr (hsame.symm.trans hempty)
  · rintro (hnone | hnew)
    · rw [hnone] at hpages
      exact .inl ⟨[], hpages, nofun⟩
    · exact .inr ⟨hempty.trans hnew.symm, rfl, rfl⟩

/-- The page at which the loop stops is the first one whose image is not stored. -/
theorem head_failed_iff {pages : List RenderedPage} {done rest : List (RenderedPage × Matrix)}
    {entry : RenderedPage × Matrix} {kept : Bool} {text : String}
    (hentries : pages = (done ++ entry :: rest).map Prod.fst)
    (hputs : ∀ e ∈ done, outcomes.put e.1.page_number = .stored)
    (hfailed : outcomes.put entry.1.page_number = .failed kept text) :
    (∃ page text, pages.head? = some page ∧ outcomes.put page.page_number = .failed false text) ↔
      done = [] ∧ kept = false := by
  rw [hentries]
  rcases done with _ | ⟨first, later⟩
  · constructor
    · rintro ⟨page, text', hhead, hput⟩
      obtain rfl := Option.some.inj hhead
      rw [hfailed] at hput
      cases hput
      exact ⟨rfl, rfl⟩
    · rintro ⟨-, rfl⟩
      exact ⟨entry.1, text, rfl, hfailed⟩
  · constructor
    · rintro ⟨page, text', hhead, hput⟩
      obtain rfl := Option.some.inj hhead
      rw [hputs first List.mem_cons_self] at hput
      cases hput
    · rintro ⟨hnil, -⟩
      cases hnil

/-- The request of an upload that touches the old pages. -/
theorem request_iff {provider : VisualEmbeddingProvider} {pages : List RenderedPage}
    (hfresh : before.Fresh) (hattempt : upload.attempted settings)
    (hprepare : prepare settings upload.file = .ok (provider, pages)) :
    AllOrNothing settings upload before (request settings outcomes upload before) ↔
      SurvivesPages settings outcomes upload before provider pages := by
  have hpages := prepare_eq_ok hprepare
  unfold SurvivesPages
  rcases hembed : provider.embed_pages pages with text | embeddings
  · -- the embedding fails
    rw [request_of_error hattempt (index_document_unembedded hprepare hembed)]
    exact unembedded_iff hpages
  · have hlength := provider.one_each pages embeddings hembed
    have hmap : (pages.zip embeddings).map Prod.fst = pages :=
      List.map_fst_zip (Nat.le_of_eq hlength.symm)
    have hnumbers : ((pages.zip embeddings).map fun entry => entry.1.page_number).Nodup := by
      have hdistinct := rasterize_distinct hpages
      rw [← hmap, List.map_map] at hdistinct
      exact hdistinct
    have hfree : ∀ row ∈ (cleared upload before).visual_pages,
        row.document_id = upload.document.id → ∀ entry ∈ pages.zip embeddings,
          row.page_number ≠ entry.1.page_number :=
      fun row hrow hown => (cleared_free row hrow hown).elim
    have hcleared : (cleared upload before).storage.Fresh := hfresh.storage
    rcases storePages_cases settings outcomes upload.document.id upload.organization_id
        provider.name hcleared hnumbers hfree 0 with
      ⟨n, s', hloop, hputs, hstored⟩ |
      ⟨done, entry, rest, kept, text, s', s'', hentries, hputs, hfailed, hstored, hnone, hloop,
        hrows, hblobs, hbucket, hobjects⟩
    · -- every image is stored
      rw [request_of_ok hattempt (index_document_stored hprepare hembed hloop)]
      refine iff_of_true (.inl ⟨pages, hpages, stored_indexed hfresh hlength hstored⟩) ?_
      refine .inr (.inl ?_)
      rw [← hmap]
      exact List.forall_mem_map.mpr hputs
    · -- the loop stops at an image
      rw [hentries] at hmap
      have hmem : entry.1 ∈ pages := by
        rw [← hmap]
        exact List.mem_map_of_mem (List.mem_append_right _ List.mem_cons_self)
      rw [request_of_error hattempt (index_document_stopped hprepare hembed hloop)]
      by_cases hbackend : settings.get_storage_backend = .database
      · -- the session is lost with the flush
        rw [if_pos (decide_eq_true hbackend)]
        refine iff_of_true (.inr ⟨rfl, rfl, ?_⟩) (.inr (.inr (.inl hbackend)))
        exact (hbucket hbackend).trans (hstored.bucket hbackend)
      · rw [if_neg (by simpa using hbackend)]
        rw [stopped_iff hpages hmap.symm hbackend hstored hnone hrows hblobs (hobjects hbackend),
          head_failed_iff hmap.symm hputs hfailed]
        constructor
        · exact fun h => .inr (.inr (.inr h))
        · rintro (hempty | hall | hdatabase | h)
          · rw [hempty] at hmem
            cases hmem
          · have hput := hall entry.1 hmem
            rw [hfailed] at hput
            cases hput
          · exact absurd hdatabase hbackend
          · exact h

/-- **An index is all or nothing exactly when nothing that is committed was half done.** -/
theorem all_or_nothing_iff (hfresh : before.Fresh) :
    AllOrNothing settings upload before (request settings outcomes upload before) ↔
      Survives settings outcomes upload before := by
  by_cases hattempt : upload.attempted settings
  · rcases hprepare : prepare settings upload.file with text | ⟨provider, pages⟩
    · -- nothing was touched yet
      have hindex : index_document settings outcomes upload.document.id upload.organization_id
          upload.file before = (.error ⟨text, false⟩, before) := by
        unfold index_document
        rw [hprepare]
      rw [request_of_error hattempt hindex]
      refine iff_of_true (.inr ⟨rfl, rfl, rfl⟩) ?_
      intro _ provider pages hok
      rw [hprepare] at hok
      cases hok
    · rw [request_iff hfresh hattempt hprepare]
      constructor
      · intro h _ provider' pages' hok
        rw [hprepare] at hok
        cases hok
        exact h
      · exact fun h => h hattempt provider pages hprepare
  · have hrequest : request settings outcomes upload before = before := by
      unfold request upload_document
      dsimp only
      rw [if_neg hattempt]
      rfl
    rw [hrequest]
    exact iff_of_true (.inr ⟨rfl, rfl, rfl⟩) fun h => absurd h hattempt

end Whole

/-! ## The second image -/

/-- A new document of two pages, without a text to embed. -/
def twoPages : Upload where
  document := ⟨1, none⟩
  organization_id := 7
  content_type := "application/pdf"
  file := some [.ok ⟨[1], 10, 10, ""⟩, .ok ⟨[2], 10, 10, ""⟩]

/-- A deployment that keeps its images in a bucket. -/
def withBucket : Deployment where
  VISUAL_RAG_ENABLED := true
  VISUAL_RAG_MAX_PAGES := 100
  get_visual_provider :=
    .ok (text_proxy_visual_provider (fun _ => .error "unreachable") (fun n => ⟨1, n, []⟩) "key")
  get_storage_backend := .s3 "bucket"

def nothingStored : State := ⟨[], [], [], 0⟩

theorem nothingStored_fresh : nothingStored.Fresh where
  storage := ⟨List.forall_mem_nil _, List.forall_mem_nil _⟩
  references := List.forall_mem_nil _

def everyImage : Outcomes where
  put _ := .stored
  deleted _ := true

/-- The bucket does not answer for the second image. -/
def onlyFirstImage : Outcomes where
  put page_number := if page_number = 2 then .failed false "Read timeout" else .stored
  deleted _ := true

theorem everyImage_whole :
    AllOrNothing withBucket twoPages nothingStored
      (request withBucket everyImage twoPages nothingStored) := by
  refine (all_or_nothing_iff nothingStored_fresh).mpr ?_
  intro _ provider pages hprepare
  cases hprepare
  exact .inr (.inl fun _ _ => rfl)

/-- The first page is committed, and the second is missing. -/
theorem secondImage_missing :
    ¬ AllOrNothing withBucket twoPages nothingStored
      (request withBucket onlyFirstImage twoPages nothingStored) := by
  have hrows : (visual_page_repository.list_by_document twoPages.document.id
      (request withBucket onlyFirstImage twoPages nothingStored)).map VisualPage.page_number
      = [1] := rfl
  rintro (⟨pages, hpages, hindexed⟩ | ⟨hsame, -, -⟩)
  · cases hpages
    obtain ⟨row, hrow, hnumber, -⟩ := hindexed ⟨2, [2], 10, 10, ""⟩ (.tail _ (.head _))
    have hone := List.mem_map_of_mem (f := VisualPage.page_number) hrow
    rw [hrows, hnumber] at hone
    cases List.mem_singleton.mp hone
  · rw [hsame] at hrows
    cases hrows

end PaCopilot.knowledge.visual

/-
The way of a streamed answer: `event_source` of `api/v1/ai.py`, through `with_heartbeat` and the
network, to `streamRequest` of the browser (`lib/api-client.ts`).

The server writes each event as one line of JSON between `data: ` and an empty line. The bytes may
arrive in pieces that are cut anywhere, also inside a character, and may stop arriving. The
browser cuts its buffer at the empty lines, and what begins with `data: ` is an event. So it has
at any time the events whose last byte has arrived, as they were sent ([`answer_delivered`]).
-/
import PaCopilot.Core.Sse
import PaCopilot.Lib.Frames
import PaCopilot.Lib.Json
import PaCopilot.Lib.Utf8
import Mathlib.Data.List.Forall2
import Mathlib.Data.List.Induction

set_option autoImplicit false

namespace PaCopilot.delivery

open Run sse

/-- A text of the wire. -/
abbrev Text := List Char

/-! ## The server -/

/-- `\uXXXX`. -/
def escapedUnit (n : ℕ) : Text :=
  ['\\', 'u', Json.hexDigit (n / 4096), Json.hexDigit (n / 256 % 16), Json.hexDigit (n / 16 % 16),
    Json.hexDigit (n % 16)]

/-- A character between quotes, as `json.dumps` writes it when it keeps to ASCII. -/
def asciiEscaped (c : Char) : Text :=
  if c = '"' then ['\\', '"']
  else if c = '\\' then ['\\', '\\']
  else if c = '\n' then ['\\', 'n']
  else if c = '\r' then ['\\', 'r']
  else if c = '\t' then ['\\', 't']
  else if c.toNat = 8 then ['\\', 'b']
  else if c.toNat = 12 then ['\\', 'f']
  else if 32 ≤ c.toNat ∧ c.toNat < 127 then [c]
  else if c.toNat < 0x10000 then escapedUnit c.toNat
  -- a pair of surrogates
  else escapedUnit (0xD800 + (c.toNat - 0x10000) / 1024)
    ++ escapedUnit (0xDC00 + (c.toNat - 0x10000) % 1024)

/-- `json.dumps({"type": "error", "message": exc.message})`. -/
def errorPayload (message : String) : Text :=
  "\x7b\"type\": \"error\", \"message\": \"".toList ++ message.toList.flatMap asciiEscaped
    ++ "\"\x7d".toList

/-- `f"data: {payload}\n\n"`. -/
def data (payload : Text) : Text := "data: ".toList ++ payload ++ ['\n', '\n']

/-- How `stream_chat` ends: it has said everything, it raised one of the exceptions that the
route answers (`AIProviderError`, `ValidationException`, `QuotaExceededException`), it raised
another, or it was cancelled. -/
inductive AnswerEnd (E : Type)
  | finished
  | refused (message : String)
  | failed (exc : E)
  | cancelled

section Server

variable {Event E : Type} (model_dump_json : Event → Text)

/-- The payloads of an answer, in order. -/
def payloads (events : List Event) (ending : AnswerEnd E) : List Text :=
  events.map model_dump_json ++
    match ending with
    | .refused message => [errorPayload message]
    | _ => []

/-- `event_source`: its items. -/
def event_source (events : List Event) (ending : AnswerEnd E) : List Text :=
  (payloads model_dump_json events ending).map data

end Server

/-- How `event_source` ends. -/
def AnswerEnd.source {E : Type} : AnswerEnd E → Ending E
  | .finished | .refused _ => .finished
  | .failed exc => .failed exc
  | .cancelled => .cancelled

/-- The bytes of what was yielded. -/
def wire (sent : List Piece) : List ℕ := Utf8.encode (sent.map Piece.text).flatten

/-! ## The browser -/

/-- `buffer.indexOf("\n\n")`, with what is before and behind it. -/
def boundary : Text → Option (Text × Text)
  | '\n' :: '\n' :: rest => some ([], rest)
  | c :: rest => (boundary rest).map fun found => (c :: found.1, found.2)
  | [] => none

/-- What `streamRequest` carries from one read to the next, with what it has yielded. -/
structure Reader (V : Type) where
  decoder : Utf8.Decoder
  buffer : Text
  yielded : List V
  threw : Bool

def Reader.start {V : Type} : Reader V := ⟨.initial, [], [], false⟩

section Browser

variable {V : Type} (parse : Text → Option V)

/-- The lines of an event. `JSON.parse` throws where it reads nothing. -/
def readLines : List Text → Reader V → Reader V
  | [], r => r
  | line :: lines, r =>
    if "data: ".toList <+: line then
      match parse (line.drop 6) with
      | none => { r with threw := true }
      | some value => readLines lines { r with yielded := r.yielded ++ [value] }
    else readLines lines r

/-- The loop over the boundaries of the buffer. -/
def readEvents : ℕ → Reader V → Reader V
  | 0, r => r
  | fuel + 1, r =>
    if r.threw then r
    else match boundary r.buffer with
      | none => r
      | some (rawEvent, rest) =>
        readEvents fuel (readLines parse (rawEvent.splitOn '\n') { r with buffer := rest })

/-- One piece from the network. -/
def read (r : Reader V) (value : List ℕ) : Reader V :=
  if r.threw then r
  else
    let decoded := Utf8.decode r.decoder value
    let r := { r with decoder := decoded.2, buffer := r.buffer ++ decoded.1 }
    readEvents parse r.buffer.length r

/-- `streamRequest`, of the pieces that have arrived. -/
def streamRequest (chunks : List (List ℕ)) : Reader V := chunks.foldl (read parse) .start

end Browser

/-! ## Boundaries -/

/-- A character that does not begin a boundary is before it. -/
theorem boundary_cons {c : Char} {rest : Text} (h : ¬ (c = '\n' ∧ rest.head? = some '\n')) :
    boundary (c :: rest) = (boundary rest).map fun found => (c :: found.1, found.2) := by
  rw [boundary]
  rintro rest' rfl rfl
  exact h ⟨rfl, rfl⟩

theorem boundary_newlines (rest : Text) : boundary ('\n' :: '\n' :: rest) = some ([], rest) := by
  rw [boundary]

/-- What was found is what was there. -/
theorem boundary_some {buffer raw rest : Text} (h : boundary buffer = some (raw, rest)) :
    buffer = raw ++ '\n' :: '\n' :: rest := by
  induction buffer generalizing raw with
  | nil => cases h
  | cons c buffer ih =>
    by_cases hhere : c = '\n' ∧ buffer.head? = some '\n'
    · obtain ⟨rfl, hhead⟩ := hhere
      obtain ⟨tail, rfl⟩ := List.head?_eq_some_iff.mp hhead
      rw [boundary_newlines] at h
      cases h
      rfl
    · rw [boundary_cons hhere] at h
      obtain ⟨⟨raw', rest'⟩, hfound, heq⟩ := Option.map_eq_some_iff.mp h
      rw [Prod.mk.injEq] at heq
      obtain ⟨rfl, rfl⟩ := heq
      rw [ih hfound]
      rfl

theorem steady_boundary : Frames.Steady boundary := by
  constructor
  · intro buffer raw rest h
    rw [boundary_some h, List.length_append, List.length_cons, List.length_cons]
    omega
  · intro buffer raw rest piece h
    induction buffer generalizing raw with
    | nil => cases h
    | cons c buffer ih =>
      by_cases hhere : c = '\n' ∧ buffer.head? = some '\n'
      · obtain ⟨rfl, hhead⟩ := hhere
        obtain ⟨tail, rfl⟩ := List.head?_eq_some_iff.mp hhead
        rw [boundary_newlines] at h
        cases h
        exact boundary_newlines _
      · rw [boundary_cons hhere] at h
        obtain ⟨⟨raw', rest'⟩, hfound, heq⟩ := Option.map_eq_some_iff.mp h
        rw [Prod.mk.injEq] at heq
        obtain ⟨rfl, rfl⟩ := heq
        -- what comes later does not make a boundary of the first character
        have hlater : ¬ (c = '\n' ∧ (buffer ++ piece).head? = some '\n') := by
          rintro ⟨hc, hhead⟩
          have hne : buffer ≠ [] := by
            rintro rfl
            cases hfound
          rw [List.head?_append_of_ne_nil _ hne] at hhead
          exact hhere ⟨hc, hhead⟩
        rw [List.cons_append, boundary_cons hlater, ih hfound]
        rfl

/-- A line and an empty one. -/
theorem boundary_block {raw : Text} (hraw : '\n' ∉ raw) (rest : Text) :
    boundary (raw ++ ['\n', '\n'] ++ rest) = some (raw, rest) := by
  induction raw with
  | nil => exact boundary_newlines rest
  | cons c raw ih =>
    rw [List.mem_cons, not_or] at hraw
    rw [List.cons_append, List.cons_append, boundary_cons fun h => hraw.1 h.1.symm, ih hraw.2]
    rfl

/-- Less than that has no boundary. -/
theorem boundary_part {raw part : Text} (hraw : '\n' ∉ raw) (hpart : part <+: raw ++ ['\n', '\n'])
    (hshort : part.length < (raw ++ ['\n', '\n']).length) : boundary part = none := by
  rcases hfound : boundary part with _ | ⟨raw', rest⟩
  · rfl
  obtain ⟨missing, hmissing⟩ := hpart
  have hne : missing ≠ [] := by
    rintro rfl
    rw [List.append_nil] at hmissing
    rw [hmissing] at hshort
    exact Nat.lt_irrefl _ hshort
  have hlast : '\n' ∈ missing := by
    have hget := congrArg List.getLast? hmissing
    rw [List.getLast?_append_of_ne_nil _ hne, List.getLast?_append_of_ne_nil _ (by simp)] at hget
    exact List.mem_of_getLast? hget
  -- two line ends are in the part, and a third one is missing
  have hcount := congrArg (List.count '\n') hmissing
  rw [boundary_some hfound] at hcount
  have hpos := List.count_pos_iff.mpr hlast
  simp only [List.count_append, List.count_cons_self, List.count_eq_zero.mpr hraw,
    List.count_nil] at hcount
  omega

/-! ## What the browser makes of the frames -/

section Frames

variable {V : Type} {parse : Text → Option V}

/-- What an event of one line says. -/
def said (parse : Text → Option V) (raw : Text) : List V :=
  if "data: ".toList <+: raw then (parse (raw.drop 6)).toList else []

/-- One line, that `JSON.parse` reads if it has to. -/
def Readable (parse : Text → Option V) (raw : Text) : Prop :=
  '\n' ∉ raw ∧ ("data: ".toList <+: raw → (parse (raw.drop 6)).isSome)

theorem readLines_readable {raw : Text} (hraw : Readable parse raw) (r : Reader V) :
    readLines parse (raw.splitOn '\n') r = { r with yielded := r.yielded ++ said parse raw } := by
  have hline : raw.splitOn '\n' = [raw] := by
    refine List.splitOnP_eq_singleton fun c hc => ?_
    rw [beq_eq_false_iff_ne]
    rintro rfl
    exact hraw.1 hc
  rw [hline, readLines, said]
  by_cases hdata : "data: ".toList <+: raw
  · obtain ⟨value, hvalue⟩ := Option.isSome_iff_exists.mp (hraw.2 hdata)
    rw [if_pos hdata, if_pos hdata, hvalue]
    rfl
  · rw [if_neg hdata, if_neg hdata, readLines, List.append_nil]

/-- The loop takes the frames off the buffer. -/
theorem readEvents_eq {fuel : ℕ} {r : Reader V} (hthrew : r.threw = false)
    (hreadable : ∀ raw ∈ (Frames.drain boundary fuel r.buffer).1, Readable parse raw) :
    readEvents parse fuel r = { r with
      buffer := (Frames.drain boundary fuel r.buffer).2
      yielded := r.yielded ++ (Frames.drain boundary fuel r.buffer).1.flatMap (said parse) } := by
  induction fuel generalizing r with
  | zero =>
    rw [readEvents, Frames.drain, List.flatMap_nil, List.append_nil]
  | succ fuel ih =>
    rw [readEvents, if_neg (by rw [hthrew]; decide)]
    rw [Frames.drain] at hreadable ⊢
    rcases hfound : boundary r.buffer with _ | ⟨raw, rest⟩
    · rw [List.flatMap_nil, List.append_nil]
    · rw [hfound] at hreadable
      dsimp only at hreadable ⊢
      have hrest := ih (r := { r with
          buffer := rest
          yielded := r.yielded ++ said parse raw }) hthrew
        fun raw' hraw' => hreadable raw' (List.mem_cons_of_mem _ hraw')
      rw [readLines_readable (hreadable raw List.mem_cons_self), hrest, List.flatMap_cons,
        List.append_assoc]

/-- **What the browser has yielded is what the frames say of all that has arrived**, whatever
the pieces. -/
theorem streamRequest_eq {chunks : List (List ℕ)}
    (hreadable : ∀ raw ∈ (Frames.frames boundary (Utf8.decode .initial chunks.flatten).1).1,
      Readable parse raw) :
    streamRequest parse chunks =
      { decoder := (Utf8.decode .initial chunks.flatten).2
        buffer := (Frames.frames boundary (Utf8.decode .initial chunks.flatten).1).2
        yielded := (Frames.frames boundary (Utf8.decode .initial chunks.flatten).1).1.flatMap
          (said parse)
        threw := false } := by
  induction chunks using List.reverseRecOn with
  | nil => rfl
  | append_singleton chunks chunk ih =>
    rw [List.flatten_append, List.flatten_singleton, Utf8.decode_append,
      Frames.frames_append steady_boundary] at hreadable ⊢
    have hbefore := ih fun raw hraw => hreadable raw (List.mem_append_left _ hraw)
    have hafter := fun raw hraw => hreadable raw (List.mem_append_right _ hraw)
    rw [streamRequest, List.foldl_append, ← streamRequest, hbefore, List.foldl_cons,
      List.foldl_nil, read, if_neg Bool.false_ne_true]
    dsimp only
    rw [List.flatMap_append]
    exact readEvents_eq rfl hafter

end Frames

/-! ## What is written is one line -/

theorem escapedUnit_line {n : ℕ} (hn : n < 0x10000) : '\n' ∉ escapedUnit n := by
  have hdigit : ∀ i < 16, '\n' ≠ Json.hexDigit i := by decide
  simp only [escapedUnit, List.mem_cons, List.not_mem_nil, or_false, not_or]
  exact ⟨by decide, by decide, hdigit _ (by omega), hdigit _ (by omega), hdigit _ (by omega),
    hdigit _ (by omega)⟩

theorem asciiEscaped_line (c : Char) : '\n' ∉ asciiEscaped c := by
  have hvalid := Utf8.toNat_valid c
  unfold asciiEscaped
  split
  · decide
  split
  · decide
  split
  · decide
  split
  · decide
  split
  · decide
  split
  · decide
  split
  · decide
  split
  · rename_i hplain
    rw [List.mem_singleton]
    rintro rfl
    exact absurd hplain.1 (by decide)
  split
  · rename_i hunit
    exact escapedUnit_line hunit
  · rw [List.mem_append, not_or]
    exact ⟨escapedUnit_line (by omega), escapedUnit_line (by omega)⟩

theorem errorPayload_line (message : String) : '\n' ∉ errorPayload message := by
  unfold errorPayload
  rw [List.mem_append, List.mem_append, not_or, not_or]
  refine ⟨⟨by decide, fun h => ?_⟩, by decide⟩
  obtain ⟨c, -, hc⟩ := List.mem_flatMap.mp h
  exact asciiEscaped_line c hc

/-- The line of a piece, without the empty one after it. -/
def line (piece : Piece) : Text := piece.text.dropLast.dropLast

theorem line_data (payload : Text) : line (.item (data payload)) = "data: ".toList ++ payload := by
  have hsplit : data payload = ("data: ".toList ++ payload ++ ['\n']) ++ ['\n'] :=
    (List.append_assoc _ ['\n'] ['\n']).symm
  rw [line, Piece.text, hsplit, List.dropLast_concat, List.dropLast_concat]

section Sent

variable {V Event E : Type} {parse : Text → Option V} {model_dump_json : Event → Text}

/-- What is sent: heartbeats, and payloads of one line that `JSON.parse` reads. -/
def Legible (parse : Text → Option V) (piece : Piece) : Prop :=
  piece = .heartbeat ∨ ∃ payload, piece = .item (data payload) ∧ '\n' ∉ payload ∧
    (parse payload).isSome

variable {piece : Piece} (hpiece : Legible parse piece)
include hpiece

theorem Legible.line_notMem : '\n' ∉ line piece := by
  rcases hpiece with rfl | ⟨payload, rfl, hline, -⟩
  · decide
  · rw [line_data, List.mem_append, not_or]
    exact ⟨by decide, hline⟩

theorem Legible.text_eq : piece.text = line piece ++ ['\n', '\n'] := by
  rcases hpiece with rfl | ⟨payload, rfl, -, -⟩
  · decide
  · rw [line_data]
    rfl

theorem Legible.readable : Readable parse (line piece) := by
  refine ⟨hpiece.line_notMem, fun hdata => ?_⟩
  rcases hpiece with rfl | ⟨payload, rfl, -, hparse⟩
  · exact absurd hdata (by decide)
  · rw [line_data]
    exact hparse

theorem Legible.said : (said parse (line piece)).map some = (items [piece]).map fun text =>
    parse (text.dropLast.dropLast.drop 6) := by
  rcases hpiece with rfl | ⟨payload, rfl, -, hparse⟩
  · rfl
  · obtain ⟨value, hvalue⟩ := Option.isSome_iff_exists.mp hparse
    have hdrop : ("data: ".toList ++ payload).drop 6 = payload := rfl
    have htext : (data payload).dropLast.dropLast = "data: ".toList ++ payload := line_data payload
    rw [delivery.said, line_data, if_pos (List.prefix_append _ _), hdrop, hvalue]
    show [some value] = [parse ((data payload).dropLast.dropLast.drop 6)]
    rw [htext, hdrop, hvalue]

end Sent

/-! ## The way of an answer -/

section Delivered

variable {V Event E : Type} {parse : Text → Option V} {model_dump_json : Event → Text}

theorem wire_eq (sent : List Piece) :
    wire sent = (sent.map fun piece => Utf8.encode piece.text).flatten := by
  induction sent with
  | nil => rfl
  | cons piece sent ih =>
    rw [wire, List.map_cons, List.flatten_cons, Utf8.encode_append, ← wire, ih]
    rfl

/-- What the lines say is what the items carry. -/
theorem said_items {sent : List Piece} (hsent : ∀ piece ∈ sent, Legible parse piece) :
    ((sent.map line).flatMap (said parse)).map some
      = (items sent).map fun text => parse (text.dropLast.dropLast.drop 6) := by
  induction sent with
  | nil => rfl
  | cons piece sent ih =>
    have hhead := (hsent piece List.mem_cons_self).said
    have htail := ih fun piece' hpiece' => hsent piece' (List.mem_cons_of_mem _ hpiece')
    have hitems : items (piece :: sent) = items [piece] ++ items sent := items_append [piece] sent
    rw [List.map_cons, List.flatMap_cons, List.map_append, hhead, htail, hitems, List.map_append]

/-- The beginning of a piece has no boundary. -/
theorem boundary_arriving {piece : Piece} (hpiece : Legible parse piece) {part : List ℕ}
    (hpart : part <+: Utf8.encode piece.text)
    (hshort : part.length < (Utf8.encode piece.text).length) :
    boundary (Utf8.decode .initial part).1 = none := by
  have hbegins := Utf8.decode_prefix hpart
  have hne := Utf8.decode_short hpart hshort
  rw [hpiece.text_eq] at hbegins hne
  refine boundary_part hpiece.line_notMem hbegins ?_
  refine Nat.lt_of_le_of_ne hbegins.length_le fun hlength => hne ?_
  exact hbegins.eq_of_length hlength

/-- Some whole pieces, and less than the next: the lines of the whole ones are the frames. -/
theorem frames_arrived {sent : List Piece} (hsent : ∀ piece ∈ sent, Legible parse piece)
    {part : List ℕ} (hpart : boundary (Utf8.decode .initial part).1 = none) :
    (Frames.frames boundary (Utf8.decode .initial (wire sent ++ part)).1).1 = sent.map line := by
  have hdecode : (Utf8.decode .initial (wire sent ++ part)).1
      = (sent.map Piece.text).flatten ++ (Utf8.decode .initial part).1 := by
    rw [Utf8.decode_append, wire, Utf8.decode_encode]
  have hblocks : List.Forall₂ (fun block frame => ∀ rest, boundary (block ++ rest) = some (frame, rest))
      (sent.map Piece.text) (sent.map line) := by
    rw [List.forall₂_map_left_iff, List.forall₂_map_right_iff, List.forall₂_same]
    intro piece hpiece rest
    rw [(hsent piece hpiece).text_eq]
    exact boundary_block (hsent piece hpiece).line_notMem rest
  rw [hdecode, Frames.frames_blocks steady_boundary hblocks hpart]

theorem legible_of_sound {events : List Event} {ending : AnswerEnd E} {σ : sse.State E}
    (hline : ∀ e, '\n' ∉ model_dump_json e) (hparse : ∀ e, (parse (model_dump_json e)).isSome)
    (herror : ∀ message, (parse (errorPayload message)).isSome)
    (hbegins : items σ.sent <+: event_source model_dump_json events ending) :
    ∀ piece ∈ σ.sent, Legible parse piece := by
  intro piece hpiece
  rcases piece with text | _
  · right
    have hitem : text ∈ items σ.sent := List.mem_filterMap.mpr ⟨.item text, hpiece, rfl⟩
    obtain ⟨payload, hpayload, rfl⟩ := List.mem_map.mp (hbegins.subset hitem)
    refine ⟨payload, rfl, ?_⟩
    rcases List.mem_append.mp hpayload with hevent | hlast
    · obtain ⟨e, -, rfl⟩ := List.mem_map.mp hevent
      exact ⟨hline e, hparse e⟩
    · rcases ending with _ | message | _ | _
      · cases hlast
      · rw [List.mem_singleton.mp hlast]
        exact ⟨errorPayload_line message, herror message⟩
      · cases hlast
      · cases hlast
  · exact .inl rfl

/-- The payload of an item is what the browser hands to `JSON.parse`. -/
theorem parse_items {events : List Event} {ending : AnswerEnd E} {sent : List Piece}
    (hbegins : items sent <+: event_source model_dump_json events ending) :
    ((items sent).map fun text => parse (text.dropLast.dropLast.drop 6))
      = ((payloads model_dump_json events ending).take (items sent).length).map parse := by
  rw [List.prefix_iff_eq_take.mp hbegins, event_source, ← List.map_take, List.map_map,
    List.length_map]
  have hlength : ((payloads model_dump_json events ending).take (items sent).length).length
      = (items sent).length := by
    have hle := hbegins.length_le
    rw [event_source, List.length_map] at hle
    rw [List.length_take, Nat.min_eq_left hle]
  rw [hlength]
  refine List.map_congr_left fun payload _ => ?_
  show parse ((data payload).dropLast.dropLast.drop 6) = parse payload
  have htext : (data payload).dropLast.dropLast = "data: ".toList ++ payload := line_data payload
  rw [htext]
  rfl

/-- Some whole pieces, and less than the next: the browser has read the whole ones. -/
theorem read_arrived {events : List Event} {ending : AnswerEnd E} {sent : List Piece}
    (hlegible : ∀ piece ∈ sent, Legible parse piece)
    (hbegins : items sent <+: event_source model_dump_json events ending)
    {chunks : List (List ℕ)} {part : List ℕ} (hbytes : chunks.flatten = wire sent ++ part)
    (hpart : boundary (Utf8.decode .initial part).1 = none) :
    (streamRequest parse chunks).threw = false ∧
      (streamRequest parse chunks).yielded.map some
        = ((payloads model_dump_json events ending).take (items sent).length).map parse := by
  have hframes := frames_arrived hlegible hpart
  rw [← hbytes] at hframes
  have hread : streamRequest parse chunks = _ := streamRequest_eq fun raw hraw => by
    rw [hframes] at hraw
    obtain ⟨piece, hpiece, rfl⟩ := List.mem_map.mp hraw
    exact (hlegible piece hpiece).readable
  refine ⟨by rw [hread], ?_⟩
  rw [hread]
  dsimp only
  rw [hframes, said_items hlegible, parse_items hbegins]

/-- **An answer arrives as it was sent.** The server's tasks may take any turns, with any number
of heartbeats; the bytes may come in any pieces, and stop at any byte. Then the browser has the
events of the pieces that have arrived whole, each once and in order, and has met nothing that it
cannot read; and all of them, with the error that the answer ended in, when all has arrived of a
stream that came to its end. -/
theorem answer_delivered {events : List Event} {ending : AnswerEnd E} {actions : List Action}
    {σ : sse.State E} {chunks : List (List ℕ)} (hline : ∀ e, '\n' ∉ model_dump_json e)
    (hparse : ∀ e, (parse (model_dump_json e)).isSome)
    (herror : ∀ message, (parse (errorPayload message)).isSome)
    (hrun : run (sse.step ending.source) (State.start (event_source model_dump_json events ending))
      actions = some σ)
    (harrived : chunks.flatten <+: wire σ.sent) :
    (streamRequest parse chunks).threw = false ∧
      (∃ k part, k ≤ σ.sent.length ∧ chunks.flatten = wire (σ.sent.take k) ++ part ∧
        (k = σ.sent.length → part = []) ∧
        (∀ piece, σ.sent[k]? = some piece → part.length < (wire [piece]).length) ∧
        (streamRequest parse chunks).yielded.map some
          = ((payloads model_dump_json events ending).take (items (σ.sent.take k)).length).map
              parse) ∧
      (σ.outcome = some .returned → chunks.flatten = wire σ.sent →
        (streamRequest parse chunks).yielded.map some
          = (payloads model_dump_json events ending).map parse) := by
  have hsound := sse.run_sound hrun
  have hlegible := legible_of_sound hline hparse herror hsound.items_prefix
  have hgot : ∀ {k : ℕ} {part : List ℕ}, chunks.flatten = wire (σ.sent.take k) ++ part →
      boundary (Utf8.decode .initial part).1 = none →
      (streamRequest parse chunks).threw = false ∧
        (streamRequest parse chunks).yielded.map some
          = ((payloads model_dump_json events ending).take (items (σ.sent.take k)).length).map
              parse := by
    intro k part hbytes hpart
    refine read_arrived (fun piece hpiece => hlegible piece (List.mem_of_mem_take hpiece)) ?_
      hbytes hpart
    refine List.IsPrefix.trans ?_ hsound.items_prefix
    rw [← List.take_append_drop k σ.sent, items_append, List.take_append_drop]
    exact List.prefix_append _ _
  obtain ⟨k, part, hk, hbytes, hend, hnext⟩ :=
    Frames.prefix_flatten (wire_eq σ.sent ▸ harrived)
  rw [List.length_map] at hk hend
  rw [← List.map_take, ← wire_eq] at hbytes
  have hpart : boundary (Utf8.decode .initial part).1 = none := by
    rcases Nat.eq_or_lt_of_le hk with hall | hmore
    · rw [hend hall]
      rfl
    · have hpiece := hnext (Utf8.encode σ.sent[k].text) (by
        rw [List.getElem?_map, List.getElem?_eq_getElem hmore]
        rfl)
      exact boundary_arriving (hlegible _ (List.getElem_mem hmore)) hpiece.1 hpiece.2
  refine ⟨(hgot hbytes hpart).1, ⟨k, part, hk, hbytes, hend, fun piece hpiece => ?_,
    (hgot hbytes hpart).2⟩, fun houtcome hwire => ?_⟩
  · have hshort := (hnext (Utf8.encode piece.text) (by
      rw [List.getElem?_map, hpiece]
      rfl)).2
    rw [wire_eq]
    simpa using hshort
  · have hitems := (hsound.items_eq houtcome (by simp)).1
    have hwhole : chunks.flatten = wire (σ.sent.take σ.sent.length) ++ [] := by
      rw [List.take_length, List.append_nil, hwire]
    rw [(hgot hwhole rfl).2, List.take_length, hitems, event_source, List.length_map,
      List.take_length]

end Delivered

/-- Two events, of which one is not ASCII. -/
def twoEvents : Bool → Text
  | true => "\x7b\"type\":\"text\",\"text\":\"é\"\x7d".toList
  | false => "\x7b\"type\":\"done\"\x7d".toList

/-- The object that a text is, taken as that text. -/
def object (text : Text) : Option Text := if text.head? = some '\x7b' then some text else none

/-- The first item, a quiet while, the second and the end. -/
def quietRun : List Action := [.produce, .get, .timeout, .produce, .produce, .get, .get]

def quietSent : List Piece :=
  [.item (data (twoEvents true)), .heartbeat, .item (data (twoEvents false))]

/-- Cut inside the `é`, and between the two line ends. -/
def cutChunks : List (List ℕ) :=
  [(wire quietSent).take 30, ((wire quietSent).drop 30).take 4, (wire quietSent).drop 34]

theorem answer_delivered_cut :
    (streamRequest object cutChunks).yielded.map some
      = (payloads twoEvents [true, false] (.finished : AnswerEnd Unit)).map object :=
  have hbytes : cutChunks.flatten = wire quietSent := by decide +kernel
  (@answer_delivered _ _ _ object twoEvents [true, false] .finished quietRun
    ⟨[], false, [], quietSent, some .returned⟩ cutChunks (by decide) (by decide) (fun _ => rfl) rfl
    (hbytes ▸ List.prefix_rfl)).2.2 rfl hbytes

end PaCopilot.delivery

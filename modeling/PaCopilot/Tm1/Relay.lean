/-
The relay of requests to TM1 through a gateway, `tm1/gateway/relay.py`, and the gateway
program's half of it, `gateway/pa_gateway.py`.

A request waits in its gateway's queue until a worker of the gateway takes it, asks TM1,
and cuts the answer into parts. The parts reach the broker in any order, between parts of
other answers, and the call that sent the request waits for as many of them as the first
one to arrive announces. Each part names its request, and every part of an answer is put
under that name once, so the call never has a part of another answer, and once it has as
many as are announced it has them all.

The broker is the one in the memory of a process. Ids (`uuid4`) are drawn from a counter.
-/
import PaCopilot.Lib.Packing
import PaCopilot.Lib.Parts
import PaCopilot.Lib.Run
import Mathlib.Data.List.Iterate
import Mathlib.Data.Rat.Floor
import Mathlib.Logic.Function.Basic

set_option autoImplicit false

namespace PaCopilot

open Parts Run

abbrev Bytes := List UInt8

/-- `zlib` and `base64`, on texts as lists of characters, as far as the relay relies on them:
what was packed is unpacked, and what was packed is not empty. -/
structure Codec where
  compress : Bytes → Bytes
  decompress : Bytes → Option Bytes
  b64encode : Bytes → List Char
  b64decode : List Char → Option Bytes
  decompress_compress : ∀ data, decompress (compress data) = some data
  b64decode_b64encode : ∀ data, b64decode (b64encode data) = some data
  compress_ne_nil : ∀ data, compress data ≠ []
  b64encode_ne_nil : ∀ data, data ≠ [] → b64encode data ≠ []

/-- The keys of an answer, as `forward` makes it of what TM1 said. -/
structure GatewayAnswer where
  status : Option ℕ := none
  reason : Option String := none
  headers : Option (List (String × String)) := none
  cookies : Option (List (String × String)) := none
  error : Option String := none
  deriving DecidableEq

/-- A part of an answer; the first one carries its keys. -/
structure Part where
  id : ℕ
  index : ℕ
  parts : ℕ
  data : List Char
  answer : GatewayAnswer := {}
  deriving DecidableEq

/-! ## The two programs -/

namespace relay

/-- Compressed bytes per answer part. -/
def PART_BYTES : ℕ := 512 * 1024

def MAX_REQUEST_BYTES : ℕ := 900000

def encode (codec : Codec) (data : Bytes) : List Char := codec.b64encode (codec.compress data)

def decode (codec : Codec) (text : List Char) : Option Bytes :=
  (codec.b64decode text).bind codec.decompress

def split_answer (codec : Codec) (request_id : ℕ) (answer : GatewayAnswer) (body : Bytes) : List Part :=
  let data := encode codec body
  let chunk := PART_BYTES * 4 / 3
  let pieces := slices chunk data
  let pieces := if pieces.isEmpty then [[]] else pieces
  pieces.mapIdx fun index piece =>
    { id := request_id, index := index, parts := pieces.length, data := piece
      answer := if index = 0 then answer else {} }

/-- `_complete`. -/
def _complete (parts : List Part) : Bool :=
  match parts with
  | [] => false
  | first :: _ => first.parts ≤ parts.length

end relay

namespace pa_gateway

def PART_BYTES : ℕ := 512 * 1024

def encode (codec : Codec) (data : Bytes) : List Char := codec.b64encode (codec.compress data)

def split_answer (codec : Codec) (request_id : ℕ) (answer : GatewayAnswer) (body : Bytes) : List Part :=
  let data := encode codec body
  let chunk := PART_BYTES * 4 / 3
  let pieces := slices chunk data
  let pieces := if pieces.isEmpty then [[]] else pieces
  pieces.mapIdx fun index piece =>
    { id := request_id, index := index, parts := pieces.length, data := piece
      answer := if index = 0 then answer else {} }

/-- What becomes of a request that a worker of the gateway has taken. The allow-list has been
asked, and of the headers of a response those are left that are not in `DROP_HEADERS`. -/
inductive Outcome
  | notAllowed (target : String)
  | unreachable (target exception text : String)
  | response (status : ℕ) (reason : String) (headers cookies : List (String × String))
      (body : Bytes)

/-- What `forward` returns. -/
def forward : Outcome → GatewayAnswer × Bytes
  | .notAllowed target =>
    ({ error := some (s!"{target} is not on this gateway's allow-list. On the gateway "
        ++ s!"machine run: pa-gateway setup --allow {target}") }, [])
  | .unreachable target exception text =>
    ({ error := some (String.ofList
        (s!"Could not reach TM1 at {target}: {exception}: {text}".toList.take 1900)) }, [])
  | .response status reason headers cookies body =>
    ({ status := some status, reason := some reason, headers := some headers
       cookies := some cookies }, body)

end pa_gateway

namespace relay

open pa_gateway (Outcome forward)

/-! ## The call that waits -/

/-- What `relay` returns. -/
@[ext]
structure Response where
  status : ℕ
  reason : String
  headers : List (String × String)
  cookies : List (String × String)
  body : Bytes
  deriving DecidableEq

inductive Raised
  | GatewayError (message : String)
  | ConnectionError (message : String)
  | KeyError
  | Undecodable
  deriving DecidableEq

/-- The rest of `relay`, from the parts that `pop_answer` has returned. -/
def assemble (codec : Codec) (parts : List Part) : Except Raised Response :=
  let parts := inOrder Part.index parts
  let first := (parts.head?.map Part.answer).getD {}
  let error := first.error.getD ""
  if error ≠ "" then .error (.GatewayError s!"The gateway reported: {error}")
  else
    let data := parts.flatMap Part.data
    match if data.isEmpty then some [] else decode codec data, first.status with
    | none, _ => .error .Undecodable
    | some _, none => .error .KeyError
    | some body, some status =>
      .ok ⟨status, first.reason.getD "", first.headers.getD [], first.cookies.getD [], body⟩

/-- A request on its way to a gateway. -/
structure Message where
  id : ℕ
  method : String
  url : String
  headers : List (String × String)
  body : Option (List Char)
  timeout : ℚ

/-- The broker, the calls that wait in it with their timeouts, and the parts on their way.
Kept beside it: to which gateway a request was sent, what a gateway made of it, which parts
have arrived, and what the calls have returned. -/
structure State where
  next : ℕ
  _requests : ℕ → List Message
  _answers : ℕ → List Part
  waiting : ℕ → Option ℚ
  inFlight : List Part
  sentTo : ℕ → ℕ
  outcome : ℕ → Option Outcome
  arrived : List Part
  returned : ℕ → Option (Except Raised Response)

def State.start : State :=
  ⟨0, fun _ => [], fun _ => [], fun _ => none, [], fun _ => 0, fun _ => none, [], fun _ => none⟩

inductive Event
  | send (gateway_id : ℕ) (method url : String) (headers : List (String × String))
      (body : Option Bytes) (timeout : ℚ)
  | poll (gateway_id : ℕ) (outcome : Outcome)
  | arrive (k : ℕ)
  | wake (request_id : ℕ)
  | give_up (request_id : ℕ)

section Steps

variable (codec : Codec) (size : Message → ℕ)

/-- One step. `size` is the length of a message's JSON text. -/
def step (s : State) : Event → Option State
  | .send gateway_id method url headers body timeout =>
    let message : Message := ⟨s.next, method, url, headers,
      (body.filter fun body => !body.isEmpty).map (encode codec), timeout⟩
    -- refused here: it never reaches a gateway
    if MAX_REQUEST_BYTES < size message then
      some { s with
        next := s.next + 1
        returned := Function.update s.returned s.next (some (.error (.ConnectionError
          "This TM1 request is too large to send through the gateway."))) }
    else
      some { s with
        next := s.next + 1
        _requests := Function.update s._requests gateway_id (s._requests gateway_id ++ [message])
        waiting := Function.update s.waiting s.next (some timeout)
        sentTo := Function.update s.sentTo s.next gateway_id }
  | .poll gateway_id outcome =>
    match s._requests gateway_id with
    | [] => none
    | message :: rest =>
      let (answer, body) := forward outcome
      some { s with
        _requests := Function.update s._requests gateway_id rest
        inFlight := s.inFlight ++ pa_gateway.split_answer codec message.id answer body
        outcome := Function.update s.outcome message.id (some outcome) }
  -- parts may overtake each other, and are kept in the order they arrive in
  | .arrive k =>
    match s.inFlight[k]? with
    | none => none
    | some part =>
      some { s with
        inFlight := s.inFlight.eraseIdx k
        _answers := Function.update s._answers part.id (s._answers part.id ++ [part])
        arrived := s.arrived ++ [part] }
  | .wake request_id =>
    if (s.waiting request_id).isSome = true ∧ _complete (s._answers request_id) = true then
      some { s with
        _answers := Function.update s._answers request_id []
        waiting := Function.update s.waiting request_id none
        returned := Function.update s.returned request_id
          (some (assemble codec (s._answers request_id))) }
    else none
  | .give_up request_id =>
    match s.waiting request_id with
    | none => none
    | some timeout =>
      -- an answer that is complete wakes the caller instead
      if _complete (s._answers request_id) = true then none
      else
        some { s with
          _answers := Function.update s._answers request_id []
          waiting := Function.update s.waiting request_id none
          returned := Function.update s.returned request_id (some (.error (.GatewayError
            (s!"The gateway did not answer within {⌊timeout⌋} seconds. "
              ++ "Check that the PA-Copilot gateway is running inside the TM1 "
              ++ "server's network.")))) }

end Steps

/-! ## An answer in parts -/

section Split

variable {codec : Codec} {id : ℕ} {answer : GatewayAnswer} {body : Bytes} {outcome : Outcome}
  {parts rest : List Part} {p : Part}

/-- **Both programs cut an answer the same way.** -/
theorem split_answer_same (codec : Codec) :
    pa_gateway.split_answer codec = split_answer codec := rfl

/-- The pieces of the text. -/
def pieces (codec : Codec) (body : Bytes) : List (List Char) :=
  let pieces := slices (PART_BYTES * 4 / 3) (encode codec body)
  if pieces.isEmpty then [[]] else pieces

theorem split_answer_eq : split_answer codec id answer body
    = (pieces codec body).mapIdx fun index piece =>
        { id := id, index := index, parts := (pieces codec body).length, data := piece
          answer := if index = 0 then answer else {} } := rfl

theorem pieces_ne_nil : pieces codec body ≠ [] := by
  unfold pieces
  dsimp only
  by_cases hempty : (slices (PART_BYTES * 4 / 3) (encode codec body)).isEmpty = true
  · rw [if_pos hempty]
    exact List.cons_ne_nil _ _
  · rw [if_neg hempty]
    exact fun h => hempty (List.isEmpty_iff.mpr h)

theorem flatten_pieces : (pieces codec body).flatten = encode codec body := by
  have hslices : (slices (PART_BYTES * 4 / 3) (encode codec body)).flatten = encode codec body :=
    flatten_slices (by decide) _
  unfold pieces
  dsimp only
  by_cases hempty : (slices (PART_BYTES * 4 / 3) (encode codec body)).isEmpty = true
  · rw [if_pos hempty, ← hslices, List.isEmpty_iff.mp hempty]
    rfl
  · rw [if_neg hempty]
    exact hslices

theorem split_answer_length : (split_answer codec id answer body).length
    = (pieces codec body).length := by
  rw [split_answer_eq, List.length_mapIdx]

theorem mem_split_answer (h : p ∈ split_answer codec id answer body) :
    p.id = id ∧ p.parts = (split_answer codec id answer body).length := by
  rw [split_answer_length]
  rw [split_answer_eq] at h
  obtain ⟨k, hk, rfl⟩ := List.mem_mapIdx.mp h
  exact ⟨rfl, rfl⟩

theorem split_answer_ordered :
    (split_answer codec id answer body).Pairwise fun a b => a.index < b.index := by
  rw [split_answer_eq, List.pairwise_iff_getElem]
  intro i j hi hj hij
  rw [List.getElem_mapIdx, List.getElem_mapIdx]
  exact hij

theorem split_answer_data :
    (split_answer codec id answer body).flatMap Part.data = encode codec body := by
  rw [← flatten_pieces, List.flatMap_def, split_answer_eq]
  congr 1
  apply List.ext_getElem
  · rw [List.length_map, List.length_mapIdx]
  · intro k _ _
    rw [List.getElem_map, List.getElem_mapIdx]

theorem split_answer_head :
    (split_answer codec id answer body).head?.map Part.answer = some answer := by
  rw [split_answer_eq]
  rcases hpieces : pieces codec body with _ | ⟨piece, rest⟩
  · exact absurd hpieces pieces_ne_nil
  · rw [List.mapIdx_cons]
    rfl

/-- What is packed is not empty, and is unpacked. -/
theorem decode_encode (codec : Codec) (body : Bytes) :
    encode codec body ≠ [] ∧ decode codec (encode codec body) = some body := by
  refine ⟨codec.b64encode_ne_nil _ (codec.compress_ne_nil body), ?_⟩
  rw [decode, encode, codec.b64decode_b64encode, Option.bind_some, codec.decompress_compress]

/-- What the call makes of what the gateway made of its request. -/
def relayed : Outcome → Except Raised Response
  | .response status reason headers cookies body => .ok ⟨status, reason, headers, cookies, body⟩
  | failed =>
    let error := (forward failed).1.error.getD ""
    .error (.GatewayError s!"The gateway reported: {error}")

/-- The parts of what `forward` returned. -/
def partsFor (codec : Codec) (id : ℕ) (outcome : Outcome) : List Part :=
  split_answer codec id (forward outcome).1 (forward outcome).2

/-- A body is answered in two parts when its text is longer than one, and not than two. -/
theorem partsFor_length_two {id status : ℕ} {reason : String}
    {headers cookies : List (String × String)} {body : Bytes}
    (hmore : 699050 < (encode codec body).length)
    (hless : (encode codec body).length ≤ 1398100) :
    (partsFor codec id (.response status reason headers cookies body)).length = 2 := by
  have hslices : (slices (PART_BYTES * 4 / 3) (encode codec body)).length = 2 := by
    rw [length_slices, PART_BYTES]
    omega
  have hsome : (slices (PART_BYTES * 4 / 3) (encode codec body)).isEmpty = false := by
    rw [List.isEmpty_eq_false_iff, ← List.length_pos_iff, hslices]
    decide
  rw [partsFor, split_answer_length, pieces, forward]
  dsimp only
  rw [hsome, if_neg Bool.false_ne_true, hslices]

/-- A failure is not without a text. -/
theorem forward_error (outcome : Outcome) : (∃ status reason headers cookies body,
      outcome = .response status reason headers cookies body) ∨
    (forward outcome).1.error.getD "" ≠ "" := by
  cases outcome with
  | notAllowed target =>
    right
    intro h
    have hlist := congrArg String.toList h
    simp [forward] at hlist
    exact absurd hlist.2.1 (by decide)
  | unreachable target exception text =>
    right
    intro h
    have hlist := congrArg String.toList h
    simp [forward] at hlist
    exact absurd hlist.1 (by decide)
  | response status reason headers cookies body =>
    exact .inl ⟨status, reason, headers, cookies, body, rfl⟩

/-- **The parts of an answer, in any order, are put together to the answer.** -/
theorem assemble_of_perm (h : parts.Perm (partsFor codec id outcome)) :
    assemble codec parts = relayed outcome := by
  have hsorted := inOrder_of_perm h split_answer_ordered
  obtain ⟨hne, hdecode⟩ := decode_encode codec (forward outcome).2
  have hdata : (partsFor codec id outcome).flatMap Part.data = encode codec (forward outcome).2 :=
    split_answer_data
  have hhead : (partsFor codec id outcome).head?.map Part.answer = some (forward outcome).1 :=
    split_answer_head
  have hbody : (if (encode codec (forward outcome).2).isEmpty = true then some []
      else decode codec (encode codec (forward outcome).2)) = some (forward outcome).2 := by
    rw [if_neg (by rwa [List.isEmpty_iff]), hdecode]
  unfold assemble
  dsimp only
  rw [hsorted, hdata, hhead, Option.getD_some, hbody]
  rcases forward_error outcome with ⟨status, reason, headers, cookies, body, rfl⟩ | herror
  · rfl
  · rw [if_pos herror]
    cases outcome with
    | notAllowed => rfl
    | unreachable => rfl
    | response => exact absurd rfl herror

/-- Some of the parts are as many as are announced when they are all of them. -/
theorem complete_iff (h : (rest ++ parts).Perm (partsFor codec id outcome)) :
    _complete parts = true ↔ rest = [] := by
  have hlength := h.length_eq
  rw [List.length_append] at hlength
  have hpos : 0 < (partsFor codec id outcome).length := by
    rw [partsFor, split_answer_length]
    exact List.length_pos_of_ne_nil pieces_ne_nil
  rcases parts with _ | ⟨first, others⟩
  · constructor
    · nofun
    · rintro rfl
      rw [List.length_nil, Nat.add_zero] at hlength
      omega
  · have hfirst := (mem_split_answer (h.subset (List.mem_append_right _ List.mem_cons_self))).2
    rw [_complete, decide_eq_true_eq, hfirst, ← List.length_eq_zero_iff]
    rw [partsFor] at hlength
    omega

end Split

/-! ## What holds of every run -/

/-- The parts that carry an id. -/
def partsOf (id : ℕ) (parts : List Part) : List Part := parts.filter fun p => p.id = id

theorem mem_partsOf {id : ℕ} {parts : List Part} {p : Part} :
    p ∈ partsOf id parts ↔ p ∈ parts ∧ p.id = id := by
  rw [partsOf, List.mem_filter, decide_eq_true_eq]

theorem partsOf_append (id : ℕ) (parts more : List Part) :
    partsOf id (parts ++ more) = partsOf id parts ++ partsOf id more :=
  List.filter_append ..

/-- The invariant. A request is in the queue of its gateway until it has an outcome; from
then on its parts are those on their way and those that have arrived, and no part is under
an id that is not its own. -/
structure Sound (codec : Codec) (s : State) : Prop where
  queued : ∀ gateway_id, ∀ message ∈ s._requests gateway_id,
    message.id < s.next ∧ s.sentTo message.id = gateway_id ∧ s.outcome message.id = none
  once : ∀ gateway_id, ((s._requests gateway_id).map Message.id).Nodup
  fresh : ∀ id, s.next ≤ id → s.outcome id = none ∧ s.waiting id = none ∧ s._answers id = []
  silent : ∀ id, s.outcome id = none → partsOf id (s.inFlight ++ s.arrived) = []
  cut : ∀ id outcome, s.outcome id = some outcome →
    (partsOf id s.inFlight ++ partsOf id s.arrived).Perm (partsFor codec id outcome)
  own : ∀ id, ∀ p ∈ s._answers id, p.id = id
  waiting : ∀ id, (s.waiting id).isSome = true → s._answers id = partsOf id s.arrived
  returned : ∀ id response, s.returned id = some (.ok response) →
    ∃ outcome, s.outcome id = some outcome ∧ relayed outcome = .ok response ∧
      partsOf id s.inFlight = []

section Runs

variable {codec : Codec} {size : Message → ℕ} {s s' : State} {e : Event}

theorem sound_start (codec : Codec) : Sound codec State.start where
  queued _ _ h := absurd h List.not_mem_nil
  once _ := List.nodup_nil
  fresh _ _ := ⟨rfl, rfl, rfl⟩
  silent _ _ := rfl
  cut _ _ h := nomatch h
  own _ _ h := absurd h List.not_mem_nil
  waiting _ h := nomatch h
  returned _ _ h := nomatch h

/-- A call that fails at once. -/
theorem Sound.refused {raised : Raised} (h : Sound codec s) :
    Sound codec { s with
      next := s.next + 1
      returned := Function.update s.returned s.next (some (.error raised)) } := by
  refine { h with
    queued := fun g m hm => ?_
    fresh := fun id hid => h.fresh id (Nat.le_of_succ_le hid)
    returned := fun id response hreturned => ?_ }
  · obtain ⟨hlt, hrest⟩ := h.queued g m hm
    exact ⟨Nat.lt_succ_of_lt hlt, hrest⟩
  · dsimp only at hreturned
    by_cases hid : id = s.next
    · rw [hid, Function.update_self] at hreturned
      cases hreturned
    · rw [Function.update_of_ne hid] at hreturned
      exact h.returned id response hreturned

/-- A request is put at the end of the queue of its gateway. -/
theorem Sound.sent {gateway_id : ℕ} {message : Message} {timeout : ℚ} (h : Sound codec s)
    (hid : message.id = s.next) :
    Sound codec { s with
      next := s.next + 1
      _requests := Function.update s._requests gateway_id (s._requests gateway_id ++ [message])
      waiting := Function.update s.waiting s.next (some timeout)
      sentTo := Function.update s.sentTo s.next gateway_id } := by
  have hold : ∀ g, ∀ m ∈ s._requests g, m.id ≠ s.next := fun g m hm =>
    Nat.ne_of_lt (h.queued g m hm).1
  refine { h with
    queued := fun g m hm => ?_
    once := fun g => ?_
    fresh := fun id hlt => ?_
    waiting := fun id hwaiting => ?_ }
  · dsimp only at hm
    have hcase : m ∈ s._requests g ∨ (g = gateway_id ∧ m = message) := by
      by_cases hg : g = gateway_id
      · subst hg
        rw [Function.update_self, List.mem_append, List.mem_singleton] at hm
        exact hm.imp id fun hmessage => ⟨rfl, hmessage⟩
      · rw [Function.update_of_ne hg] at hm
        exact .inl hm
    rcases hcase with hm | ⟨rfl, rfl⟩
    · obtain ⟨hlt, hsent, houtcome⟩ := h.queued g m hm
      refine ⟨Nat.lt_succ_of_lt hlt, ?_, houtcome⟩
      dsimp only
      rw [Function.update_of_ne (hold g m hm)]
      exact hsent
    · dsimp only
      rw [hid]
      exact ⟨Nat.lt_succ_self _, Function.update_self .., (h.fresh s.next le_rfl).1⟩
  · dsimp only
    by_cases hg : g = gateway_id
    · rw [hg, Function.update_self, List.map_append, List.nodup_append]
      refine ⟨h.once gateway_id, List.nodup_singleton _, ?_⟩
      intro a ha b hb
      obtain ⟨m, hm, rfl⟩ := List.mem_map.mp ha
      rw [List.map_cons, List.map_nil, List.mem_singleton] at hb
      rw [hb, hid]
      exact hold gateway_id m hm
    · rw [Function.update_of_ne hg]
      exact h.once g
  · have hne : id ≠ s.next := fun heq => Nat.not_succ_le_self _ (heq ▸ hlt)
    dsimp only
    rw [Function.update_of_ne hne]
    exact h.fresh id (Nat.le_of_succ_le hlt)
  · dsimp only at hwaiting ⊢
    by_cases heq : id = s.next
    · -- nothing was cut for a new id
      obtain ⟨houtcome, -, hanswers⟩ := h.fresh s.next le_rfl
      have hnone := h.silent s.next houtcome
      rw [partsOf_append, List.append_eq_nil_iff] at hnone
      rw [heq, hanswers, hnone.2]
    · rw [Function.update_of_ne heq] at hwaiting
      exact h.waiting id hwaiting

theorem Sound.send {gateway_id : ℕ} {method url : String} {headers : List (String × String)}
    {body : Option Bytes} {timeout : ℚ} (h : Sound codec s)
    (hstep : step codec size s (.send gateway_id method url headers body timeout) = some s') :
    Sound codec s' := by
  unfold step at hstep
  dsimp only at hstep
  split at hstep
  · rw [← Option.some.inj hstep]
    exact h.refused
  · rw [← Option.some.inj hstep]
    exact h.sent rfl

/-- What is cut for a request is all under its id. -/
theorem partsOf_partsFor (id : ℕ) {own : ℕ} {outcome : Outcome} :
    partsOf id (partsFor codec own outcome) = if id = own then partsFor codec own outcome else [] := by
  by_cases hid : id = own
  · rw [if_pos hid, partsOf, List.filter_eq_self]
    intro p hp
    exact decide_eq_true ((mem_split_answer hp).1.trans hid.symm)
  · rw [if_neg hid, partsOf, List.filter_eq_nil_iff]
    intro p hp hown
    exact hid ((of_decide_eq_true hown).symm.trans (mem_split_answer hp).1)

/-- The requests that stay in a queue when the first of one is taken are others. -/
theorem Sound.others {gateway_id g : ℕ} {message m : Message} {rest : List Message}
    (h : Sound codec s) (hqueue : s._requests gateway_id = message :: rest)
    (hm : m ∈ Function.update s._requests gateway_id rest g) :
    m ∈ s._requests g ∧ m.id ≠ message.id := by
  have honce := h.once gateway_id
  rw [hqueue, List.map_cons, List.nodup_cons] at honce
  by_cases hg : g = gateway_id
  · rw [hg, Function.update_self] at hm
    rw [hg, hqueue]
    refine ⟨List.mem_cons_of_mem _ hm, ?_⟩
    intro heq
    exact honce.1 (heq ▸ List.mem_map_of_mem hm)
  · rw [Function.update_of_ne hg] at hm
    refine ⟨hm, ?_⟩
    intro heq
    -- it was sent to one gateway only
    have hsent := (h.queued gateway_id message (hqueue ▸ List.mem_cons_self)).2.1
    apply hg
    rw [← (h.queued g m hm).2.1, heq, hsent]

/-- A worker of the gateway takes the first request of the queue. -/
theorem Sound.poll {gateway_id : ℕ} {outcome : Outcome} (h : Sound codec s)
    (hstep : step codec size s (.poll gateway_id outcome) = some s') : Sound codec s' := by
  unfold step at hstep
  dsimp only at hstep
  rcases hqueue : s._requests gateway_id with _ | ⟨message, rest⟩
  · rw [hqueue] at hstep
    cases hstep
  rw [hqueue] at hstep
  rw [← Option.some.inj hstep]
  -- the request leaves the queue, and its parts are the only ones that are new
  have honce := h.once gateway_id
  rw [hqueue, List.map_cons, List.nodup_cons] at honce
  obtain ⟨hlt, -, hnone⟩ := h.queued gateway_id message (hqueue ▸ List.mem_cons_self)
  have hsilent := h.silent message.id hnone
  rw [partsOf_append, List.append_eq_nil_iff] at hsilent
  have hsplit : pa_gateway.split_answer codec message.id (forward outcome).1 (forward outcome).2
      = partsFor codec message.id outcome := rfl
  refine { h with
    queued := fun g m hm => ?_
    once := fun g => ?_
    fresh := fun id hle => ?_
    silent := fun id houtcome => ?_
    cut := fun id o houtcome => ?_
    returned := fun id response hreturned => ?_ }
  · obtain ⟨hold, hne⟩ := h.others hqueue hm
    dsimp only
    rw [Function.update_of_ne hne]
    exact h.queued g m hold
  · dsimp only
    by_cases hg : g = gateway_id
    · rw [hg, Function.update_self]
      exact honce.2
    · rw [Function.update_of_ne hg]
      exact h.once g
  -- the request that is taken was sent, so it is below `next`
  · have hne : id ≠ message.id := fun heq => Nat.not_lt.mpr hle (heq ▸ hlt)
    dsimp only
    rw [Function.update_of_ne hne]
    exact h.fresh id hle
  · dsimp only at houtcome ⊢
    by_cases hid : id = message.id
    · rw [hid, Function.update_self] at houtcome
      cases houtcome
    · rw [Function.update_of_ne hid] at houtcome
      -- no part of another request is added
      have hold := h.silent id houtcome
      rw [partsOf_append, List.append_eq_nil_iff] at hold
      rw [partsOf_append, partsOf_append, hsplit, partsOf_partsFor, if_neg hid, hold.1, hold.2]
      rfl
  · dsimp only at houtcome ⊢
    rw [hsplit, partsOf_append, partsOf_partsFor]
    by_cases hid : id = message.id
    -- of the request itself, all parts are
    · subst hid
      rw [Function.update_self, Option.some.injEq] at houtcome
      rw [if_pos rfl, hsilent.1, hsilent.2, List.nil_append, List.append_nil, houtcome]
    · rw [Function.update_of_ne hid] at houtcome
      rw [if_neg hid, List.append_nil]
      exact h.cut id o houtcome
  · dsimp only at hreturned ⊢
    obtain ⟨o, houtcome, hrelayed, hnoneLeft⟩ := h.returned id response hreturned
    -- who has an answer already was not in the queue
    have hid : id ≠ message.id := by
      rintro rfl
      rw [hnone] at houtcome
      cases houtcome
    refine ⟨o, ?_, hrelayed, ?_⟩
    · rw [Function.update_of_ne hid]
      exact houtcome
    · rw [hsplit, partsOf_append, partsOf_partsFor, if_neg hid, hnoneLeft]
      rfl

theorem partsOf_eraseIdx {parts : List Part} {k : ℕ} {part : Part} (h : parts[k]? = some part)
    (id : ℕ) : (partsOf id (parts.eraseIdx k) ++ partsOf id [part]).Perm (partsOf id parts) := by
  obtain ⟨hk, rfl⟩ := List.getElem?_eq_some_iff.mp h
  have hperm : (parts.eraseIdx k ++ [parts[k]]).Perm parts :=
    List.perm_append_comm.trans (List.getElem_cons_eraseIdx_perm hk)
  rw [← partsOf_append]
  exact hperm.filter _

/-- A part reaches the broker. -/
theorem Sound.arrive {k : ℕ} (h : Sound codec s)
    (hstep : step codec size s (.arrive k) = some s') : Sound codec s' := by
  unfold step at hstep
  dsimp only at hstep
  rcases hpart : s.inFlight[k]? with _ | part
  · rw [hpart] at hstep
    cases hstep
  rw [hpart] at hstep
  rw [← Option.some.inj hstep]
  have hperm := partsOf_eraseIdx hpart
  have hmem : part ∈ s.inFlight := List.mem_of_getElem? hpart
  have hmoved : ∀ id, (partsOf id (s.inFlight.eraseIdx k) ++ partsOf id (s.arrived ++ [part])).Perm
      (partsOf id s.inFlight ++ partsOf id s.arrived) := by
    intro id
    rw [partsOf_append]
    refine (List.Perm.append_left _ List.perm_append_comm).trans ?_
    rw [← List.append_assoc]
    exact (hperm id).append_right _
  -- an id that nothing was cut for has no part on its way
  have hhas : s.outcome part.id ≠ none := by
    intro hnone
    have hsilent := h.silent part.id hnone
    rw [partsOf_append, List.append_eq_nil_iff] at hsilent
    have hin := mem_partsOf.mpr ⟨hmem, rfl⟩
    rw [hsilent.1] at hin
    exact List.not_mem_nil hin
  refine { h with
    fresh := fun id hle => ?_
    silent := fun id houtcome => ?_
    cut := fun id o houtcome => ?_
    own := fun id p hp => ?_
    waiting := fun id hwaiting => ?_
    returned := fun id response hreturned => ?_ }
  · have hne : id ≠ part.id := fun heq => hhas (heq ▸ (h.fresh id hle).1)
    dsimp only
    rw [Function.update_of_ne hne]
    exact h.fresh id hle
  · have hold := h.silent id houtcome
    rw [partsOf_append] at hold ⊢
    exact ((hold ▸ hmoved id)).eq_nil
  · exact (hmoved id).trans (h.cut id o houtcome)
  · dsimp only at hp
    by_cases hid : id = part.id
    · rw [hid, Function.update_self, List.mem_append, List.mem_singleton] at hp
      rcases hp with hp | rfl
      · rw [hid]
        exact h.own part.id p hp
      · exact hid.symm
    · rw [Function.update_of_ne hid] at hp
      exact h.own id p hp
  · dsimp only at hwaiting ⊢
    rw [partsOf_append]
    by_cases hid : id = part.id
    · subst hid
      have hself : partsOf part.id [part] = [part] := by
        exact List.filter_eq_self.mpr fun p hp => by
          rw [List.mem_singleton.mp hp, decide_eq_true_eq]
      rw [Function.update_self, h.waiting part.id hwaiting, hself]
    · have hnot : partsOf id [part] = [] := by
        rw [partsOf, List.filter_cons_of_neg, List.filter_nil]
        rw [decide_eq_true_eq]
        exact fun heq => hid heq.symm
      rw [Function.update_of_ne hid, h.waiting id hwaiting, hnot, List.append_nil]
  · obtain ⟨o, houtcome, hrelayed, hnone⟩ := h.returned id response hreturned
    refine ⟨o, houtcome, hrelayed, ?_⟩
    have hid := hperm id
    rw [hnone] at hid
    exact (List.append_eq_nil_iff.mp hid.eq_nil).1

/-- A call returns or raises, and its parts are forgotten. -/
theorem Sound.left {id : ℕ} {result : Except Raised Response} (h : Sound codec s)
    (hresult : ∀ response, result = .ok response →
      ∃ outcome, s.outcome id = some outcome ∧ relayed outcome = .ok response ∧
        partsOf id s.inFlight = []) :
    Sound codec { s with
      _answers := Function.update s._answers id []
      waiting := Function.update s.waiting id none
      returned := Function.update s.returned id (some result) } := by
  -- only what is kept under this one id is touched
  refine { h with
    fresh := fun other hle => ?_
    own := fun other p hp => ?_
    waiting := fun other hwaiting => ?_
    returned := fun other response hreturned => ?_ }
  · obtain ⟨houtcome, hwaiting, hanswers⟩ := h.fresh other hle
    dsimp only
    by_cases hother : other = id
    · rw [hother, Function.update_self, Function.update_self]
      exact ⟨hother ▸ houtcome, rfl, rfl⟩
    · rw [Function.update_of_ne hother, Function.update_of_ne hother]
      exact ⟨houtcome, hwaiting, hanswers⟩
  · dsimp only at hp
    by_cases hother : other = id
    · rw [hother, Function.update_self] at hp
      exact absurd hp List.not_mem_nil
    · rw [Function.update_of_ne hother] at hp
      exact h.own other p hp
  · dsimp only at hwaiting ⊢
    by_cases hother : other = id
    · rw [hother, Function.update_self] at hwaiting
      cases hwaiting
    · rw [Function.update_of_ne hother] at hwaiting ⊢
      exact h.waiting other hwaiting
  · dsimp only at hreturned ⊢
    by_cases hother : other = id
    · rw [hother, Function.update_self, Option.some.injEq] at hreturned
      rw [hother]
      exact hresult response hreturned
    · rw [Function.update_of_ne hother] at hreturned
      exact h.returned other response hreturned

/-- **The call that waits for a request has all the parts of its answer as soon as it has
as many as are announced.** -/
theorem Sound.complete {id : ℕ} (h : Sound codec s) (hwaiting : (s.waiting id).isSome = true) :
    _complete (s._answers id) = true ↔
      ∃ outcome, s.outcome id = some outcome ∧ partsOf id s.inFlight = [] := by
  rw [h.waiting id hwaiting]
  rcases houtcome : s.outcome id with _ | outcome
  · have hnone := h.silent id houtcome
    rw [partsOf_append, List.append_eq_nil_iff] at hnone
    rw [hnone.2]
    constructor
    · nofun
    · rintro ⟨o, ho, -⟩
      cases ho
  · rw [complete_iff (h.cut id outcome houtcome)]
    exact ⟨fun hnone => ⟨outcome, rfl, hnone⟩, fun ⟨_, _, hnone⟩ => hnone⟩

/-- Then what it returns is what the gateway made of its request. -/
theorem Sound.assembled {id : ℕ} {outcome : Outcome} (h : Sound codec s)
    (hwaiting : (s.waiting id).isSome = true) (houtcome : s.outcome id = some outcome)
    (hnone : partsOf id s.inFlight = []) : assemble codec (s._answers id) = relayed outcome := by
  have hperm := h.cut id outcome houtcome
  rw [hnone, List.nil_append] at hperm
  rw [h.waiting id hwaiting]
  exact assemble_of_perm hperm

theorem Sound.step (h : Sound codec s) (hstep : step codec size s e = some s') :
    Sound codec s' := by
  cases e with
  | send => exact h.send hstep
  | poll => exact h.poll hstep
  | arrive => exact h.arrive hstep
  | wake id =>
    unfold relay.step at hstep
    dsimp only at hstep
    split at hstep
    · next hcomplete =>
      obtain ⟨outcome, houtcome, hnone⟩ := (h.complete hcomplete.1).mp hcomplete.2
      rw [← Option.some.inj hstep]
      refine h.left fun response hresponse => ⟨outcome, houtcome, ?_, hnone⟩
      rw [← h.assembled hcomplete.1 houtcome hnone, hresponse]
    · cases hstep
  | give_up id =>
    unfold relay.step at hstep
    dsimp only at hstep
    rcases htimeout : s.waiting id with _ | timeout
    · rw [htimeout] at hstep
      cases hstep
    · rw [htimeout] at hstep
      dsimp only at hstep
      split at hstep
      · cases hstep
      · rw [← Option.some.inj hstep]
        exact h.left nofun

theorem sound_of_run {events : List Event}
    (hrun : run (relay.step codec size) State.start events = some s) : Sound codec s :=
  invariant_of_step (fun _ _ _ h hstep => h.step hstep) (sound_start codec) hrun

theorem relayed_eq_ok {outcome : Outcome} {response : Response} :
    relayed outcome = .ok response ↔ outcome = .response response.status response.reason
      response.headers response.cookies response.body := by
  cases outcome with
  | notAllowed target => exact ⟨nofun, nofun⟩
  | unreachable target exception text => exact ⟨nofun, nofun⟩
  | response status reason headers cookies body =>
    rw [relayed, Except.ok.injEq, Outcome.response.injEq, Response.ext_iff]

/-- **The round trip.** In every run: what a call has returned is the response that the
gateway had for its request, and all parts of it have arrived; a waiting call can return when
they have, and not before, and returns that response; no part is under an id that is not its
own; and both programs cut an answer the same way. -/
theorem relay_round_trip {events : List Event}
    (hrun : run (relay.step codec size) State.start events = some s) :
    (∀ id response, s.returned id = some (.ok response) →
      s.outcome id = some (.response response.status response.reason response.headers
          response.cookies response.body) ∧
        partsOf id s.inFlight = [] ∧
        (partsOf id s.arrived).Perm (split_answer codec id
          { status := some response.status, reason := some response.reason
            headers := some response.headers, cookies := some response.cookies }
          response.body)) ∧
      (∀ id, (s.waiting id).isSome = true →
        ((relay.step codec size s (.wake id)).isSome = true ↔
          ∃ outcome, s.outcome id = some outcome ∧ partsOf id s.inFlight = []) ∧
        ∀ s', relay.step codec size s (.wake id) = some s' →
          ∀ outcome, s.outcome id = some outcome → s'.returned id = some (relayed outcome)) ∧
      (∀ id, ∀ p ∈ s._answers id, p.id = id) ∧
      pa_gateway.split_answer codec = split_answer codec := by
  have h := sound_of_run hrun
  refine ⟨fun id response hreturned => ?_, fun id hwaiting => ⟨?_, fun s' hstep outcome houtcome => ?_⟩,
    h.own, split_answer_same codec⟩
  · obtain ⟨outcome, houtcome, hrelayed, hnone⟩ := h.returned id response hreturned
    rw [relayed_eq_ok] at hrelayed
    subst hrelayed
    -- nothing is in flight, so what arrived is all of it, in some order
    have hperm := h.cut id _ houtcome
    rw [hnone, List.nil_append] at hperm
    exact ⟨houtcome, hnone, hperm⟩
  · rw [← h.complete hwaiting]
    unfold relay.step
    dsimp only
    by_cases hcomplete : _complete (s._answers id) = true
    · rw [if_pos ⟨hwaiting, hcomplete⟩]
      exact iff_of_true rfl hcomplete
    · rw [if_neg fun hboth => hcomplete hboth.2]
      exact iff_of_false nofun hcomplete
  · unfold relay.step at hstep
    dsimp only at hstep
    split at hstep
    · next hcomplete =>
      obtain ⟨-, -, hnone⟩ := (h.complete hwaiting).mp hcomplete.2
      rw [← Option.some.inj hstep]
      dsimp only
      rw [Function.update_self, h.assembled hwaiting houtcome hnone]
    · cases hstep

end Runs

section TwoCalls

variable {codec : Codec} {size : Message → ℕ} {s : State}

theorem step_send (gateway_id : ℕ) (method url : String) (headers : List (String × String))
    (timeout : ℚ) (hsize : ∀ message, size message ≤ MAX_REQUEST_BYTES) :
    relay.step codec size s (.send gateway_id method url headers none timeout) = some { s with
      next := s.next + 1
      _requests := Function.update s._requests gateway_id
        (s._requests gateway_id ++ [⟨s.next, method, url, headers, none, timeout⟩])
      waiting := Function.update s.waiting s.next (some timeout)
      sentTo := Function.update s.sentTo s.next gateway_id } := by
  unfold relay.step
  dsimp only
  rw [if_neg (Nat.not_lt.mpr (hsize _))]
  rfl

theorem step_poll {gateway_id : ℕ} {message : Message} {rest : List Message} (outcome : Outcome)
    (h : s._requests gateway_id = message :: rest) :
    relay.step codec size s (.poll gateway_id outcome) = some { s with
      _requests := Function.update s._requests gateway_id rest
      inFlight := s.inFlight ++ partsFor codec message.id outcome
      outcome := Function.update s.outcome message.id (some outcome) } := by
  unfold relay.step
  dsimp only
  rw [h]
  rfl

theorem step_arrive {k : ℕ} {part : Part} (h : s.inFlight[k]? = some part) :
    relay.step codec size s (.arrive k) = some { s with
      inFlight := s.inFlight.eraseIdx k
      _answers := Function.update s._answers part.id (s._answers part.id ++ [part])
      arrived := s.arrived ++ [part] } := by
  unfold relay.step
  dsimp only
  rw [h]

/-- A call whose answer is there returns it. -/
theorem Sound.wake (size : Message → ℕ) {id : ℕ} {outcome : Outcome} (h : Sound codec s)
    (hwaiting : (s.waiting id).isSome = true) (houtcome : s.outcome id = some outcome)
    (hnone : s.inFlight = []) :
    relay.step codec size s (.wake id) = some { s with
      _answers := Function.update s._answers id []
      waiting := Function.update s.waiting id none
      returned := Function.update s.returned id (some (relayed outcome)) } := by
  have hnoneOf : partsOf id s.inFlight = [] := by
    rw [hnone]
    rfl
  have hcomplete := (h.complete hwaiting).mpr ⟨outcome, houtcome, hnoneOf⟩
  unfold relay.step
  dsimp only
  rw [if_pos ⟨hwaiting, hcomplete⟩, h.assembled hwaiting houtcome hnoneOf]

/-- Two calls through two gateways, which answer. -/
def asked (first second : Outcome) : List Event :=
  [.send 1 "GET" "https://tm1.local:8010/api/v1/Contents" [] none 60,
    .send 2 "GET" "https://tm1.local:8010/api/v1/Contents" [] none 60,
    .poll 1 first, .poll 2 second]

theorem run_asked (first second : Outcome) (hsize : ∀ message, size message ≤ MAX_REQUEST_BYTES) :
    ∃ s, run (relay.step codec size) State.start (asked first second) = some s ∧
      s.inFlight = partsFor codec 0 first ++ partsFor codec 1 second ∧
      s.outcome 0 = some first ∧ s.outcome 1 = some second ∧
      s.waiting 0 = some 60 ∧ s.waiting 1 = some 60 := by
  refine ⟨_, run_cons_eq_some_iff.mpr ⟨_, step_send _ _ _ _ _ hsize,
    run_cons_eq_some_iff.mpr ⟨_, step_send _ _ _ _ _ hsize,
    run_cons_eq_some_iff.mpr ⟨_, step_poll first rfl,
    run_cons_eq_some_iff.mpr ⟨_, step_poll second rfl, rfl⟩⟩⟩⟩, ?_, rfl, rfl, rfl, rfl⟩
  exact congrArg (· ++ partsFor codec 1 second) (List.nil_append (partsFor codec 0 first))

/-- Everything that is on its way may arrive with the last part first. -/
theorem run_arrive_last (codec : Codec) (size : Message → ℕ) (n : ℕ)
    (h : s.inFlight.length = n) :
    ∃ s', run (relay.step codec size) s ((List.range n).reverse.map Event.arrive) = some s' ∧
      s'.inFlight = [] ∧ s'.outcome = s.outcome ∧ s'.waiting = s.waiting := by
  induction n generalizing s with
  | zero => exact ⟨s, rfl, List.length_eq_zero_iff.mp h, rfl, rfl⟩
  | succ n ih =>
    have hlt : n < s.inFlight.length := by omega
    have hlast : s.inFlight[n]? = some s.inFlight[n] := List.getElem?_eq_getElem hlt
    obtain ⟨s', hrun, hnone, houtcome, hwaiting⟩ := ih (s := { s with
        inFlight := s.inFlight.eraseIdx n
        _answers := _
        arrived := _ }) (by
      rw [List.length_eraseIdx, if_pos hlt, h]
      rfl)
    rw [List.range_succ, List.reverse_append, List.reverse_singleton, List.map_append]
    exact ⟨s', run_cons_eq_some_iff.mpr ⟨_, step_arrive hlast, hrun⟩, hnone, houtcome, hwaiting⟩

/-- Two calls through two gateways. Of each answer there are two parts, and all four arrive
with the last one first. -/
def twoCalls (first second : Outcome) : List Event :=
  asked first second
    ++ ([.arrive 3, .arrive 2, .arrive 1, .arrive 0] ++ [.wake 0, .wake 1])

theorem twoCalls_returned {first second : Outcome}
    (hsize : ∀ message, size message ≤ MAX_REQUEST_BYTES)
    (hfirst : (partsFor codec 0 first).length = 2)
    (hsecond : (partsFor codec 1 second).length = 2) :
    ∃ s, run (relay.step codec size) State.start (twoCalls first second) = some s ∧
      s.returned 0 = some (relayed first) ∧ s.returned 1 = some (relayed second) := by
  obtain ⟨s₁, hasked, hinFlight, houtcome, houtcome', hwaiting, hwaiting'⟩ :=
    run_asked first second hsize
  have hfour : s₁.inFlight.length = 4 := by
    rw [hinFlight, List.length_append, hfirst, hsecond]
  obtain ⟨s₂, harrived, hnone, hsame, hstill⟩ := run_arrive_last codec size 4 hfour
  have hsound : Sound codec s₂ := sound_of_run (run_append.mpr ⟨s₁, hasked, harrived⟩)
  rw [← hsame] at houtcome houtcome'
  rw [← hstill] at hwaiting hwaiting'
  -- the call that returns first takes nothing of the other one's
  have hwaits : (s₂.waiting 0).isSome = true := by rw [hwaiting]; rfl
  have hwake := hsound.wake size hwaits houtcome hnone
  have hwaits' : (Function.update s₂.waiting 0 none 1).isSome = true := by
    rw [Function.update_of_ne (by decide), hwaiting']
    rfl
  have hwake' := (hsound.step hwake).wake size hwaits' houtcome' hnone
  refine ⟨_, run_append.mpr ⟨s₁, hasked, run_append.mpr ⟨s₂, harrived,
    run_cons_eq_some_iff.mpr ⟨_, hwake, run_cons_eq_some_iff.mpr ⟨_, hwake', rfl⟩⟩⟩⟩, ?_, ?_⟩
  · dsimp only
    rw [Function.update_of_ne (by decide), Function.update_self]
  · dsimp only
    rw [Function.update_self]

end TwoCalls

/-- The codec that shortens nothing: what it makes of bytes is what `zlib` makes of bytes in
which it finds nothing to shorten. -/
def stored : Codec where
  compress := Packing.store
  decompress := Packing.inflate
  b64encode := Packing.encode
  b64decode := Packing.decode
  decompress_compress := Packing.inflate_store
  b64decode_b64encode := Packing.decode_encode
  compress_ne_nil data := by
    rw [← List.length_pos_iff, Packing.length_store]
    omega
  b64encode_ne_nil data h := by
    rw [← List.length_pos_iff] at h ⊢
    rw [Packing.length_encode]
    omega

theorem encode_stored (data : Bytes) :
    encode stored data = Packing.encode (Packing.store data) := rfl

/-- Half a megabyte in which `zlib` finds nothing to shorten. -/
def noise (seed : ℕ) : Bytes :=
  (List.iterate (fun x => x * 16807 % 1000003) seed (512 * 1024)).map fun x =>
    UInt8.ofNat (x * 256 / 1000003)

/-- Its text is longer than one part, and not than two. -/
theorem length_encode_noise (seed : ℕ) : (encode stored (noise seed)).length = 699280 := by
  have hlength : (noise seed).length = 524288 := by
    rw [noise, List.length_map, List.length_iterate]
  rw [encode_stored, Packing.length_encode, Packing.length_store, hlength]
  decide

/-- What the gateways say to the two calls. -/
def firstOutcome : Outcome :=
  .response 200 "OK" [("Content-Type", "application/octet-stream")] [] (noise 1)

def secondOutcome : Outcome := .response 404 "Not Found" [] [] (noise 6)

theorem noise_parts (id seed status : ℕ) (reason : String) (headers : List (String × String)) :
    (partsFor stored id (.response status reason headers [] (noise seed))).length = 2 := by
  refine partsFor_length_two ?_ ?_
  · rw [length_encode_noise]
    decide
  · rw [length_encode_noise]
    decide

theorem twoCalls_round_trip :
    ∃ s, run (relay.step stored fun _ => 154) State.start (twoCalls firstOutcome secondOutcome)
        = some s ∧
      s.returned 0 = some (.ok ⟨200, "OK", [("Content-Type", "application/octet-stream")], [],
        noise 1⟩) ∧
      s.outcome 0 = some (.response 200 "OK" [("Content-Type", "application/octet-stream")] []
        (noise 1)) ∧
      partsOf 0 s.inFlight = [] := by
  have hfirst : (partsFor stored 0 firstOutcome).length = 2 := noise_parts 0 1 200 "OK" _
  have hsecond : (partsFor stored 1 secondOutcome).length = 2 := noise_parts 1 6 404 "Not Found" _
  have hsize : ∀ _ : Message, 154 ≤ MAX_REQUEST_BYTES := fun _ => by decide
  obtain ⟨s, hrun, hreturned, -⟩ := twoCalls_returned hsize hfirst hsecond
  have hreply : s.returned 0 = some (.ok ⟨200, "OK",
      [("Content-Type", "application/octet-stream")], [], noise 1⟩) := hreturned
  obtain ⟨houtcome, hnone, -⟩ := (relay_round_trip hrun).1 0 _ hreply
  exact ⟨s, hrun, hreply, houtcome, hnone⟩

end relay

end PaCopilot

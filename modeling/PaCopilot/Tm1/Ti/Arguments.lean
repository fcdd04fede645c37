/-
The arguments of a call in TI code, `_split_args` of `tm1/ti/parser.py`.

The scanner reads the code in place, at positions up to a bound. In the model it is given
what it reads with, so that it can be asked what it would return if the rest of the code
were another (`splitFrom_eq`). It looks one character ahead for the second quote of a doubled
one. Reading both as two ends of a literal comes to the same, and with that a scan is one
pass over the characters in front of the bound (`scan`), which an argument takes as a whole
(`scan_balanced`).
-/
import PaCopilot.Errors
import PaCopilot.Tm1.Rules.Parser

set_option autoImplicit false

namespace PaCopilot.ti.parser

open Python (strip)
open rules (Text)

def MAX_ARGUMENT_SPAN : ℕ := 8192

/-! ## The scanner -/

/-- The variables of the loop. -/
structure Splitting where
  args : List Text := []
  depth : ℕ := 0
  current : Text := []
  in_string : Bool := false
  deriving DecidableEq

/-- `current.append(char)`. -/
def Splitting.append (s : Splitting) (char : Text) : Splitting :=
  { s with current := s.current ++ char }

/-- `args.append("".join(current).strip())`. -/
def Splitting.close (s : Splitting) : Splitting :=
  { s with args := s.args ++ [strip s.current], current := [] }

/-- A character, but for the first quote of a doubled one. There is nothing after the bracket
that ends the arguments. -/
def Splitting.next (s : Splitting) (char : Char) : Option Splitting :=
  if s.in_string then some ({ s with in_string := char ≠ '\'' }.append [char])
  else if char = '\'' then some ({ s with in_string := true }.append [char])
  else if char = '(' ∨ char = '[' then some ({ s with depth := s.depth + 1 }.append [char])
  else if char = ')' ∨ char = ']' then
    if s.depth = 0 then none else some ({ s with depth := s.depth - 1 }.append [char])
  else if char = ',' ∧ s.depth = 0 then some s.close
  else some (s.append [char])

/-- What is returned after the loop. -/
def Splitting.finish (s : Splitting) : List Text :=
  if s.current ≠ [] then s.close.args else s.args

/-- `index + 1 < limit and call_text[index + 1] == "'"`. -/
def doubledAt (read : ℕ → Except AppException Char) (limit index : ℕ) : Except AppException Bool :=
  if index + 1 < limit then do
    let char ← read (index + 1)
    return char = '\''
  else return false

/-- The loop, from a position on. -/
def splitFrom (read : ℕ → Except AppException Char) (limit index : ℕ) (s : Splitting) :
    Except AppException (List Text) :=
  if index < limit then do
    let char ← read index
    let doubled ← if s.in_string ∧ char = '\'' then doubledAt read limit index else pure false
    if doubled then splitFrom read limit (index + 2) (s.append ['\'', '\''])
    else
      match s.next char with
      | none => return s.finish
      | some s => splitFrom read limit (index + 1) s
  else return s.finish
termination_by limit - index

/-- `text[index]`. -/
def charAt (text : Text) (index : ℕ) : Except AppException Char :=
  match text[index]? with
  | some char => .ok char
  | none => .error (PythonError "IndexError")

/-- Where the scan ends at the latest. -/
def scanLimit (call_text : Text) (start : ℕ) : ℕ :=
  min call_text.length (start + MAX_ARGUMENT_SPAN)

def _split_args (call_text : Text) (start : ℕ) : Except AppException (List Text) :=
  splitFrom (charAt call_text) (scanLimit call_text start) start {}

/-! ## One pass -/

/-- The characters in front of the bound, one after the other. -/
def scan : Text → Splitting → List Text
  | [], s => s.finish
  | char :: rest, s =>
    match s.next char with
    | none => s.finish
    | some s => scan rest s

section Scan

variable {s : Splitting} {char : Char} {rest window : Text} {limit index : ℕ}
  {read : ℕ → Except AppException Char}

theorem next_in_string (h : s.in_string = true) :
    s.next char = some ({ s with in_string := char ≠ '\'' }.append [char]) :=
  if_pos h

theorem scan_next {s' : Splitting} (h : s.next char = some s') :
    scan (char :: rest) s = scan rest s' := by
  rw [scan, h]

/-- A doubled quote closes a literal and opens it again, with nothing between. -/
theorem scan_doubled (h : s.in_string = true) :
    scan ('\'' :: '\'' :: rest) s = scan rest (s.append ['\'', '\'']) := by
  have hopens : ({ s with in_string := decide ('\'' ≠ '\'') }.append ['\'']).next '\''
      = some (s.append ['\'', '\'']) := by
    simp [Splitting.next, Splitting.append, h]
  rw [scan_next (next_in_string h), scan_next hopens]

/-- The look at the next character, where the window tells what is there. -/
theorem doubledAt_eq (hlen : limit - index = rest.length + 1)
    (hread : ∀ i c, rest[i]? = some c → read (index + 1 + i) = .ok c) :
    doubledAt read limit index = .ok (rest.head? = some '\'') := by
  unfold doubledAt
  cases rest with
  | nil =>
    rw [List.length_nil] at hlen
    rw [if_neg (by omega)]
    rfl
  | cons d rest =>
    rw [List.length_cons] at hlen
    rw [if_pos (by omega), show read (index + 1) = .ok d from hread 0 d rfl]
    simp [bind, Except.bind, pure, Except.pure]

/-- **The loop is one pass over the characters in front of the bound**, whatever would be read
elsewhere. -/
theorem splitFrom_eq (hlen : limit - index = window.length)
    (hread : ∀ i c, window[i]? = some c → read (index + i) = .ok c) :
    splitFrom read limit index s = .ok (scan window s) := by
  -- two characters at once may be taken, so the induction is on the length
  induction hn : window.length using Nat.strong_induction_on generalizing window index s with
  | h n ih =>
  cases window with
  | nil =>
    rw [List.length_nil] at hlen
    rw [splitFrom, if_neg (by omega), scan]
    rfl
  | cons char rest =>
    rw [List.length_cons] at hlen hn
    have hchar : read index = .ok char := hread 0 char rfl
    have hrest : ∀ i c, rest[i]? = some c → read (index + 1 + i) = .ok c := by
      intro i c hc
      rw [Nat.add_assoc, Nat.add_comm 1]
      exact hread (i + 1) c hc
    have hnext : ∀ s', splitFrom read limit (index + 1) s' = .ok (scan rest s') := fun s' =>
      ih rest.length (by omega) (by omega) hrest rfl
    -- the step by one character, to which all but a doubled quote comes
    have hone : (match s.next char with
        | none => return s.finish
        | some s' => splitFrom read limit (index + 1) s') = .ok (scan (char :: rest) s) := by
      rw [scan]
      cases s.next char with
      | none => rfl
      | some s' => exact hnext s'
    rw [splitFrom, if_pos (by omega), hchar]
    by_cases hquote : s.in_string = true ∧ char = '\''
    · have hdoubled := doubledAt_eq (by omega) hrest
      obtain ⟨hin, rfl⟩ := hquote
      simp only [bind, Except.bind, hin, and_self, if_true, hdoubled]
      by_cases hd : rest.head? = some '\''
      · obtain ⟨rest', rfl⟩ : ∃ rest', rest = '\'' :: rest' := List.head?_eq_some_iff.mp hd
        rw [decide_eq_true hd, if_pos rfl, scan_doubled hin]
        rw [List.length_cons] at hlen hn
        apply ih rest'.length (by omega) (by omega) _ rfl
        intro i c hc
        have hat := hrest (i + 1) c hc
        rwa [show index + 1 + (i + 1) = index + 2 + i by omega] at hat
      · rw [decide_eq_false hd, if_neg (by decide)]
        exact hone
    · simp only [bind, Except.bind, if_neg hquote, pure, Except.pure]
      exact hone

end Scan

/-- The characters that a call of `_split_args` may look at. -/
def windowOf (call_text : Text) (start : ℕ) : Text := (call_text.drop start).take MAX_ARGUMENT_SPAN

theorem length_windowOf (call_text : Text) (start : ℕ) :
    scanLimit call_text start - start = (windowOf call_text start).length := by
  rw [windowOf, scanLimit, List.length_take, List.length_drop]
  omega

theorem charAt_windowOf {call_text : Text} {start i : ℕ} {c : Char}
    (h : (windowOf call_text start)[i]? = some c) : charAt call_text (start + i) = .ok c := by
  rw [windowOf, List.getElem?_take] at h
  split at h
  · rw [List.getElem?_drop] at h
    rw [charAt, h]
  · cases h

theorem split_args_eq (call_text : Text) (start : ℕ) :
    _split_args call_text start = .ok (scan (windowOf call_text start) {}) :=
  splitFrom_eq (length_windowOf call_text start) fun _ _ => charAt_windowOf

/-! ## Arguments -/

/-- The inside of a literal: a value with its quotes doubled. -/
def doubled (value : Text) : Text :=
  value.flatMap fun c => if c = '\'' then ['\'', '\''] else [c]

/-- A text in which brackets are balanced and each literal is closed, with its quotes doubled.
Outside brackets it has no comma unless `inside`, where it stands in brackets itself. The two
kinds of brackets are not told apart. -/
inductive Balanced : Bool → Text → Prop
  | nil {inside : Bool} : Balanced inside []
  | plain {inside : Bool} {c : Char} {rest : Text} (hc : c ∉ ['\'', '(', '[', ')', ']'])
      (hcomma : c = ',' → inside = true) (hrest : Balanced inside rest) :
      Balanced inside (c :: rest)
  | literal {inside : Bool} {rest : Text} (value : Text) (hrest : Balanced inside rest) :
      Balanced inside ('\'' :: (doubled value ++ '\'' :: rest))
  | bracket {inside : Bool} {opening closing : Char} {content rest : Text}
      (ho : opening = '(' ∨ opening = '[') (hc : closing = ')' ∨ closing = ']')
      (hcontent : Balanced true content) (hrest : Balanced inside rest) :
      Balanced inside (opening :: (content ++ closing :: rest))

section Balanced

variable {inside : Bool} {s : Splitting} {text rest : Text}

theorem append_nil (s : Splitting) : s.append [] = s := by
  rw [Splitting.append, List.append_nil]

theorem append_append (s : Splitting) (first second : Text) :
    (s.append first).append second = s.append (first ++ second) := by
  simp only [Splitting.append, List.append_assoc]

theorem next_plain {c : Char} (hs : s.in_string = false) (hc : c ∉ ['\'', '(', '[', ')', ']'])
    (hcomma : c = ',' → s.depth ≠ 0) : s.next c = some (s.append [c]) := by
  simp only [List.mem_cons, List.not_mem_nil, or_false, not_or] at hc
  obtain ⟨hquote, hround, hsquare, hround', hsquare'⟩ := hc
  rw [Splitting.next, hs, if_neg (by decide), if_neg hquote,
    if_neg (not_or.mpr ⟨hround, hsquare⟩), if_neg (not_or.mpr ⟨hround', hsquare'⟩),
    if_neg fun hboth => hcomma hboth.1 hboth.2]

theorem next_opening {c : Char} (hs : s.in_string = false) (hc : c = '(' ∨ c = '[') :
    s.next c = some ({ s with depth := s.depth + 1 }.append [c]) := by
  rw [Splitting.next, hs, if_neg (by decide), if_neg (by rcases hc with rfl | rfl <;> decide),
    if_pos hc]

theorem next_closing {c : Char} (hs : s.in_string = false) (hc : c = ')' ∨ c = ']') :
    s.next c =
      if s.depth = 0 then none else some ({ s with depth := s.depth - 1 }.append [c]) := by
  rw [Splitting.next, hs, if_neg (by decide), if_neg (by rcases hc with rfl | rfl <;> decide),
    if_neg (by rcases hc with rfl | rfl <;> decide), if_pos hc]

theorem next_closing_inner {c : Char} {depth : ℕ} (hs : s.in_string = false)
    (hc : c = ')' ∨ c = ']') (hdepth : s.depth = depth + 1) :
    s.next c = some ({ s with depth := depth }.append [c]) := by
  rw [next_closing hs hc, hdepth, if_neg (Nat.succ_ne_zero _), Nat.add_sub_cancel]

theorem next_comma (hs : s.in_string = false) (hdepth : s.depth = 0) :
    s.next ',' = some s.close := by
  rw [Splitting.next, hs, if_neg (by decide), if_neg (by decide), if_neg (by decide),
    if_neg (by decide), if_pos ⟨rfl, hdepth⟩]

theorem next_quote (hs : s.in_string = false) :
    s.next '\'' = some ({ s with in_string := true }.append ['\'']) := by
  rw [Splitting.next, hs, if_neg (by decide), if_pos rfl]

/-- The value of a literal is read with the scanner inside the literal. -/
theorem scan_value (value : Text) (hs : s.in_string = true) :
    scan (doubled value ++ rest) s = scan rest (s.append (doubled value)) := by
  induction value generalizing s with
  | nil => rw [doubled, List.flatMap_nil, List.nil_append, append_nil]
  | cons c value ih =>
    rw [doubled, List.flatMap_cons, ← doubled]
    -- an apostrophe of the value stands doubled in the code
    by_cases hc : c = '\''
    · rw [if_pos hc, List.append_assoc, List.cons_append, List.cons_append, List.nil_append,
        scan_doubled hs, ih (s := s.append ['\'', '\'']) hs, append_append]
    · have hnext : s.next c = some (s.append [c]) := by
        rw [next_in_string hs, decide_eq_true hc]
        exact congrArg (fun b => some (Splitting.append { s with in_string := b } [c])) hs.symm
      rw [if_neg hc, List.append_assoc, List.cons_append, List.nil_append, scan_next hnext,
        ih (s := s.append [c]) hs, append_append]

/-- **A balanced text goes into the argument as a whole.** -/
theorem scan_balanced (h : Balanced inside text) (hs : s.in_string = false)
    (hdepth : inside = true → s.depth ≠ 0) :
    scan (text ++ rest) s = scan rest (s.append text) := by
  induction h generalizing s rest with
  | nil => rw [List.nil_append, append_nil]
  | @plain inside c text hc hcomma _ ih =>
    rw [List.cons_append, scan_next (next_plain hs hc fun heq => hdepth (hcomma heq)),
      ih (s := s.append [c]) hs hdepth, append_append]
    rfl
  | @literal inside text value _ ih =>
    have hopen : ({ s with in_string := true }.append ['\'']).in_string = true := rfl
    -- the quote that closes the literal
    have hclose : (({ s with in_string := true }.append ['\'']).append (doubled value)).next '\''
        = some (s.append ('\'' :: (doubled value ++ ['\'']))) := by
      rw [next_in_string rfl]
      simp [Splitting.append, hs]
    rw [List.cons_append, scan_next (next_quote hs), List.append_assoc, scan_value value hopen,
      List.cons_append, scan_next hclose, ih (s := s.append _) hs hdepth, append_append]
    congr 2
    simp
  | @bracket inside opening closing content text ho hc _ _ ihcontent ih =>
    -- inside the brackets a comma is part of the argument
    have hdeep : ({ s with depth := s.depth + 1 }.append [opening]).depth ≠ 0 := Nat.succ_ne_zero _
    have hclose : (({ s with depth := s.depth + 1 }.append [opening]).append content).next closing
        = some (s.append (opening :: (content ++ [closing]))) := by
      have hinner : (({ s with depth := s.depth + 1 }.append [opening]).append content).in_string
          = false := hs
      rw [next_closing_inner hinner hc rfl]
      simp [Splitting.append]
    have hinside : scan (content ++ (closing :: text ++ rest))
        ({ s with depth := s.depth + 1 }.append [opening])
      = scan (closing :: text ++ rest)
        (({ s with depth := s.depth + 1 }.append [opening]).append content) :=
      ihcontent hs fun _ => hdeep
    rw [List.cons_append, scan_next (next_opening hs ho), List.append_assoc, hinside,
      List.cons_append, scan_next hclose, ih (s := s.append _) hs hdepth, append_append]
    congr 2
    simp

end Balanced

/-! ## The arguments of a call -/

/-- From the beginning of an argument on, the arguments are split off one by one up to the
parenthesis that closes the call. -/
theorem scan_arguments {args : List Text} {rest : Text} {s : Splitting}
    (hargs : ∀ a ∈ args, Balanced false a) (hlast : ∀ last ∈ args.getLast?, last ≠ [])
    (hs : s.in_string = false) (hdepth : s.depth = 0) (hcurrent : s.current = []) :
    scan (List.intercalate [','] args ++ ')' :: rest) s = s.args ++ args.map strip := by
  have hend : ∀ s : Splitting, s.in_string = false → s.depth = 0 →
      scan (')' :: rest) s = s.finish := by
    intro s hs hdepth
    rw [scan, next_closing hs (.inl rfl), if_pos hdepth]
  induction args generalizing s with
  | nil =>
    rw [List.intercalate_nil, List.nil_append, hend s hs hdepth, Splitting.finish,
      if_neg (not_not.mpr hcurrent), List.map_nil, List.append_nil]
  | cons a more ih =>
    have ha : Balanced false a := hargs a List.mem_cons_self
    have hread : ∀ rest, scan (a ++ rest) s = scan rest (s.append a) := fun rest =>
      scan_balanced ha hs fun h => by cases h
    have happ : (s.append a).current = a := by
      rw [Splitting.append, hcurrent, List.nil_append]
    cases more with
    | nil =>
      -- the last argument is taken by `finish`, if it has anything
      have hne : a ≠ [] := hlast a rfl
      rw [List.intercalate_singleton, hread, hend (s.append a) hs hdepth, Splitting.finish,
        if_pos (by rwa [happ]), Splitting.close, happ]
      rfl
    | cons b more =>
      -- an argument that a comma ends is taken at once, even an empty one
      have hsplit : List.intercalate [','] (a :: b :: more) ++ ')' :: rest
          = a ++ ',' :: (List.intercalate [','] (b :: more) ++ ')' :: rest) := by
        rw [List.intercalate_cons_cons]
        simp
      rw [hsplit, hread, scan_next (next_comma (s := s.append a) hs hdepth),
        ih (fun x hx => hargs x (List.mem_cons_of_mem _ hx))
          (fun last h => hlast last (by rwa [List.getLast?_cons_cons])) (s := (s.append a).close)
          hs hdepth rfl, Splitting.close, happ, List.append_assoc]
      rfl

/-- **The splitter returns the arguments of a call, and stays within its bound.** What stands
before and behind the arguments is not looked at. Whatever the text, the loop ends, no read
raises, and the reads at other positions than those up to the bound have no part in the
result: they may as well raise. -/
theorem call_arguments_split :
    (∀ (before rest : Text) (args : List Text), (∀ a ∈ args, Balanced false a) →
      (∀ last ∈ args.getLast?, last ≠ []) →
      (List.intercalate [','] args).length < MAX_ARGUMENT_SPAN →
        _split_args (before ++ (List.intercalate [','] args ++ ')' :: rest)) before.length
          = .ok (args.map strip)) ∧
    ∀ (call_text : Text) (start : ℕ), (∃ args, _split_args call_text start = .ok args) ∧
      ∀ read : ℕ → Except AppException Char,
        (∀ index, start ≤ index → index < call_text.length → index < start + MAX_ARGUMENT_SPAN →
          read index = charAt call_text index) →
        splitFrom read (scanLimit call_text start) start {} = _split_args call_text start := by
  constructor
  · intro before rest args hargs hlast hspan
    -- the parenthesis that closes the call is in front of the bound
    have hwindow : windowOf (before ++ (List.intercalate [','] args ++ ')' :: rest)) before.length
        = List.intercalate [','] args ++ ')' ::
          rest.take (MAX_ARGUMENT_SPAN - (List.intercalate [','] args).length - 1) := by
      rw [windowOf, List.drop_left, List.take_append, List.take_of_length_le hspan.le]
      congr 1
      rw [← List.take_succ_cons]
      congr 1
      omega
    rw [split_args_eq, hwindow, scan_arguments hargs hlast rfl rfl rfl]
    rfl
  · intro call_text start
    refine ⟨⟨_, split_args_eq call_text start⟩, fun read hread => ?_⟩
    rw [split_args_eq]
    apply splitFrom_eq (length_windowOf call_text start)
    intro i c hc
    have hlt : i < (windowOf call_text start).length := (List.getElem?_eq_some_iff.mp hc).1
    rw [windowOf, List.length_take, List.length_drop] at hlt
    rw [hread (start + i) (Nat.le_add_right _ _) (by omega) (by omega)]
    exact charAt_windowOf hc

/-- `call_arguments_split` at `f(1, 'a,b)', g(x,y));`. -/
theorem nested_call_split :
    _split_args (['f', '('] ++ (List.intercalate [','] [['1'], [' ', '\'', 'a', ',', ')', '\''],
        [' ', 'g', '(', 'x', ',', 'y', ')']] ++ [')', ';'])) 2
      = .ok [['1'], ['\'', 'a', ',', ')', '\''], ['g', '(', 'x', ',', 'y', ')']] := by
  have hone : Balanced false ['1'] := .plain (by decide) (by decide) .nil
  have hliteral : Balanced false [' ', '\'', 'a', ',', ')', '\''] :=
    .plain (by decide) (by decide) (.literal ['a', ',', ')'] .nil)
  have hinside : Balanced true ['x', ',', 'y'] :=
    .plain (by decide) (by decide) (.plain (by decide) (by decide)
      (.plain (by decide) (by decide) .nil))
  have hcall : Balanced false [' ', 'g', '(', 'x', ',', 'y', ')'] :=
    .plain (by decide) (by decide) (.plain (by decide) (by decide)
      (.bracket (.inl rfl) (.inl rfl) hinside .nil))
  apply call_arguments_split.1 ['f', '('] [';']
    [['1'], [' ', '\'', 'a', ',', ')', '\''], [' ', 'g', '(', 'x', ',', 'y', ')']]
  · simp only [List.mem_cons, List.not_mem_nil, or_false, forall_eq_or_imp, forall_eq]
    exact ⟨hone, hliteral, hcall⟩
  · decide
  · decide

/-! ## What an argument names -/

/-- `value.replace("''", "'")`. -/
def undoubled : Text → Text
  | '\'' :: '\'' :: rest => '\'' :: undoubled rest
  | c :: rest => c :: undoubled rest
  | [] => []

/-- `_literal`: the value, and whether it is a literal. -/
def _literal (value : Text) : Text × Bool :=
  let value := strip value
  if 2 ≤ value.length ∧ value.head? = some '\'' ∧ value.getLast? = some '\'' then
    (undoubled value.tail.dropLast, true)
  else (value, false)

end PaCopilot.ti.parser

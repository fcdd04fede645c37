/-
Sliding windows: at most so many hits in any stretch of time.

Which hits count at a time is a [`Horizon`]: what counts later counted before, and with a hit
every later one. Being less than a window old is one, and so is being so by an arithmetic that
rounds.

Whoever enforces a limit keeps a log of hits and drops from it what is too old to count. What it
dropped is not lost for the argument: from some time on the log and the whole history have the
same hits that still count ([`Keeps`]), and that is all a decision looks at. That no stretch of
the history is over its limit is then a matter of the moments at which a hit was added
([`capped_append_iff`]).
-/
import Mathlib.Algebra.Order.Group.Defs
import Mathlib.Algebra.Order.Group.Unbundled.Basic
import Mathlib.Data.List.MinMax
import Mathlib.Tactic.Common

set_option autoImplicit false

namespace PaCopilot.Window

/-- Which hits count at a time: `counts now hit`. -/
structure Horizon (T : Type) [LinearOrder T] where
  counts : T → T → Bool
  earlier : ∀ {now after hit : T}, now ≤ after → counts after hit = true → counts now hit = true
  younger : ∀ {now hit other : T}, hit ≤ other → counts now hit = true → counts now other = true

/-- The hits that are less than a window old. -/
def Horizon.within {T : Type} [AddCommGroup T] [LinearOrder T] [IsOrderedAddMonoid T] (window : T) :
    Horizon T where
  counts now hit := now - hit < window
  earlier hle h := by
    rw [decide_eq_true_eq] at h ⊢
    exact lt_of_le_of_lt (sub_le_sub_right hle _) h
  younger hle h := by
    rw [decide_eq_true_eq] at h ⊢
    exact lt_of_le_of_lt (sub_le_sub_left hle _) h

variable {T : Type} [LinearOrder T] (horizon : Horizon T)

/-- The hits that still count. -/
def recent (now : T) (hits : List T) : List T := hits.filter (horizon.counts now)

/-- The hits without those at the front that do not count any more. -/
def expire (now : T) (hits : List T) : List T := hits.dropWhile fun hit => !horizon.counts now hit

/-- At no time do more hits count than the limit. -/
def Capped (limit : ℕ) (history : List T) : Prop :=
  ∀ t, (history.filter fun hit => hit ≤ t && horizon.counts t hit).length ≤ limit

section Recent

variable {horizon} {now after : T} {hits log history : List T} {limit : ℕ}

theorem mem_recent {hit : T} :
    hit ∈ recent horizon now hits ↔ hit ∈ hits ∧ horizon.counts now hit = true :=
  List.mem_filter

theorem recent_append {more : List T} :
    recent horizon now (hits ++ more) = recent horizon now hits ++ recent horizon now more :=
  List.filter_append ..

theorem recent_eq_nil (h : ∀ hit ∈ hits, horizon.counts now hit = false) :
    recent horizon now hits = [] := by
  rw [recent, List.filter_eq_nil_iff]
  intro hit hmem
  rw [h hit hmem]
  exact Bool.false_ne_true

/-- What counts at a time counted at any time before. -/
theorem recent_recent (h : now ≤ after) :
    recent horizon after (recent horizon now hits) = recent horizon after hits := by
  rw [recent, recent, List.filter_filter, recent]
  apply List.filter_congr
  intro hit _
  by_cases hafter : horizon.counts after hit = true
  · rw [hafter, horizon.earlier h hafter]
    rfl
  · rw [Bool.eq_false_iff.mpr hafter, Bool.false_and]

/-- In the order of their times, the hits that do not count are all at the front. -/
theorem expire_eq_recent (h : hits.Pairwise (· ≤ ·)) :
    expire horizon now hits = recent horizon now hits := by
  induction hits with
  | nil => rfl
  | cons hit rest ih =>
    rw [List.pairwise_cons] at h
    rw [expire, List.dropWhile_cons]
    by_cases hyoung : horizon.counts now hit = true
    · rw [hyoung, if_neg (by decide), recent, eq_comm, List.filter_eq_self]
      intro other hother
      rcases List.mem_cons.mp hother with rfl | hmem
      · exact hyoung
      · exact horizon.younger (h.1 other hmem) hyoung
    · rw [Bool.eq_false_iff.mpr hyoung, if_pos (by decide), ← expire, ih h.2, recent, recent,
        List.filter_cons, if_neg hyoung]

/-! ## The log and the history -/

/-- From `now` on, the hits of the log that count are those of the history. -/
structure Keeps (horizon : Horizon T) (now : T) (log history : List T) : Prop where
  ordered : log.Pairwise (· ≤ ·)
  past : ∀ hit ∈ log, hit ≤ now
  same : ∀ t, now ≤ t → recent horizon t log = recent horizon t history

theorem keeps_nil : Keeps horizon now [] [] :=
  ⟨List.Pairwise.nil, fun _ h => absurd h List.not_mem_nil, fun _ _ => rfl⟩

theorem Keeps.later (h : Keeps horizon now log history) (hle : now ≤ after) :
    Keeps horizon after log history where
  ordered := h.ordered
  past hit hmem := (h.past hit hmem).trans hle
  same t ht := h.same t (hle.trans ht)

/-- What a decision looks at. -/
theorem Keeps.expire_eq (h : Keeps horizon now log history) (hle : now ≤ after) :
    expire horizon after log = recent horizon after history := by
  rw [expire_eq_recent h.ordered, h.same after hle]

theorem Keeps.expire (h : Keeps horizon now log history) :
    Keeps horizon now (expire horizon now log) history := by
  rw [expire_eq_recent h.ordered]
  constructor
  · exact h.ordered.filter _
  · exact fun hit hmem => h.past hit (mem_recent.mp hmem).1
  · intro t ht
    rw [recent_recent ht, h.same t ht]

/-- A hit is added to both. -/
theorem Keeps.hit (h : Keeps horizon now log history) :
    Keeps horizon now (log ++ [now]) (history ++ [now]) := by
  constructor
  · rw [List.pairwise_append]
    refine ⟨h.ordered, List.pairwise_singleton _ _, fun hit hmem last hlast => ?_⟩
    rw [List.mem_singleton.mp hlast]
    exact h.past hit hmem
  · intro hit hmem
    rcases List.mem_append.mp hmem with hmem | hmem
    · exact h.past hit hmem
    · rw [List.mem_singleton.mp hmem]
  · intro t ht
    rw [recent_append, recent_append, h.same t ht]

/-- A log of hits that do not count any more may be thrown away. -/
theorem Keeps.clear (h : Keeps horizon now log history)
    (hold : ∀ hit ∈ log, horizon.counts now hit = false) : Keeps horizon now [] history := by
  refine ⟨List.Pairwise.nil, fun _ hmem => absurd hmem List.not_mem_nil, fun t ht => ?_⟩
  rw [← h.same t ht]
  refine (recent_eq_nil fun hit hmem => ?_).symm
  by_contra hyoung
  rw [Bool.not_eq_false] at hyoung
  have hcounts := horizon.earlier ht hyoung
  rw [hold hit hmem] at hcounts
  exact Bool.false_ne_true hcounts

/-! ## The limit -/

theorem capped_nil : Capped horizon limit [] := fun _ => Nat.zero_le _

/-- A part of a history is under the limit of the whole. -/
theorem Capped.sublist {part : List T} (h : Capped horizon limit history)
    (hpart : part.Sublist history) : Capped horizon limit part :=
  fun t => ((hpart.filter _).length_le).trans (h t)

/-- The hits that count at a time, once none is later than it. -/
theorem filter_eq_recent (h : ∀ hit ∈ history, hit ≤ now) :
    (history.filter fun hit => hit ≤ now && horizon.counts now hit)
      = recent horizon now history := by
  apply List.filter_congr
  intro hit hmem
  rw [decide_eq_true (h hit hmem), Bool.true_and]

/-- **A history stays under its limit exactly if it was, and had room when the hit was
added**, if a hit counts at its own time at all. -/
theorem capped_append_iff (h : ∀ hit ∈ history, hit ≤ now) :
    Capped horizon limit (history ++ [now]) ↔
      Capped horizon limit history ∧
        (horizon.counts now now = true → (recent horizon now history).length < limit) := by
  constructor
  · intro hcapped
    refine ⟨fun t => ?_, fun hself => ?_⟩
    · have hle := hcapped t
      rw [List.filter_append, List.length_append] at hle
      exact (Nat.le_add_right _ _).trans hle
    · have hle := hcapped now
      have hlast : (decide (now ≤ now) && horizon.counts now now) = true := by
        rw [hself, decide_eq_true le_rfl]
        rfl
      rw [List.filter_append, List.filter_cons, if_pos hlast, filter_eq_recent h,
        List.length_append] at hle
      exact hle
  · rintro ⟨hcapped, hroom⟩ t
    rw [List.filter_append, List.length_append]
    by_cases hlast : (decide (now ≤ t) && horizon.counts t now) = true
    · rw [Bool.and_eq_true, decide_eq_true_eq] at hlast
      -- what counts at `t` counted when the hit was added
      have hsub : (history.filter fun hit => hit ≤ t && horizon.counts t hit).length
          ≤ (recent horizon now history).length := by
        rw [recent, ← List.countP_eq_length_filter, ← List.countP_eq_length_filter]
        apply List.countP_mono_left
        intro hit _ hcounts
        rw [Bool.and_eq_true] at hcounts
        exact horizon.earlier hlast.1 hcounts.2
      have hlt := hroom (horizon.earlier hlast.1 hlast.2)
      have hone : ([now].filter fun hit => hit ≤ t && horizon.counts t hit).length ≤ 1 :=
        List.length_filter_le _ _
      omega
    · rw [List.filter_cons, if_neg hlast]
      exact hcapped t

/-- **A stretch of a history under its limit**: some of its hits, of which each counts when a
later one of them comes. -/
theorem Capped.stretch (h : Capped horizon limit history) (p : T → Bool)
    (hp : ∀ last ∈ history, p last = true → ∀ hit ∈ history, p hit = true → hit ≤ last →
      horizon.counts last hit = true) : (history.filter p).length ≤ limit := by
  rcases hlast : (history.filter p).argmax id with _ | last
  · rw [List.argmax_eq_none.mp hlast]
    exact Nat.zero_le _
  have hmem := List.mem_filter.mp (List.argmax_mem hlast)
  refine le_trans ?_ (h last)
  rw [← List.countP_eq_length_filter, ← List.countP_eq_length_filter]
  apply List.countP_mono_left
  intro hit hhit hphit
  have hle : hit ≤ last := List.le_of_mem_argmax (List.mem_filter.mpr ⟨hhit, hphit⟩) hlast
  rw [decide_eq_true hle, Bool.true_and]
  exact hp last hmem.1 hmem.2 hit hhit hphit hle

/-- A history under its limit is so from any time on, up to where that time counts no more. -/
theorem Capped.from (h : Capped horizon limit history) (t : T) :
    (history.filter fun hit => t ≤ hit && horizon.counts hit t).length ≤ limit := by
  apply h.stretch
  intro last _ hplast hit _ hphit _
  rw [Bool.and_eq_true, decide_eq_true_eq] at hplast hphit
  exact horizon.younger hphit.1 hplast.2

/-- It is under the limit of every horizon that counts no more of its hits when one comes. -/
theorem Capped.of_counts {other : Horizon T} (h : Capped horizon limit history)
    (hcounts : ∀ last ∈ history, ∀ hit ∈ history, hit ≤ last → other.counts last hit = true →
      horizon.counts last hit = true) : Capped other limit history := by
  intro t
  apply h.stretch
  intro last hlast hplast hit hhit hphit hle
  rw [Bool.and_eq_true, decide_eq_true_eq] at hplast hphit
  exact hcounts last hlast hit hhit hle (other.earlier hplast.1 hphit.2)

/-- **When a full log has room again**: once its oldest hit does not count any more. -/
theorem room_again_iff {oldest : T} {rest : List T}
    (hordered : (oldest :: rest).Pairwise (· ≤ ·)) (hfull : (oldest :: rest).length = limit) :
    (recent horizon now (oldest :: rest)).length < limit ↔ horizon.counts now oldest = false := by
  constructor
  · intro hroom
    by_contra hyoung
    rw [Bool.not_eq_false] at hyoung
    have hall : recent horizon now (oldest :: rest) = oldest :: rest := by
      rw [recent, List.filter_eq_self]
      intro hit hmem
      rw [List.pairwise_cons] at hordered
      rcases List.mem_cons.mp hmem with rfl | hmem
      · exact hyoung
      · exact horizon.younger (hordered.1 hit hmem) hyoung
    rw [hall, hfull] at hroom
    exact lt_irrefl _ hroom
  · intro hold
    have hdrop : recent horizon now (oldest :: rest) = recent horizon now rest := by
      rw [recent, recent, List.filter_cons, if_neg (by rw [hold]; exact Bool.false_ne_true)]
    rw [hdrop, ← hfull, List.length_cons]
    exact Nat.lt_succ_of_le (List.length_filter_le _ _)

end Recent

end PaCopilot.Window

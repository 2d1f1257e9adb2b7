import AGame.Base.Ranking
import AGame.Brain.Commentary

/-!
# The bet a preview should name (`a-game-brain/evals/baseline.py`)

The scorer ranks five markets by their distance from the league baseline and
turns two of them round when they fall short of it. The prompt shows seven
markets with seven baselines. Rounding half to even treats a share and its
complement alike (`percent_complement`), so the two tell the same story.
-/

namespace AGame.Brain

open Base Engine Poisson

section Source

variable (R : Type) [Field R]

/-- `BASELINES` -/
def BASELINES : List (String × R) :=
  [("Home win", 0.45), ("Draw", 0.27), ("Away win", 0.28), ("Over 2.5 goals", 0.52),
    ("Both teams to score", 0.48)]

/-- `INVERSE` -/
def INVERSE : List (String × String) :=
  [("Over 2.5 goals", "Under 2.5 goals"), ("Both teams to score", "Both teams to score - no")]

/-- `TOLERANCE` -/
def TOLERANCE : R := 0.02

variable {R} [LinearOrder R] [FloorRing R]

/-- `round(x, d)`, as a number. -/
def pyRound (x : R) (d : ℕ) : R := (roundDecimal d x : R) / ((10 ^ d : ℕ) : R)

/-- The dictionary `shown` of `departures`. -/
def shown (probabilities : ScoreProbabilities R) : List (String × R) :=
  [("Home win", pyRound probabilities.probHome 2), ("Draw", pyRound probabilities.probDraw 2),
    ("Away win", pyRound probabilities.probAway 2),
    ("Over 2.5 goals", pyRound probabilities.over25 2),
    ("Both teams to score", pyRound probabilities.btts 2)]

/-- One turn of the loop: at most one row, and `none` for a market without a
baseline. -/
def departure (entry : String × R) : Option (List (String × R)) := do
  let (market, value) := entry
  let baseline ← (BASELINES R).lookup market
  let delta := value - baseline
  if delta < 0 then
    match INVERSE.lookup market with
    | none => return []
    | some inverse => return [(inverse, pyRound |delta| 4)]
  else return [(market, pyRound |delta| 4)]

/-- `departures`; `none` is an exception, here and below. -/
def departures (probabilities : ScoreProbabilities R) : Option (List (String × R)) := do
  let rows ← (shown probabilities).mapM departure
  return ranked Prod.snd rows.flatten

/-- `expected_bet` -/
def expectedBet (probabilities : ScoreProbabilities R) : Option String := do
  let rows ← departures probabilities
  let best ← rows.head?
  return best.1

/-- `acceptable` -/
def acceptable (probabilities : ScoreProbabilities R) : Option (Finset String) := do
  let rows ← departures probabilities
  let best ← rows.head?
  return ((rows.filter fun row => decide (best.2 - row.2 ≤ TOLERANCE R)).map Prod.fst).toFinset

end Source

/-! ## What the prompt shows -/

/-- The seven markets of `_user_prompt`, each with the percentage it shows for it
and the baseline its last paragraph gives. -/
def promptMarkets (prompt : UserPrompt) : List (String × ℤ × ℤ) :=
  [("Home win", prompt.homeWin, 45), ("Draw", prompt.draw, 27), ("Away win", prompt.awayWin, 28),
    ("Over 2.5 goals", prompt.over25, 52), ("Under 2.5 goals", prompt.under25, 48),
    ("Both teams to score", prompt.btts, 48), ("Both teams to score - no", prompt.bttsNo, 52)]

/-- How far a market is above its baseline, in percentage points. -/
def IsLead (prompt : UserPrompt) (market : String) (lead : ℤ) : Prop :=
  ∃ percentage baseline, (market, percentage, baseline) ∈ promptMarkets prompt ∧
    lead = percentage - baseline

theorem promptMarkets_names (prompt : UserPrompt) :
    (promptMarkets prompt).map Prod.fst = SUGGESTED_BETS :=
  rfl

variable {R : Type} [Field R] [LinearOrder R] [FloorRing R] [IsStrictOrderedRing R]

/-- A share and its complement are shown as percentages that add up. -/
theorem percent_complement (x : R) : percent x + percent (1 - x) = 100 := by
  have hcomplement : (1 - x) * 10 ^ 2 = ((100 : ℤ) : R) - x * 10 ^ 2 := by
    push_cast
    ring
  rw [percent, percent, roundDecimal_eq, roundDecimal_eq, hcomplement,
    roundHalfEven_even_sub (by decide)]
  omega

omit [IsStrictOrderedRing R] in
theorem pyRound_two (x : R) : pyRound x 2 = (percent x : R) / 100 := by
  rw [pyRound, percent]
  norm_num

/-- A whole number of percentage points has no more than four decimals. -/
theorem pyRound_four (n : ℤ) : pyRound ((n : R) / 100) 4 = (n : R) / 100 := by
  have hscale : (n : R) / 100 = ((100 * n : ℤ) : R) / 10 ^ 4 := by
    push_cast
    ring
  rw [pyRound, hscale, roundDecimal_div]
  push_cast
  ring

/-! ## One row -/

/-- One market of the scorer, at `k` percent against a baseline of `b`. -/
theorem departure_eq {market : String} {b : ℤ}
    (hb : (BASELINES R).lookup market = some ((b : R) / 100)) (k : ℤ) :
    departure (market, (k : R) / 100) =
      some (if k < b then ((INVERSE.lookup market).map fun inverse =>
          (inverse, ((b - k : ℤ) : R) / 100)).toList
        else [(market, ((k - b : ℤ) : R) / 100)]) := by
  have hdelta : (k : R) / 100 - (b : R) / 100 = ((k - b : ℤ) : R) / 100 := by
    push_cast
    ring
  have habs : |((k - b : ℤ) : R) / 100| = ((|k - b| : ℤ) : R) / 100 := by
    rw [abs_div, Int.cast_abs, abs_of_pos (by norm_num : (0 : R) < 100)]
  simp only [departure, hb, Option.bind_eq_bind, Option.bind_some, hdelta, habs, pyRound_four]
  by_cases hlow : k < b
  · have hneg : ((k - b : ℤ) : R) / 100 < 0 := by
      apply div_neg_of_neg_of_pos
      · exact Int.cast_lt_zero.mpr (sub_neg.mpr hlow)
      · norm_num
    rw [if_pos hneg, if_pos hlow, abs_of_neg (sub_neg.mpr hlow), neg_sub]
    cases INVERSE.lookup market with
    | none => rfl
    | some inverse => rfl
  · have hnonneg : 0 ≤ k - b := by omega
    have hpos : ¬ ((k - b : ℤ) : R) / 100 < 0 := by
      rw [not_lt]
      apply div_nonneg
      · exact Int.cast_nonneg hnonneg
      · norm_num
    rw [if_neg hpos, if_neg hlow, abs_of_nonneg hnonneg]
    rfl

/-! ## All rows -/

/-- The five markets of the scorer: the name, the percentage shown, the baseline. -/
def scored (probabilities : ScoreProbabilities R) : List (String × ℤ × ℤ) :=
  [("Home win", percent probabilities.probHome, 45), ("Draw", percent probabilities.probDraw, 27),
    ("Away win", percent probabilities.probAway, 28),
    ("Over 2.5 goals", percent probabilities.over25, 52),
    ("Both teams to score", percent probabilities.btts, 48)]

/-- The row of a market in whole percentage points, or none. -/
def pointsRow (entry : String × ℤ × ℤ) : Option (String × ℤ) :=
  if entry.2.1 < entry.2.2 then
    (INVERSE.lookup entry.1).map fun inverse => (inverse, entry.2.2 - entry.2.1)
  else some (entry.1, entry.2.1 - entry.2.2)

/-- `departures` in whole percentage points. -/
def pointsRows (probabilities : ScoreProbabilities R) : List (String × ℤ) :=
  (scored probabilities).filterMap pointsRow

/-- A row as `departures` has it. -/
def asDecimal (row : String × ℤ) : String × R := (row.1, (row.2 : R) / 100)

omit [IsStrictOrderedRing R] in
theorem lookup_BASELINES (probabilities : ScoreProbabilities R) :
    ∀ entry ∈ scored probabilities,
      (BASELINES R).lookup entry.1 = some ((entry.2.2 : R) / 100) := by
  intro entry hentry
  simp only [scored, List.mem_cons, List.not_mem_nil, or_false] at hentry
  rcases hentry with rfl | rfl | rfl | rfl | rfl
  · exact congrArg some (by norm_num : (0.45 : R) = ((45 : ℤ) : R) / 100)
  · exact congrArg some (by norm_num : (0.27 : R) = ((27 : ℤ) : R) / 100)
  · exact congrArg some (by norm_num : (0.28 : R) = ((28 : ℤ) : R) / 100)
  · exact congrArg some (by norm_num : (0.52 : R) = ((52 : ℤ) : R) / 100)
  · exact congrArg some (by norm_num : (0.48 : R) = ((48 : ℤ) : R) / 100)

theorem departure_scored {probabilities : ScoreProbabilities R} {entry : String × ℤ × ℤ}
    (hentry : entry ∈ scored probabilities) :
    departure (entry.1, (entry.2.1 : R) / 100) =
      some ((pointsRow entry).map asDecimal).toList := by
  rw [departure_eq (lookup_BASELINES probabilities entry hentry), pointsRow]
  split_ifs
  · rw [Option.map_map]
    rfl
  · rfl

omit [IsStrictOrderedRing R] in
theorem shown_eq (probabilities : ScoreProbabilities R) :
    shown probabilities =
      (scored probabilities).map fun entry => (entry.1, (entry.2.1 : R) / 100) := by
  simp only [shown, pyRound_two]
  rfl

theorem departures_eq (probabilities : ScoreProbabilities R) :
    departures probabilities =
      some (ranked Prod.snd ((pointsRows probabilities).map asDecimal)) := by
  have hrows : ∀ entries : List (String × ℤ × ℤ),
      (∀ entry ∈ entries, entry ∈ scored probabilities) →
      (entries.map fun entry => (entry.1, (entry.2.1 : R) / 100)).mapM departure =
        some (entries.map fun entry => ((pointsRow entry).map asDecimal).toList) := by
    intro entries hentries
    induction entries with
    | nil => rfl
    | cons entry entries ih =>
        rw [List.map_cons, List.mapM_cons, departure_scored (hentries entry List.mem_cons_self),
          ih fun e he => hentries e (List.mem_cons_of_mem _ he)]
        rfl
  have hflat : ((scored probabilities).map fun entry =>
      ((pointsRow entry).map (asDecimal (R := R))).toList).flatten =
        (pointsRows probabilities).map asDecimal := by
    rw [pointsRows, List.map_filterMap]
    generalize scored probabilities = entries
    induction entries with
    | nil => rfl
    | cons entry entries ih =>
        rw [List.map_cons, List.flatten_cons, ih]
        cases hrow : pointsRow entry with
        | none => simp [hrow]
        | some row => simp [hrow]
  rw [departures, shown_eq, hrows _ fun _ h => h, ← hflat]
  rfl

/-! ## The rows and the prompt -/

section

omit [IsStrictOrderedRing R]

variable {probabilities : ScoreProbabilities R}

/-- A market that is not below its baseline has its row. -/
theorem row_above {market : String} {k b : ℤ} (hentry : (market, k, b) ∈ scored probabilities)
    (h : b ≤ k) : (market, k - b) ∈ pointsRows probabilities := by
  refine List.mem_filterMap.mpr ⟨_, hentry, ?_⟩
  rw [pointsRow, if_neg h.not_gt]

/-- A market below its baseline leaves its row to its inverse. -/
theorem row_below {market inverse : String} {k b : ℤ}
    (hentry : (market, k, b) ∈ scored probabilities) (h : k < b)
    (hinverse : INVERSE.lookup market = some inverse) :
    (inverse, b - k) ∈ pointsRows probabilities := by
  refine List.mem_filterMap.mpr ⟨_, hentry, ?_⟩
  rw [pointsRow, if_pos h, hinverse]
  rfl

/-- A market with an inverse has a row on either side of its baseline. -/
theorem row_either_side {market inverse : String} {k b : ℤ}
    (hentry : (market, k, b) ∈ scored probabilities)
    (hinverse : INVERSE.lookup market = some inverse) :
    ∃ row ∈ pointsRows probabilities, k - b ≤ row.2 ∧ b - k ≤ row.2 := by
  rcases le_or_gt b k with h | h
  · exact ⟨_, row_above hentry h, le_rfl, by omega⟩
  · exact ⟨_, row_below hentry h hinverse, by omega, le_rfl⟩

/-- Where the names of a market's rows come from. -/
theorem pointsRow_name {entry : String × ℤ × ℤ} {row : String × ℤ}
    (h : pointsRow entry = some row) :
    row.1 ∈ entry.1 :: (INVERSE.lookup entry.1).toList := by
  unfold pointsRow at h
  split_ifs at h
  · obtain ⟨inverse, hinverse, rfl⟩ := Option.map_eq_some_iff.mp h
    rw [hinverse]
    exact List.mem_cons_of_mem _ List.mem_cons_self
  · rw [← Option.some.inj h]
    exact List.mem_cons_self

variable (probabilities) in
/-- No market has two rows. -/
theorem pointsRows_nodup : ((pointsRows probabilities).map Prod.fst).Nodup := by
  have hnames : ((scored probabilities).map Prod.fst).Pairwise fun name name' =>
      ∀ x ∈ name :: (INVERSE.lookup name).toList,
        x ∉ name' :: (INVERSE.lookup name').toList := by
    change ["Home win", "Draw", "Away win", "Over 2.5 goals", "Both teams to score"].Pairwise _
    decide
  rw [List.Nodup, List.pairwise_map, pointsRows, List.pairwise_filterMap]
  refine (List.pairwise_map.mp hnames).imp ?_
  intro entry entry' hapart row hrow row' hrow' heq
  have hname' := pointsRow_name hrow'
  rw [← heq] at hname'
  exact hapart _ (pointsRow_name hrow) hname'

end

variable (m : Match) (probabilities : ScoreProbabilities R)

/-- A row is a market of the prompt with its lead, which is not negative. -/
theorem pointsRows_lead {row : String × ℤ} (hrow : row ∈ pointsRows probabilities) :
    0 ≤ row.2 ∧ IsLead (userPrompt m probabilities) row.1 row.2 := by
  have hover : percent probabilities.over25 + (userPrompt m probabilities).under25 = 100 :=
    percent_complement probabilities.over25
  have hbtts : percent probabilities.btts + (userPrompt m probabilities).bttsNo = 100 :=
    percent_complement probabilities.btts
  obtain ⟨entry, hentry, hrow⟩ := List.mem_filterMap.mp hrow
  unfold pointsRow at hrow
  simp only [scored, List.mem_cons, List.not_mem_nil, or_false] at hentry
  split_ifs at hrow with hlow
  · rcases hentry with rfl | rfl | rfl | rfl | rfl
    · cases hrow
    · cases hrow
    · cases hrow
    · obtain rfl : ("Under 2.5 goals", 52 - percent probabilities.over25) = row :=
        Option.some.inj hrow
      exact ⟨sub_nonneg.mpr hlow.le, (userPrompt m probabilities).under25, 48,
        by simp [promptMarkets], by simp only; omega⟩
    · obtain rfl : ("Both teams to score - no", 48 - percent probabilities.btts) = row :=
        Option.some.inj hrow
      exact ⟨sub_nonneg.mpr hlow.le, (userPrompt m probabilities).bttsNo, 52,
        by simp [promptMarkets], by simp only; omega⟩
  · obtain rfl := Option.some.inj hrow
    refine ⟨sub_nonneg.mpr (not_lt.mp hlow), entry.2.1, entry.2.2, ?_, rfl⟩
    rcases hentry with rfl | rfl | rfl | rfl | rfl
    · simp [promptMarkets, userPrompt]
    · simp [promptMarkets, userPrompt]
    · simp [promptMarkets, userPrompt]
    · simp [promptMarkets, userPrompt]
    · simp [promptMarkets, userPrompt]

/-- No market of the prompt leads every row. -/
theorem lead_le_row {market : String} {lead : ℤ}
    (h : IsLead (userPrompt m probabilities) market lead) :
    ∃ row ∈ pointsRows probabilities, lead ≤ row.2 := by
  have hover : percent probabilities.over25 + (userPrompt m probabilities).under25 = 100 :=
    percent_complement probabilities.over25
  have hbtts : percent probabilities.btts + (userPrompt m probabilities).bttsNo = 100 :=
    percent_complement probabilities.btts
  obtain ⟨overRow, hoverRow, hoverLead, hunderLead⟩ := row_either_side
    (show ("Over 2.5 goals", percent probabilities.over25, 52) ∈ scored probabilities by
      simp [scored]) rfl
  obtain ⟨bttsRow, hbttsRow, hyesLead, hnoLead⟩ := row_either_side
    (show ("Both teams to score", percent probabilities.btts, 48) ∈ scored probabilities by
      simp [scored]) rfl
  have hnonneg := (pointsRows_lead m probabilities hoverRow).1
  -- a market of the first three is either above its baseline or below every row
  have hresult : ∀ (market : String) {k b : ℤ}, (market, k, b) ∈ scored probabilities →
      ∃ row ∈ pointsRows probabilities, k - b ≤ row.2 := by
    intro market k b hentry
    rcases le_or_gt b k with habove | hbelow
    · exact ⟨_, row_above hentry habove, le_rfl⟩
    · exact ⟨overRow, hoverRow, by omega⟩
  obtain ⟨percentage, baseline, hmem, rfl⟩ := h
  simp only [promptMarkets, List.mem_cons, List.not_mem_nil, or_false, Prod.mk.injEq] at hmem
  rcases hmem with ⟨-, rfl, rfl⟩ | ⟨-, rfl, rfl⟩ | ⟨-, rfl, rfl⟩ | ⟨-, rfl, rfl⟩ | ⟨-, rfl, rfl⟩ |
    ⟨-, rfl, rfl⟩ | ⟨-, rfl, rfl⟩
  · exact hresult "Home win" (by simp [scored, userPrompt])
  · exact hresult "Draw" (by simp [scored, userPrompt])
  · exact hresult "Away win" (by simp [scored, userPrompt])
  · exact ⟨overRow, hoverRow, hoverLead⟩
  · exact ⟨overRow, hoverRow, by omega⟩
  · exact ⟨bttsRow, hbttsRow, hyesLead⟩
  · exact ⟨bttsRow, hbttsRow, by omega⟩

/-! ## The ranking -/

/-- The scorer's verdict on some numbers against what the prompt shows of them. -/
structure ScorerAgrees : Prop where
  over_under : (userPrompt m probabilities).over25 + (userPrompt m probabilities).under25 = 100
  yes_no : (userPrompt m probabilities).btts + (userPrompt m probabilities).bttsNo = 100
  named_once : ∃ rows, departures probabilities = some rows ∧ rows ≠ [] ∧
    (rows.map Prod.fst).Nodup ∧ ∀ row ∈ rows, row.1 ∈ SUGGESTED_BETS
  expected : ∃ bet best, expectedBet probabilities = some bet ∧
    IsLead (userPrompt m probabilities) bet best ∧ 0 ≤ best ∧
    (∀ market lead, IsLead (userPrompt m probabilities) market lead → lead ≤ best) ∧
    ∃ bets, acceptable probabilities = some bets ∧ bet ∈ bets ∧
      ∀ market ∈ bets, ∃ lead, IsLead (userPrompt m probabilities) market lead ∧
        ((best - lead : ℤ) : R) / 100 ≤ TOLERANCE R

omit [FloorRing R] [IsStrictOrderedRing R] in
theorem IsLead.suggested {prompt : UserPrompt} {market : String} {lead : ℤ}
    (h : IsLead prompt market lead) : market ∈ SUGGESTED_BETS := by
  obtain ⟨percentage, baseline, hmem, -⟩ := h
  rw [← promptMarkets_names prompt]
  exact List.mem_map_of_mem hmem

/-- The rows of `departures`, the best one first. -/
theorem departures_ranked : ∃ first rest, departures probabilities = some (first :: rest) ∧
    ((first :: rest).map Prod.fst).Nodup ∧
    (∀ points ∈ pointsRows probabilities, asDecimal points ∈ first :: rest) ∧
    ∀ row ∈ first :: rest, row.2 ≤ first.2 ∧ ∃ lead,
      IsLead (userPrompt m probabilities) row.1 lead ∧ 0 ≤ lead ∧ row.2 = (lead : R) / 100 := by
  have hperm : (ranked Prod.snd ((pointsRows probabilities).map (asDecimal (R := R)))).Perm
      ((pointsRows probabilities).map asDecimal) := ranked_perm _ _
  have hsorted := ranked_descending Prod.snd ((pointsRows probabilities).map (asDecimal (R := R)))
  have hdepartures := departures_eq probabilities
  obtain ⟨some_row, hsome, -⟩ := row_either_side
    (show ("Over 2.5 goals", percent probabilities.over25, 52) ∈ scored probabilities by
      simp [scored]) rfl
  generalize ranked Prod.snd ((pointsRows probabilities).map (asDecimal (R := R))) = rows at *
  cases rows with
  | nil =>
      exact absurd (hperm.symm.subset (List.mem_map_of_mem hsome)) List.not_mem_nil
  | cons first rest =>
      refine ⟨first, rest, hdepartures, ?_, ?_, ?_⟩
      · rw [(hperm.map Prod.fst).nodup_iff, List.map_map]
        exact pointsRows_nodup probabilities
      · intro points hpoints
        exact hperm.symm.subset (List.mem_map_of_mem hpoints)
      · intro row hrow
        constructor
        · rcases List.mem_cons.mp hrow with rfl | hrest
          · exact le_rfl
          · exact (List.pairwise_cons.mp hsorted).1 row hrest
        · obtain ⟨points, hpoints, rfl⟩ := List.mem_map.mp (hperm.subset hrow)
          obtain ⟨hnonneg, hislead⟩ := pointsRows_lead m probabilities hpoints
          exact ⟨points.2, hislead, hnonneg, rfl⟩

theorem scorerAgrees : ScorerAgrees m probabilities := by
  obtain ⟨first, rest, hdepartures, hnames, hrows, hranked⟩ := departures_ranked m probabilities
  obtain ⟨-, best, hislead, hnonneg, hvalue⟩ := hranked first List.mem_cons_self
  have hacceptable : acceptable probabilities =
      some ((((first :: rest).filter fun row =>
        decide (first.2 - row.2 ≤ TOLERANCE R)).map Prod.fst).toFinset) := by
    rw [acceptable, hdepartures]
    rfl
  refine ⟨percent_complement _, percent_complement _,
    ⟨first :: rest, hdepartures, List.cons_ne_nil _ _, hnames, ?_⟩,
    first.1, best, ?_, hislead, hnonneg, ?_, _, hacceptable, ?_, ?_⟩
  · intro row hrow
    obtain ⟨-, lead, hislead, -⟩ := hranked row hrow
    exact hislead.suggested
  · rw [expectedBet, hdepartures]
    rfl
  · intro market lead h
    obtain ⟨points, hpoints, hle⟩ := lead_le_row m probabilities h
    have hbelow := (hranked _ (hrows points hpoints)).1
    rw [hvalue, asDecimal, div_le_div_iff_of_pos_right (by norm_num), Int.cast_le] at hbelow
    exact hle.trans hbelow
  · rw [List.mem_toFinset]
    refine List.mem_map_of_mem (List.mem_filter.mpr ⟨List.mem_cons_self, ?_⟩)
    apply decide_eq_true
    rw [sub_self, TOLERANCE]
    norm_num
  · intro market hmarket
    obtain ⟨row, hrow, rfl⟩ := List.mem_map.mp (List.mem_toFinset.mp hmarket)
    obtain ⟨hrow, hnear⟩ := List.mem_filter.mp hrow
    obtain ⟨-, lead, hislead, -, hrowValue⟩ := hranked row hrow
    refine ⟨lead, hislead, ?_⟩
    have hnear := of_decide_eq_true hnear
    rw [hvalue, hrowValue] at hnear
    push_cast
    rw [sub_div]
    exact hnear

/-- **The scorer ranks what the prompt shows**: its first market leads all seven
by the percentages and baselines of the prompt, and what it accepts is within
the tolerance of that lead. -/
theorem scorer_agrees_with_prompt (m : Match) (probabilities : ScoreProbabilities ℝ) :
    ScorerAgrees m probabilities :=
  scorerAgrees m probabilities

end AGame.Brain

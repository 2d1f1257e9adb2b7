import AGame.Brain.Hindsight
import AGame.Engine.Stability

/-!
# A score that is corrected

Both models are rebuilt from the history for every job, so a corrected score reaches
every rating computed after it. It moves none of them, in its own league or another,
by more than it moved the points its match exchanged (`correction_never_grows`).
-/

namespace AGame.Brain

open Std (ExtTreeMap)
open Base Engine Engine.Elo

/-! ## The corrected table -/

def correctedRow (matchId : ℤ) (homeGoals awayGoals : Goals) (id : ℤ) (row : MatchRow) :
    MatchRow :=
  if id = matchId then { row with homeGoals := some homeGoals, awayGoals := some awayGoals }
  else row

theorem correctedRow_fixture (matchId : ℤ) (homeGoals awayGoals : Goals) (id : ℤ)
    (row : MatchRow) :
    rowFixture (correctedRow matchId homeGoals awayGoals id row) = rowFixture row := by
  unfold correctedRow
  split_ifs <;> rfl

/-- The table with another score for one match. -/
def withScore (db : Db) (matchId : ℤ) (homeGoals awayGoals : Goals) : Db :=
  rewriteMatches db (correctedRow matchId homeGoals awayGoals)
    (correctedRow_fixture matchId homeGoals awayGoals)

/-! ## The corrected history -/

section

variable {db : Db} {c : ℤ} {r : MatchResult}

/-- A result of a history is a row of the match table. -/
theorem row_of_history {before : Option Instant} (hr : r ∈ fetchMatchHistory db c before) :
    ∃ row : MatchRow, db.matchRows[r.matchId]? = some row ∧
      historyRow db c before r.matchId row = some r := by
  rw [fetchMatchHistory, (List.mergeSort_perm _ kickoffLE).mem_iff, List.mem_filterMap] at hr
  obtain ⟨⟨id, row⟩, hmem, hrow⟩ := hr
  obtain rfl := (historyRow_eq_some hrow).1
  exact ⟨row, ExtTreeMap.mem_toList_iff_getElem?_eq_some.mp hmem, hrow⟩

/-- Scores come out of the columns that hold them. -/
theorem storedGoals_of_historyRow {before : Option Instant} {id : ℤ} {row : MatchRow}
    (h : historyRow db c before id row = some r) : StoredGoals r := by
  unfold historyRow at h
  split at h
  · rename_i season homeGoals awayGoals _ _ _
    split_ifs at h
    obtain rfl := Option.some.inj h
    exact ⟨homeGoals.2.1, homeGoals.2.2, awayGoals.2.1, awayGoals.2.2⟩
  · cases h

variable (homeGoals awayGoals : Goals)

/-- The history query on a row whose score is rewritten. -/
theorem historyRow_scored {id : ℤ} {row : MatchRow} (h : historyRow db c none id row = some r) :
    historyRow (withScore db id homeGoals awayGoals) c none id
        (correctedRow id homeGoals awayGoals id row) =
      some { r with homeGoals := homeGoals, awayGoals := awayGoals } := by
  unfold historyRow at h
  split at h
  · rename_i season _ _ hseason _ _
    have hseason' : (withScore db id homeGoals awayGoals).seasonRows[row.seasonId]? =
        some season := hseason
    split_ifs at h with hwhere
    obtain rfl := Option.some.inj h
    simp only [historyRow, correctedRow, if_true, hseason', if_pos hwhere]
  · cases h

/-- The history with one of its results replaced. -/
theorem history_withScore (hr : r ∈ fetchMatchHistory db c none) :
    ∃ rest, (∀ x ∈ rest, StoredGoals x) ∧ (fetchMatchHistory db c none).Perm (r :: rest) ∧
      (fetchMatchHistory (withScore db r.matchId homeGoals awayGoals) c none).Perm
        ({ r with homeGoals := homeGoals, awayGoals := awayGoals } :: rest) := by
  obtain ⟨row, hrow, hresult⟩ := row_of_history hr
  have hmem := ExtTreeMap.mem_toList_iff_getElem?_eq_some.mpr hrow
  let others : ℤ × MatchRow → Option MatchResult := fun entry =>
    if entry.1 = r.matchId then none else historyRow db c none entry.1 entry.2
  have hother : ∀ entry ∈ db.matchRows.toList, entry ≠ (r.matchId, row) →
      entry.1 ≠ r.matchId := by
    rintro ⟨id, row'⟩ hentry hne rfl
    have hrow' := ExtTreeMap.mem_toList_iff_getElem?_eq_some.mp hentry
    rw [hrow] at hrow'
    exact hne (by rw [Option.some.inj hrow'])
  have hlist : (withScore db r.matchId homeGoals awayGoals).matchRows.toList =
      db.matchRows.toList.map fun entry =>
        (entry.1, correctedRow r.matchId homeGoals awayGoals entry.1 entry.2) :=
    ExtTreeMap.toList_map
  refine ⟨db.matchRows.toList.filterMap others, ?_, ?_, ?_⟩
  · intro x hx
    obtain ⟨entry, -, hentry⟩ := List.mem_filterMap.mp hx
    simp only [others] at hentry
    split_ifs at hentry
    exact storedGoals_of_historyRow hentry
  · refine (List.mergeSort_perm _ kickoffLE).trans ?_
    refine (filterMap_perm_concat (nodup_toList _) hmem hresult (if_pos rfl) ?_).trans
      (List.perm_append_singleton _ _)
    intro entry hentry hne
    exact (if_neg (hother entry hentry hne)).symm
  · refine (List.mergeSort_perm _ kickoffLE).trans ?_
    rw [hlist, List.filterMap_map]
    refine (filterMap_perm_concat (nodup_toList _) hmem
      (historyRow_scored homeGoals awayGoals hresult) (if_pos rfl) ?_).trans
      (List.perm_append_singleton _ _)
    intro entry hentry hne
    have hid := hother entry hentry hne
    simp only [Function.comp, others, correctedRow, if_neg hid]
    rfl

end

/-- In another league the match is no result, whatever its score. -/
theorem historyRow_other {db : Db} {c c' id : ℤ} {row : MatchRow} {r : MatchResult}
    (h : historyRow db c none id row = some r) (hother : c' ≠ c) :
    historyRow db c' none id row = none := by
  cases h' : historyRow db c' none id row with
  | none => rfl
  | some r' =>
      unfold historyRow at h h'
      split at h
      · rename_i season _ _ hseason hhome haway
        simp only [hseason, hhome, haway] at h'
        split_ifs at h h' with hleague hleague'
        exact absurd (hleague'.1.symm.trans hleague.1) hother
      · cases h

theorem history_withScore_other {db : Db} {c c' : ℤ} {r : MatchResult}
    (hr : r ∈ fetchMatchHistory db c none) (hother : c' ≠ c) (homeGoals awayGoals : Goals) :
    fetchMatchHistory (withScore db r.matchId homeGoals awayGoals) c' none =
      fetchMatchHistory db c' none := by
  obtain ⟨row, hrow, hresult⟩ := row_of_history hr
  have hlist : (withScore db r.matchId homeGoals awayGoals).matchRows.toList =
      db.matchRows.toList.map fun entry =>
        (entry.1, correctedRow r.matchId homeGoals awayGoals entry.1 entry.2) :=
    ExtTreeMap.toList_map
  unfold fetchMatchHistory
  rw [hlist, List.filterMap_map]
  refine congrArg (List.mergeSort · kickoffLE) (List.filterMap_congr ?_)
  rintro ⟨id, row'⟩ hentry
  by_cases hid : id = r.matchId
  · subst hid
    have hrow' := ExtTreeMap.mem_toList_iff_getElem?_eq_some.mp hentry
    rw [hrow] at hrow'
    obtain rfl := Option.some.inj hrow'
    show historyRow (withScore db r.matchId homeGoals awayGoals) c' none r.matchId
      (correctedRow r.matchId homeGoals awayGoals r.matchId row) =
        historyRow db c' none r.matchId row
    rw [historyRow_other hresult hother,
      historyRow_other (historyRow_scored homeGoals awayGoals hresult) hother]
  · simp only [Function.comp, correctedRow, if_neg hid]
    rfl

/-! ## The ratings of a fixture -/

/-- The rating a job stores is a lookup with the seed behind it. -/
theorem lookup_close {ratings ratings' : TeamMap ℝ} {ε : ℝ} (h : Above ε ratings ratings')
    (h' : Above ε ratings' ratings) (hε : 0 ≤ ε) (c team : ℤ) :
    |ratings.getD (team, c) (seedRating ratings c) -
      ratings'.getD (team, c) (seedRating ratings' c)| ≤ ε := by
  have hle := h.getD (seedRating_above hε h c) (team, c)
  have hle' := h'.getD (seedRating_above hε h' c) (team, c)
  rw [abs_le]
  constructor
  · linarith
  · linarith

/-- **A correction never grows.** Whatever score a played match is given afterwards, the
ratings of every fixture move by no more than the points its match moved. -/
theorem correction_never_grows {db : Db} {c : ℤ} {r : MatchResult}
    (hr : r ∈ fetchMatchHistory db c none) (homeGoals awayGoals : Goals) (now : Instant)
    (fixture : Match) :
    let ratings : TeamMap ℝ := (run (earlier (fetchMatchHistory db c none) r)).ratings
    let moved := |pointsWon ratings { r with homeGoals := homeGoals, awayGoals := awayGoals } -
      pointsWon ratings r|
    let before := numbers ℝ (trainingSet db fixture) now fixture
    let after := numbers ℝ (trainingSet (withScore db r.matchId homeGoals awayGoals) fixture) now
      fixture
    |after.eloHome - before.eloHome| ≤ moved ∧ |after.eloAway - before.eloAway| ≤ moved := by
  intro ratings moved before after
  have hpos : 0 ≤ moved := abs_nonneg _
  by_cases hleague : fixture.competitionId = c
  · obtain ⟨rest, hgoals, hl, hl'⟩ := history_withScore homeGoals awayGoals hr
    obtain ⟨habove, habove'⟩ := run_corrected (fetchMatchHistory_distinctIds db c none) hl hl'
      hgoals le_rfl
    subst hleague
    exact ⟨lookup_close habove habove' hpos _ _, lookup_close habove habove' hpos _ _⟩
  · -- a fixture of another league is rated as before
    have hsame : after = before := by
      simp only [after, before, trainingSet, history_withScore_other hr hleague]
    rw [hsame, sub_self, sub_self, abs_zero]
    exact ⟨hpos, hpos⟩

/-- The first match of the new league was lost, not won: the home team's rating moves by
no more than twenty points. -/
theorem first_result_corrected :
    |(numbers ℝ (trainingSet (withScore (withResult newLeague 1 newFixture.utcDate oneGoal noGoals)
        1 noGoals oneGoal) newFixture) 0 newFixture).eloHome -
      (numbers ℝ (trainingSet (withResult newLeague 1 newFixture.utcDate oneGoal noGoals)
        newFixture) 0 newFixture).eloHome| ≤ 20 := by
  have hr : resultOf newFixture oneGoal noGoals ∈ fetchMatchHistory
      (withResult newLeague 1 newFixture.utcDate oneGoal noGoals) newFixture.competitionId
      none := by
    rw [(trainingSet_withResult oneGoal noGoals fetch_newFixture).mem_iff]
    exact List.mem_append_right _ (List.mem_singleton.mpr rfl)
  refine (correction_never_grows hr noGoals oneGoal 0 newFixture).1.trans ?_
  rw [abs_sub_comm]
  have htwenty := fun ratingHome ratingAway =>
    ratingChange_won_sub_lost (m := newFixture) ratingHome ratingAway
  exact (congrArg abs (htwenty _ _)).trans_le (by norm_num)

end AGame.Brain

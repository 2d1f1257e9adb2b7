import AGame.Worker.ChangeGate
import AGame.Worker.DailyRun

/-!
# Which columns of a stored match follow the payload

The upsert assigns every column, but only once the change gate has let it
through, and the gate compares six. Those six are always the payload's after a
sync. Season, teams and matchday are what placed the row the last time the gate
was open: they follow the payload when the row is new or one of the six moves,
and otherwise stay (`sync_stores_match`).
-/

namespace AGame.Worker

open Std Base

/-! ## The columns the gate does not compare -/

structure Placement where
  seasonId : ℤ
  homeTeamId : ℤ
  awayTeamId : ℤ
  matchday : Option ℤ
deriving DecidableEq, Repr

def rowPlacement (row : MatchRow) : Placement where
  seasonId := row.seasonId
  homeTeamId := row.homeTeamId
  awayTeamId := row.awayTeamId
  matchday := row.matchday.map Subtype.val

def Match.placement (m : Match) : Placement where
  seasonId := m.season.id
  homeTeamId := m.homeTeam.id
  awayTeamId := m.awayTeam.id
  matchday := m.matchday

theorem smallint_ok {n : ℤ} {k : Smallint} (h : smallint n = .ok k) : k.val = n := by
  unfold smallint at h
  split_ifs at h
  exact (congrArg Subtype.val (Except.ok.inj h)).symm

theorem matchRow_placement {m : Match} {row : MatchRow}
    (h : matchRow (dailyMatchArgs m) = .ok row) : rowPlacement row = m.placement := by
  simp only [matchRow, bind_eq_ok] at h
  obtain ⟨_, hseason, _, hhome, _, haway, _, hmatchday, _, -, _, -, _, -, _, -,
    _, -, _, -, _, -, _, -, h⟩ := h
  split_ifs at h with hteams
  obtain rfl := pure_eq_ok.mp h
  have hday := nullable_ok (fun _ _ => smallint_ok) hmatchday
  simp only [rowPlacement, bigint_ok hseason, bigint_ok hhome, bigint_ok haway, hday]
  rfl

/-- What a sync leaves under the id of a match: the payload's row if the match
was not stored with its six columns, and what was there otherwise. -/
def MatchSynced (db : Db) (m : Match) (db' : Db) : Prop :=
  ∃ excluded, matchRow (dailyMatchArgs m) = .ok excluded ∧
    ((FactsStored db m ∧ db'.matchRows[m.id]? = db.matchRows[m.id]?) ∨
      (¬ FactsStored db m ∧ db'.matchRows[m.id]? = some excluded))

theorem SyncedRows.synced {eventId : ℤ} {db db' : Db} {m : Match} {row : Option ℤ}
    (h : SyncedRows eventId db m db' row) : MatchSynced db m db' := by
  obtain ⟨excluded, hexcluded, hcase⟩ := h.match_
  refine ⟨excluded, hexcluded, ?_⟩
  rcases h.gate with ⟨hstored, rfl, hmatch, -⟩ | ⟨hnew, rfl, -⟩
  · exact Or.inl ⟨hstored, by rw [hmatch]⟩
  · rcases hcase with ⟨-, -, hrows, -⟩ | ⟨-, hrow, -⟩
    · exact Or.inr ⟨hnew, by rw [hrows, getElem?_put, if_pos rfl]⟩
    · cases hrow

/-! ## Over a list -/

/-- An id the list does not mention keeps its row. -/
theorem Commits.row_other {pg pg' : Pg} {ms : List Match} (h : Commits pg ms pg') {k : ℤ}
    (hk : ∀ m ∈ ms, m.id ≠ k) : pg'.db.matchRows[k]? = pg.db.matchRows[k]? := by
  induction h with
  | nil => rfl
  | @cons pg pg' m ms db row hm _ ih =>
      rw [ih fun p hp => hk p (List.mem_cons_of_mem m hp), Pg.commit_db]
      exact (syncMatch_ok hm).other (hk m List.mem_cons_self).symm

/-- A match whose id no other of the list has is synced as if it were alone. -/
theorem Commits.synced {pg pg' : Pg} {ms : List Match} (h : Commits pg ms pg')
    (hids : (ms.map Match.id).Nodup) : ∀ m ∈ ms, MatchSynced pg.db m pg'.db := by
  induction h with
  | nil => simp
  | @cons pg pg' p ms db row hp hms ih =>
      obtain ⟨hfirst, hrest⟩ := List.nodup_cons.mp hids
      have hothers : ∀ m ∈ ms, m.id ≠ p.id := by
        intro m hm heq
        exact hfirst (List.mem_map.mpr ⟨m, hm, heq⟩)
      intro m hm
      rcases List.mem_cons.mp hm with rfl | hm
      · obtain ⟨excluded, hexcluded, hcase⟩ := (syncMatch_ok hp).synced
        have hafter := hms.row_other hothers
        rw [Pg.commit_db] at hafter
        exact ⟨excluded, hexcluded, by rwa [hafter]⟩
      · obtain ⟨excluded, hexcluded, hcase⟩ := ih hrest m hm
        have hbefore := (syncMatch_ok hp).other (hothers m hm)
        rw [Pg.commit_db] at hcase
        refine ⟨excluded, hexcluded, ?_⟩
        simpa only [FactsStored, hbefore] using hcase

/-- The match is stored with the payload's season, teams and matchday. -/
def PlacementStored (db : Db) (m : Match) : Prop :=
  ∃ r, db.matchRows[m.id]? = some r ∧ rowPlacement r = m.placement

theorem placementStored_iff {db : Db} {m : Match} :
    PlacementStored db m ↔ db.matchRows[m.id]?.map rowPlacement = some m.placement := by
  simp only [PlacementStored, Option.map_eq_some_iff]

instance (db : Db) (m : Match) : Decidable (PlacementStored db m) :=
  decidable_of_iff _ placementStored_iff.symm

theorem MatchSynced.facts {db db' : Db} {m : Match} (h : MatchSynced db m db') :
    FactsStored db' m := by
  obtain ⟨excluded, hexcluded, ⟨⟨r, hr, hfacts⟩, hrow⟩ | ⟨-, hrow⟩⟩ := h
  · exact ⟨r, by rw [hrow, hr], hfacts⟩
  · exact ⟨excluded, hrow, (matchRow_ok hexcluded).2.2.2⟩

theorem MatchSynced.placement_iff {db db' : Db} {m : Match} (h : MatchSynced db m db') :
    PlacementStored db' m ↔ ¬ FactsStored db m ∨ PlacementStored db m := by
  obtain ⟨excluded, hexcluded, ⟨hstored, hrow⟩ | ⟨hnew, hrow⟩⟩ := h
  · simp only [PlacementStored, hrow, hstored, not_true_eq_false, false_or]
  · simp only [hnew, not_false_eq_true, true_or, iff_true]
    exact ⟨excluded, hrow, matchRow_placement hexcluded⟩

/-- **What is stored of a synced match.** Status, date and goals are always the
payload's. Season, teams and matchday are the payload's exactly when the row was
new or differed in one of the six columns of the gate, or had them already; a
row that did not differ in the six is left as it was. -/
theorem sync_stores_match (pg : Pg) (ms : List Match) (k : ℕ)
    (hsync : (syncMatchesPerCompetition pg ms).2 = .ok k) (hids : (ms.map Match.id).Nodup) :
    ∀ m ∈ ms,
      FactsStored (syncMatchesPerCompetition pg ms).1.db m ∧
      (PlacementStored (syncMatchesPerCompetition pg ms).1.db m ↔
        ¬ FactsStored pg.db m ∨ PlacementStored pg.db m) ∧
      (FactsStored pg.db m → (syncMatchesPerCompetition pg ms).1.db.matchRows[m.id]? =
        pg.db.matchRows[m.id]?) := by
  intro m hm
  have hsynced := (syncMatchesFrom_commits ms pg 0 k hsync).synced hids m hm
  refine ⟨hsynced.facts, hsynced.placement_iff, ?_⟩
  intro hstored
  obtain ⟨excluded, -, ⟨-, hrow⟩ | ⟨hnew, -⟩⟩ := hsynced
  · exact hrow
  · exact absurd hstored hnew

/-! ### A rescheduled round -/

/-- Match 1 as it is stored, but with a matchday. -/
def withMatchday : Match := { fixturePayload 1 "SCHEDULED" with matchday := some 7 }

/-- A match that was postponed takes the matchday; one whose matchday alone has
changed does not. -/
theorem sync_stores_matchday_with_status :
    PlacementStored (syncMatchesPerCompetition oneStored
        [{ withMatchday with status := "POSTPONED" }]).1.db
      { withMatchday with status := "POSTPONED" } ∧
    ¬ PlacementStored (syncMatchesPerCompetition oneStored [withMatchday]).1.db withMatchday := by
  constructor
  · have hall := sync_stores_match oneStored [{ withMatchday with status := "POSTPONED" }] 1
      (by decide +kernel) (by decide) _ List.mem_cons_self
    exact hall.2.1.mpr (Or.inl (by decide +kernel))
  · have hall := sync_stores_match oneStored [withMatchday] 0 (by decide +kernel) (by decide) _
      List.mem_cons_self
    rw [hall.2.1]
    decide +kernel

/-- The run succeeds and the stored row keeps its old matchday. -/
theorem sync_keeps_old_matchday :
    ¬ ∀ (pg : Pg) (ms : List Match) (k : ℕ), (syncMatchesPerCompetition pg ms).2 = .ok k →
      (ms.map Match.id).Nodup → ∀ m ∈ ms, ∃ r,
        (syncMatchesPerCompetition pg ms).1.db.matchRows[m.id]? = some r ∧
          rowPlacement r = m.placement ∧ rowFacts r = m.facts := by
  intro h
  obtain ⟨r, hr, hplaced, -⟩ := h oneStored [withMatchday] 0 (by decide +kernel) (by decide)
    withMatchday List.mem_cons_self
  have hkept : ¬ PlacementStored (syncMatchesPerCompetition oneStored [withMatchday]).1.db
      withMatchday := by decide +kernel
  exact hkept ⟨r, hr, hplaced⟩

end AGame.Worker

import AGame.Worker.SyncSpec

/-!
# What the worker's writes leave alone

`sync_competitions` moves only competitions and seasons (`LeaguesOnly`). A
match upsert, daily or historic, moves only seasons, teams and matches, and
never drops a match (`FactsOnly`); the daily transaction adds its event to
that. Nor does a match upsert look at anything the brain has written
(`workerView`).
-/

namespace AGame.Worker

open Std (ExtTreeMap)
open Base

/-! ## Competitions -/

structure LeaguesOnly (db db' : Db) : Prop where
  teams : db'.teamRows = db.teamRows
  matches_ : db'.matchRows = db.matchRows
  events : db'.rabbitEventRows = db.rabbitEventRows
  commentaries : db'.commentaryRows = db.commentaryRows
  predictions : db'.predictionRows = db.predictionRows

theorem LeaguesOnly.refl (db : Db) : LeaguesOnly db db := ⟨rfl, rfl, rfl, rfl, rfl⟩

theorem LeaguesOnly.trans {db db' db'' : Db} (h : LeaguesOnly db db')
    (h' : LeaguesOnly db' db'') : LeaguesOnly db db'' where
  teams := h'.teams.trans h.teams
  matches_ := h'.matches_.trans h.matches_
  events := h'.events.trans h.events
  commentaries := h'.commentaries.trans h.commentaries
  predictions := h'.predictions.trans h.predictions

theorem upsertCompetition_frame {db db' : Db} {id : ℤ} {name code type : String}
    {emblem : Option String} (h : upsertCompetition db id name code type emblem = .ok db') :
    LeaguesOnly db db' := by
  simp only [upsertCompetition, bind_eq_ok] at h
  obtain ⟨_, -, _, -, _, -, _, -, _, -, h⟩ := h
  split_ifs at h with hcode
  rw [← pure_eq_ok.mp h]
  exact ⟨rfl, rfl, rfl, rfl, rfl⟩

theorem upsertSeason_frame {db db' : Db} {id competitionId : ℤ} {start stop : Date}
    (h : upsertSeason db id competitionId start stop = .ok db') : LeaguesOnly db db' := by
  simp only [upsertSeason, bind_eq_ok] at h
  obtain ⟨_, -, h⟩ := h
  split_ifs at h with hdates hcompetition
  rw [← pure_eq_ok.mp h]
  exact ⟨rfl, rfl, rfl, rfl, rfl⟩

theorem liftPg_eq_ok {α : Type} {x : Except PgError α} {a : α} :
    liftPg x = .ok a ↔ x = .ok a := by
  cases x <;> simp [liftPg]

/-- What `sync_competitions` does with one competition: the competition's
statement and, when the guard on `currentSeason` passes, the season's. -/
theorem syncCompetition_ok {db db' : Db} {comp : CompetitionPayload}
    (h : syncCompetition db comp = .ok db') :
    ∃ id name code type db₁, comp.id = some id ∧
      upsertCompetition db id name code type comp.emblem = .ok db₁ ∧
      ((db' = db₁ ∧ ∀ season, comp.currentSeason = some season → usableSeason season = none) ∨
        ∃ season seasonId startDate endDate, comp.currentSeason = some season ∧
          usableSeason season = some seasonId ∧ fromIsoFormat season.startDate = .ok startDate ∧
          fromIsoFormat season.endDate = .ok endDate ∧
          upsertSeason db₁ seasonId id startDate endDate = .ok db') := by
  unfold syncCompetition at h
  cases hid : comp.id with
  | none => simp [hid] at h
  | some id =>
      simp only [hid, bind_eq_ok, liftPg_eq_ok] at h
      obtain ⟨name, -, code, -, type, -, db₁, hupsert, h⟩ := h
      refine ⟨id, name, code, type, db₁, rfl, hupsert, ?_⟩
      cases hseason : comp.currentSeason with
      | none =>
          rw [hseason] at h
          exact Or.inl ⟨(pure_eq_ok.mp h).symm, nofun⟩
      | some season =>
          simp only [hseason] at h
          cases husable : usableSeason season with
          | none =>
              rw [husable] at h
              refine Or.inl ⟨(pure_eq_ok.mp h).symm, ?_⟩
              intro season' heq
              rw [← Option.some.inj heq, husable]
          | some seasonId =>
              simp only [husable, bind_eq_ok, liftPg_eq_ok] at h
              obtain ⟨startDate, hstart, endDate, hend, hrow⟩ := h
              exact Or.inr ⟨season, seasonId, startDate, endDate, rfl, husable, hstart, hend, hrow⟩

theorem syncCompetition_frame {db db' : Db} {comp : CompetitionPayload}
    (h : syncCompetition db comp = .ok db') : LeaguesOnly db db' := by
  obtain ⟨_, _, _, _, db₁, -, hcompetition, ⟨rfl, -⟩ | ⟨_, _, _, _, -, -, -, -, hseason⟩⟩ :=
    syncCompetition_ok h
  · exact upsertCompetition_frame hcompetition
  · exact (upsertCompetition_frame hcompetition).trans (upsertSeason_frame hseason)

/-- **`sync_competitions` touches leagues only**, whether it commits or not. -/
theorem syncCompetitions_frame (pg : Pg) (competitions : List CompetitionPayload) :
    LeaguesOnly pg.db (syncCompetitions pg competitions).1.db ∧
      (syncCompetitions pg competitions).1.rabbitEventSeq = pg.rabbitEventSeq := by
  have hfold : ∀ (comps : List CompetitionPayload) (db db' : Db),
      comps.foldlM syncCompetition db = .ok db' → LeaguesOnly db db' := by
    intro comps
    induction comps with
    | nil =>
        intro db db' h
        exact pure_eq_ok.mp h ▸ .refl db
    | cons comp comps ih =>
        intro db db' h
        obtain ⟨db₁, hcomp, hrest⟩ := bind_eq_ok.mp h
        exact (syncCompetition_frame hcomp).trans (ih db₁ db' hrest)
  unfold syncCompetitions
  cases h : competitions.foldlM syncCompetition pg.db with
  | error e => exact ⟨.refl _, rfl⟩
  | ok db => exact ⟨hfold competitions pg.db db h, rfl⟩

/-! ## Matches -/

structure FactsOnly (db db' : Db) : Prop where
  competitions : db'.competitionRows = db.competitionRows
  events : db'.rabbitEventRows = db.rabbitEventRows
  commentaries : db'.commentaryRows = db.commentaryRows
  predictions : db'.predictionRows = db.predictionRows
  kept : ∀ k, k ∈ db.matchRows → k ∈ db'.matchRows

theorem FactsOnly.refl (db : Db) : FactsOnly db db := ⟨rfl, rfl, rfl, rfl, fun _ hk => hk⟩

theorem FactsOnly.trans {db db' db'' : Db} (h : FactsOnly db db') (h' : FactsOnly db' db'') :
    FactsOnly db db'' where
  competitions := h'.competitions.trans h.competitions
  events := h'.events.trans h.events
  commentaries := h'.commentaries.trans h.commentaries
  predictions := h'.predictions.trans h.predictions
  kept := fun k hk => h'.kept k (h.kept k hk)

theorem insertSeason_frame {db db' : Db} {id c : ℤ} {s e : Date}
    (h : insertSeason db id c s e = .ok db') : FactsOnly db db' := by
  rcases insertSeason_ok h with ⟨-, rfl⟩ | ⟨-, row, hrow, rfl⟩
  · exact .refl db'
  · exact ⟨rfl, rfl, rfl, rfl, fun _ hk => hk⟩

theorem upsertTeam_frame {db db' : Db} {team : Team} (h : upsertTeam db team = .ok db') :
    FactsOnly db db' := by
  obtain ⟨row, -, rfl⟩ := upsertTeam_ok h
  exact ⟨rfl, rfl, rfl, rfl, fun _ hk => hk⟩

theorem upsertMatch_frame {db db' : Db} {a : MatchArgs} {row : Option ℤ}
    (h : upsertMatch db a = .ok (db', row)) : FactsOnly db db' := by
  obtain ⟨excluded, -, hcase⟩ := upsertMatch_ok h
  rcases hcase with ⟨-, -, hs, hh, ha, rfl⟩ | ⟨-, -, rfl⟩
  · exact ⟨rfl, rfl, rfl, rfl, fun _ hk => mem_put_of_mem hk⟩
  · exact .refl db'

theorem syncMatchRows_frame {db db' : Db} {m : Match} {row : Option ℤ}
    (h : syncMatchRows db m = .ok (db', row)) : FactsOnly db db' := by
  simp only [syncMatchRows, bind_eq_ok] at h
  obtain ⟨db₁, hseason, db₂, hhome, db₃, haway, hmatch⟩ := h
  have hteams := (insertSeason_frame hseason).trans (upsertTeam_frame hhome)
  exact (hteams.trans (upsertTeam_frame haway)).trans (upsertMatch_frame hmatch)

/-- The backfill runs the same four statements. -/
theorem syncHistoricMatch_eq (db : Db) (m : Match) :
    syncHistoricMatch db m = syncMatchRows db m := rfl

/-- The count after a transaction. -/
def counted (n : ℕ) (row : Option ℤ) : ℕ := n + if row = none then 0 else 1

theorem syncHistoricFrom_cons {db db' : Db} {m : Match} {row : Option ℤ} (ms : List Match)
    (n : ℕ) (h : syncMatchRows db m = .ok (db', row)) :
    syncHistoricFrom db n (m :: ms) = syncHistoricFrom db' (counted n row) ms := by
  rw [← syncHistoricMatch_eq] at h
  cases row <;> simp only [syncHistoricFrom, h] <;> rfl

theorem syncHistoricFrom_ok {db db' : Db} {m : Match} {ms : List Match} {n k : ℕ}
    (h : syncHistoricFrom db n (m :: ms) = .ok (db', k)) :
    ∃ db₁ row, syncMatchRows db m = .ok (db₁, row) ∧
      syncHistoricFrom db₁ (counted n row) ms = .ok (db', k) := by
  cases hm : syncMatchRows db m with
  | error e =>
      rw [← syncHistoricMatch_eq] at hm
      simp [syncHistoricFrom, hm] at h
  | ok out =>
      rw [syncHistoricFrom_cons ms n hm] at h
      exact ⟨out.1, out.2, rfl, h⟩

/-- **A backfill writes no event**, no preview and no prediction. -/
theorem syncHistoricMatches_frame (pg : Pg) (ms : List Match) :
    FactsOnly pg.db (syncHistoricMatches pg ms).1.db ∧
      (syncHistoricMatches pg ms).1.rabbitEventSeq = pg.rabbitEventSeq := by
  have hloop : ∀ (ms : List Match) (db db' : Db) (n k : ℕ),
      syncHistoricFrom db n ms = .ok (db', k) → FactsOnly db db' := by
    intro ms
    induction ms with
    | nil =>
        intro db db' n k h
        obtain ⟨rfl, -⟩ := Prod.mk.inj (Except.ok.inj h)
        exact .refl db
    | cons m ms ih =>
        intro db db' n k h
        obtain ⟨db₁, row, hm, hrest⟩ := syncHistoricFrom_ok h
        exact (syncMatchRows_frame hm).trans (ih db₁ db' (counted n row) k hrest)
  unfold syncHistoricMatches
  cases h : syncHistoricFrom pg.db 0 ms with
  | error e => exact ⟨.refl _, rfl⟩
  | ok out =>
      obtain ⟨db, k⟩ := out
      exact ⟨hloop ms pg.db db 0 k h, rfl⟩

/-- A daily transaction never drops a match. -/
theorem SyncedRows.kept {eventId : ℤ} {db db' : Db} {m : Match} {row : Option ℤ}
    (h : SyncedRows eventId db m db' row) {k : ℤ} (hk : k ∈ db.matchRows) :
    k ∈ db'.matchRows := by
  obtain ⟨excluded, -, hcase⟩ := h.match_
  rcases hcase with ⟨-, -, hrows, -, -⟩ | ⟨-, -, hrows, -⟩
  · exact hrows ▸ mem_put_of_mem hk
  · exact hrows ▸ hk

/-! ## What the worker does not look at -/

/-- A view that shows the four tables of the ingest as they are, and makes of
the other tables something that depends on them alone. -/
structure IngestView (view : Db → Db) : Prop where
  competitions : ∀ db, (view db).competitionRows = db.competitionRows
  teams : ∀ db, (view db).teamRows = db.teamRows
  seasons : ∀ db, (view db).seasonRows = db.seasonRows
  matches_ : ∀ db, (view db).matchRows = db.matchRows
  rest : ∀ db db' : Db, db'.rabbitEventRows = db.rabbitEventRows →
    db'.commentaryRows = db.commentaryRows → db'.predictionRows = db.predictionRows →
    (view db').rabbitEventRows = (view db).rabbitEventRows ∧
      (view db').commentaryRows = (view db).commentaryRows ∧
      (view db').predictionRows = (view db).predictionRows

section View

variable {view : Db → Db} (hview : IngestView view)
include hview

/-- A write to the four tables, made in the view. -/
theorem IngestView.eq_write (db : Db) {db' shown : Db}
    (hc : shown.competitionRows = db'.competitionRows)
    (ht : shown.teamRows = db'.teamRows) (hs : shown.seasonRows = db'.seasonRows)
    (hm : shown.matchRows = db'.matchRows)
    (hshown : shown.rabbitEventRows = (view db).rabbitEventRows ∧
      shown.commentaryRows = (view db).commentaryRows ∧
      shown.predictionRows = (view db).predictionRows)
    (hkept : db'.rabbitEventRows = db.rabbitEventRows ∧
      db'.commentaryRows = db.commentaryRows ∧ db'.predictionRows = db.predictionRows) :
    shown = view db' := by
  obtain ⟨hevents, hcommentaries, hpredictions⟩ :=
    hview.rest db db' hkept.1 hkept.2.1 hkept.2.2
  apply Db.ext
  · rw [hview.competitions, hc]
  · rw [hview.teams, ht]
  · rw [hview.seasons, hs]
  · rw [hview.matches_, hm]
  · rw [hevents, hshown.1]
  · rw [hcommentaries, hshown.2.1]
  · rw [hpredictions, hshown.2.2]

theorem IngestView.putSeason (db : Db) (id : ℤ) (row : SeasonRow)
    (h : row.competitionId ∈ db.competitionRows)
    (h' : row.competitionId ∈ (view db).competitionRows) :
    (view db).putSeason id row h' = view (db.putSeason id row h) :=
  hview.eq_write db (hview.competitions db) (hview.teams db)
    (congrArg (fun rows => rows.insert id row) (hview.seasons db)) (hview.matches_ db)
    ⟨rfl, rfl, rfl⟩ ⟨rfl, rfl, rfl⟩

theorem IngestView.putTeam (db : Db) (id : ℤ) (row : TeamRow) :
    (view db).putTeam id row = view (db.putTeam id row) :=
  hview.eq_write db (hview.competitions db)
    (congrArg (fun rows => rows.insert id row) (hview.teams db)) (hview.seasons db)
    (hview.matches_ db) ⟨rfl, rfl, rfl⟩ ⟨rfl, rfl, rfl⟩

theorem IngestView.putMatch (db : Db) (id : ℤ) (row : MatchRow)
    (hs : row.seasonId ∈ db.seasonRows) (hh : row.homeTeamId ∈ db.teamRows)
    (ha : row.awayTeamId ∈ db.teamRows) (hs' : row.seasonId ∈ (view db).seasonRows)
    (hh' : row.homeTeamId ∈ (view db).teamRows) (ha' : row.awayTeamId ∈ (view db).teamRows) :
    (view db).putMatch id row hs' hh' ha' = view (db.putMatch id row hs hh ha) :=
  hview.eq_write db (hview.competitions db) (hview.teams db) (hview.seasons db)
    (congrArg (fun rows => rows.insert id row) (hview.matches_ db)) ⟨rfl, rfl, rfl⟩
    ⟨rfl, rfl, rfl⟩

theorem insertSeason_view (db : Db) (id c : ℤ) (s e : Date) :
    insertSeason (view db) id c s e = (insertSeason db id c s e).map view := by
  unfold insertSeason
  cases bigint id with
  | error e => rfl
  | ok id =>
      cases bigint c with
      | error e => rfl
      | ok c =>
          have hmem : id ∈ (view db).seasonRows ↔ id ∈ db.seasonRows := by
            rw [hview.seasons]
          have hcompetition : c ∈ (view db).competitionRows ↔ c ∈ db.competitionRows := by
            rw [hview.competitions]
          simp only [bind, Except.bind]
          by_cases hdates : s < e
          · by_cases hpresent : id ∈ db.seasonRows
            · rw [dif_pos hdates, dif_pos hdates, if_pos hpresent, if_pos (hmem.mpr hpresent)]
              rfl
            · rw [dif_pos hdates, dif_pos hdates, if_neg hpresent, if_neg (hpresent ∘ hmem.mp)]
              by_cases hknown : c ∈ db.competitionRows
              · rw [dif_pos hknown, dif_pos (hcompetition.mpr hknown)]
                exact congrArg Except.ok (hview.putSeason db id ⟨c, s, e, hdates⟩ _ _)
              · rw [dif_neg hknown, dif_neg (hknown ∘ hcompetition.mp)]
                rfl
          · rw [dif_neg hdates, dif_neg hdates]
            rfl

theorem upsertTeam_view (db : Db) (team : Team) :
    upsertTeam (view db) team = (upsertTeam db team).map view := by
  unfold upsertTeam
  cases bigint team.id with
  | error e => rfl
  | ok id =>
      cases teamRow team.name team.shortName team.tla team.crest with
      | error e => rfl
      | ok row => exact congrArg Except.ok (hview.putTeam db id row)

theorem writeMatch_view (db : Db) (id : ℤ) (row : MatchRow) :
    writeMatch (view db) id row = (writeMatch db id row).map view := by
  have hseason : row.seasonId ∈ (view db).seasonRows ↔ row.seasonId ∈ db.seasonRows := by
    rw [hview.seasons]
  have hteam : ∀ team, team ∈ (view db).teamRows ↔ team ∈ db.teamRows := by
    intro team
    rw [hview.teams]
  unfold writeMatch
  by_cases hs : row.seasonId ∈ db.seasonRows
  · rw [dif_pos hs, dif_pos (hseason.mpr hs)]
    by_cases hh : row.homeTeamId ∈ db.teamRows
    · rw [dif_pos hh, dif_pos ((hteam _).mpr hh)]
      by_cases ha : row.awayTeamId ∈ db.teamRows
      · rw [dif_pos ha, dif_pos ((hteam _).mpr ha)]
        exact congrArg Except.ok (hview.putMatch db id row hs hh ha _ _ _)
      · rw [dif_neg ha, dif_neg (ha ∘ (hteam _).mp)]
        rfl
    · rw [dif_neg hh, dif_neg (hh ∘ (hteam _).mp)]
      rfl
  · rw [dif_neg hs, dif_neg (hs ∘ hseason.mp)]
    rfl

theorem upsertMatch_view (db : Db) (a : MatchArgs) :
    upsertMatch (view db) a =
      (upsertMatch db a).map fun out => (view out.1, out.2) := by
  unfold upsertMatch
  cases bigint a.id with
  | error e => rfl
  | ok id =>
      cases matchRow a with
      | error e => rfl
      | ok excluded =>
          have hrows : (view db).matchRows[id]? = db.matchRows[id]? := by
            rw [hview.matches_]
          simp only [bind, Except.bind, hrows, writeMatch_view hview]
          cases db.matchRows[id]? with
          | none => cases writeMatch db id excluded <;> rfl
          | some row =>
              by_cases hgate : changeGate row excluded = true
              · simp only [hgate, if_true]
                cases writeMatch db id excluded <;> rfl
              · simp only [hgate]
                rfl

theorem syncMatchRows_view (db : Db) (m : Match) :
    syncMatchRows (view db) m =
      (syncMatchRows db m).map fun out => (view out.1, out.2) := by
  unfold syncMatchRows
  rw [insertSeason_view hview]
  refine map_bind_eq fun db₁ => ?_
  rw [upsertTeam_view hview]
  refine map_bind_eq fun db₂ => ?_
  rw [upsertTeam_view hview]
  exact map_bind_eq fun db₃ => upsertMatch_view hview db₃ _

end View

/-- What the worker sees of a database. -/
def workerView (db : Db) : Db :=
  { db with
    commentaryRows := ∅
    predictionRows := ∅
    commentary_match_fk := by simp
    prediction_match_fk := by simp }

theorem workerView_view : IngestView workerView where
  competitions _ := rfl
  teams _ := rfl
  seasons _ := rfl
  matches_ _ := rfl
  rest _ _ hevents _ _ := ⟨hevents, rfl, rfl⟩

/-- A backfill neither reads nor minds what has been predicted. -/
theorem syncHistoricFrom_view (ms : List Match) : ∀ (db : Db) (changed : ℕ),
    syncHistoricFrom (workerView db) changed ms =
      (syncHistoricFrom db changed ms).map fun out => (workerView out.1, out.2) := by
  induction ms with
  | nil => exact fun db changed => rfl
  | cons m ms ih =>
      intro db changed
      simp only [syncHistoricFrom, syncHistoricMatch_eq, syncMatchRows_view workerView_view]
      cases syncMatchRows db m with
      | error e => rfl
      | ok out =>
          obtain ⟨db₁, row⟩ := out
          cases row with
          | none => exact ih db₁ changed
          | some id => exact ih db₁ (changed + 1)

end AGame.Worker

import AGame.Base.Result
import AGame.Worker.Db

/-!
# What one match transaction does

`SyncedRows` lists everything the statements of one iteration of
`sync_matches_per_competition` can do to the database. It is derived once, by
peeling the statements apart; every later result about the loop starts from it
and unfolds no statement.

The six columns of the change gate are collected in `MatchFacts`, read off a
stored row and off a payload, so that the gate is one comparison.
-/

namespace AGame.Worker

open Std Base

/-! ## The six columns of the change gate -/

structure MatchFacts where
  status : String
  utcDate : Instant
  homeGoals : Option ℤ
  awayGoals : Option ℤ
  homeGoalsHt : Option ℤ
  awayGoalsHt : Option ℤ
deriving DecidableEq, Repr

def rowFacts (row : MatchRow) : MatchFacts where
  status := row.status.text
  utcDate := row.utcDate
  homeGoals := row.homeGoals.map Subtype.val
  awayGoals := row.awayGoals.map Subtype.val
  homeGoalsHt := row.homeGoalsHt.map Subtype.val
  awayGoalsHt := row.awayGoalsHt.map Subtype.val

def Match.facts (m : Match) : MatchFacts where
  status := m.status
  utcDate := m.utcDate
  homeGoals := m.score.fullTime.home
  awayGoals := m.score.fullTime.away
  homeGoalsHt := m.score.halfTime.home
  awayGoalsHt := m.score.halfTime.away

theorem status_text_injective : Function.Injective MatchStatus.text := by
  intro a b h
  cases a <;> cases b <;> first | rfl | exact absurd h (by decide)

theorem goals_map_injective :
    Function.Injective (Option.map (Subtype.val : Goals → ℤ)) :=
  Option.map_injective Subtype.val_injective

/-- **The gate is exact**: it opens when one of the six columns differs. -/
theorem changeGate_eq_false_iff {row excluded : MatchRow} :
    changeGate row excluded = false ↔ rowFacts row = rowFacts excluded := by
  simp only [changeGate, rowFacts, Bool.or_eq_false_iff, decide_eq_false_iff_not, ne_eq,
    not_not, MatchFacts.mk.injEq, status_text_injective.eq_iff, goals_map_injective.eq_iff,
    and_assoc]

/-! ## Encoding keeps the value -/

theorem bigint_ok {n k : ℤ} (h : bigint n = .ok k) : k = n := by
  unfold bigint at h
  split_ifs at h
  exact (Except.ok.inj h).symm

theorem goals_ok {c : String} {n : ℤ} {g : Goals} (h : goals c n = .ok g) : g.val = n := by
  unfold goals at h
  split_ifs at h
  exact (congrArg Subtype.val (Except.ok.inj h)).symm

theorem matchStatus_ok {s : String} {status : MatchStatus} (h : matchStatus s = .ok status) :
    status.text = s := by
  unfold matchStatus at h
  split at h
  · rename_i found hfound
    obtain rfl := Except.ok.inj h
    exact MatchStatus.text_of_ofText? hfound
  · exact absurd h (by simp)

theorem nullable_ok {α β : Type} {encode : α → Except PgError β} {decode : β → α}
    (hdecode : ∀ a b, encode a = .ok b → decode b = a) {o : Option α} {o' : Option β}
    (h : nullable encode o = .ok o') : o'.map decode = o := by
  cases o with
  | none =>
      obtain rfl := Except.ok.inj h
      rfl
  | some a =>
      obtain ⟨b, hb, rfl⟩ := map_eq_ok.mp h
      simp [hdecode a b hb]

/-- What a proposed row takes over from its arguments. -/
theorem matchRow_ok {a : MatchArgs} {row : MatchRow} (h : matchRow a = .ok row) :
    row.seasonId = a.seasonId ∧ row.homeTeamId = a.homeTeamId ∧
      row.awayTeamId = a.awayTeamId ∧ rowFacts row =
        ⟨a.status, a.utcDate, a.homeGoals, a.awayGoals, a.homeGoalsHt, a.awayGoalsHt⟩ := by
  simp only [matchRow, bind_eq_ok] at h
  obtain ⟨_, hseason, _, hhome, _, haway, _, -, _, hstatus, _, -, _, hhg, _, hag,
    _, hhh, _, hah, _, -, _, -, h⟩ := h
  split_ifs at h with hteams
  obtain rfl := pure_eq_ok.mp h
  refine ⟨bigint_ok hseason, bigint_ok hhome, bigint_ok haway, ?_⟩
  simp only [rowFacts, matchStatus_ok hstatus, nullable_ok (fun _ _ => goals_ok) hhg,
    nullable_ok (fun _ _ => goals_ok) hag, nullable_ok (fun _ _ => goals_ok) hhh,
    nullable_ok (fun _ _ => goals_ok) hah]

/-! ## Statements -/

/-- The upsert of `excluded` under `id` writes: the row is new, or the gate opens. -/
def gateOpen (db : Db) (id : ℤ) (excluded : MatchRow) : Bool :=
  match db.matchRows[id]? with
  | none => true
  | some row => changeGate row excluded

theorem insertSeason_ok {db db' : Db} {id c : ℤ} {s e : Date}
    (h : insertSeason db id c s e = .ok db') :
    (id ∈ db.seasonRows ∧ db' = db) ∨
      (id ∉ db.seasonRows ∧ ∃ row hrow, db' = db.putSeason id row hrow) := by
  simp only [insertSeason, bind_eq_ok] at h
  obtain ⟨k, hk, k', hk', h⟩ := h
  obtain rfl := bigint_ok hk
  split_ifs at h with hdates hmem hcompetition
  · exact Or.inl ⟨hmem, (pure_eq_ok.mp h).symm⟩
  · exact Or.inr ⟨hmem, _, hcompetition, (pure_eq_ok.mp h).symm⟩

/-- The team row a payload proposes. -/
def proposedTeam (team : Team) : Except PgError TeamRow :=
  teamRow team.name team.shortName team.tla team.crest

theorem upsertTeam_ok {db db' : Db} {team : Team} (h : upsertTeam db team = .ok db') :
    ∃ row, proposedTeam team = .ok row ∧ db' = db.putTeam team.id row := by
  simp only [upsertTeam, bind_eq_ok] at h
  obtain ⟨k, hk, row, hrow, h⟩ := h
  obtain rfl := bigint_ok hk
  exact ⟨row, hrow, (pure_eq_ok.mp h).symm⟩

theorem writeMatch_ok {db db' : Db} {id : ℤ} {row : MatchRow}
    (h : writeMatch db id row = .ok db') :
    ∃ hs hh ha, db' = db.putMatch id row hs hh ha := by
  unfold writeMatch at h
  split_ifs at h with hs hh ha
  exact ⟨hs, hh, ha, (Except.ok.inj h).symm⟩

theorem upsertMatch_ok {db db' : Db} {a : MatchArgs} {row : Option ℤ}
    (h : upsertMatch db a = .ok (db', row)) :
    ∃ excluded, matchRow a = .ok excluded ∧
      ((gateOpen db a.id excluded = true ∧ row = some a.id ∧
          ∃ hs hh ha, db' = db.putMatch a.id excluded hs hh ha) ∨
        (gateOpen db a.id excluded = false ∧ row = none ∧ db' = db)) := by
  simp only [upsertMatch, bind_eq_ok] at h
  obtain ⟨k, hk, excluded, hexcluded, h⟩ := h
  obtain rfl := bigint_ok hk
  refine ⟨excluded, hexcluded, ?_⟩
  unfold gateOpen
  cases hrow : db.matchRows[a.id]? with
  | none =>
      simp only [hrow, bind_eq_ok, pure_eq_ok, Prod.mk.injEq] at h
      obtain ⟨db₁, hwrite, rfl, rfl⟩ := h
      exact Or.inl ⟨rfl, rfl, writeMatch_ok hwrite⟩
  | some stored =>
      simp only [hrow] at h
      split_ifs at h with hgate
      · simp only [bind_eq_ok, pure_eq_ok, Prod.mk.injEq] at h
        obtain ⟨db₁, hwrite, rfl, rfl⟩ := h
        exact Or.inl ⟨hgate, rfl, writeMatch_ok hwrite⟩
      · simp only [pure_eq_ok, Prod.mk.injEq] at h
        obtain ⟨rfl, rfl⟩ := h
        exact Or.inr ⟨by simpa using hgate, rfl, rfl⟩

theorem insertRabbitEvent_ok {db db' : Db} {eventId matchId : ℤ} {type : String}
    (h : insertRabbitEvent db eventId type matchId = .ok db') :
    eventId ∉ db.rabbitEventRows ∧
      ∃ hmatch, db' = db.putRabbitEvent eventId ⟨type, matchId⟩ hmatch := by
  unfold insertRabbitEvent at h
  split_ifs at h with hkey hmatch
  exact ⟨hkey, hmatch, (Except.ok.inj h).symm⟩

/-! ## One transaction -/

/-- Everything a committed match transaction can have done. -/
structure SyncedRows (eventId : ℤ) (db : Db) (m : Match) (db' : Db) (row : Option ℤ) : Prop where
  /-- An existing season is left alone, a missing one is created. -/
  season : (m.season.id ∈ db.seasonRows ∧ db'.seasonRows = db.seasonRows) ∨
    (m.season.id ∉ db.seasonRows ∧ ∃ r, db'.seasonRows = db.seasonRows.insert m.season.id r)
  /-- Both teams are overwritten, home first. -/
  teams : ∃ home away, proposedTeam m.homeTeam = .ok home ∧ proposedTeam m.awayTeam = .ok away ∧
    db'.teamRows = (db.teamRows.insert m.homeTeam.id home).insert m.awayTeam.id away
  /-- The match row and its event are written together, or neither is. -/
  match_ : ∃ excluded, matchRow (dailyMatchArgs m) = .ok excluded ∧
    ((gateOpen db m.id excluded = true ∧ row = some m.id ∧
        db'.matchRows = db.matchRows.insert m.id excluded ∧
        eventId ∉ db.rabbitEventRows ∧
        db'.rabbitEventRows = db.rabbitEventRows.insert eventId ⟨"match.changed", m.id⟩) ∨
      (gateOpen db m.id excluded = false ∧ row = none ∧
        db'.matchRows = db.matchRows ∧ db'.rabbitEventRows = db.rabbitEventRows))
  competitions : db'.competitionRows = db.competitionRows
  commentaries : db'.commentaryRows = db.commentaryRows
  predictions : db'.predictionRows = db.predictionRows

/-- **The transaction's inversion lemma.** -/
theorem syncMatch_ok {eventId : ℤ} {db db' : Db} {m : Match} {row : Option ℤ}
    (h : syncMatch eventId db m = .ok (db', row)) : SyncedRows eventId db m db' row := by
  simp only [syncMatch, syncMatchRows, bind_eq_ok, Prod.exists] at h
  obtain ⟨db₄, row₄, ⟨db₁, hseason, db₂, hhome, db₃, haway, hmatch⟩, hevent⟩ := h
  obtain ⟨home, hhomeRow, rfl⟩ := upsertTeam_ok hhome
  obtain ⟨away, hawayRow, rfl⟩ := upsertTeam_ok haway
  obtain ⟨excluded, hexcluded, hmatch⟩ := upsertMatch_ok hmatch
  have hteams : db₁.teamRows = db.teamRows ∧ db₁.matchRows = db.matchRows ∧
      db₁.rabbitEventRows = db.rabbitEventRows ∧ db₁.competitionRows = db.competitionRows ∧
      db₁.commentaryRows = db.commentaryRows ∧ db₁.predictionRows = db.predictionRows := by
    rcases insertSeason_ok hseason with ⟨-, rfl⟩ | ⟨-, _, _, rfl⟩
    · simp
    · simp [Db.putSeason]
  have hseasons : (m.season.id ∈ db.seasonRows ∧ db₁.seasonRows = db.seasonRows) ∨
      (m.season.id ∉ db.seasonRows ∧
        ∃ r, db₁.seasonRows = db.seasonRows.insert m.season.id r) := by
    rcases insertSeason_ok hseason with ⟨hmem, rfl⟩ | ⟨hmem, r, _, rfl⟩
    · exact Or.inl ⟨hmem, rfl⟩
    · exact Or.inr ⟨hmem, r, rfl⟩
  obtain ⟨ht, hm, hr, hc, hk, hp⟩ := hteams
  have hgate : gateOpen ((db₁.putTeam m.homeTeam.id home).putTeam m.awayTeam.id away)
      (dailyMatchArgs m).id excluded = gateOpen db m.id excluded := by
    simp [gateOpen, Db.putTeam, hm, dailyMatchArgs]
  rw [hgate] at hmatch
  rcases hmatch with ⟨hopen, rfl, _, _, _, rfl⟩ | ⟨hclosed, rfl, rfl⟩
  · simp only [bind_eq_ok, pure_eq_ok, Prod.mk.injEq] at hevent
    obtain ⟨db₅, hinsert, rfl, rfl⟩ := hevent
    obtain ⟨hkey, _, rfl⟩ := insertRabbitEvent_ok hinsert
    exact {
      season := hseasons
      teams := ⟨home, away, hhomeRow, hawayRow, by
        simp [Db.putRabbitEvent, Db.putMatch, Db.putTeam, ht]⟩
      match_ := ⟨excluded, hexcluded, Or.inl ⟨hopen, rfl, by
        simp [Db.putRabbitEvent, Db.putMatch, Db.putTeam, hm, dailyMatchArgs],
        by simpa [Db.putMatch, Db.putTeam, hr] using hkey, by
        simp [Db.putRabbitEvent, Db.putMatch, Db.putTeam, hr, dailyMatchArgs]⟩⟩
      competitions := hc
      commentaries := hk
      predictions := hp }
  · simp only [pure_eq_ok, Prod.mk.injEq] at hevent
    obtain ⟨rfl, rfl⟩ := hevent
    exact {
      season := hseasons
      teams := ⟨home, away, hhomeRow, hawayRow, by simp [Db.putTeam, ht]⟩
      match_ := ⟨excluded, hexcluded, Or.inr ⟨hclosed, rfl, hm, hr⟩⟩
      competitions := hc
      commentaries := hk
      predictions := hp }

/-- After a committed transaction the stored six columns are the payload's. -/
theorem SyncedRows.stored {eventId : ℤ} {db db' : Db} {m : Match} {row : Option ℤ}
    (h : SyncedRows eventId db m db' row) :
    ∃ r, db'.matchRows[m.id]? = some r ∧ rowFacts r = m.facts := by
  obtain ⟨excluded, hexcluded, hcase⟩ := h.match_
  have hfacts : rowFacts excluded = m.facts := (matchRow_ok hexcluded).2.2.2
  rcases hcase with ⟨-, -, hrows, -, -⟩ | ⟨hclosed, -, hrows, -⟩
  · exact ⟨excluded, by rw [hrows, getElem?_put, if_pos rfl], hfacts⟩
  · unfold gateOpen at hclosed
    cases hrow : db.matchRows[m.id]? with
    | none => simp [hrow] at hclosed
    | some stored =>
        simp only [hrow] at hclosed
        exact ⟨stored, by rw [hrows, hrow], (changeGate_eq_false_iff.mp hclosed).trans hfacts⟩

/-- No other match row moves. -/
theorem SyncedRows.other {eventId : ℤ} {db db' : Db} {m : Match} {row : Option ℤ}
    (h : SyncedRows eventId db m db' row) {k : ℤ} (hk : k ≠ m.id) :
    db'.matchRows[k]? = db.matchRows[k]? := by
  obtain ⟨excluded, -, hcase⟩ := h.match_
  rcases hcase with ⟨-, -, hrows, -, -⟩ | ⟨-, -, hrows, -⟩
  · rw [hrows, getElem?_put, if_neg (Ne.symm hk)]
  · rw [hrows]

end AGame.Worker

import AGame.Base.Replay
import AGame.Worker.Backfill

/-!
# Who owns which column

Three syncs and the operator write next to each other: `sync_competitions`
overwrites competitions and seasons, a match payload only creates a season that
is missing, and `enabled` is the operator's. A run is any sequence of calls,
each of which commits some writes, all or none or, for the daily sync, those
before the first rejected match; a call that is cut off commits what a shorter
one would. What a column holds is then read off the committed writes alone
(`writers_own_columns`).
-/

namespace AGame.Worker

open Std (ExtTreeMap)
open Base

/-! ## Calls and what they commit -/

inductive Call where
  | syncCompetitions (competitions : List CompetitionPayload)
  | syncMatchesPerCompetition (matches_ : List Match)
  | syncHistoricMatches (matches_ : List Match)
  | setEnabled (id : ℤ) (enabled : Bool)

/-- A committed write: one competition of a payload, one match, or the
operator's update of a row. -/
inductive Write where
  | competition (comp : CompetitionPayload)
  | match_ (m : Match)
  | enabled (id : ℤ) (value : Bool)

/-- The call on a server, with the writes that are committed when it is over. -/
def perform (pg : Pg) : Call → Pg × List Write
  | .syncCompetitions competitions =>
      match syncCompetitions pg competitions with
      | (pg', .ok _) => (pg', competitions.map .competition)
      | (pg', .error _) => (pg', [])
  | .syncMatchesPerCompetition matches_ =>
      ((syncMatchesPerCompetition pg matches_).1, (beforeRejected pg matches_).map .match_)
  | .syncHistoricMatches matches_ =>
      match syncHistoricMatches pg matches_ with
      | (pg', .ok _) => (pg', matches_.map .match_)
      | (pg', .error _) => (pg', [])
  | .setEnabled id enabled =>
      if id ∈ pg.db.competitionRows then
        ({ pg with db := setEnabled pg.db id enabled }, [.enabled id enabled])
      else (pg, [])

/-- The server before any row. -/
def emptyServer : Pg := ⟨Db.empty, 1⟩

/-- The server after the calls. -/
def afterCalls (calls : List Call) : Pg := finalState perform emptyServer calls

/-- Everything the calls commit, oldest first. -/
def committed (calls : List Call) : List Write := (outputs perform emptyServer calls).flatten

/-! ## What a write says of a column -/

/-- The columns of a season beside its id. -/
structure SeasonColumns where
  competitionId : ℤ
  startDate : Date
  endDate : Date
deriving DecidableEq, Repr

def seasonColumns (row : SeasonRow) : SeasonColumns :=
  ⟨row.competitionId, row.startDate, row.endDate⟩

def Match.seasonColumns (m : Match) : SeasonColumns :=
  ⟨m.competition.id, m.season.startDate, m.season.endDate⟩

/-- What a competition's payload says of a season: it carries the season if its
`currentSeason` has that id and both dates. -/
def CompetitionPayload.carries (comp : CompetitionPayload) (seasonId : ℤ) :
    Option SeasonColumns :=
  match comp.id, comp.currentSeason with
  | some id, some ⟨some carried, .iso startDate, .iso endDate⟩ =>
      if carried = seasonId then some ⟨id, startDate, endDate⟩ else none
  | _, _ => none

def Write.carries (seasonId : ℤ) : Write → Option SeasonColumns
  | .competition comp => comp.carries seasonId
  | _ => none

def Write.payload (seasonId : ℤ) : Write → Option SeasonColumns
  | .match_ m => if m.season.id = seasonId then some m.seasonColumns else none
  | _ => none

def Write.enables (competitionId : ℤ) : Write → Option Bool
  | .enabled id value => if id = competitionId then some value else none
  | _ => none

/-- What the writes leave in a season: the columns of the last competition
payload that carries it, or those of the first match payload that names it. -/
def ownedSeason (writes : List Write) (seasonId : ℤ) : Option SeasonColumns :=
  (lastValue (Write.carries seasonId) writes).or (writes.findSome? (Write.payload seasonId))

/-- What the operator last set, and `false` before. -/
def ownedEnabled (writes : List Write) (competitionId : ℤ) : Bool :=
  (lastValue (Write.enables competitionId) writes).getD false

/-! ## What one write does to the two tables -/

/-- The effect of one write, as far as competitions and seasons go. -/
structure Effect (db : Db) (write : Write) (db' : Db) : Prop where
  /-- No season is lost, and one that a payload carries is overwritten. -/
  seasons : ∀ k, k ≠ 0 → db'.seasonRows[k]?.map seasonColumns =
    (write.carries k).or ((db.seasonRows[k]?.map seasonColumns).or (write.payload k))
  /-- Only the operator moves `enabled`; a new row has it off. -/
  enabled : ∀ (k : ℤ) (row : CompetitionRow), db'.competitionRows[k]? = some row →
    row.enabled = ((write.enables k).or
      (db.competitionRows[k]?.map CompetitionRow.enabled)).getD false
  kept : ∀ k, k ∈ db.competitionRows → k ∈ db'.competitionRows
  /-- The operator updates rows that are there. -/
  found : ∀ (k : ℤ) (value : Bool), write.enables k = some value → k ∈ db.competitionRows

theorem Effect.congr {db db₁ db' : Db} {write : Write} (h : Effect db write db₁)
    (hcompetitions : db'.competitionRows = db₁.competitionRows)
    (hseasons : db'.seasonRows = db₁.seasonRows) : Effect db write db' where
  seasons := hseasons ▸ h.seasons
  enabled := hcompetitions ▸ h.enabled
  kept := hcompetitions ▸ h.kept
  found := h.found

/-! ### A match -/

/-- A season statement creates a missing season and leaves a present one alone. -/
theorem insertSeason_columns {db db' : Db} {id c : ℤ} {s e : Date}
    (h : insertSeason db id c s e = .ok db') (k : ℤ) :
    db'.seasonRows[k]?.map seasonColumns =
      (db.seasonRows[k]?.map seasonColumns).or (if id = k then some ⟨c, s, e⟩ else none) := by
  simp only [insertSeason, bind_eq_ok] at h
  obtain ⟨id', hid, c', hc, h⟩ := h
  obtain rfl := bigint_ok hid
  obtain rfl := bigint_ok hc
  split_ifs at h with hdates hmem hcompetition
  · obtain rfl := pure_eq_ok.mp h
    split_ifs with hk
    · obtain ⟨row, hrow⟩ := mem_iff_getElem?.mp hmem
      rw [← hk, hrow]
      rfl
    · rw [Option.or_none]
  · rw [← pure_eq_ok.mp h]
    simp only [Db.putSeason, getElem?_put]
    split_ifs with hk
    · rw [← hk, ExtTreeMap.getElem?_eq_none hmem]
      rfl
    · rw [Option.or_none]

theorem syncMatchRows_effect {db db' : Db} {m : Match} {row : Option ℤ}
    (h : syncMatchRows db m = .ok (db', row)) : Effect db (.match_ m) db' := by
  have hcompetitions := (syncMatchRows_frame h).competitions
  simp only [syncMatchRows, bind_eq_ok] at h
  obtain ⟨db₁, hseason, db₂, hhome, db₃, haway, hmatch⟩ := h
  have hseasons : db'.seasonRows = db₁.seasonRows := by
    obtain ⟨_, -, rfl⟩ := upsertTeam_ok hhome
    obtain ⟨_, -, rfl⟩ := upsertTeam_ok haway
    obtain ⟨_, -, ⟨-, -, _, _, _, rfl⟩ | ⟨-, -, rfl⟩⟩ := upsertMatch_ok hmatch <;> rfl
  exact {
    seasons := by
      intro k _
      rw [hseasons]
      exact insertSeason_columns hseason k
    enabled := by
      intro k row hrow
      rw [hcompetitions] at hrow
      rw [hrow]
      rfl
    kept := by
      intro k hk
      rwa [hcompetitions]
    found := by
      intro k value hvalue
      cases hvalue }

theorem syncMatch_effect {eventId : ℤ} {db db' : Db} {m : Match} {row : Option ℤ}
    (h : syncMatch eventId db m = .ok (db', row)) : Effect db (.match_ m) db' := by
  obtain ⟨db₁, hrows, hview⟩ := syncMatch_rows h
  have hsame := sameTables_of_unannounced hview
  exact (syncMatchRows_effect hrows).congr hsame.competitions hsame.seasons

/-! ### A competition -/

theorem upsertCompetition_ok {db db' : Db} {id : ℤ} {name code type : String}
    {emblem : Option String} (h : upsertCompetition db id name code type emblem = .ok db') :
    db'.seasonRows = db.seasonRows ∧
      ∃ row, db'.competitionRows = db.competitionRows.insert id row ∧
        row.enabled = (db.competitionRows[id]?.map CompetitionRow.enabled).getD false := by
  simp only [upsertCompetition, bind_eq_ok] at h
  obtain ⟨id', hid, name, -, code, -, type, -, emblem, -, h⟩ := h
  obtain rfl := bigint_ok hid
  split_ifs at h with hcode
  obtain rfl := pure_eq_ok.mp h
  refine ⟨rfl, _, rfl, ?_⟩
  cases db.competitionRows[id']? <;> rfl

theorem upsertSeason_ok {db db' : Db} {id c : ℤ} {s e : Date}
    (h : upsertSeason db id c s e = .ok db') :
    db'.competitionRows = db.competitionRows ∧
      ∃ row, db'.seasonRows = db.seasonRows.insert id row ∧ seasonColumns row = ⟨c, s, e⟩ := by
  simp only [upsertSeason, bind_eq_ok] at h
  obtain ⟨id', hid, h⟩ := h
  obtain rfl := bigint_ok hid
  split_ifs at h with hdates hcompetition
  obtain rfl := pure_eq_ok.mp h
  exact ⟨rfl, _, rfl, rfl⟩

theorem fromIsoFormat_ok {field : DateField} {d : Date} (h : fromIsoFormat field = .ok d) :
    field = .iso d := by
  cases field with
  | absent => cases h
  | malformed => cases h
  | iso d' =>
      obtain rfl := Except.ok.inj h
      rfl

/-- The guard passes exactly the seasons a payload carries, the id 0 apart. -/
theorem carries_of_unusable {comp : CompetitionPayload} {k : ℤ} (hk : k ≠ 0)
    (h : ∀ season, comp.currentSeason = some season → usableSeason season = none) :
    comp.carries k = none := by
  unfold CompetitionPayload.carries
  split
  · rename_i id carried startDate endDate hid hseason
    have hzero : carried = 0 := by simpa [usableSeason] using h _ hseason
    rw [hzero, if_neg hk.symm]
  · rfl

theorem carries_of_usable {comp : CompetitionPayload} {season : CurrentSeason} {id seasonId : ℤ}
    {startDate endDate : Date} (hid : comp.id = some id)
    (hseason : comp.currentSeason = some season) (husable : usableSeason season = some seasonId)
    (hstart : fromIsoFormat season.startDate = .ok startDate)
    (hend : fromIsoFormat season.endDate = .ok endDate) (k : ℤ) :
    comp.carries k = if seasonId = k then some ⟨id, startDate, endDate⟩ else none := by
  obtain ⟨carried, startField, endField⟩ := season
  obtain rfl := fromIsoFormat_ok hstart
  obtain rfl := fromIsoFormat_ok hend
  have hcarried : carried = some seasonId := by
    cases carried with
    | none => cases husable
    | some i =>
        simp only [usableSeason] at husable
        split_ifs at husable
        exact husable
  subst hcarried
  simp only [CompetitionPayload.carries, hid, hseason]

/-- What one competition of a committed call writes. -/
theorem syncCompetition_effect {db db' : Db} {comp : CompetitionPayload}
    (h : syncCompetition db comp = .ok db') : Effect db (.competition comp) db' := by
  obtain ⟨id, _, _, _, db₁, hid, hupsert, hrest⟩ := syncCompetition_ok h
  obtain ⟨hseasons₁, row, hrows₁, henabled⟩ := upsertCompetition_ok hupsert
  -- the season statement, if it is reached, overwrites the season that is carried
  have hcolumns : db'.competitionRows = db₁.competitionRows ∧
      ∀ k, k ≠ 0 → db'.seasonRows[k]?.map seasonColumns =
        (comp.carries k).or (db₁.seasonRows[k]?.map seasonColumns) := by
    rcases hrest with ⟨rfl, hunusable⟩ | ⟨season, seasonId, s, e, hseason, husable, hs, he, hrow⟩
    · refine ⟨rfl, fun k hk => ?_⟩
      rw [carries_of_unusable hk hunusable, Option.none_or]
    · obtain ⟨hcompetitions, srow, hrows, hsrow⟩ := upsertSeason_ok hrow
      refine ⟨hcompetitions, fun k _ => ?_⟩
      rw [hrows, getElem?_put, carries_of_usable hid hseason husable hs he]
      split_ifs with hk
      · rw [Option.map_some, hsrow, Option.some_or]
      · rw [Option.none_or]
  obtain ⟨hcompetitions, hseasons⟩ := hcolumns
  exact {
    seasons := by
      intro k hk
      rw [hseasons k hk, hseasons₁]
      congr 1
      exact Option.or_none.symm
    enabled := by
      intro k r hr
      rw [hcompetitions, hrows₁, getElem?_put] at hr
      split_ifs at hr with hk
      · obtain rfl := Option.some.inj hr
        rw [henabled, hk]
        rfl
      · rw [hr]
        rfl
    kept := by
      intro k hk
      rw [hcompetitions, hrows₁]
      exact mem_put_of_mem hk
    found := by
      intro k value hvalue
      cases hvalue }

/-! ### The operator -/

/-- The operator's update writes one column of one row. -/
theorem setEnabled_rows {db : Db} {id : ℤ} (value : Bool) (hid : id ∈ db.competitionRows) :
    (setEnabled db id value).seasonRows = db.seasonRows ∧
      ∃ row : CompetitionRow, (setEnabled db id value).competitionRows =
        db.competitionRows.insert id { row with enabled := value } := by
  unfold setEnabled
  split
  · rename_i hnone
    obtain ⟨row, hrow⟩ := mem_iff_getElem?.mp hid
    rw [hnone] at hrow
    cases hrow
  · rename_i row hrow
    exact ⟨rfl, row, rfl⟩

theorem setEnabled_effect {db : Db} {id : ℤ} {value : Bool} (hid : id ∈ db.competitionRows) :
    Effect db (.enabled id value) (setEnabled db id value) := by
  obtain ⟨hseasons, row, hrows⟩ := setEnabled_rows value hid
  exact {
    seasons := by
      intro k _
      rw [hseasons]
      exact Option.or_none.symm
    enabled := by
      intro k r hr
      rw [hrows, getElem?_put] at hr
      simp only [Write.enables]
      split_ifs at hr ⊢ with hk
      · rw [← Option.some.inj hr]
        rfl
      · rw [hr]
        rfl
    kept := by
      intro k hk
      rw [hrows]
      exact mem_put_of_mem hk
    found := by
      intro k v hv
      simp only [Write.enables] at hv
      split_ifs at hv with hk
      exact hk ▸ hid }

/-! ## A list of writes -/

/-- The writes happen one after another. -/
inductive Effects : Db → List Write → Db → Prop
  | nil (db : Db) : Effects db [] db
  | cons {db db₁ db' : Db} {write : Write} {writes : List Write} :
      Effect db write db₁ → Effects db₁ writes db' → Effects db (write :: writes) db'

theorem foldlM_effects {comps : List CompetitionPayload} : ∀ {db db' : Db},
    comps.foldlM syncCompetition db = .ok db' →
      Effects db (comps.map .competition) db' := by
  induction comps with
  | nil =>
      intro db db' h
      exact pure_eq_ok.mp h ▸ .nil db
  | cons comp comps ih =>
      intro db db' h
      obtain ⟨db₁, hcomp, hrest⟩ := bind_eq_ok.mp h
      exact .cons (syncCompetition_effect hcomp) (ih hrest)

theorem Commits.effects {pg pg' : Pg} {ms : List Match} (h : Commits pg ms pg') :
    Effects pg.db (ms.map .match_) pg'.db := by
  induction h with
  | nil pg => exact .nil pg.db
  | cons hm _ ih =>
      rw [Pg.commit_db] at ih
      exact .cons (syncMatch_effect hm) ih

theorem syncHistoricFrom_effects {ms : List Match} : ∀ {db db' : Db} {n k : ℕ},
    syncHistoricFrom db n ms = .ok (db', k) → Effects db (ms.map .match_) db' := by
  induction ms with
  | nil =>
      intro db db' n k h
      obtain ⟨rfl, -⟩ := Prod.mk.inj (Except.ok.inj h)
      exact .nil db
  | cons m ms ih =>
      intro db db' n k h
      obtain ⟨db₁, row, hm, hrest⟩ := syncHistoricFrom_ok h
      exact .cons (syncMatchRows_effect hm) (ih hrest)

/-- **A call does what it commits**, and nothing else, to the two tables. -/
theorem perform_effects (pg : Pg) (call : Call) :
    Effects pg.db (perform pg call).2 (perform pg call).1.db := by
  cases call with
  | syncCompetitions comps =>
      simp only [perform, syncCompetitions]
      cases h : comps.foldlM syncCompetition pg.db with
      | error e => exact .nil pg.db
      | ok db => exact foldlM_effects h
  | syncMatchesPerCompetition ms =>
      simp only [perform, syncMatchesPerCompetition, syncMatchesFrom_state]
      exact (commits_beforeRejected ms pg).effects
  | syncHistoricMatches ms =>
      simp only [perform, syncHistoricMatches]
      cases h : syncHistoricFrom pg.db 0 ms with
      | error e => exact .nil pg.db
      | ok out =>
          obtain ⟨db, k⟩ := out
          exact syncHistoricFrom_effects h
  | setEnabled id value =>
      simp only [perform]
      split_ifs with hid
      · exact .cons (setEnabled_effect hid) (.nil _)
      · exact .nil pg.db

/-! ## What the tables hold -/

/-- The two tables hold what the writes leave in them. -/
structure Tracks (writes : List Write) (db : Db) : Prop where
  seasons : ∀ k, k ≠ 0 → db.seasonRows[k]?.map seasonColumns = ownedSeason writes k
  enabled : ∀ (k : ℤ) (row : CompetitionRow), db.competitionRows[k]? = some row →
    row.enabled = ownedEnabled writes k
  found : ∀ (k : ℤ) (value : Bool), lastValue (Write.enables k) writes = some value →
    k ∈ db.competitionRows

theorem Tracks.step {writes : List Write} {db db' : Db} {write : Write} (h : Tracks writes db)
    (he : Effect db write db') : Tracks (writes ++ [write]) db' where
  seasons := by
    intro k hk
    rw [he.seasons k hk, h.seasons k hk]
    simp only [ownedSeason, lastValue_concat, findSome?_concat, Option.or_assoc]
  enabled := by
    intro k row hrow
    rw [he.enabled k row hrow, ownedEnabled, lastValue_concat]
    cases hvalue : write.enables k with
    | some value => rfl
    | none =>
        simp only [Option.none_or]
        cases hold : db.competitionRows[k]? with
        | some r => exact h.enabled k r hold
        | none =>
            cases hset : lastValue (Write.enables k) writes with
            | none => rfl
            | some value =>
                obtain ⟨r, hr⟩ := mem_iff_getElem?.mp (h.found k value hset)
                rw [hold] at hr
                cases hr
  found := by
    intro k value hvalue
    rw [lastValue_concat] at hvalue
    apply he.kept
    cases hset : write.enables k with
    | some v => exact he.found k v hset
    | none =>
        rw [hset, Option.none_or] at hvalue
        exact h.found k value hvalue

theorem Tracks.run {writes new : List Write} {db db' : Db} (h : Tracks writes db)
    (he : Effects db new db') : Tracks (writes ++ new) db' := by
  induction he generalizing writes with
  | nil => rwa [List.append_nil]
  | @cons db db₁ db' write new hfirst _ ih =>
      have hstep := ih (h.step hfirst)
      rwa [List.append_assoc] at hstep

theorem tracks_committed (calls : List Call) : Tracks (committed calls) (afterCalls calls).db := by
  induction calls using List.reverseRecOn with
  | nil =>
      refine ⟨?_, ?_, ?_⟩
      · intro k _
        exact congrArg _ (ExtTreeMap.getElem?_empty)
      · intro k row hrow
        rw [show (afterCalls []).db.competitionRows = ∅ from rfl] at hrow
        simp at hrow
      · intro k value hvalue
        cases hvalue
  | append_singleton calls call ih =>
      have hrun := ih.run (perform_effects (afterCalls calls) call)
      have hwrites : committed (calls ++ [call]) =
          committed calls ++ (perform (afterCalls calls) call).2 := by
        simp only [committed, outputs_append, List.flatten_append, outputs_cons, outputs_nil,
          List.flatten_cons, List.flatten_nil, List.append_nil]
        rfl
      have hstate : afterCalls (calls ++ [call]) = (perform (afterCalls calls) call).1 :=
        finalState_concat ..
      rwa [hwrites, hstate]

/-- Writes that are not the operator's leave `enabled` of every row alone. -/
theorem Effects.enabled_kept {db db' : Db} {writes : List Write} (h : Effects db writes db')
    {k : ℤ} (hsync : ∀ write ∈ writes, write.enables k = none) {row : CompetitionRow}
    (hrow : db.competitionRows[k]? = some row) :
    ∃ row', db'.competitionRows[k]? = some row' ∧ row'.enabled = row.enabled := by
  induction h generalizing row with
  | nil => exact ⟨row, hrow, rfl⟩
  | @cons db db₁ db' write writes hfirst _ ih =>
      obtain ⟨row₁, hrow₁⟩ :=
        mem_iff_getElem?.mp (hfirst.kept k (mem_iff_getElem?.mpr ⟨row, hrow⟩))
      have hsame : row₁.enabled = row.enabled := by
        rw [hfirst.enabled k row₁ hrow₁, hsync write List.mem_cons_self, hrow]
        rfl
      obtain ⟨row', hrow', hafter⟩ :=
        ih (fun w hw => hsync w (List.mem_cons_of_mem write hw)) hrow₁
      exact ⟨row', hrow', hafter.trans hsame⟩

def Call.isSync : Call → Bool
  | .setEnabled _ _ => false
  | _ => true

theorem perform_sync {call : Call} (hsync : call.isSync = true) (pg : Pg) (k : ℤ) :
    ∀ write ∈ (perform pg call).2, write.enables k = none := by
  have hmatches : ∀ ms : List Match, ∀ write ∈ ms.map Write.match_, write.enables k = none := by
    intro ms write hwrite
    obtain ⟨m, -, rfl⟩ := List.mem_map.mp hwrite
    rfl
  cases call with
  | syncCompetitions comps =>
      simp only [perform, syncCompetitions]
      cases comps.foldlM syncCompetition pg.db with
      | error e => simp
      | ok db =>
          intro write hwrite
          obtain ⟨comp, -, rfl⟩ := List.mem_map.mp hwrite
          rfl
  | syncMatchesPerCompetition ms => exact hmatches _
  | syncHistoricMatches ms =>
      simp only [perform, syncHistoricMatches]
      cases syncHistoricFrom pg.db 0 ms with
      | error e => simp
      | ok out => exact hmatches ms
  | setEnabled id value => cases hsync

/-- **Column ownership.** After any sequence of calls a competition is enabled
as the operator last set it, and not before; no sync moves the flag; and a
season whose id is not 0 has the columns of the last committed competition
payload that carries it, or else those of the match payload that created it. -/
theorem writers_own_columns (calls : List Call) :
    (∀ (k : ℤ) (row : CompetitionRow),
      (afterCalls calls).db.competitionRows[k]? = some row →
        row.enabled = ownedEnabled (committed calls) k) ∧
    (∀ call : Call, call.isSync = true → ∀ (k : ℤ) (row : CompetitionRow),
      (afterCalls calls).db.competitionRows[k]? = some row →
        ∃ row', (afterCalls (calls ++ [call])).db.competitionRows[k]? = some row' ∧
          row'.enabled = row.enabled) ∧
    ∀ k : ℤ, k ≠ 0 → (afterCalls calls).db.seasonRows[k]?.map seasonColumns =
      ownedSeason (committed calls) k := by
  have htracks := tracks_committed calls
  refine ⟨htracks.enabled, ?_, htracks.seasons⟩
  intro call hsync k row hrow
  have hstate : afterCalls (calls ++ [call]) = (perform (afterCalls calls) call).1 :=
    finalState_concat ..
  rw [hstate]
  exact (perform_effects _ call).enabled_kept (perform_sync hsync _ k) hrow

/-! ### Two seasons of one league -/

/-- The league with the `currentSeason` of the given id. -/
def leagueWithSeason (seasonId : ℤ) : CompetitionPayload :=
  ⟨some 2021, some "Premier League", some "PL", some "LEAGUE", none,
    some ⟨some seasonId, .iso 10, .iso 310⟩⟩

/-- Match 1, in the season of the given id. -/
def matchOfSeason (seasonId : ℤ) : Match :=
  { fixturePayload 1 "SCHEDULED" with season := ⟨seasonId, 0, 300⟩ }

/-- A match creates the season, the league's payload carries it, the operator
enables the league; a failing payload and a backfill come after. -/
def ownershipRun (seasonId : ℤ) : List Call :=
  [.syncCompetitions [⟨some 2021, some "Premier League", some "PL", some "LEAGUE", none, none⟩],
    .syncMatchesPerCompetition [matchOfSeason seasonId],
    .syncCompetitions [leagueWithSeason seasonId],
    .setEnabled 2021 true,
    .syncCompetitions [⟨some 2021, none, some "PL", some "LEAGUE", none, none⟩],
    .syncHistoricMatches [matchOfSeason seasonId]]

/-- Another sync, which writes the league's row again. -/
def laterSync : Call := .syncCompetitions [leagueWithSeason 2]

theorem ownershipRun_owned :
    (∃ row row', (afterCalls (ownershipRun 1)).db.competitionRows[(2021 : ℤ)]? = some row ∧
      row.enabled = true ∧
      (afterCalls (ownershipRun 1 ++ [laterSync])).db.competitionRows[(2021 : ℤ)]? = some row' ∧
      row'.enabled = row.enabled) ∧
    (afterCalls (ownershipRun 1)).db.seasonRows[(1 : ℤ)]?.map seasonColumns =
      some ⟨2021, 10, 310⟩ := by
  obtain ⟨henabled, hsync, hseasons⟩ := writers_own_columns (ownershipRun 1)
  have hpresent : (2021 : ℤ) ∈ (afterCalls (ownershipRun 1)).db.competitionRows := by
    decide +kernel
  obtain ⟨row, hrow⟩ := mem_iff_getElem?.mp hpresent
  obtain ⟨row', hrow', hsame⟩ := hsync laterSync rfl 2021 row hrow
  refine ⟨⟨row, row', hrow, ?_, hrow', hsame⟩, ?_⟩
  · rw [henabled 2021 row hrow]
    decide +kernel
  · rw [hseasons 1 (by decide)]
    decide +kernel

/-- The committed payload carries season 0 with both dates, but the guard takes
the id for a missing one: the season keeps the dates of the match. -/
theorem season_zero_not_overwritten :
    ¬ ∀ (calls : List Call) (k : ℤ), (afterCalls calls).db.seasonRows[k]?.map seasonColumns =
      ownedSeason (committed calls) k := by
  intro h
  have hkept : (afterCalls (ownershipRun 0)).db.seasonRows[(0 : ℤ)]?.map seasonColumns =
      some ⟨2021, 0, 300⟩ := by decide +kernel
  have hcarried : ownedSeason (committed (ownershipRun 0)) 0 = some ⟨2021, 10, 310⟩ := by
    decide +kernel
  rw [h, hcarried] at hkept
  exact absurd hkept (by decide)

end AGame.Worker

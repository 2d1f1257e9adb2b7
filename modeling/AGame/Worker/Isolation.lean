import AGame.Worker.SyncSpec

/-!
# Per-match transactions and the loop around them

`sync_matches_per_competition` opens one transaction per match, so a rejected
match rolls back only itself. The loop, however, lets the exception escape:
nothing behind the first rejected match is processed.

`accepted` is the list a loop that skipped rejected matches would have
committed. The tables end up the same as after that list exactly when the
acceptable matches behind the first rejected one bring nothing new to the
database and the acceptable matches before it (`sync_isolates_iff`).
-/

namespace AGame.Worker

open Std Base

/-! ## Sequences of committed transactions -/

/-- The server after a committed match transaction. -/
def Pg.commit (pg : Pg) (db : Db) (row : Option ℤ) : Pg :=
  match row with
  | none => { pg with db := db }
  | some _ => ⟨db, pg.rabbitEventSeq + 1⟩

@[simp] theorem Pg.commit_db (pg : Pg) (db : Db) (row : Option ℤ) :
    (pg.commit db row).db = db := by
  cases row <;> rfl

/-- `Commits pg ms pg'`: the transactions of `ms` all commit, one after another. -/
inductive Commits : Pg → List Match → Pg → Prop
  | nil (pg : Pg) : Commits pg [] pg
  | cons {pg pg' : Pg} {m : Match} {ms : List Match} {db : Db} {row : Option ℤ} :
      syncMatch pg.rabbitEventSeq pg.db m = .ok (db, row) →
      Commits (pg.commit db row) ms pg' → Commits pg (m :: ms) pg'

/-- The matches of the list that would be committed if rejected ones were skipped. -/
def accepted (pg : Pg) : List Match → List Match
  | [] => []
  | m :: ms =>
      match syncMatch pg.rabbitEventSeq pg.db m with
      | .error _ => accepted pg ms
      | .ok (db, row) => m :: accepted (pg.commit db row) ms

/-- The server when the first match is rejected, and the matches behind it. -/
def upToRejected (pg : Pg) : List Match → Pg × List Match
  | [] => (pg, [])
  | m :: ms =>
      match syncMatch pg.rabbitEventSeq pg.db m with
      | .error _ => (pg, ms)
      | .ok (db, row) => upToRejected (pg.commit db row) ms

/-- The matches committed before the first rejected one. -/
def beforeRejected (pg : Pg) : List Match → List Match
  | [] => []
  | m :: ms =>
      match syncMatch pg.rabbitEventSeq pg.db m with
      | .error _ => []
      | .ok (db, row) => m :: beforeRejected (pg.commit db row) ms

/-- The acceptable matches behind the first rejected one. -/
def behindRejected (pg : Pg) (ms : List Match) : List Match :=
  accepted (upToRejected pg ms).1 (upToRejected pg ms).2

theorem syncMatchesFrom_ok {pg : Pg} {m : Match} {db : Db} {row : Option ℤ}
    (ms : List Match) (n : ℕ) (h : syncMatch pg.rabbitEventSeq pg.db m = .ok (db, row)) :
    ∃ n', syncMatchesFrom pg n (m :: ms) = syncMatchesFrom (pg.commit db row) n' ms := by
  cases row with
  | none => exact ⟨n, by simp only [syncMatchesFrom, h, Pg.commit]⟩
  | some id => exact ⟨n + 1, by simp only [syncMatchesFrom, h, Pg.commit]⟩

/-- The loop stops at the first rejected match. -/
theorem syncMatchesFrom_state (ms : List Match) : ∀ (pg : Pg) (n : ℕ),
    (syncMatchesFrom pg n ms).1 = (upToRejected pg ms).1 := by
  induction ms with
  | nil => exact fun _ _ => rfl
  | cons m ms ih =>
      intro pg n
      cases h : syncMatch pg.rabbitEventSeq pg.db m with
      | error e => simp only [syncMatchesFrom, upToRejected, h]
      | ok out =>
          obtain ⟨db, row⟩ := out
          obtain ⟨n', hn'⟩ := syncMatchesFrom_ok ms n h
          simp only [hn', upToRejected, h, ih]

theorem commits_beforeRejected (ms : List Match) : ∀ pg : Pg,
    Commits pg (beforeRejected pg ms) (upToRejected pg ms).1 := by
  induction ms with
  | nil => exact fun pg => .nil pg
  | cons m ms ih =>
      intro pg
      cases h : syncMatch pg.rabbitEventSeq pg.db m with
      | error e =>
          simp only [beforeRejected, upToRejected, h]
          exact .nil pg
      | ok out =>
          obtain ⟨db, row⟩ := out
          simp only [beforeRejected, upToRejected, h]
          exact .cons h (ih _)

theorem commits_accepted (ms : List Match) : ∀ (pg : Pg) (n : ℕ),
    Commits pg (accepted pg ms) (syncMatchesFrom pg n (accepted pg ms)).1 := by
  induction ms with
  | nil => exact fun pg _ => .nil pg
  | cons m ms ih =>
      intro pg n
      cases h : syncMatch pg.rabbitEventSeq pg.db m with
      | error e => simpa only [accepted, h] using ih pg n
      | ok out =>
          obtain ⟨db, row⟩ := out
          simp only [accepted, h]
          obtain ⟨n', hn'⟩ := syncMatchesFrom_ok
            (accepted (pg.commit db row) ms) n h
          rw [hn']
          exact .cons h (ih _ n')

/-- Skipping rejected matches: up to the first of them nothing differs. -/
theorem syncMatchesFrom_accepted (ms : List Match) : ∀ (pg : Pg) (n : ℕ),
    ∃ n', (syncMatchesFrom pg n (accepted pg ms)).1 =
      (syncMatchesFrom (upToRejected pg ms).1 n'
        (accepted (upToRejected pg ms).1 (upToRejected pg ms).2)).1 := by
  induction ms with
  | nil => exact fun _ n => ⟨n, rfl⟩
  | cons m ms ih =>
      intro pg n
      cases h : syncMatch pg.rabbitEventSeq pg.db m with
      | error e => exact ⟨n, by simp only [accepted, upToRejected, h]⟩
      | ok out =>
          obtain ⟨db, row⟩ := out
          obtain ⟨n₁, hn₁⟩ := syncMatchesFrom_ok
            (accepted (pg.commit db row) ms) n h
          obtain ⟨n₂, hn₂⟩ := ih (pg.commit db row) n₁
          exact ⟨n₂, by simp only [accepted, upToRejected, h, hn₁, hn₂]⟩

/-! ## What a sequence of transactions leaves in each table -/

theorem Commits.season_mono {pg pg' : Pg} {ms : List Match} (h : Commits pg ms pg') {k : ℤ}
    (hk : k ∈ pg.db.seasonRows) : k ∈ pg'.db.seasonRows := by
  induction h with
  | nil => exact hk
  | cons hm _ ih =>
      apply ih
      rw [Pg.commit_db]
      rcases (syncMatch_ok hm).season with ⟨-, hrows⟩ | ⟨-, r, hrows⟩
      · exact hrows ▸ hk
      · exact hrows ▸ mem_put_of_mem hk

theorem Commits.season_mem {pg pg' : Pg} {ms : List Match} (h : Commits pg ms pg') :
    ∀ m ∈ ms, m.season.id ∈ pg'.db.seasonRows := by
  induction h with
  | nil => simp
  | cons hm hms ih =>
      intro m hmem
      rcases List.mem_cons.mp hmem with rfl | hmem
      · refine hms.season_mono ?_
        rw [Pg.commit_db]
        rcases (syncMatch_ok hm).season with ⟨hk, hrows⟩ | ⟨-, r, hrows⟩
        · exact hrows ▸ hk
        · exact hrows ▸ mem_put.mpr (Or.inl rfl)
      · exact ih m hmem

/-- Seasons are only ever added. -/
theorem Commits.season_eq_iff {pg pg' : Pg} {ms : List Match} (h : Commits pg ms pg') :
    pg'.db.seasonRows = pg.db.seasonRows ↔ ∀ m ∈ ms, m.season.id ∈ pg.db.seasonRows := by
  constructor
  · intro heq m hm
    exact heq ▸ h.season_mem m hm
  · intro hall
    induction h with
    | nil => rfl
    | @cons pg pg' m ms db row hm _ ih =>
        have hrows : db.seasonRows = pg.db.seasonRows := by
          rcases (syncMatch_ok hm).season with ⟨-, hrows⟩ | ⟨habsent, -⟩
          · exact hrows
          · exact absurd (hall m List.mem_cons_self) habsent
        rw [ih, Pg.commit_db, hrows]
        intro m' hm'
        rw [Pg.commit_db, hrows]
        exact hall m' (List.mem_cons_of_mem _ hm')

theorem Commits.event_mono {pg pg' : Pg} {ms : List Match} (h : Commits pg ms pg') {k : ℤ}
    (hk : k ∈ pg.db.rabbitEventRows) : k ∈ pg'.db.rabbitEventRows := by
  induction h with
  | nil => exact hk
  | cons hm _ ih =>
      apply ih
      rw [Pg.commit_db]
      obtain ⟨_, -, hcase⟩ := (syncMatch_ok hm).match_
      rcases hcase with ⟨-, -, -, -, hrows⟩ | ⟨-, -, -, hrows⟩
      · exact hrows ▸ mem_put_of_mem hk
      · exact hrows ▸ hk

/-- The match is stored with the payload's six columns. -/
def FactsStored (db : Db) (m : Match) : Prop :=
  ∃ r, db.matchRows[m.id]? = some r ∧ rowFacts r = m.facts

theorem factsStored_congr {db db' : Db} (h : db.matchRows = db'.matchRows) (m : Match) :
    FactsStored db m ↔ FactsStored db' m := by
  simp only [FactsStored, h]

/-- A transaction writes a match and an event exactly when the match is not
already stored. -/
theorem SyncedRows.gate {eventId : ℤ} {db db' : Db} {m : Match} {row : Option ℤ}
    (h : SyncedRows eventId db m db' row) :
    (FactsStored db m ∧ row = none ∧ db'.matchRows = db.matchRows ∧
        db'.rabbitEventRows = db.rabbitEventRows) ∨
      (¬ FactsStored db m ∧ row = some m.id ∧ eventId ∉ db.rabbitEventRows ∧
        db'.rabbitEventRows = db.rabbitEventRows.insert eventId ⟨"match.changed", m.id⟩) := by
  obtain ⟨excluded, hexcluded, hcase⟩ := h.match_
  have hfacts : rowFacts excluded = m.facts := (matchRow_ok hexcluded).2.2.2
  rcases hcase with ⟨hopen, hrow, -, hkey, hrows⟩ | ⟨hclosed, hrow, hm, hr⟩
  · refine Or.inr ⟨?_, hrow, hkey, hrows⟩
    rintro ⟨r, hr, hsame⟩
    simp only [gateOpen, hr] at hopen
    rw [changeGate_eq_false_iff.mpr (hsame.trans hfacts.symm)] at hopen
    exact Bool.noConfusion hopen
  · left
    obtain ⟨r, hr', hsame⟩ := h.stored
    exact ⟨⟨r, hm ▸ hr', hsame⟩, hrow, hm, hr⟩

/-- The outbox stays as it is exactly when every gate stays shut, and then the
match table stays as it is too. -/
theorem Commits.event_eq_iff {pg pg' : Pg} {ms : List Match} (h : Commits pg ms pg') :
    pg'.db.rabbitEventRows = pg.db.rabbitEventRows ↔ ∀ m ∈ ms, FactsStored pg.db m := by
  induction h with
  | nil => simp
  | @cons pg pg' m ms db row hm hms ih =>
      rw [Pg.commit_db] at ih
      rcases (syncMatch_ok hm).gate with ⟨hstored, -, hmatch, hevents⟩ | ⟨hnew, -, hout, hrows⟩
      · rw [hevents] at ih
        rw [ih, List.forall_mem_cons]
        simp only [factsStored_congr hmatch, hstored, true_and]
      · constructor
        · intro heq
          have hmem : pg.rabbitEventSeq ∈ pg'.db.rabbitEventRows :=
            hms.event_mono (by rw [Pg.commit_db, hrows, mem_put]; exact Or.inl rfl)
          exact absurd (heq ▸ hmem) hout
        · intro hall
          exact absurd (hall m List.mem_cons_self) hnew

/-- The last of the matches with this id. -/
def lastOf (ms : List Match) (k : ℤ) : Option Match :=
  ms.reverse.find? fun m => m.id = k

theorem lastOf_cons (m : Match) (ms : List Match) (k : ℤ) :
    lastOf (m :: ms) k = (lastOf ms k).or (if m.id = k then some m else none) := by
  simp only [lastOf, List.reverse_cons, List.find?_append]
  by_cases h : m.id = k <;> simp [h]

/-- The last match of the list with a given id is one of the list. -/
theorem lastOf_mem {ms : List Match} {k : ℤ} {p : Match} (h : lastOf ms k = some p) :
    p ∈ ms ∧ p.id = k := by
  refine ⟨List.mem_reverse.mp (List.mem_of_find?_eq_some h), ?_⟩
  simpa using List.find?_some h

theorem lastOf_eq_none {ms : List Match} {k : ℤ} :
    lastOf ms k = none ↔ ∀ m ∈ ms, m.id ≠ k := by
  simp [lastOf]

theorem Commits.match_eq {pg pg' : Pg} {ms : List Match} (h : Commits pg ms pg')
    (hall : ∀ m ∈ ms, FactsStored pg.db m) : pg'.db.matchRows = pg.db.matchRows := by
  induction h with
  | nil => rfl
  | @cons pg pg' m ms db row hm _ ih =>
      rcases (syncMatch_ok hm).gate with ⟨-, -, hmatch, -⟩ | ⟨hnew, -⟩
      · rw [ih, Pg.commit_db, hmatch]
        intro m' hm'
        rw [Pg.commit_db, factsStored_congr hmatch]
        exact hall m' (List.mem_cons_of_mem _ hm')
      · exact absurd (hall m List.mem_cons_self) hnew

/-! ### Teams: the last match to name a team decides its row -/

/-- The teams the matches name, in the order they are written. -/
def namedTeams (ms : List Match) : List Team :=
  ms.flatMap fun m => [m.homeTeam, m.awayTeam]

/-- The last of the matches to name team `t` describes it so. -/
def lastNamed (ms : List Match) (t : ℤ) : Option Team :=
  (namedTeams ms).reverse.find? fun team => team.id = t

theorem lastNamed_cons (m : Match) (ms : List Match) (t : ℤ) :
    lastNamed (m :: ms) t = (lastNamed ms t).or
      (if m.awayTeam.id = t then some m.awayTeam
        else if m.homeTeam.id = t then some m.homeTeam else none) := by
  have hnamed : namedTeams (m :: ms) = [m.homeTeam, m.awayTeam] ++ namedTeams ms := rfl
  simp only [lastNamed, hnamed, List.reverse_append, List.find?_append]
  congr 1
  by_cases haway : m.awayTeam.id = t <;> by_cases hhome : m.homeTeam.id = t <;>
    simp [haway, hhome]

theorem Commits.team_row {pg pg' : Pg} {ms : List Match} (h : Commits pg ms pg') (t : ℤ) :
    (lastNamed ms t = none ∧ pg'.db.teamRows[t]? = pg.db.teamRows[t]?) ∨
      ∃ team row, lastNamed ms t = some team ∧ proposedTeam team = .ok row ∧
        pg'.db.teamRows[t]? = some row := by
  induction h with
  | nil => exact Or.inl ⟨rfl, rfl⟩
  | @cons pg pg' m ms db row hm _ ih =>
      rw [lastNamed_cons]
      rcases ih with ⟨hnone, hrow⟩ | ⟨team, row', hsome, hok, hrow⟩
      · obtain ⟨home, away, hhome, haway, hteams⟩ := (syncMatch_ok hm).teams
        rw [Pg.commit_db, hteams, getElem?_put, getElem?_put] at hrow
        rw [hnone, Option.none_or, hrow]
        by_cases hta : m.awayTeam.id = t
        · exact Or.inr ⟨m.awayTeam, away, by simp [hta], haway, by simp [hta]⟩
        · by_cases hth : m.homeTeam.id = t
          · exact Or.inr ⟨m.homeTeam, home, by simp [hta, hth], hhome, by simp [hta, hth]⟩
          · exact Or.inl ⟨by simp [hta, hth], by simp [hta, hth]⟩
      · exact Or.inr ⟨team, row', by simp [hsome], hok, hrow⟩

/-- The stored row is the one the payload proposes. -/
def TeamStored (db : Db) (t : ℤ) (team : Team) : Prop :=
  ∃ row, proposedTeam team = .ok row ∧ db.teamRows[t]? = some row

/-- For every team the last of the matches to name it describes it as stored. -/
def TeamsStored (db : Db) (ms : List Match) : Prop :=
  ∀ t team, lastNamed ms t = some team → TeamStored db t team

theorem Commits.team_eq_iff {pg pg' : Pg} {ms : List Match} (h : Commits pg ms pg') :
    pg'.db.teamRows = pg.db.teamRows ↔ TeamsStored pg.db ms := by
  constructor
  · intro heq t team hlast
    rcases h.team_row t with ⟨hnone, -⟩ | ⟨team', row, hsome, hok, hrow⟩
    · rw [hnone] at hlast
      cases hlast
    · rw [hlast] at hsome
      obtain rfl := Option.some.inj hsome
      exact ⟨row, hok, heq ▸ hrow⟩
  · intro hstored
    refine ExtTreeMap.ext_getElem? fun t => ?_
    rcases h.team_row t with ⟨-, hrow⟩ | ⟨team, row, hsome, hok, hrow⟩
    · exact hrow
    · obtain ⟨row', hok', hrow'⟩ := hstored t team hsome
      rw [hok] at hok'
      obtain rfl := Except.ok.inj hok'
      rw [hrow, hrow']

/-! ## The loop against the list without its rejected matches -/

/-- The season, team and match tables and the outbox agree. -/
structure SameStored (db db' : Db) : Prop where
  seasons : db.seasonRows = db'.seasonRows
  teams : db.teamRows = db'.teamRows
  matches_ : db.matchRows = db'.matchRows
  events : db.rabbitEventRows = db'.rabbitEventRows

/-- Nothing of the matches is news to the database. -/
structure AlreadyStored (db : Db) (ms : List Match) : Prop where
  seasons : ∀ m ∈ ms, m.season.id ∈ db.seasonRows
  facts : ∀ m ∈ ms, FactsStored db m
  teams : TeamsStored db ms

theorem Commits.sameStored_iff {pg pg' : Pg} {ms : List Match} (h : Commits pg ms pg') :
    SameStored pg.db pg'.db ↔ AlreadyStored pg.db ms := by
  constructor
  · intro hs
    exact ⟨h.season_eq_iff.mp hs.seasons.symm, h.event_eq_iff.mp hs.events.symm,
      h.team_eq_iff.mp hs.teams.symm⟩
  · intro ha
    exact ⟨(h.season_eq_iff.mpr ha.seasons).symm, (h.team_eq_iff.mpr ha.teams).symm,
      (h.match_eq ha.facts).symm, (h.event_eq_iff.mpr ha.facts).symm⟩

/-! ### What the database knows after a sequence of transactions

Each of the three is a condition on the database before the sequence and on the
matches of the sequence. -/

def SeasonKnown (db : Db) (ms : List Match) (m : Match) : Prop :=
  m.season.id ∈ db.seasonRows ∨ ∃ p ∈ ms, p.season.id = m.season.id

/-- The last match of the sequence with `m`'s id has `m`'s six columns; the
stored row has them if there is no such match. -/
def FactsKnown (db : Db) (ms : List Match) (m : Match) : Prop :=
  match lastOf ms m.id with
  | some p => p.facts = m.facts
  | none => FactsStored db m

/-- The last match of the sequence that names the team describes it like this;
the stored row does if no match names it. -/
def TeamKnown (db : Db) (ms : List Match) (t : ℤ) (team : Team) : Prop :=
  match lastNamed ms t with
  | some last => proposedTeam last = proposedTeam team
  | none => TeamStored db t team

/-- The matches `behind` bring nothing new to the database and `before`. -/
structure NoNews (db : Db) (before behind : List Match) : Prop where
  seasons : ∀ m ∈ behind, SeasonKnown db before m
  facts : ∀ m ∈ behind, FactsKnown db before m
  teams : ∀ t team, lastNamed behind t = some team → TeamKnown db before t team

theorem Commits.seasonKnown_iff {pg pg' : Pg} {ms : List Match} (h : Commits pg ms pg')
    (m : Match) : m.season.id ∈ pg'.db.seasonRows ↔ SeasonKnown pg.db ms m := by
  unfold SeasonKnown
  induction h with
  | nil => simp
  | @cons pg pg' p ms db row hp _ ih =>
      rw [ih, Pg.commit_db, List.exists_mem_cons_iff]
      rcases (syncMatch_ok hp).season with ⟨hmem, hrows⟩ | ⟨-, r, hrows⟩
      · rw [hrows]
        by_cases heq : p.season.id = m.season.id
        · rw [heq] at hmem
          tauto
        · tauto
      · rw [hrows, mem_put]
        tauto

theorem Commits.factsKnown_iff {pg pg' : Pg} {ms : List Match} (h : Commits pg ms pg')
    (m : Match) : FactsStored pg'.db m ↔ FactsKnown pg.db ms m := by
  induction h with
  | nil => rfl
  | @cons pg pg' p ms db row hp _ ih =>
      rw [ih, FactsKnown, FactsKnown, lastOf_cons]
      cases lastOf ms m.id with
      | some last => rfl
      | none =>
          simp only [Pg.commit_db, Option.none_or]
          by_cases heq : p.id = m.id
          · obtain ⟨r, hr, hfacts⟩ := (syncMatch_ok hp).stored
            rw [heq] at hr
            simp only [if_pos heq, FactsStored, hr, Option.some.injEq, exists_eq_left', hfacts]
          · simp only [if_neg heq, FactsStored, (syncMatch_ok hp).other (Ne.symm heq)]

theorem Commits.teamKnown_iff {pg pg' : Pg} {ms : List Match} (h : Commits pg ms pg')
    (t : ℤ) (team : Team) : TeamStored pg'.db t team ↔ TeamKnown pg.db ms t team := by
  unfold TeamKnown
  rcases h.team_row t with ⟨hnone, hrow⟩ | ⟨last, row, hsome, hok, hrow⟩
  · simp only [hnone, TeamStored, hrow]
  · simp only [hsome, TeamStored, hrow, hok, Option.some.injEq]
    constructor
    · rintro ⟨row', hteam, rfl⟩
      exact hteam.symm
    · intro heq
      exact ⟨row, heq.symm, rfl⟩

theorem Commits.noNews_iff {pg pg' : Pg} {before behind : List Match}
    (h : Commits pg before pg') :
    AlreadyStored pg'.db behind ↔ NoNews pg.db before behind := by
  constructor
  · intro ha
    exact {
      seasons := fun m hm => (h.seasonKnown_iff m).mp (ha.seasons m hm)
      facts := fun m hm => (h.factsKnown_iff m).mp (ha.facts m hm)
      teams := fun t team ht => (h.teamKnown_iff t team).mp (ha.teams t team ht) }
  · intro hn
    exact {
      seasons := fun m hm => (h.seasonKnown_iff m).mpr (hn.seasons m hm)
      facts := fun m hm => (h.factsKnown_iff m).mpr (hn.facts m hm)
      teams := fun t team ht => (h.teamKnown_iff t team).mpr (hn.teams t team ht) }

/-- **A bad fixture only affects itself** exactly when everything acceptable
behind the first rejected match is known already. -/
theorem sync_isolates_iff (pg : Pg) (ms : List Match) :
    SameStored (syncMatchesPerCompetition pg ms).1.db
        (syncMatchesPerCompetition pg (accepted pg ms)).1.db ↔
      NoNews pg.db (beforeRejected pg ms) (behindRejected pg ms) := by
  obtain ⟨n, hn⟩ := syncMatchesFrom_accepted ms pg 0
  have hbehind := commits_accepted (upToRejected pg ms).2 (upToRejected pg ms).1 n
  have hbefore := commits_beforeRejected ms pg
  unfold syncMatchesPerCompetition
  rw [syncMatchesFrom_state, hn, ← hbefore.noNews_iff]
  exact hbehind.sameStored_iff

/-! ### A list on which the loop loses a match -/

/-- A server that knows one competition and nothing else. -/
def freshLeague : Pg :=
  (syncCompetitions ⟨Db.empty, 1⟩
    [⟨some 2021, some "Premier League", some "PL", some "LEAGUE", none, none⟩]).1

/-- A goalless fixture of season 1 between teams 57 and 65. -/
def fixturePayload (id : ℤ) (status : String) : Match where
  id := id
  utcDate := 0
  status := status
  competition := ⟨2021⟩
  season := ⟨1, 0, 300⟩
  homeTeam := ⟨57, "Arsenal FC", none, none, none⟩
  awayTeam := ⟨65, "Manchester City FC", none, none, none⟩
  score := ⟨⟨none, none⟩, ⟨none, none⟩, none⟩
  matchday := none
  referees := []
  modelDumpJson := "null"

/-- The first match has a status the table does not know; the second, which is
fine, is never stored. -/
theorem sync_loses_match_behind_rejected :
    ¬ ∀ (pg : Pg) (ms : List Match),
      SameStored (syncMatchesPerCompetition pg ms).1.db
        (syncMatchesPerCompetition pg (accepted pg ms)).1.db := by
  intro h
  have hrows := (h freshLeague [fixturePayload 1 "FT", fixturePayload 2 "SCHEDULED"]).matches_
  have hlost : (syncMatchesPerCompetition freshLeague
      [fixturePayload 1 "FT", fixturePayload 2 "SCHEDULED"]).1.db.matchRows.contains 2 = false := by
    decide +kernel
  have hkept : (syncMatchesPerCompetition freshLeague (accepted freshLeague
      [fixturePayload 1 "FT", fixturePayload 2 "SCHEDULED"])).1.db.matchRows.contains 2 = true := by
    decide +kernel
  rw [hrows, hkept] at hlost
  exact Bool.noConfusion hlost

end AGame.Worker

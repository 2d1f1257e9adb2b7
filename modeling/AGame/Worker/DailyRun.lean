import AGame.Worker.Frames
import AGame.Worker.Isolation
import AGame.Worker.Main

/-!
# What a completed daily run leaves behind

The season being fetched is asked for with `status=SCHEDULED`, so a match that
has left that status is never in an answer and its row stays as it was. A run
of `main` that ends normally makes the stored facts equal to upstream's exactly
when they were already equal for every match upstream no longer schedules
(`main_stores_upstream_iff`).
-/

namespace AGame.Worker

open Std Base

/-! ## Upstream -/

/-- A match as upstream files it: under a competition's code and the year its
season starts in. -/
structure Filed where
  code : String
  season : ℤ
  body : Match
deriving DecidableEq, Repr

/-- Everything upstream holds at fetch time; a match id is filed once. -/
structure Upstream where
  filed : List Filed
  id_key : ∀ f ∈ filed, ∀ g ∈ filed, f.body.id = g.body.id → f = g

/-- The matches of the competition whose status and season equal the parameters. -/
def Upstream.answer (u : Upstream) (code : String) (params : MatchesParams) : List Match :=
  (u.filed.filter fun f =>
    f.code = code ∧ f.season = params.season ∧ f.body.status = params.status).map Filed.body

/-- Every response to a matches request holds exactly the answer, in any order. -/
def Upstream.Serves (u : Upstream) (client : Client) : Prop :=
  ∀ code params attempt envelope,
    client.competitionMatches code params attempt = .response envelope →
      ∃ ms : List Match, envelope = some (ms.map .valid) ∧ ∀ m, m ∈ ms ↔ m ∈ u.answer code params

theorem Upstream.mem_answer {u : Upstream} {code : String} {params : MatchesParams}
    {m : Match} : m ∈ u.answer code params ↔
      ∃ f ∈ u.filed, f.code = code ∧ f.season = params.season ∧
        f.body.status = params.status ∧ f.body = m := by
  simp only [answer, List.mem_map, List.mem_filter, decide_eq_true_eq]
  constructor
  · rintro ⟨f, ⟨hf, hcode, hseason, hstatus⟩, hbody⟩
    exact ⟨f, hf, hcode, hseason, hstatus, hbody⟩
  · rintro ⟨f, hf, hcode, hseason, hstatus, hbody⟩
    exact ⟨f, ⟨hf, hcode, hseason, hstatus⟩, hbody⟩

/-! ## What is fetched -/

theorem mapM_modelValidate (ms : List Match) :
    (ms.map MatchPayload.valid).mapM modelValidate = .ok ms := by
  induction ms with
  | nil => rfl
  | cons m ms ih =>
      rw [List.map_cons, List.mapM_cons, ih]
      rfl

theorem getLeagueMatches_ok {u : Upstream} {client : Client} (hserves : u.Serves client)
    {params : MatchesParams} {code : String} {ms : List Match}
    (h : getLeagueMatches client params code = .ok ms) :
    ∀ m, m ∈ ms ↔ m ∈ u.answer code params := by
  simp only [getLeagueMatches, bind_eq_ok] at h
  obtain ⟨envelope, hget, payload, henvelope, hvalid⟩ := h
  obtain ⟨attempt, -, hresponse⟩ := getFrom_ok hget
  obtain ⟨answered, rfl, hanswered⟩ := hserves code params attempt envelope hresponse
  obtain rfl := Except.ok.inj henvelope
  rw [mapM_modelValidate] at hvalid
  obtain rfl := Except.ok.inj hvalid
  exact hanswered

theorem getMatchesFrom_ok {u : Upstream} {client : Client} (hserves : u.Serves client)
    {params : MatchesParams} : ∀ {codes : List String} {ms : List Match},
      getMatchesFrom client params codes = .ok ms →
        ∀ m, m ∈ ms ↔ ∃ code ∈ codes, m ∈ u.answer code params := by
  intro codes
  induction codes with
  | nil =>
      intro ms h m
      obtain rfl := Except.ok.inj h
      simp
  | cons code codes ih =>
      intro ms h m
      simp only [getMatchesFrom, bind_eq_ok, pure_eq_ok] at h
      obtain ⟨leagueMatches, hleague, rest, hrest, rfl⟩ := h
      rw [List.mem_append, getLeagueMatches_ok hserves hleague, ih hrest,
        List.exists_mem_cons_iff]

/-- **Only matches upstream still schedules are fetched.** -/
theorem getMatchesPerCompetition_ok {u : Upstream} {client : Client}
    (hserves : u.Serves client) {now : UtcNow} {codes : List String} {ms : List Match}
    (h : getMatchesPerCompetition client now codes = .ok ms) (m : Match) :
    m ∈ ms ↔ ∃ f ∈ u.filed, f.code ∈ codes ∧ f.season = seasonStart now ∧
      f.body.status = "SCHEDULED" ∧ f.body = m := by
  rw [getMatchesFrom_ok hserves h]
  simp only [Upstream.mem_answer, matchesParams]
  constructor
  · rintro ⟨code, hcode, f, hf, rfl, hrest⟩
    exact ⟨f, hf, hcode, hrest⟩
  · rintro ⟨f, hf, hcode, hrest⟩
    exact ⟨f.code, hcode, f, hf, rfl, hrest⟩

/-! ## What the other steps of `main` leave alone -/

theorem drain_matchRows (broker : Broker) (s : Stores) :
    (drain broker s).1.pg.db.matchRows = s.pg.db.matchRows := by
  by_cases hevents : fetchRabbitEvents s.pg.db = []
  · simp [drain, hevents]
  · rw [drain_stores broker hevents]
    dsimp only
    split_ifs <;> rfl

/-- A loop that ends normally committed every match of its list. -/
theorem syncMatchesFrom_commits (ms : List Match) : ∀ (pg : Pg) (n k : ℕ),
    (syncMatchesFrom pg n ms).2 = .ok k → Commits pg ms (syncMatchesFrom pg n ms).1 := by
  induction ms with
  | nil => exact fun pg _ _ _ => .nil pg
  | cons m ms ih =>
      intro pg n k hk
      cases h : syncMatch pg.rabbitEventSeq pg.db m with
      | error e => simp [syncMatchesFrom, h] at hk
      | ok out =>
          obtain ⟨db, row⟩ := out
          obtain ⟨n', hn'⟩ := syncMatchesFrom_ok ms n h
          rw [hn'] at hk ⊢
          exact .cons h (ih _ n' k hk)

/-! ## The run as a whole -/

/-- The database once `main` has synced the competitions. -/
def syncedCompetitions (client : Client) (pg : Pg) : Db :=
  match getAllCompetitions client with
  | .error _ => pg.db
  | .ok competitions => (syncCompetitions pg competitions).1.db

/-- A match of the season being fetched of an enabled competition, already in
the match table. -/
structure InScope (client : Client) (now : UtcNow) (pg : Pg) (f : Filed) : Prop where
  season : f.season = seasonStart now
  enabled : f.code ∈ getLeagueCodes (syncedCompetitions client pg)
  stored : f.body.id ∈ pg.db.matchRows

/-- A completed run synced exactly the matches it fetched. -/
theorem main_ok {client : Client} {now : UtcNow} {broker : Broker} {s : Stores}
    (h : (main client now broker s).2 = .ok ()) :
    ∃ pg pg' ms, pg.db.matchRows = s.pg.db.matchRows ∧
      getMatchesPerCompetition client now
        (getLeagueCodes (syncedCompetitions client s.pg)) = .ok ms ∧
      Commits pg ms pg' ∧
      (main client now broker s).1.pg.db.matchRows = pg'.db.matchRows := by
  cases hcompetitions : getAllCompetitions client with
  | error e => simp [main, hcompetitions] at h
  | ok competitions =>
      have hkeeps := (syncCompetitions_frame s.pg competitions).1.matches_
      cases hsync : syncCompetitions s.pg competitions with
      | mk pg result =>
          rw [hsync] at hkeeps
          cases result with
          | error e => simp [main, hcompetitions, hsync] at h
          | ok count =>
              simp only [main, hcompetitions, hsync, syncMatchesAndDrain] at h ⊢
              simp only [syncedCompetitions, hcompetitions, hsync]
              cases hfetch : getMatchesPerCompetition client now (getLeagueCodes pg.db) with
              | error e => simp [hfetch] at h
              | ok ms =>
                  simp only [hfetch] at h ⊢
                  have hcommits := syncMatchesFrom_commits ms pg 0
                  rw [← syncMatchesPerCompetition] at hcommits
                  cases hloop : syncMatchesPerCompetition pg ms with
                  | mk pg' changed =>
                      rw [hloop] at hcommits
                      cases changed with
                      | error e => simp [hloop] at h
                      | ok k =>
                          exact ⟨pg, pg', ms, hkeeps, rfl, hcommits k rfl,
                            drain_matchRows broker _⟩

/-- A completed run leaves a match in scope with upstream's facts exactly when
upstream has it as `SCHEDULED` or they were stored before. -/
theorem main_stored_iff {u : Upstream} {client : Client} {now : UtcNow} {broker : Broker}
    {s : Stores} (hserves : u.Serves client) (hrun : (main client now broker s).2 = .ok ())
    {f : Filed} (hf : f ∈ u.filed) (hscope : InScope client now s.pg f) :
    FactsStored (main client now broker s).1.pg.db f.body ↔
      f.body.status = "SCHEDULED" ∨ FactsStored s.pg.db f.body := by
  obtain ⟨pg, pg', ms, hbefore, hfetch, hcommits, hafter⟩ := main_ok hrun
  have hfetched := getMatchesPerCompetition_ok hserves hfetch
  rw [factsStored_congr hafter, hcommits.factsKnown_iff, FactsKnown]
  by_cases hstatus : f.body.status = "SCHEDULED"
  · -- the match is in the list, and any other entry with its id is the match itself
    have hmem : f.body ∈ ms :=
      (hfetched f.body).mpr ⟨f, hf, hscope.enabled, hscope.season, hstatus, rfl⟩
    cases hlast : lastOf ms f.body.id with
    | none => exact absurd rfl (lastOf_eq_none.mp hlast f.body hmem)
    | some p =>
        obtain ⟨hp, hid⟩ := lastOf_mem hlast
        obtain ⟨g, hg, -, -, -, rfl⟩ := (hfetched p).mp hp
        obtain rfl := u.id_key g hg f hf hid
        simp [hstatus]
  · -- no entry of the list has the match's id
    have hnone : lastOf ms f.body.id = none := by
      refine lastOf_eq_none.mpr fun p hp hid => hstatus ?_
      obtain ⟨g, hg, -, -, hscheduled, rfl⟩ := (hfetched p).mp hp
      obtain rfl := u.id_key g hg f hf hid
      exact hscheduled
    simp only [hnone, factsStored_congr hbefore, hstatus, false_or]

/-- **A completed daily run leaves the stored facts equal to upstream** exactly
when they already were for the matches that upstream does not have as
`SCHEDULED`. -/
theorem main_stores_upstream_iff (u : Upstream) (client : Client) (now : UtcNow)
    (broker : Broker) (s : Stores) (hserves : u.Serves client)
    (hrun : (main client now broker s).2 = .ok ()) :
    (∀ f ∈ u.filed, InScope client now s.pg f →
        FactsStored (main client now broker s).1.pg.db f.body) ↔
      ∀ f ∈ u.filed, InScope client now s.pg f → f.body.status ≠ "SCHEDULED" →
        FactsStored s.pg.db f.body := by
  constructor
  · intro hall f hf hscope hstatus
    have hstored := (main_stored_iff hserves hrun hf hscope).mp (hall f hf hscope)
    exact hstored.resolve_left hstatus
  · intro hall f hf hscope
    rw [main_stored_iff hserves hrun hf hscope]
    by_cases hstatus : f.body.status = "SCHEDULED"
    · exact Or.inl hstatus
    · exact Or.inr (hall f hf hscope hstatus)

/-! ### A result that is never ingested -/

/-- Upstream answers every request of the daily job at once. -/
def Upstream.client (u : Upstream) : Client where
  competitions _ := .response (some [])
  competitionMatches code params _ := .response (some ((u.answer code params).map .valid))
  historicMatches _ _ _ := .requestError

theorem Upstream.serves_client (u : Upstream) : u.Serves u.client := by
  intro code params attempt envelope h
  exact ⟨u.answer code params, (Outcome.response.inj h).symm, fun _ => Iff.rfl⟩

def confirmingBroker : Broker where
  connects := true
  publish _ := .confirmed
  closes := true

/-- The league is enabled and match 1 is stored as a scheduled fixture. -/
def matchweek : Stores where
  pg := (syncMatchesPerCompetition
    { freshLeague with db := setEnabled freshLeague.db 2021 true }
    [fixturePayload 1 "SCHEDULED"]).1
  queue := []

/-- Match 1 with the given status and full-time score. -/
def filedMatch (status : String) (fullTime : ScoreLine) : Filed where
  code := "PL"
  season := 2026
  body := { fixturePayload 1 status with score := ⟨fullTime, ⟨none, none⟩, some "REGULAR"⟩ }

def upstreamMatch (status : String) (fullTime : ScoreLine) : Upstream where
  filed := [filedMatch status fullTime]
  id_key := by
    intro f hf g hg _
    rw [List.mem_singleton.mp hf, List.mem_singleton.mp hg]

/-- While upstream still has the match as `SCHEDULED` the run stores it. -/
theorem main_stores_scheduled_match :
    FactsStored (main (upstreamMatch "SCHEDULED" ⟨none, none⟩).client ⟨2026, 9⟩
      confirmingBroker matchweek).1.pg.db (filedMatch "SCHEDULED" ⟨none, none⟩).body := by
  have hall := (main_stores_upstream_iff (upstreamMatch "SCHEDULED" ⟨none, none⟩) _ ⟨2026, 9⟩
    confirmingBroker matchweek (Upstream.serves_client _) (by decide +kernel)).mpr ?_
  · exact hall _ List.mem_cons_self ⟨by decide +kernel, by decide +kernel, by decide +kernel⟩
  · intro f hf _ hstatus
    rw [List.mem_singleton.mp hf] at hstatus
    exact absurd rfl hstatus

/-- The match ended 2–1, the run ends normally, and the row still says
`SCHEDULED`. -/
theorem main_misses_result :
    ¬ ∀ (u : Upstream) (client : Client) (now : UtcNow) (broker : Broker) (s : Stores),
      u.Serves client → (main client now broker s).2 = .ok () →
        ∀ f ∈ u.filed, InScope client now s.pg f →
          FactsStored (main client now broker s).1.pg.db f.body := by
  intro h
  let u := upstreamMatch "FINISHED" ⟨some 2, some 1⟩
  let f := filedMatch "FINISHED" ⟨some 2, some 1⟩
  have hscope : InScope u.client ⟨2026, 9⟩ matchweek.pg f :=
    ⟨by decide +kernel, by decide +kernel, by decide +kernel⟩
  obtain ⟨row, hrow, hfacts⟩ := h u u.client ⟨2026, 9⟩ confirmingBroker matchweek
    u.serves_client (by decide +kernel) f List.mem_cons_self hscope
  let after := (main u.client ⟨2026, 9⟩ confirmingBroker matchweek).1.pg.db.matchRows
  have hstatus : after[f.body.id]?.map MatchRow.status = some .scheduled := by
    decide +kernel
  rw [hrow] at hstatus
  have hfinished : row.status.text = "FINISHED" := congrArg MatchFacts.status hfacts
  rw [Option.some.inj hstatus] at hfinished
  exact absurd hfinished (by decide)

end AGame.Worker

import AGame.Worker.Main
import AGame.Worker.Resumption

/-!
# A backfill that breaks off and is run again (`backfill.py`)

`get_historic_matches` asks league by league and season by season, keeps what it has when
an answer is missing or does not validate, and `sync_historic_matches` writes that in one
transaction. So a backfill writes the beginning of what upstream holds, up to the first
answer it could not use. Running it again is enough: however often it was cut short, the
run that gets further leaves the tables it would have left by itself.
-/

namespace AGame.Worker

open Std (ExtTreeMap)
open Base

/-! ## What is fetched -/

/-- The matches of one response in turn, or the exception of the request. -/
def leagueFeed (client : Client) (season : ℤ) (code : String) : List (Except FetchError Match) :=
  match getHistoricLeague client season code with
  | .error e => [.error e]
  | .ok payload => payload.map modelValidate

def seasonFeed (client : Client) (season : ℤ) (leagueCodes : List String) :
    List (Except FetchError Match) :=
  leagueCodes.flatMap (leagueFeed client season)

/-- Everything that would come back if no exception ended the loops. -/
def feed (client : Client) (now : UtcNow) (leagueCodes : List String) :
    List (Except FetchError Match) :=
  (seasons now).flatMap fun season => seasonFeed client season leagueCodes

theorem validPrefix_eq (payload : List MatchPayload) :
    validPrefix payload =
      (okPrefix (payload.map modelValidate), allOk (payload.map modelValidate)) := by
  induction payload with
  | nil => rfl
  | cons entry payload ih =>
      cases entry with
      | invalid => rfl
      | valid m =>
          rw [validPrefix, ih]
          rfl

theorem getHistoricSeason_eq (client : Client) (season : ℤ) (leagueCodes : List String) :
    getHistoricSeason client season leagueCodes =
      (okPrefix (seasonFeed client season leagueCodes),
        allOk (seasonFeed client season leagueCodes)) := by
  induction leagueCodes with
  | nil => rfl
  | cons code codes ih =>
      have hfeed : seasonFeed client season (code :: codes) =
          leagueFeed client season code ++ seasonFeed client season codes := rfl
      rw [hfeed, okPrefix_append, allOk_append, getHistoricSeason, leagueFeed]
      cases getHistoricLeague client season code with
      | error e => rfl
      | ok payload =>
          simp only [validPrefix_eq, ih]
          -- an invalid match ends the season, and the matches before it stay
          cases allOk (payload.map modelValidate) with
          | false => simp
          | true => simp

/-- The loops keep the beginning of the feed up to the first exception. -/
theorem getHistoricFrom_eq (client : Client) (leagueCodes : List String) (years : List ℤ) :
    getHistoricFrom client leagueCodes years =
      okPrefix (years.flatMap fun season => seasonFeed client season leagueCodes) := by
  induction years with
  | nil => rfl
  | cons season years ih =>
      rw [List.flatMap_cons, okPrefix_append, getHistoricFrom, getHistoricSeason_eq, ih]
      cases allOk (seasonFeed client season leagueCodes) with
      | false => simp
      | true => simp

/-- Where it has an answer, the other client has the same. -/
def Repeats (client client' : Client) : Prop :=
  ∀ season code payload, getHistoricLeague client' season code = .ok payload →
    getHistoricLeague client season code = .ok payload

theorem leagueFeed_repeats {client client' : Client} (h : Repeats client client') (season : ℤ)
    (code : String) : leagueFeed client' season code = leagueFeed client season code ∨
      ∃ e, leagueFeed client' season code = [.error e] := by
  unfold leagueFeed
  cases hanswer : getHistoricLeague client' season code with
  | error e => exact .inr ⟨e, rfl⟩
  | ok payload =>
      rw [h season code payload hanswer]
      exact .inl rfl

/-- An answer that is missing cuts the feed short. -/
theorem okPrefix_flatMap_mono {α β ε : Type} {f g : α → List (Except ε β)}
    (h : ∀ a, f a = g a ∨ ∃ e, f a = [.error e]) (l : List α) :
    okPrefix (l.flatMap f) <+: okPrefix (l.flatMap g) := by
  induction l with
  | nil => exact List.prefix_rfl
  | cons a l ih =>
      rw [List.flatMap_cons, List.flatMap_cons]
      rcases h a with hsame | ⟨e, he⟩
      · rw [hsame]
        exact okPrefix_append_mono _ ih
      · rw [he]
        exact List.nil_prefix

/-- The leagues of every season, one after the other. -/
def requests (now : UtcNow) (leagueCodes : List String) : List (ℤ × String) :=
  (seasons now).flatMap fun season => leagueCodes.map fun code => (season, code)

theorem feed_eq (client : Client) (now : UtcNow) (leagueCodes : List String) :
    feed client now leagueCodes =
      (requests now leagueCodes).flatMap fun request => leagueFeed client request.1 request.2 := by
  simp only [feed, seasonFeed, requests, List.flatMap_assoc, List.flatMap_map]

/-- A client that has fewer answers fetches a beginning of what the other does. -/
theorem Repeats.okPrefix_feed {client client' : Client} (h : Repeats client client')
    (now : UtcNow) (leagueCodes : List String) :
    okPrefix (feed client' now leagueCodes) <+: okPrefix (feed client now leagueCodes) := by
  rw [feed_eq, feed_eq]
  exact okPrefix_flatMap_mono (fun request => leagueFeed_repeats h request.1 request.2) _

/-- `backfill.main` is one transaction on what was fetched. -/
theorem backfillMain_eq (client : Client) (now : UtcNow) (pg : Pg) :
    backfillMain client now pg =
      (syncHistoricMatches pg (okPrefix (feed client now (getLeagueCodes pg.db)))).1 := by
  have hfetched (codes : List String) : getHistoricFrom client codes (seasons now) =
      okPrefix (feed client now codes) := getHistoricFrom_eq client codes (seasons now)
  unfold backfillMain getHistoricMatches
  rw [hfetched]
  cases getLeagueCodes pg.db with
  | nil =>
      have hempty : feed client now [] = [] := by
        rw [feed_eq]
        simp [requests]
      rw [hempty]
      rfl
  | cons code codes => cases okPrefix (feed client now (code :: codes)) <;> rfl

/-! ## What is written -/

theorem not_mem_unannounced {db : Db} (eventId : ℤ) :
    eventId ∉ (unannounced db).rabbitEventRows := ExtTreeMap.not_mem_empty

theorem syncMatchRows_written {db db' : Db} {m : Match} {row : Option ℤ}
    (h : syncMatchRows db m = .ok (db', row)) : Written db [m] db' := by
  -- as the daily transaction on a database without an outbox
  have hview : syncMatchRows (unannounced db) m = .ok (unannounced db', row) := by
    rw [syncMatchRows_view unannounced_view, h]
    rfl
  obtain ⟨db₁, hsync⟩ := syncMatch_of_rows hview (not_mem_unannounced 0)
  obtain ⟨db₂, hrows, hsame⟩ := syncMatch_rows hsync
  rw [hview] at hrows
  obtain ⟨rfl, -⟩ := Prod.mk.inj (Except.ok.inj hrows)
  have htables := sameTables_of_unannounced hsame
  have hwritten := syncMatch_written hsync
  exact {
    competitions := htables.competitions.symm.trans hwritten.competitions
    seasons := htables.seasons.symm.trans hwritten.seasons
    teams := htables.teams.symm.trans hwritten.teams
    matches_ := htables.matches_.symm.trans hwritten.matches_ }

theorem syncHistoricFrom_written {ms : List Match} {db db' : Db} {n k : ℕ}
    (h : syncHistoricFrom db n ms = .ok (db', k)) : Written db ms db' := by
  induction ms generalizing db n with
  | nil =>
      obtain ⟨rfl, -⟩ := Prod.mk.inj (Except.ok.inj h)
      exact .refl db
  | cons m ms ih =>
      obtain ⟨db₁, row, hm, hrest⟩ := syncHistoricFrom_ok h
      exact (syncMatchRows_written hm).cons (ih hrest)

/-- A beginning of a list that goes through goes through. -/
theorem syncHistoricFrom_prefix {pre post : List Match} {db db' : Db} {n k : ℕ}
    (h : syncHistoricFrom db n (pre ++ post) = .ok (db', k)) :
    ∃ db₁ k₁, syncHistoricFrom db n pre = .ok (db₁, k₁) := by
  induction pre generalizing db n with
  | nil => exact ⟨db, n, rfl⟩
  | cons m pre ih =>
      obtain ⟨db₁, row, hm, hrest⟩ := syncHistoricFrom_ok h
      obtain ⟨db₂, k₂, hpre⟩ := ih hrest
      exact ⟨db₂, k₂, by rw [syncHistoricFrom_cons _ n hm, hpre]⟩

theorem syncMatchRows_elsewhere {db db' db₂ : Db} {m : Match} {row : Option ℤ}
    (h : syncMatchRows db m = .ok (db', row)) (hkept : LeaguesKept db db₂) :
    ∃ db₂' row₂, syncMatchRows db₂ m = .ok (db₂', row₂) := by
  have hview : syncMatchRows (unannounced db) m = .ok (unannounced db', row) := by
    rw [syncMatchRows_view unannounced_view, h]
    rfl
  obtain ⟨db₁, hsync⟩ := syncMatch_of_rows hview (not_mem_unannounced 0)
  have hahead : SequenceAhead ⟨unannounced db₂, 0⟩ :=
    fun eventId hevent => absurd hevent (not_mem_unannounced eventId)
  have hleagues : LeaguesKept (unannounced db) (Pg.db ⟨unannounced db₂, 0⟩) :=
    ⟨hkept.competitions, hkept.seasons⟩
  obtain ⟨db₃, row₃, hsync₂⟩ := syncMatch_elsewhere hsync hleagues hahead
  obtain ⟨db₄, hrows, -⟩ := syncMatch_rows hsync₂
  rw [syncMatchRows_view unannounced_view] at hrows
  obtain ⟨out, hout, -⟩ := map_eq_ok.mp hrows
  exact ⟨out.1, out.2, hout⟩

/-- A list that went through goes through again. -/
theorem syncHistoricFrom_elsewhere {ms : List Match} {db db' : Db} {n k : ℕ}
    (h : syncHistoricFrom db n ms = .ok (db', k)) : ∀ (db₂ : Db) (n₂ : ℕ), LeaguesKept db db₂ →
    ∃ db₂' k₂, syncHistoricFrom db₂ n₂ ms = .ok (db₂', k₂) := by
  induction ms generalizing db n with
  | nil => exact fun db₂ n₂ _ => ⟨db₂, n₂, rfl⟩
  | cons m ms ih =>
      intro db₂ n₂ hkept
      obtain ⟨db₁, row, hm, hrest⟩ := syncHistoricFrom_ok h
      obtain ⟨db₃, row₃, hm₂⟩ := syncMatchRows_elsewhere hm hkept
      have hnext := hkept.written (syncMatchRows_written hm) (syncMatchRows_written hm₂)
      obtain ⟨db₄, k₄, hms⟩ := ih hrest db₃ (counted n₂ row₃) hnext
      exact ⟨db₄, k₄, by rw [syncHistoricFrom_cons _ n₂ hm₂, hms]⟩

/-! ## Run after run -/

/-- What can have happened since the server was `pg`: any number of backfills in the same
year that had fewer answers, and what others do to the outbox, the predictions and the
texts. -/
inductive BrokenOff (client : Client) (now : UtcNow) (pg : Pg) : Pg → Prop
  | start : BrokenOff client now pg pg
  | attempt {pg' : Pg} {client' : Client} {now' : UtcNow} : BrokenOff client now pg pg' →
      Repeats client client' → now'.year = now.year →
      BrokenOff client now pg (backfillMain client' now' pg')
  | meanwhile {pg' pg'' : Pg} : BrokenOff client now pg pg' → SameIngest pg'.db pg''.db →
      BrokenOff client now pg pg''

/-- What the attempts leave behind is completed by the list to what one run leaves. -/
structure Completable (ms : List Match) (db db' : Db) : Prop where
  competitions : db'.competitionRows = db.competitionRows
  kept : LeaguesKept db db'
  completes : ∀ done, Written db' ms done → Written db ms done

theorem feed_year {now now' : UtcNow} (h : now'.year = now.year) (client : Client)
    (leagueCodes : List String) : feed client now' leagueCodes = feed client now leagueCodes := by
  rw [feed, feed, seasons, seasons, h]

theorem BrokenOff.completable {client : Client} {now : UtcNow} {pg pg' : Pg} {db : Db} {n : ℕ}
    (hdone : syncHistoricFrom pg.db 0 (okPrefix (feed client now (getLeagueCodes pg.db))) =
      .ok (db, n)) (h : BrokenOff client now pg pg') :
    Completable (okPrefix (feed client now (getLeagueCodes pg.db))) pg.db pg'.db := by
  induction h with
  | start => exact ⟨rfl, .refl _, fun _ => id⟩
  | @attempt pg' client' now' _ hrepeats hyear ih =>
      -- no backfill writes a competition, so the same leagues are asked
      have hcodes : getLeagueCodes pg'.db = getLeagueCodes pg.db := by
        rw [getLeagueCodes, getLeagueCodes, ih.competitions]
      rw [backfillMain_eq, hcodes, feed_year hyear]
      obtain ⟨post, hpost⟩ := hrepeats.okPrefix_feed now (getLeagueCodes pg.db)
      obtain ⟨db₁, k₁, hpre⟩ := syncHistoricFrom_elsewhere hdone pg'.db 0 ih.kept
      rw [← hpost] at hpre
      obtain ⟨db₂, k₂, hattempt⟩ := syncHistoricFrom_prefix hpre
      have hwritten := syncHistoricFrom_written hattempt
      have hrun : (syncHistoricMatches pg'
          (okPrefix (feed client' now (getLeagueCodes pg.db)))).1.db = db₂ := by
        rw [syncHistoricMatches, hattempt]
      rw [hrun]
      exact {
        competitions := hwritten.competitions.trans ih.competitions
        kept := ih.kept.trans hwritten.leaguesKept
        completes := fun done hmore => ih.completes done (hwritten.resumed ⟨post, hpost⟩ hmore) }
  | meanwhile _ hsame ih =>
      exact {
        competitions := hsame.competitions.trans ih.competitions
        kept := ih.kept.trans hsame.leaguesKept
        completes := fun done hmore => ih.completes done (hsame.written hmore) }

/-- The run that gets further leaves what it would have left by itself. -/
theorem BrokenOff.completed {client : Client} {now : UtcNow} {pg pg' : Pg} {n : ℕ}
    (hdone : (syncHistoricMatches pg (okPrefix (feed client now (getLeagueCodes pg.db)))).2 =
      .ok n) (hattempts : BrokenOff client now pg pg') :
    SameIngest (backfillMain client now pg).db (backfillMain client now pg').db := by
  obtain ⟨db, hloop⟩ := syncHistoricMatches_ok hdone
  have hcompletable := hattempts.completable hloop
  have hcodes : getLeagueCodes pg'.db = getLeagueCodes pg.db := by
    rw [getLeagueCodes, getLeagueCodes, hcompletable.competitions]
  obtain ⟨db', k, hloop'⟩ := syncHistoricFrom_elsewhere hloop pg'.db 0 hcompletable.kept
  have hfirst : (backfillMain client now pg).db = db := by
    rw [backfillMain_eq, syncHistoricMatches, hloop]
  have hlast : (backfillMain client now pg').db = db' := by
    rw [backfillMain_eq, hcodes, syncHistoricMatches, hloop']
  rw [hfirst, hlast]
  exact (syncHistoricFrom_written hloop).unique
    (hcompletable.completes db' (syncHistoricFrom_written hloop'))

/-- **A backfill that broke off is completed by the next one.** A backfill is one
transaction on what comes before the first answer it cannot use. After any number of them
that had fewer answers, whatever else went on at the server, one that has them writes the
tables it would have written by itself, and never an event. -/
theorem broken_off_backfill_completes (client : Client) (now : UtcNow) :
    (∀ pg, backfillMain client now pg =
      (syncHistoricMatches pg (okPrefix (feed client now (getLeagueCodes pg.db)))).1) ∧
    (∀ pg, (backfillMain client now pg).db.rabbitEventRows = pg.db.rabbitEventRows) ∧
    ∀ pg pg' n,
      (syncHistoricMatches pg (okPrefix (feed client now (getLeagueCodes pg.db)))).2 = .ok n →
      BrokenOff client now pg pg' →
      SameIngest (backfillMain client now pg).db (backfillMain client now pg').db := by
  refine ⟨backfillMain_eq client now, fun pg => ?_, fun pg pg' n hdone hattempts => ?_⟩
  · rw [backfillMain_eq]
    exact (syncHistoricMatches_frame _ _).1.events
  · exact hattempts.completed hdone

/-! ### A season that cannot be had -/

/-- Every season has the same matches. -/
def steadyClient : Client where
  competitions _ := .requestError
  competitionMatches _ _ _ := .requestError
  historicMatches _ _ _ := .response (some (sharedIds.map .valid))

/-- The seasons before 2024 are not to be had. -/
def cutClient : Client where
  competitions _ := .requestError
  competitionMatches _ _ _ := .requestError
  historicMatches _ season _ :=
    if season < 2024 then .httpStatusError 403 else .response (some (sharedIds.map .valid))

theorem steady_repeats_cut : Repeats steadyClient cutClient := by
  intro season code payload h
  by_cases hseason : season < 2024
  · have hfail : getHistoricLeague cutClient season code = .error (.httpStatusError 403) := by
      simp only [getHistoricLeague, cutClient, hseason, if_true]
      rfl
    rw [hfail] at h
    cases h
  · simp only [getHistoricLeague, cutClient, hseason, if_false] at h
    exact h

/-- The league is enabled, and nothing else is known. -/
def enabledLeague : Pg := { freshLeague with db := setEnabled freshLeague.db 2021 true }

theorem cut_backfill_completes :
    SameIngest (backfillMain steadyClient ⟨2026, 10⟩ enabledLeague).db
      (backfillMain steadyClient ⟨2026, 10⟩
        (backfillMain cutClient ⟨2026, 9⟩ enabledLeague)).db :=
  (broken_off_backfill_completes steadyClient ⟨2026, 10⟩).2.2 _ _ 9 (by decide +kernel)
    (.attempt .start steady_repeats_cut rfl)

end AGame.Worker

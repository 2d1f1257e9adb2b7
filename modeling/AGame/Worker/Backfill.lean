import AGame.Worker.Frames
import AGame.Worker.Isolation

/-!
# The backfill against the daily sync

`sync_historic_matches` runs the same four statements as the daily loop, in one
transaction and without the event. Neither path reads the outbox, so on a list
that goes through both leave the same tables and the same count, up to the
events (`backfill_agrees_with_daily`). A statement that fails anywhere takes the
whole backfill back.
-/

namespace AGame.Worker

open Std (ExtTreeMap)
open Base

/-! ## The outbox is not looked at -/

/-- A database without its outbox. -/
def unannounced (db : Db) : Db :=
  { db with
    rabbitEventRows := ∅
    rabbit_event_match_fk := by simp }

theorem unannounced_view : IngestView unannounced where
  competitions _ := rfl
  teams _ := rfl
  seasons _ := rfl
  matches_ _ := rfl
  rest _ _ _ hcommentaries hpredictions := ⟨rfl, hcommentaries, hpredictions⟩

/-- Databases that differ in the outbox alone still do so after the same match. -/
theorem syncMatchRows_congr {db db' db₂ : Db} {m : Match} {row : Option ℤ}
    (h : syncMatchRows db m = .ok (db', row)) (hsame : unannounced db₂ = unannounced db) :
    ∃ db₂', syncMatchRows db₂ m = .ok (db₂', row) ∧ unannounced db₂' = unannounced db' := by
  have hview := syncMatchRows_view unannounced_view db₂ m
  rw [hsame, syncMatchRows_view unannounced_view, h] at hview
  obtain ⟨⟨db₂', row₂⟩, hrows, hout⟩ := map_eq_ok.mp hview.symm
  obtain ⟨hdb, rfl⟩ := Prod.mk.inj hout
  exact ⟨db₂', hrows, hdb⟩

/-- A daily transaction is the four statements and perhaps an event. -/
theorem syncMatch_rows {eventId : ℤ} {db db' : Db} {m : Match} {row : Option ℤ}
    (h : syncMatch eventId db m = .ok (db', row)) :
    ∃ db₁, syncMatchRows db m = .ok (db₁, row) ∧ unannounced db' = unannounced db₁ := by
  simp only [syncMatch, bind_eq_ok, Prod.exists] at h
  obtain ⟨db₁, row₁, hrows, hevent⟩ := h
  cases row₁ with
  | none =>
      obtain ⟨rfl, rfl⟩ := Prod.mk.inj (pure_eq_ok.mp hevent)
      exact ⟨db₁, hrows, rfl⟩
  | some id =>
      simp only [bind_eq_ok, pure_eq_ok, Prod.mk.injEq] at hevent
      obtain ⟨db₂, hinsert, rfl, rfl⟩ := hevent
      obtain ⟨-, hmatch, rfl⟩ := insertRabbitEvent_ok hinsert
      exact ⟨db₁, hrows, rfl⟩

/-! ## Events that are appended -/

/-- `events'` is `events` with `n` further entries, each announcing one of the
matches. -/
structure EventsAppended (events events' : Table RabbitEventRow) (ms : List Match) (n : ℕ) :
    Prop where
  kept : ∀ (k : ℤ) (v : RabbitEventRow), events[k]? = some v → events'[k]? = some v
  count : events'.size = events.size + n
  announced : ∀ (k : ℤ) (v : RabbitEventRow), k ∉ events → events'[k]? = some v →
    ∃ m ∈ ms, v = ⟨"match.changed", m.id⟩

theorem EventsAppended.refl (events : Table RabbitEventRow) (ms : List Match) :
    EventsAppended events events ms 0 where
  kept := fun _ _ h => h
  count := rfl
  announced := fun _ v hk hv => absurd (mem_iff_getElem?.mpr ⟨v, hv⟩) hk

theorem EventsAppended.one {events : Table RabbitEventRow} {eventId : ℤ} (m : Match)
    (h : eventId ∉ events) :
    EventsAppended events (events.insert eventId ⟨"match.changed", m.id⟩) [m] 1 where
  kept := by
    intro k v hv
    rw [getElem?_put, if_neg, hv]
    rintro rfl
    exact h (mem_iff_getElem?.mpr ⟨v, hv⟩)
  count := by
    rw [ExtTreeMap.size_insert, if_neg]
    rwa [ExtTreeMap.contains_iff_mem]
  announced := by
    intro k v hk hv
    rw [getElem?_put] at hv
    split_ifs at hv with heq
    · exact ⟨m, List.mem_singleton.mpr rfl, (Option.some.inj hv).symm⟩
    · exact absurd (mem_iff_getElem?.mpr ⟨v, hv⟩) hk

theorem EventsAppended.trans {events events' events'' : Table RabbitEventRow}
    {ms ms' : List Match} {n n' : ℕ} (h : EventsAppended events events' ms n)
    (h' : EventsAppended events' events'' ms' n') :
    EventsAppended events events'' (ms ++ ms') (n + n') where
  kept := fun k v hv => h'.kept k v (h.kept k v hv)
  count := by
    have hfirst := h.count
    have hsecond := h'.count
    omega
  announced := by
    intro k v hk hv
    by_cases hmid : k ∈ events'
    · obtain ⟨w, hw⟩ := mem_iff_getElem?.mp hmid
      obtain rfl : w = v := Option.some.inj ((h'.kept k w hw).symm.trans hv)
      obtain ⟨m, hm, hevent⟩ := h.announced k w hk hw
      exact ⟨m, List.mem_append_left ms' hm, hevent⟩
    · obtain ⟨m, hm, hevent⟩ := h'.announced k v hmid hv
      exact ⟨m, List.mem_append_right ms hm, hevent⟩

/-- What one daily transaction does to the outbox; it counts when it writes. -/
theorem SyncedRows.appended {eventId : ℤ} {db db' : Db} {m : Match} {row : Option ℤ}
    (h : SyncedRows eventId db m db' row) :
    EventsAppended db.rabbitEventRows db'.rabbitEventRows [m] (if row = none then 0 else 1) := by
  rcases h.gate with ⟨-, rfl, -, hevents⟩ | ⟨-, rfl, hkey, hevents⟩
  · rw [hevents]
    exact .refl _ _
  · rw [hevents]
    exact .one m hkey

/-! ## The two loops side by side -/

theorem syncMatchesFrom_cons {pg : Pg} {m : Match} {db : Db} {row : Option ℤ} (ms : List Match)
    (n : ℕ) (h : syncMatch pg.rabbitEventSeq pg.db m = .ok (db, row)) :
    syncMatchesFrom pg n (m :: ms) = syncMatchesFrom (pg.commit db row) (counted n row) ms := by
  cases row <;> simp only [syncMatchesFrom, h, Pg.commit] <;> rfl

/-- The backfill follows a daily loop that goes through. -/
theorem syncMatchesFrom_backfill (ms : List Match) : ∀ (pg : Pg) (db : Db) (n k : ℕ),
    unannounced db = unannounced pg.db → (syncMatchesFrom pg n ms).2 = .ok k →
    (∃ db', syncHistoricFrom db n ms = .ok (db', k) ∧
        unannounced db' = unannounced (syncMatchesFrom pg n ms).1.db) ∧
      ∃ added, k = n + added ∧ EventsAppended pg.db.rabbitEventRows
        (syncMatchesFrom pg n ms).1.db.rabbitEventRows ms added := by
  induction ms with
  | nil =>
      intro pg db n k hsame hk
      obtain rfl := Except.ok.inj hk
      exact ⟨⟨db, rfl, hsame⟩, 0, rfl, .refl _ _⟩
  | cons m ms ih =>
      intro pg db n k hsame hk
      cases hm : syncMatch pg.rabbitEventSeq pg.db m with
      | error e => simp [syncMatchesFrom, hm] at hk
      | ok out =>
          obtain ⟨db₁, row⟩ := out
          obtain ⟨db₂, hrows, hview⟩ := syncMatch_rows hm
          obtain ⟨db₃, hhistoric, hview'⟩ := syncMatchRows_congr hrows hsame
          rw [syncMatchesFrom_cons ms n hm] at hk ⊢
          rw [syncHistoricFrom_cons ms n hhistoric]
          obtain ⟨hloop, added, hadded, happended⟩ :=
            ih (pg.commit db₁ row) db₃ (counted n row) k
              (by rw [Pg.commit_db, hview', hview]) hk
          rw [Pg.commit_db] at happended
          refine ⟨hloop, (if row = none then 0 else 1) + added, ?_, ?_⟩
          · rw [hadded, counted, Nat.add_assoc]
          · exact (syncMatch_ok hm).appended.trans happended

/-! ## The daily loop on a list the backfill takes -/

/-- The sequence is ahead of every event there is. -/
def SequenceAhead (pg : Pg) : Prop := ∀ k, k ∈ pg.db.rabbitEventRows → k < pg.rabbitEventSeq

theorem SequenceAhead.commit {pg : Pg} (h : SequenceAhead pg) {m : Match} {db : Db}
    {row : Option ℤ} (hm : syncMatch pg.rabbitEventSeq pg.db m = .ok (db, row)) :
    SequenceAhead (pg.commit db row) := by
  rcases (syncMatch_ok hm).gate with ⟨-, rfl, -, hevents⟩ | ⟨-, rfl, -, hevents⟩
  · intro k hk
    rw [Pg.commit_db, hevents] at hk
    exact h k hk
  · intro k hk
    rw [Pg.commit_db, hevents, mem_put] at hk
    show k < pg.rabbitEventSeq + 1
    rcases hk with rfl | hk
    · omega
    · have hbelow := h k hk
      omega

/-- With the sequence ahead, the event of a written match goes in. -/
theorem syncMatch_of_rows {eventId : ℤ} {db db' : Db} {m : Match} {row : Option ℤ}
    (h : syncMatchRows db m = .ok (db', row)) (hkey : eventId ∉ db.rabbitEventRows) :
    ∃ db₁, syncMatch eventId db m = .ok (db₁, row) := by
  have hevents := (syncMatchRows_frame h).events
  cases row with
  | none => exact ⟨db', bind_eq_ok.mpr ⟨_, h, rfl⟩⟩
  | some id =>
      have hmem : id ∈ db'.matchRows := by
        simp only [syncMatchRows, bind_eq_ok] at h
        obtain ⟨_, -, _, -, _, -, hmatch⟩ := h
        obtain ⟨excluded, -, ⟨-, hid, _, _, _, rfl⟩ | ⟨-, hid, -⟩⟩ := upsertMatch_ok hmatch
        · obtain rfl := Option.some.inj hid
          exact mem_put.mpr (Or.inl rfl)
        · cases hid
      rw [← hevents] at hkey
      refine ⟨db'.putRabbitEvent eventId ⟨"match.changed", id⟩ hmem, ?_⟩
      refine bind_eq_ok.mpr ⟨_, h, ?_⟩
      refine bind_eq_ok.mpr ⟨_, ?_, rfl⟩
      unfold insertRabbitEvent
      rw [if_neg hkey, dif_pos hmem]

theorem syncHistoricFrom_daily (ms : List Match) : ∀ (pg : Pg) (db db' : Db) (n k : ℕ),
    SequenceAhead pg → unannounced db = unannounced pg.db →
    syncHistoricFrom db n ms = .ok (db', k) → (syncMatchesFrom pg n ms).2 = .ok k := by
  induction ms with
  | nil =>
      intro pg db db' n k _ _ h
      obtain ⟨-, rfl⟩ := Prod.mk.inj (Except.ok.inj h)
      rfl
  | cons m ms ih =>
      intro pg db db' n k hahead hsame h
      obtain ⟨db₁, row, hm, hrest⟩ := syncHistoricFrom_ok h
      obtain ⟨db₂, hrows, hview⟩ := syncMatchRows_congr hm hsame.symm
      have hkey : pg.rabbitEventSeq ∉ pg.db.rabbitEventRows := by
        intro hmem
        exact absurd (hahead _ hmem) (lt_irrefl _)
      obtain ⟨db₃, hdaily⟩ := syncMatch_of_rows hrows hkey
      obtain ⟨db₄, hrows', hview'⟩ := syncMatch_rows hdaily
      rw [hrows] at hrows'
      obtain rfl := (Prod.mk.inj (Except.ok.inj hrows')).1
      rw [syncMatchesFrom_cons ms n hdaily]
      exact ih _ db₁ db' _ k (hahead.commit hdaily) (by rw [Pg.commit_db, hview', hview]) hrest

/-! ## A failing backfill -/

theorem syncHistoricFrom_error {pre post : List Match} {m : Match} {db db' : Db} {n k : ℕ}
    {e : PgError} (hpre : syncHistoricFrom db n pre = .ok (db', k))
    (hm : syncHistoricMatch db' m = .error e) :
    syncHistoricFrom db n (pre ++ m :: post) = .error e := by
  induction pre generalizing db n with
  | nil =>
      obtain ⟨rfl, rfl⟩ := Prod.mk.inj (Except.ok.inj hpre)
      simp only [List.nil_append, syncHistoricFrom, hm]
  | cons p pre ih =>
      obtain ⟨db₁, row, hp, hrest⟩ := syncHistoricFrom_ok hpre
      rw [List.cons_append, syncHistoricFrom_cons _ n hp]
      exact ih hrest

/-! ## The two paths -/

/-- Every table but the outbox agrees. -/
structure SameTables (db db' : Db) : Prop where
  competitions : db.competitionRows = db'.competitionRows
  seasons : db.seasonRows = db'.seasonRows
  teams : db.teamRows = db'.teamRows
  matches_ : db.matchRows = db'.matchRows
  commentaries : db.commentaryRows = db'.commentaryRows
  predictions : db.predictionRows = db'.predictionRows

theorem unannounced_sameTables (db : Db) : SameTables (unannounced db) db :=
  ⟨rfl, rfl, rfl, rfl, rfl, rfl⟩

theorem sameTables_of_unannounced {db db' : Db} (h : unannounced db = unannounced db') :
    SameTables db db' := by
  have hview := unannounced_sameTables db
  have hview' := unannounced_sameTables db'
  rw [h] at hview
  exact {
    competitions := hview.competitions.symm.trans hview'.competitions
    seasons := hview.seasons.symm.trans hview'.seasons
    teams := hview.teams.symm.trans hview'.teams
    matches_ := hview.matches_.symm.trans hview'.matches_
    commentaries := hview.commentaries.symm.trans hview'.commentaries
    predictions := hview.predictions.symm.trans hview'.predictions }

theorem syncHistoricMatches_ok {pg : Pg} {ms : List Match} {n : ℕ}
    (h : (syncHistoricMatches pg ms).2 = .ok n) :
    ∃ db, syncHistoricFrom pg.db 0 ms = .ok (db, n) := by
  unfold syncHistoricMatches at h
  cases hloop : syncHistoricFrom pg.db 0 ms with
  | error e => simp [hloop] at h
  | ok out =>
      obtain ⟨db, k⟩ := out
      simp only [hloop, Except.ok.injEq] at h
      exact ⟨db, by rw [h]⟩

/-- **Backfill and daily upserts agree.** On a list that the daily path takes,
both paths return the same count and leave the same tables; the daily one has
appended as many events as it counts, the backfill none. The daily path takes
every list the backfill takes, as long as its sequence is ahead of the events.
A statement of the backfill that fails at any position leaves the server as it
was. -/
theorem backfill_agrees_with_daily (pg : Pg) (ms : List Match) :
    (∀ n, (syncMatchesPerCompetition pg ms).2 = .ok n →
      (syncHistoricMatches pg ms).2 = .ok n ∧
      SameTables (syncHistoricMatches pg ms).1.db (syncMatchesPerCompetition pg ms).1.db ∧
      (syncHistoricMatches pg ms).1.db.rabbitEventRows = pg.db.rabbitEventRows ∧
      EventsAppended pg.db.rabbitEventRows
        (syncMatchesPerCompetition pg ms).1.db.rabbitEventRows ms n) ∧
    (SequenceAhead pg → ∀ n, (syncHistoricMatches pg ms).2 = .ok n →
      (syncMatchesPerCompetition pg ms).2 = .ok n) ∧
    (∀ pre m post db k e, ms = pre ++ m :: post → syncHistoricFrom pg.db 0 pre = .ok (db, k) →
      syncHistoricMatch db m = .error e → syncHistoricMatches pg ms = (pg, .error e)) := by
  refine ⟨?_, ?_, ?_⟩
  · intro n hdaily
    obtain ⟨⟨db, hloop, hview⟩, added, hadded, happended⟩ :=
      syncMatchesFrom_backfill ms pg pg.db 0 n rfl hdaily
    have hhistoric : syncHistoricMatches pg ms = ({ pg with db := db }, .ok n) := by
      simp only [syncHistoricMatches, hloop]
    have hevents := (syncHistoricMatches_frame pg ms).1.events
    rw [Nat.zero_add] at hadded
    subst hadded
    rw [hhistoric] at hevents ⊢
    exact ⟨rfl, sameTables_of_unannounced hview, hevents, happended⟩
  · intro hahead n hhistoric
    obtain ⟨db, hloop⟩ := syncHistoricMatches_ok hhistoric
    exact syncHistoricFrom_daily ms pg pg.db db 0 n hahead rfl hloop
  · rintro pre m post db k e rfl hpre hm
    simp only [syncHistoricMatches, syncHistoricFrom_error hpre hm]

/-- Match 1 twice, with a change in between, and match 2 between the same teams. -/
def sharedIds : List Match :=
  [fixturePayload 1 "SCHEDULED", fixturePayload 2 "TIMED", fixturePayload 1 "TIMED"]

/-- A match whose season ends before it starts. -/
def reversedSeason : Match := { fixturePayload 3 "SCHEDULED" with season := ⟨2, 300, 0⟩ }

theorem backfill_agrees_on_shared_ids :
    ((syncHistoricMatches freshLeague sharedIds).2 = .ok 3 ∧
      SameTables (syncHistoricMatches freshLeague sharedIds).1.db
        (syncMatchesPerCompetition freshLeague sharedIds).1.db ∧
      (syncHistoricMatches freshLeague sharedIds).1.db.rabbitEventRows =
        freshLeague.db.rabbitEventRows ∧
      EventsAppended freshLeague.db.rabbitEventRows
        (syncMatchesPerCompetition freshLeague sharedIds).1.db.rabbitEventRows sharedIds 3) ∧
    (syncMatchesPerCompetition freshLeague sharedIds).2 = .ok 3 ∧
    syncHistoricMatches freshLeague (sharedIds ++ [reversedSeason]) =
      (freshLeague, .error (.checkViolation "season_dates_ordered")) := by
  have hahead : SequenceAhead freshLeague := by
    have hnone : freshLeague.db.rabbitEventRows = ∅ :=
      ExtTreeMap.isEmpty_iff.mp (by decide +kernel)
    intro k hk
    rw [hnone] at hk
    exact absurd hk ExtTreeMap.not_mem_empty
  have hhistoric : (syncHistoricMatches freshLeague sharedIds).2 = .ok 3 := by decide +kernel
  have hdaily := (backfill_agrees_with_daily freshLeague sharedIds).2.1 hahead 3 hhistoric
  obtain ⟨db, hloop⟩ := syncHistoricMatches_ok hhistoric
  exact ⟨(backfill_agrees_with_daily freshLeague sharedIds).1 3 hdaily, hdaily,
    (backfill_agrees_with_daily freshLeague (sharedIds ++ [reversedSeason])).2.2
      sharedIds reversedSeason [] db 3 _ rfl hloop rfl⟩

end AGame.Worker

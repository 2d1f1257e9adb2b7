import AGame.Base.Gated
import AGame.Worker.Backfill
import AGame.Worker.GatedColumns

/-!
# A daily sync that is cut off and started again

Every match is a transaction of its own, so a sync that dies has stored a beginning of
its list, and the next one starts from the front. Each of its three tables is a store of
gated registers: a season stays as it was first written, a team is as it was last
written, a match is written when one of its six columns moves. So whatever the attempts
have got through, the run that completes leaves the tables of a run that was never
interrupted (`interrupted_sync_resumes`), also where the list has an id twice.
-/

namespace AGame.Worker

open Std (ExtTreeMap)
open Base

/-! ## What a payload asks of each table -/

def seasonEntries (m : Match) : List (ℤ × SeasonRow) :=
  if hdates : m.season.startDate < m.season.endDate then
    [(m.season.id, ⟨m.competition.id, m.season.startDate, m.season.endDate, hdates⟩)]
  else []

def teamEntries (m : Match) : List (ℤ × TeamRow) :=
  [m.homeTeam, m.awayTeam].filterMap fun team =>
    (proposedTeam team).toOption.map fun row => (team.id, row)

def matchEntries (m : Match) : List (ℤ × MatchRow) :=
  ((matchRow (dailyMatchArgs m)).toOption.map fun row => (m.id, row)).toList

/-- The tables of `db'` are those of `db` with the matches written over them. -/
structure Written (db : Db) (ms : List Match) (db' : Db) : Prop where
  competitions : db'.competitionRows = db.competitionRows
  seasons : db'.seasonRows =
    (ms.flatMap seasonEntries).foldl (gatedPut fun _ => ()) db.seasonRows
  teams : db'.teamRows = (ms.flatMap teamEntries).foldl (gatedPut id) db.teamRows
  matches_ : db'.matchRows = (ms.flatMap matchEntries).foldl (gatedPut rowFacts) db.matchRows

theorem Written.refl (db : Db) : Written db [] db := ⟨rfl, rfl, rfl, rfl⟩

theorem Written.cons {db db' db'' : Db} {m : Match} {ms : List Match} (h : Written db [m] db')
    (h' : Written db' ms db'') : Written db (m :: ms) db'' where
  competitions := h'.competitions.trans h.competitions
  seasons := by
    rw [h'.seasons, h.seasons, ← List.foldl_append]
    simp
  teams := by
    rw [h'.teams, h.teams, ← List.foldl_append]
    simp
  matches_ := by
    rw [h'.matches_, h.matches_, ← List.foldl_append]
    simp

/-! ## One transaction -/

theorem insertSeason_gated {db db' : Db} {id c : ℤ} {s e : Date}
    (h : insertSeason db id c s e = .ok db') :
    ∃ hdates : s < e, db'.seasonRows =
      gatedPut (fun _ => ()) db.seasonRows (id, ⟨c, s, e, hdates⟩) := by
  simp only [insertSeason, bind_eq_ok] at h
  obtain ⟨k, hk, k', hk', h⟩ := h
  obtain rfl := bigint_ok hk
  obtain rfl := bigint_ok hk'
  split_ifs at h with hdates hmem hcompetition
  · refine ⟨hdates, ?_⟩
    rw [← pure_eq_ok.mp h, gatedPut_const, if_pos hmem]
  · refine ⟨hdates, ?_⟩
    rw [← pure_eq_ok.mp h, gatedPut_const, if_neg hmem]
    rfl

/-- The season statement is the only one that touches seasons. -/
theorem syncMatch_season {eventId : ℤ} {db db' : Db} {m : Match} {row : Option ℤ}
    (h : syncMatch eventId db m = .ok (db', row)) :
    db'.seasonRows = (seasonEntries m).foldl (gatedPut fun _ => ()) db.seasonRows := by
  simp only [syncMatch, syncMatchRows, bind_eq_ok, Prod.exists] at h
  obtain ⟨db₄, row₄, ⟨db₁, hseason, db₂, hhome, db₃, haway, hmatch⟩, hevent⟩ := h
  obtain ⟨_, -, rfl⟩ := upsertTeam_ok hhome
  obtain ⟨_, -, rfl⟩ := upsertTeam_ok haway
  have hafter : db'.seasonRows = db₁.seasonRows := by
    obtain ⟨_, -, ⟨-, rfl, _, _, _, rfl⟩ | ⟨-, rfl, rfl⟩⟩ := upsertMatch_ok hmatch
    · simp only [bind_eq_ok, pure_eq_ok, Prod.mk.injEq] at hevent
      obtain ⟨_, hinsert, rfl, -⟩ := hevent
      obtain ⟨-, _, rfl⟩ := insertRabbitEvent_ok hinsert
      rfl
    · obtain ⟨rfl, -⟩ := Prod.mk.inj (pure_eq_ok.mp hevent)
      rfl
  obtain ⟨hdates, hrows⟩ := insertSeason_gated hseason
  rw [hafter, hrows, seasonEntries, dif_pos hdates]
  rfl

theorem syncMatch_written {eventId : ℤ} {db db' : Db} {m : Match} {row : Option ℤ}
    (h : syncMatch eventId db m = .ok (db', row)) : Written db [m] db' where
  competitions := (syncMatch_ok h).competitions
  seasons := by
    rw [syncMatch_season h, List.flatMap_singleton]
  teams := by
    obtain ⟨home, away, hhome, haway, hrows⟩ := (syncMatch_ok h).teams
    have hentries : teamEntries m = [(m.homeTeam.id, home), (m.awayTeam.id, away)] := by
      simp [teamEntries, hhome, haway, Except.toOption]
    rw [hrows, List.flatMap_singleton, hentries]
    simp only [List.foldl_cons, List.foldl_nil, gatedPut_id]
  matches_ := by
    obtain ⟨excluded, hexcluded, hcase⟩ := (syncMatch_ok h).match_
    have hentries : matchEntries m = [(m.id, excluded)] := by
      simp [matchEntries, hexcluded, Except.toOption]
    rw [List.flatMap_singleton, hentries]
    simp only [List.foldl_cons, List.foldl_nil, gatedPut]
    rcases hcase with ⟨hopen, -, hrows, -⟩ | ⟨hclosed, -, hrows, -⟩
    · rw [hrows, if_neg]
      intro hsame
      obtain ⟨stored, hstored, hfacts⟩ := Option.map_eq_some_iff.mp hsame
      simp only [gateOpen, hstored, changeGate_eq_false_iff.mpr hfacts] at hopen
      cases hopen
    · rw [hrows, if_pos]
      unfold gateOpen at hclosed
      cases hstored : db.matchRows[m.id]? with
      | none => simp [hstored] at hclosed
      | some stored =>
          rw [hstored] at hclosed
          exact congrArg some (changeGate_eq_false_iff.mp hclosed)

theorem Commits.written {pg pg' : Pg} {ms : List Match} (h : Commits pg ms pg') :
    Written pg.db ms pg'.db := by
  induction h with
  | nil pg => exact .refl pg.db
  | cons hm _ ih =>
      rw [Pg.commit_db] at ih
      exact (syncMatch_written hm).cons ih

/-! ## A match that was taken once is taken again -/

/-- The competitions and seasons there are, are there still. -/
structure LeaguesKept (db db' : Db) : Prop where
  competitions : ∀ k, k ∈ db.competitionRows → k ∈ db'.competitionRows
  seasons : ∀ k, k ∈ db.seasonRows → k ∈ db'.seasonRows

theorem LeaguesKept.refl (db : Db) : LeaguesKept db db := ⟨fun _ => id, fun _ => id⟩

theorem LeaguesKept.trans {db db' db'' : Db} (h : LeaguesKept db db') (h' : LeaguesKept db' db'') :
    LeaguesKept db db'' :=
  ⟨fun k hk => h'.competitions k (h.competitions k hk), fun k hk => h'.seasons k (h.seasons k hk)⟩

theorem Written.leaguesKept {db db' : Db} {ms : List Match} (h : Written db ms db') :
    LeaguesKept db db' where
  competitions k hk := h.competitions ▸ hk
  seasons k hk := by
    rw [h.seasons, mem_foldl_gatedPut]
    exact .inr hk

/-- The same matches bring the same leagues. -/
theorem LeaguesKept.written {db db₂ db' db₂' : Db} {ms : List Match} (hkept : LeaguesKept db db₂)
    (h : Written db ms db') (h₂ : Written db₂ ms db₂') : LeaguesKept db' db₂' where
  competitions k hk := by
    rw [h.competitions] at hk
    rw [h₂.competitions]
    exact hkept.competitions k hk
  seasons k hk := by
    rw [h.seasons, mem_foldl_gatedPut] at hk
    rw [h₂.seasons, mem_foldl_gatedPut]
    exact hk.imp_right (hkept.seasons k)

theorem insertSeason_elsewhere {db db' db₂ : Db} {id c : ℤ} {s e : Date}
    (h : insertSeason db id c s e = .ok db') (hkept : LeaguesKept db db₂) :
    ∃ db₂', insertSeason db₂ id c s e = .ok db₂' := by
  by_cases hmem : id ∈ db₂.seasonRows
  · exact ⟨db₂, insertSeason_again h hmem⟩
  · simp only [insertSeason, bind_eq_ok] at h ⊢
    obtain ⟨k, hk, k', hk', h⟩ := h
    obtain rfl := bigint_ok hk
    split_ifs at h with hdates hold hcompetition
    · exact absurd (hkept.seasons _ hold) hmem
    · refine ⟨db₂.putSeason k ⟨k', s, e, hdates⟩ (hkept.competitions _ hcompetition), k, hk,
        k', hk', ?_⟩
      rw [dif_pos hdates, if_neg hmem, dif_pos (hkept.competitions _ hcompetition)]
      rfl

/-- A match statement goes through wherever its foreign keys are found. -/
theorem upsertMatch_elsewhere {db db' : Db} {a : MatchArgs} {row : Option ℤ}
    (h : upsertMatch db a = .ok (db', row)) (db₂ : Db) (hseason : a.seasonId ∈ db₂.seasonRows)
    (hhome : a.homeTeamId ∈ db₂.teamRows) (haway : a.awayTeamId ∈ db₂.teamRows) :
    ∃ db₂' row₂, upsertMatch db₂ a = .ok (db₂', row₂) := by
  simp only [upsertMatch, bind_eq_ok] at h
  obtain ⟨k, hk, excluded, hexcluded, -⟩ := h
  obtain ⟨hs, hh, ha, -⟩ := matchRow_ok hexcluded
  have hwrite : writeMatch db₂ k excluded = .ok (db₂.putMatch k excluded (by rwa [hs])
      (by rwa [hh]) (by rwa [ha])) := by
    unfold writeMatch
    rw [dif_pos, dif_pos, dif_pos]
  simp only [upsertMatch, hk, hexcluded, bind, Except.bind, hwrite]
  cases db₂.matchRows[k]? with
  | none => exact ⟨_, _, rfl⟩
  | some stored =>
      by_cases hgate : changeGate stored excluded = true
      · simp only [hgate, if_true]
        exact ⟨_, _, rfl⟩
      · simp only [hgate]
        exact ⟨_, _, rfl⟩

/-- **A match that was taken once is taken again**, with the gate open or shut. -/
theorem syncMatch_elsewhere {eventId : ℤ} {db db' : Db} {m : Match} {row : Option ℤ}
    (h : syncMatch eventId db m = .ok (db', row)) {pg₂ : Pg} (hkept : LeaguesKept db pg₂.db)
    (hahead : SequenceAhead pg₂) :
    ∃ db₂' row₂, syncMatch pg₂.rabbitEventSeq pg₂.db m = .ok (db₂', row₂) := by
  simp only [syncMatch, syncMatchRows, bind_eq_ok, Prod.exists] at h
  obtain ⟨_, _, ⟨_, hseason, _, hhome, _, haway, hmatch⟩, -⟩ := h
  obtain ⟨db₁, hseason₂⟩ := insertSeason_elsewhere hseason hkept
  obtain ⟨home, hhome₂⟩ := upsertTeam_again hhome db₁
  obtain ⟨away, haway₂⟩ := upsertTeam_again haway (db₁.putTeam m.homeTeam.id home)
  obtain ⟨_, hrows⟩ := insertSeason_gated hseason₂
  have hmem : m.season.id ∈ db₁.seasonRows := by
    rw [hrows, mem_gatedPut]
    exact Or.inl rfl
  obtain ⟨db₃, row₃, hmatch₂⟩ := upsertMatch_elsewhere hmatch
    ((db₁.putTeam m.homeTeam.id home).putTeam m.awayTeam.id away) hmem
    (mem_put_of_mem (mem_put.mpr (Or.inl rfl))) (mem_put.mpr (Or.inl rfl))
  have hsync : syncMatchRows pg₂.db m = .ok (db₃, row₃) := by
    simp only [syncMatchRows, bind_eq_ok]
    exact ⟨db₁, hseason₂, _, hhome₂, _, haway₂, hmatch₂⟩
  have hkey : pg₂.rabbitEventSeq ∉ pg₂.db.rabbitEventRows := by
    intro hheld
    exact absurd (hahead _ hheld) (lt_irrefl _)
  obtain ⟨db₄, h₄⟩ := syncMatch_of_rows hsync hkey
  exact ⟨db₄, row₃, h₄⟩

/-- A list that went through goes through again. -/
theorem Commits.elsewhere {pg pg' : Pg} {ms : List Match} (h : Commits pg ms pg') :
    ∀ pg₂ : Pg, LeaguesKept pg.db pg₂.db → SequenceAhead pg₂ → ∃ pg₂', Commits pg₂ ms pg₂' := by
  induction h with
  | nil => exact fun pg₂ _ _ => ⟨pg₂, .nil pg₂⟩
  | @cons pg pg' m ms db row hm _ ih =>
      intro pg₂ hkept hahead
      obtain ⟨db₂, row₂, hm₂⟩ := syncMatch_elsewhere hm hkept hahead
      have hnext : LeaguesKept (pg.commit db row).db (pg₂.commit db₂ row₂).db := by
        rw [Pg.commit_db, Pg.commit_db]
        exact hkept.written (syncMatch_written hm) (syncMatch_written hm₂)
      obtain ⟨pg₂', hms⟩ := ih _ hnext (hahead.commit hm₂)
      exact ⟨pg₂', .cons hm₂ hms⟩

/-! ## Attempts -/

/-- The season, team and match tables agree, and the competitions. -/
structure SameIngest (db db' : Db) : Prop where
  competitions : db'.competitionRows = db.competitionRows
  seasons : db'.seasonRows = db.seasonRows
  teams : db'.teamRows = db.teamRows
  matches_ : db'.matchRows = db.matchRows

theorem SameIngest.leaguesKept {db db' : Db} (h : SameIngest db db') : LeaguesKept db db' where
  competitions k hk := by rwa [h.competitions]
  seasons k hk := by rwa [h.seasons]

/-- What can have happened since the server was `pg`: any number of attempts at `ms`, each
of which got through a beginning of it, and what others do to the outbox, the
predictions and the texts, which may burn values of the sequence. -/
inductive Interrupted (ms : List Match) (pg : Pg) : Pg → Prop
  | start : Interrupted ms pg pg
  | attempt {pg' pg'' : Pg} {pre : List Match} {k : ℕ} : Interrupted ms pg pg' → pre <+: ms →
      syncMatchesPerCompetition pg' pre = (pg'', .ok k) → Interrupted ms pg pg''
  | meanwhile {pg' pg'' : Pg} : Interrupted ms pg pg' → SameIngest pg'.db pg''.db →
      SequenceAhead pg'' → Interrupted ms pg pg''

theorem Written.unique {db db' db'' : Db} {ms : List Match} (h : Written db ms db')
    (h' : Written db ms db'') : SameIngest db' db'' where
  competitions := h'.competitions.trans h.competitions.symm
  seasons := h'.seasons.trans h.seasons.symm
  teams := h'.teams.trans h.teams.symm
  matches_ := h'.matches_.trans h.matches_.symm

/-- Writing the whole list over a beginning of it is writing it in one go. -/
theorem Written.resumed {db db' db'' : Db} {pre ms : List Match} (hpre : pre <+: ms)
    (h : Written db pre db') (h' : Written db' ms db'') : Written db ms db'' where
  competitions := h'.competitions.trans h.competitions
  seasons := by
    rw [h'.seasons, h.seasons, foldl_gatedPut_resumed _ (hpre.flatMap _)]
  teams := by
    rw [h'.teams, h.teams, foldl_gatedPut_resumed _ (hpre.flatMap _)]
  matches_ := by
    rw [h'.matches_, h.matches_, foldl_gatedPut_resumed _ (hpre.flatMap _)]

theorem syncMatchesPerCompetition_commits {pg pg' : Pg} {ms : List Match} {k : ℕ}
    (h : syncMatchesPerCompetition pg ms = (pg', .ok k)) : Commits pg ms pg' := by
  have hcommits := syncMatchesFrom_commits ms pg 0 k (congrArg Prod.snd h)
  rwa [show (syncMatchesFrom pg 0 ms).1 = pg' from congrArg Prod.fst h] at hcommits

theorem Commits.run {pg pg' : Pg} {ms : List Match} (h : Commits pg ms pg') :
    ∀ n, ∃ k, syncMatchesFrom pg n ms = (pg', .ok k) := by
  induction h with
  | nil pg => exact fun n => ⟨n, rfl⟩
  | cons hm _ ih =>
      intro n
      rw [syncMatchesFrom_cons _ n hm]
      exact ih _

theorem Commits.ahead {pg pg' : Pg} {ms : List Match} (h : Commits pg ms pg')
    (hahead : SequenceAhead pg) : SequenceAhead pg' := by
  induction h with
  | nil => exact hahead
  | cons hm _ ih => exact ih (hahead.commit hm)

/-- What the attempts leave behind is completed by the list to what one run leaves. -/
structure Resumable (ms : List Match) (pg pg' : Pg) : Prop where
  ahead : SequenceAhead pg'
  kept : LeaguesKept pg.db pg'.db
  completes : ∀ db', Written pg'.db ms db' → Written pg.db ms db'

/-- The three tables are all that the writes start from. -/
theorem SameIngest.written {db db₂ db' : Db} {ms : List Match} (h : SameIngest db db₂)
    (h' : Written db₂ ms db') : Written db ms db' where
  competitions := h'.competitions.trans h.competitions
  seasons := by rw [h'.seasons, h.seasons]
  teams := by rw [h'.teams, h.teams]
  matches_ := by rw [h'.matches_, h.matches_]

theorem Interrupted.resumable {ms : List Match} {pg pg' : Pg} (h : Interrupted ms pg pg')
    (hahead : SequenceAhead pg) : Resumable ms pg pg' := by
  induction h with
  | start => exact ⟨hahead, .refl _, fun _ => id⟩
  | attempt _ hpre hrun ih =>
      have hcommits := syncMatchesPerCompetition_commits hrun
      exact {
        ahead := hcommits.ahead ih.ahead
        kept := ih.kept.trans hcommits.written.leaguesKept
        completes := fun db' h' => ih.completes db' (hcommits.written.resumed hpre h') }
  | meanwhile _ hsame hahead' ih =>
      exact {
        ahead := hahead'
        kept := ih.kept.trans hsame.leaguesKept
        completes := fun db' h' => ih.completes db' (hsame.written h') }

/-- **An interrupted sync is completed by the next one.** After any number of attempts
that were cut off, whatever else went on at the server, a run over the list goes through
and leaves the tables of one uninterrupted run. -/
theorem interrupted_sync_resumes {pg pg' done : Pg} {ms : List Match} {n : ℕ}
    (hahead : SequenceAhead pg) (hdone : syncMatchesPerCompetition pg ms = (done, .ok n))
    (hattempts : Interrupted ms pg pg') :
    ∃ resumed k, syncMatchesPerCompetition pg' ms = (resumed, .ok k) ∧
      SameIngest done.db resumed.db := by
  have hcommits := syncMatchesPerCompetition_commits hdone
  have hresumable := hattempts.resumable hahead
  obtain ⟨resumed, hresumed⟩ := hcommits.elsewhere pg' hresumable.kept hresumable.ahead
  obtain ⟨k, hk⟩ := hresumed.run 0
  exact ⟨resumed, k, hk, hcommits.written.unique (hresumable.completes _ hresumed.written)⟩

/-- The attempts die behind the first and behind the second entry of a list that has
match 1 twice. -/
theorem shared_ids_resume :
    ∃ resumed k, syncMatchesPerCompetition
        (syncMatchesPerCompetition (syncMatchesPerCompetition freshLeague
          (sharedIds.take 1)).1 (sharedIds.take 2)).1 sharedIds = (resumed, .ok k) ∧
      SameIngest (syncMatchesPerCompetition freshLeague sharedIds).1.db resumed.db := by
  have hahead : SequenceAhead freshLeague := by
    have hnone : freshLeague.db.rabbitEventRows = ∅ :=
      ExtTreeMap.isEmpty_iff.mp (by decide +kernel)
    intro k hk
    rw [hnone] at hk
    exact absurd hk ExtTreeMap.not_mem_empty
  have hfirst : Interrupted sharedIds freshLeague
      (syncMatchesPerCompetition freshLeague (sharedIds.take 1)).1 :=
    .attempt (k := 1) .start (List.take_prefix 1 _) (Prod.ext rfl (by decide +kernel))
  have hsecond := hfirst.attempt (k := 1) (List.take_prefix 2 _)
    (Prod.ext rfl (by decide +kernel))
  exact interrupted_sync_resumes (n := 3) hahead (Prod.ext rfl (by decide +kernel)) hsecond

end AGame.Worker

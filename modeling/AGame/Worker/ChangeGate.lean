import AGame.Worker.Isolation

/-!
# The change gate over a whole list

A list of matches passes the gate as many times as it has ids that are not yet
stored with the payload's six columns: within the list only the first match of
such an id finds the gate open, since it leaves the row the others compare with.
Each passage leaves one event. A second pass over the same list finds every
season present, every gate shut and every team as the list last described it,
so it commits again and moves no table.
-/

namespace AGame.Worker

open Std Base

theorem factsStored_iff {db : Db} {m : Match} :
    FactsStored db m ↔ db.matchRows[m.id]?.map rowFacts = some m.facts := by
  simp only [FactsStored, Option.map_eq_some_iff]

instance (db : Db) (m : Match) : Decidable (FactsStored db m) :=
  decidable_of_iff _ factsStored_iff.symm

/-- The ids in the list whose row is absent or differs from the payload in one
of the six columns. -/
def changedIds (db : Db) (ms : List Match) : Finset ℤ :=
  ((ms.filter fun m => ¬ FactsStored db m).map Match.id).toFinset

/-- Matches with the same id agree on the six columns. -/
def FactsAgree (ms : List Match) : Prop :=
  ∀ m ∈ ms, ∀ m' ∈ ms, m.id = m'.id → m.facts = m'.facts

theorem mem_changedIds {db : Db} {ms : List Match} {k : ℤ} :
    k ∈ changedIds db ms ↔ ∃ m ∈ ms, ¬ FactsStored db m ∧ m.id = k := by
  simp [changedIds, and_assoc]

theorem FactsAgree.tail {m : Match} {ms : List Match} (h : FactsAgree (m :: ms)) :
    FactsAgree ms := fun _ hp _ hq =>
  h _ (List.mem_cons_of_mem m hp) _ (List.mem_cons_of_mem m hq)

/-! ## The first pass -/

/-- After a committed transaction the six columns of its match are stored; what
is stored under another id is as before. -/
theorem SyncedRows.factsStored_iff {eventId : ℤ} {db db' : Db} {m : Match} {row : Option ℤ}
    (h : SyncedRows eventId db m db' row) {p : Match} (hp : m.id = p.id → m.facts = p.facts) :
    FactsStored db' p ↔ p.id = m.id ∨ FactsStored db p := by
  by_cases hid : p.id = m.id
  · obtain ⟨r, hr, hfacts⟩ := h.stored
    simp only [hid, true_or, iff_true]
    exact ⟨r, hid ▸ hr, hfacts.trans (hp hid.symm)⟩
  · simp only [hid, false_or, FactsStored, h.other hid]

theorem changedIds_stored {db : Db} {m : Match} (ms : List Match) (h : FactsStored db m) :
    changedIds db (m :: ms) = changedIds db ms := by
  ext k
  simp only [mem_changedIds, List.exists_mem_cons_iff, h, not_true_eq_false, false_and,
    false_or]

/-- The first match of an id that is not stored accounts for the id. -/
theorem changedIds_new {eventId : ℤ} {db db' : Db} {m : Match} {row : Option ℤ}
    {ms : List Match} (h : SyncedRows eventId db m db' row) (hagree : FactsAgree (m :: ms))
    (hnew : ¬ FactsStored db m) :
    m.id ∉ changedIds db' ms ∧ changedIds db (m :: ms) = insert m.id (changedIds db' ms) := by
  have hstored : ∀ p ∈ ms, FactsStored db' p ↔ p.id = m.id ∨ FactsStored db p := fun p hp =>
    h.factsStored_iff (hagree m List.mem_cons_self p (List.mem_cons_of_mem m hp))
  constructor
  · rw [mem_changedIds]
    rintro ⟨p, hp, hopen, hid⟩
    exact hopen ((hstored p hp).mpr (Or.inl hid))
  · ext k
    rw [Finset.mem_insert, mem_changedIds, mem_changedIds, List.exists_mem_cons_iff]
    constructor
    · rintro (⟨-, hid⟩ | ⟨p, hp, hopen, hid⟩)
      · exact Or.inl hid.symm
      · by_cases hk : k = m.id
        · exact Or.inl hk
        · refine Or.inr ⟨p, hp, ?_, hid⟩
          rw [hstored p hp]
          rintro (hsame | hold)
          · exact hk (hid.symm.trans hsame)
          · exact hopen hold
    · rintro (hk | ⟨p, hp, hopen, hid⟩)
      · exact Or.inl ⟨hnew, hk.symm⟩
      · exact Or.inr ⟨p, hp, fun hold => hopen ((hstored p hp).mpr (Or.inr hold)), hid⟩

/-- The count and the events of a pass. The induction is on the transactions;
the ids still to change are read in the database each of them finds. -/
theorem Commits.announced {pg pg' : Pg} {ms : List Match} (h : Commits pg ms pg')
    (hagree : FactsAgree ms) (n : ℕ) :
    syncMatchesFrom pg n ms = (pg', .ok (n + (changedIds pg.db ms).card)) ∧
      Grown pg.db.rabbitEventRows pg'.db.rabbitEventRows
        (RabbitEventRow.mk "match.changed" '' changedIds pg.db ms) := by
  induction h generalizing n with
  | nil pg =>
      refine ⟨rfl, ?_⟩
      simpa [changedIds] using Grown.refl pg.db.rabbitEventRows
  | @cons pg pg' m ms db row hm _ ih =>
      rcases (syncMatch_ok hm).gate with
        ⟨hstored, rfl, hmatch, hevents⟩ | ⟨hnew, rfl, hkey, hevents⟩
      · -- the gate is shut
        obtain ⟨hloop, hgrown⟩ := ih hagree.tail n
        have hids : changedIds db ms = changedIds pg.db (m :: ms) := by
          rw [changedIds_stored ms hstored]
          ext k
          simp only [mem_changedIds, factsStored_congr hmatch]
        rw [Pg.commit_db, hids] at hloop hgrown
        constructor
        · simpa only [syncMatchesFrom, hm, Pg.commit] using hloop
        · rwa [hevents] at hgrown
      · -- the gate is open, for the first time with this id
        obtain ⟨hloop, hgrown⟩ := ih hagree.tail (n + 1)
        obtain ⟨hfirst, hids⟩ := changedIds_new (syncMatch_ok hm) hagree hnew
        rw [Pg.commit_db] at hloop hgrown
        have hcard : n + 1 + (changedIds db ms).card =
            n + (changedIds pg.db (m :: ms)).card := by
          rw [hids, Finset.card_insert_of_notMem hfirst]
          omega
        constructor
        · rw [← hcard]
          simpa only [syncMatchesFrom, hm, Pg.commit] using hloop
        · have hone : Grown pg.db.rabbitEventRows db.rabbitEventRows
              {⟨"match.changed", m.id⟩} := by
            rw [hevents]
            exact Grown.one _ hkey
          have hdisjoint : Disjoint {RabbitEventRow.mk "match.changed" m.id}
              (RabbitEventRow.mk "match.changed" '' (changedIds db ms : Set ℤ)) := by
            rw [Set.disjoint_singleton_left]
            rintro ⟨k, hk, heq⟩
            obtain ⟨-, rfl⟩ := RabbitEventRow.mk.inj heq
            exact hfirst hk
          rw [hids, Finset.coe_insert, Set.image_insert_eq, Set.insert_eq]
          exact hone.trans hgrown hdisjoint

/-! ## The second pass -/

/-- A season statement that went through goes through wherever the season is
present, and does nothing. -/
theorem insertSeason_again {db db' db₂ : Db} {id c : ℤ} {s e : Date}
    (h : insertSeason db id c s e = .ok db') (hmem : id ∈ db₂.seasonRows) :
    insertSeason db₂ id c s e = .ok db₂ := by
  simp only [insertSeason, bind_eq_ok] at h ⊢
  obtain ⟨k, hk, k', hk', h⟩ := h
  obtain rfl := bigint_ok hk
  refine ⟨k, hk, k', hk', ?_⟩
  split_ifs at h with hdates
  all_goals rw [dif_pos hdates, if_pos hmem]; rfl

/-- A team statement depends on the payload alone. -/
theorem upsertTeam_again {db db' : Db} {team : Team} (h : upsertTeam db team = .ok db')
    (db₂ : Db) : ∃ row, upsertTeam db₂ team = .ok (db₂.putTeam team.id row) := by
  simp only [upsertTeam, bind_eq_ok] at h
  obtain ⟨k, hk, row, hrow, -⟩ := h
  obtain rfl := bigint_ok hk
  refine ⟨row, ?_⟩
  simp only [upsertTeam, bind_eq_ok]
  exact ⟨team.id, hk, row, hrow, rfl⟩

/-- A match statement that went through goes through wherever the six columns
are stored, and returns no row. -/
theorem upsertMatch_again {db db' db₂ : Db} {m : Match} {row : Option ℤ}
    (h : upsertMatch db (dailyMatchArgs m) = .ok (db', row)) (hstored : FactsStored db₂ m) :
    upsertMatch db₂ (dailyMatchArgs m) = .ok (db₂, none) := by
  simp only [upsertMatch, bind_eq_ok] at h ⊢
  obtain ⟨k, hk, excluded, hexcluded, -⟩ := h
  obtain rfl := bigint_ok hk
  obtain ⟨r, hr, hfacts⟩ := hstored
  have hshut : changeGate r excluded = false :=
    changeGate_eq_false_iff.mpr (hfacts.trans (matchRow_ok hexcluded).2.2.2.symm)
  refine ⟨_, hk, excluded, hexcluded, ?_⟩
  have hrow : db₂.matchRows[(dailyMatchArgs m).id]? = some r := hr
  simp only [hrow, hshut, Bool.false_eq_true, if_false, pure_eq_ok]

/-- A transaction that committed commits again, without a row, wherever its
season and the six columns of its match are stored. -/
theorem syncMatch_again {eventId : ℤ} {db db' db₂ : Db} {m : Match} {row : Option ℤ}
    (h : syncMatch eventId db m = .ok (db', row)) (eventId₂ : ℤ)
    (hseason : m.season.id ∈ db₂.seasonRows) (hstored : FactsStored db₂ m) :
    ∃ db₃, syncMatch eventId₂ db₂ m = .ok (db₃, none) := by
  simp only [syncMatch, syncMatchRows, bind_eq_ok, Prod.exists] at h
  obtain ⟨_, _, ⟨_, hs, _, hhome, _, haway, hmatch⟩, -⟩ := h
  obtain ⟨home, hhome₂⟩ := upsertTeam_again hhome db₂
  obtain ⟨away, haway₂⟩ := upsertTeam_again haway (db₂.putTeam m.homeTeam.id home)
  refine ⟨(db₂.putTeam m.homeTeam.id home).putTeam m.awayTeam.id away, ?_⟩
  simp only [syncMatch, syncMatchRows, bind_eq_ok, Prod.exists]
  exact ⟨_, none, ⟨db₂, insertSeason_again hs hseason, _, hhome₂, _, haway₂,
    upsertMatch_again hmatch hstored⟩, rfl⟩

/-- A list that committed commits again wherever its seasons and six columns
are stored, and counts nothing. -/
theorem Commits.again {pg pg' : Pg} {ms : List Match} (h : Commits pg ms pg') :
    ∀ (pg₂ : Pg) (n : ℕ), (∀ m ∈ ms, m.season.id ∈ pg₂.db.seasonRows) →
      (∀ m ∈ ms, FactsStored pg₂.db m) →
      ∃ pg₃, Commits pg₂ ms pg₃ ∧ syncMatchesFrom pg₂ n ms = (pg₃, .ok n) := by
  induction h with
  | nil => exact fun pg₂ n _ _ => ⟨pg₂, .nil pg₂, rfl⟩
  | @cons pg pg' m ms db row hm _ ih =>
      intro pg₂ n hseasons hfacts
      obtain ⟨db₃, hm₂⟩ := syncMatch_again hm pg₂.rabbitEventSeq
        (hseasons m List.mem_cons_self) (hfacts m List.mem_cons_self)
      have hone : Commits pg₂ [m] (pg₂.commit db₃ none) := .cons hm₂ (.nil _)
      have hmatch : db₃.matchRows = pg₂.db.matchRows := hone.match_eq (by
        simpa using hfacts m List.mem_cons_self)
      obtain ⟨pg₃, hms, hloop⟩ := ih (pg₂.commit db₃ none) n
        (fun p hp => hone.season_mono (hseasons p (List.mem_cons_of_mem m hp)))
        (fun p hp => by
          rw [Pg.commit_db, factsStored_congr hmatch]
          exact hfacts p (List.mem_cons_of_mem m hp))
      exact ⟨pg₃, .cons hm₂ hms, by simpa only [syncMatchesFrom, hm₂, Pg.commit] using hloop⟩

/-- What a list leaves behind is no news to the same list. -/
theorem noNews_self {ms : List Match} (db : Db) (hagree : FactsAgree ms) : NoNews db ms ms where
  seasons := fun m hm => Or.inr ⟨m, hm, rfl⟩
  facts := by
    intro m hm
    unfold FactsKnown
    cases hlast : lastOf ms m.id with
    | none => exact absurd rfl (lastOf_eq_none.mp hlast m hm)
    | some last =>
        obtain ⟨hmem, hid⟩ := lastOf_mem hlast
        exact hagree last hmem m hm hid
  teams := by
    intro t team hlast
    simp only [TeamKnown, hlast]

/-- **The change gate is exact and idempotent.** A list every match of which is
acceptable counts the ids that are new to the database and announces each of
them once; the same list again counts nothing and moves nothing. -/
theorem sync_counts_changes_once (pg : Pg) (ms : List Match) (haccepted : accepted pg ms = ms)
    (hagree : FactsAgree ms) :
    ∃ first again : Pg,
      syncMatchesPerCompetition pg ms = (first, .ok (changedIds pg.db ms).card) ∧
      Grown pg.db.rabbitEventRows first.db.rabbitEventRows
        (RabbitEventRow.mk "match.changed" '' changedIds pg.db ms) ∧
      syncMatchesPerCompetition first ms = (again, .ok 0) ∧
      SameStored first.db again.db := by
  have hcommits := commits_accepted ms pg 0
  rw [haccepted] at hcommits
  obtain ⟨hloop, hgrown⟩ := hcommits.announced hagree 0
  have hknown : AlreadyStored (syncMatchesFrom pg 0 ms).1.db ms :=
    hcommits.noNews_iff.mpr (noNews_self pg.db hagree)
  obtain ⟨again, hcommits₂, hloop₂⟩ := hcommits.again _ 0 hknown.seasons hknown.facts
  refine ⟨(syncMatchesFrom pg 0 ms).1, again, ?_, hgrown, hloop₂, ?_⟩
  · rw [Nat.zero_add] at hloop
    exact hloop
  · exact hcommits₂.sameStored_iff.mpr hknown

/-- A server with match 1 stored. -/
def oneStored : Pg := (syncMatchesPerCompetition freshLeague [fixturePayload 1 "SCHEDULED"]).1

/-- Match 1 as it is stored, and match 2 twice. -/
def knownAndNew : List Match :=
  [fixturePayload 1 "SCHEDULED", fixturePayload 2 "TIMED", fixturePayload 2 "TIMED"]

theorem knownAndNew_counts_one :
    changedIds oneStored.db knownAndNew = {2} ∧
      ∃ first again : Pg,
        syncMatchesPerCompetition oneStored knownAndNew =
          (first, .ok (changedIds oneStored.db knownAndNew).card) ∧
        Grown oneStored.db.rabbitEventRows first.db.rabbitEventRows
          (RabbitEventRow.mk "match.changed" '' changedIds oneStored.db knownAndNew) ∧
        syncMatchesPerCompetition first knownAndNew = (again, .ok 0) ∧
        SameStored first.db again.db :=
  ⟨by decide +kernel, sync_counts_changes_once oneStored knownAndNew (by decide +kernel) (by
    unfold FactsAgree
    decide +kernel)⟩

end AGame.Worker

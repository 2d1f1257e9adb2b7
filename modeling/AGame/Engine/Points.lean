import AGame.Engine.Replay

/-!
# Where the points of a league come from

A match moves points between its two teams, so a league holds the points its
teams were seeded with (`seedsAlong`). A newcomer enters `PROMOTED_PENALTY`
below the average, which is the only thing that moves the average of a league.
-/

namespace AGame.Engine.Elo

open Std (ExtTreeMap)
open Base

variable {R : Type}

/-- Two different teams have two different keys. -/
theorem keys_ne {m : MatchResult} (h : m.homeTeamId ≠ m.awayTeamId) : m.homeKey ≠ m.awayKey := by
  intro heq
  exact h (congrArg Prod.fst heq)

/-! ## Newcomers -/

/-- The sides of a match that have no rating yet. -/
def newcomers (ratings : TeamMap R) (m : MatchResult) : List TeamKey :=
  [m.homeKey, m.awayKey].filter fun key => decide (key ∉ ratings)

theorem mem_newcomers {ratings : TeamMap R} {m : MatchResult} {key : TeamKey} :
    key ∈ newcomers ratings m ↔ (key = m.homeKey ∨ key = m.awayKey) ∧ key ∉ ratings := by
  simp [newcomers]

theorem newcomers_eq_nil_iff {ratings : TeamMap R} {m : MatchResult} :
    newcomers ratings m = [] ↔ m.homeKey ∈ ratings ∧ m.awayKey ∈ ratings := by
  rw [List.eq_nil_iff_forall_not_mem]
  simp only [mem_newcomers, not_and_not_right]
  constructor
  · intro h
    exact ⟨h _ (Or.inl rfl), h _ (Or.inr rfl)⟩
  · rintro ⟨hhome, haway⟩ key (rfl | rfl)
    · exact hhome
    · exact haway

theorem newcomers_nodup (ratings : TeamMap R) {m : MatchResult} (hteams : m.homeKey ≠ m.awayKey) :
    (newcomers ratings m).Nodup := by
  apply List.Nodup.filter
  simp [hteams]

/-- The number of rated teams of a league. -/
def ratedTeams (c : ℤ) (ratings : TeamMap R) : ℕ := (leagueOf c ratings).size

theorem mem_leagueOf {c : ℤ} {ratings : TeamMap R} {key : TeamKey} :
    key ∈ leagueOf c ratings ↔ key.2 = c ∧ key ∈ ratings := by
  rw [mem_iff_getElem?, mem_iff_getElem?, getElem?_part]
  by_cases hkey : key.2 = c
  · simp [ofLeague, hkey]
  · simp [ofLeague, hkey]

/-- In a league nobody is rated in, every team is a newcomer. -/
theorem newcomers_of_unrated {ratings : TeamMap R} {m : MatchResult}
    (h : ratedTeams m.competitionId ratings = 0) :
    newcomers ratings m = [m.homeKey, m.awayKey] := by
  have hempty : leagueOf m.competitionId ratings = ∅ := ExtTreeMap.eq_empty_iff_size_eq_zero.mpr h
  have hnone : ∀ key : TeamKey, key.2 = m.competitionId → key ∉ ratings := by
    intro key hkey hrated
    have hmem := mem_leagueOf.mpr ⟨hkey, hrated⟩
    rw [hempty] at hmem
    exact ExtTreeMap.not_mem_empty hmem
  unfold newcomers
  apply List.filter_eq_self.mpr
  intro key hkey
  apply decide_eq_true
  rcases List.mem_pair.mp hkey with rfl | rfl
  · exact hnone _ rfl
  · exact hnone _ rfl

/-- The newcomers of a match are told from its league alone. -/
theorem newcomers_leagueOf (ratings : TeamMap R) (m : MatchResult) :
    newcomers (leagueOf m.competitionId ratings) m = newcomers ratings m := by
  refine List.filter_congr fun key hkey => ?_
  rw [decide_eq_decide, not_iff_not, mem_leagueOf, and_iff_right]
  rcases List.mem_pair.mp hkey with rfl | rfl
  · rfl
  · rfl

variable [Field R]

/-! ## Points and averages -/

/-- The points of a rating map. -/
abbrev points (ratings : TeamMap R) : R := total (fun _ rating => rating) ratings

/-- The points of a league. -/
def leaguePoints (c : ℤ) (ratings : TeamMap R) : R := points (leagueOf c ratings)

def leagueAverage (c : ℤ) (ratings : TeamMap R) : R :=
  leaguePoints c ratings / (ratedTeams c ratings : R)

/-- `seed_rating` in terms of the league's average. -/
theorem seedRating_eq (c : ℤ) (ratings : TeamMap R) :
    seedRating ratings c =
      if ratedTeams c ratings = 0 then DEFAULT_RATING R
      else leagueAverage c ratings - PROMOTED_PENALTY R := by
  have hrated : (ratings.toList.filter fun entry => decide (entry.1.2 = c)) =
      (leagueOf c ratings).toList := by
    rw [leagueOf, toList_part]
    rfl
  have hcount : (leagueOf c ratings).toList.length = ratedTeams c ratings :=
    ExtTreeMap.length_toList
  unfold seedRating
  rw [hrated]
  simp only [List.isEmpty_iff, ← List.length_eq_zero_iff, List.length_map, hcount]
  rfl

theorem leaguePoints_of_unrated {c : ℤ} {ratings : TeamMap R} (h : ratedTeams c ratings = 0) :
    leaguePoints c ratings = 0 := by
  have hempty : leagueOf c ratings = ∅ := ExtTreeMap.eq_empty_iff_size_eq_zero.mpr h
  rw [leaguePoints, hempty]
  rfl

/-! ## Seeding -/

/-- The seeds a match hands out. -/
def seedsGiven (ratings : TeamMap R) (m : MatchResult) : List (TeamKey × R) :=
  (newcomers ratings m).map fun key => (key, seedRating ratings m.competitionId)

/-- Seeding adds the seeds to whatever the ratings are totalled by. -/
theorem total_seedTeams {γ : Type} [AddCommMonoid γ] (f : TeamKey → R → γ) (ratings : TeamMap R)
    {m : MatchResult} (hteams : m.homeKey ≠ m.awayKey) :
    total f (seedTeams ratings m) =
      ((seedsGiven ratings m).map fun e => f e.1 e.2).sum + total f ratings := by
  have haway : ∀ seed : R,
      m.awayKey ∈ ratings.insertIfNew m.homeKey seed ↔ m.awayKey ∈ ratings := by
    intro seed
    rw [ExtTreeMap.mem_insertIfNew, Std.LawfulEqCmp.compare_eq_iff_eq]
    simp [hteams]
  rw [seedTeams_eq, total_insertIfNew, total_insertIfNew, seedsGiven, newcomers]
  simp only [haway]
  by_cases hhome : m.homeKey ∈ ratings
  · by_cases haway : m.awayKey ∈ ratings
    · simp [hhome, haway]
    · simp [hhome, haway]
  · by_cases haway : m.awayKey ∈ ratings
    · simp [hhome, haway]
    · simp [hhome, haway, add_comm, add_left_comm]

variable [PyMath R]

/-- **A match is zero-sum**: all it adds to the points is the seeds it hands out. -/
theorem points_applyMatch (ratings : TeamMap R) {m : MatchResult} (hteams : m.homeKey ≠ m.awayKey) :
    points (applyMatch ratings m).1 =
      ((seedsGiven ratings m).map Prod.snd).sum + points ratings := by
  have hhome : (seedTeams ratings m)[m.homeKey]? = some (kickoffRatings ratings m).1 := by
    rw [getElem?_seedTeams, if_pos (Or.inl rfl)]
    rfl
  have haway : ((seedTeams ratings m).insert m.homeKey
      ((kickoffRatings ratings m).1 + pointsWon ratings m))[m.awayKey]? =
      some (kickoffRatings ratings m).2 := by
    rw [getElem?_put, if_neg hteams, getElem?_seedTeams, if_pos (Or.inr rfl)]
    rfl
  have hseeds := total_seedTeams (fun _ rating => rating) ratings hteams
  have hgain := total_put_held (fun _ rating => rating)
    ((kickoffRatings ratings m).1 + pointsWon ratings m) hhome
  have hloss := total_put_held (fun _ rating => rating)
    ((kickoffRatings ratings m).2 - pointsWon ratings m) haway
  rw [applyMatch_seeded]
  unfold points
  rw [← hseeds]
  linear_combination hloss + hgain

/-- A match adds its newcomers to the rated teams. -/
theorem size_applyMatch (ratings : TeamMap R) {m : MatchResult} (hteams : m.homeKey ≠ m.awayKey) :
    (applyMatch ratings m).1.size = (newcomers ratings m).length + ratings.size := by
  have hseeds := total_seedTeams (fun _ _ => 1) ratings hteams
  rw [total_one, total_one, seedsGiven, List.map_map, Function.comp_def, List.map_const',
    List.sum_replicate, smul_eq_mul, mul_one] at hseeds
  have hheld : ∀ (t : TeamMap R) {key : TeamKey} (rating : R), key ∈ t →
      (t.insert key rating).size = t.size := by
    intro t key rating hkey
    rw [ExtTreeMap.size_insert, if_pos (ExtTreeMap.contains_iff_mem.mpr hkey)]
  rw [applyMatch_seeded, hheld _ _ (mem_put_of_mem (mem_seedTeams ratings m).2),
    hheld _ _ (mem_seedTeams ratings m).1, hseeds]

/-! ## One match of a league -/

omit [PyMath R] in
theorem seedsGiven_leagueOf (ratings : TeamMap R) (m : MatchResult) :
    seedsGiven (leagueOf m.competitionId ratings) m = seedsGiven ratings m := by
  rw [seedsGiven, newcomers_leagueOf, seedRating_leagueOf, seedsGiven]

omit [PyMath R] in
/-- Every newcomer of a match gets the same seed. -/
theorem sum_seedsGiven (ratings : TeamMap R) (m : MatchResult) :
    ((seedsGiven ratings m).map Prod.snd).sum =
      ((newcomers ratings m).length : R) * seedRating ratings m.competitionId := by
  rw [seedsGiven, List.map_map, Function.comp_def, List.map_const', List.sum_replicate,
    nsmul_eq_mul]

theorem leaguePoints_applyMatch (ratings : TeamMap R) {m : MatchResult}
    (hteams : m.homeKey ≠ m.awayKey) :
    leaguePoints m.competitionId (applyMatch ratings m).1 =
      ((seedsGiven ratings m).map Prod.snd).sum + leaguePoints m.competitionId ratings := by
  rw [leaguePoints, applyMatch_leagueOf, points_applyMatch _ hteams, seedsGiven_leagueOf]
  rfl

theorem ratedTeams_applyMatch (ratings : TeamMap R) {m : MatchResult}
    (hteams : m.homeKey ≠ m.awayKey) :
    ratedTeams m.competitionId (applyMatch ratings m).1 =
      (newcomers ratings m).length + ratedTeams m.competitionId ratings := by
  rw [ratedTeams, applyMatch_leagueOf, size_applyMatch _ hteams, newcomers_leagueOf]
  rfl

/-- The first match of a league seeds both of its teams with the default. -/
theorem leagueAverage_first [CharZero R] {ratings : TeamMap R} {m : MatchResult}
    (hteams : m.homeKey ≠ m.awayKey) (hfirst : ratedTeams m.competitionId ratings = 0) :
    leagueAverage m.competitionId (applyMatch ratings m).1 = DEFAULT_RATING R := by
  rw [leagueAverage, leaguePoints_applyMatch _ hteams, ratedTeams_applyMatch _ hteams,
    sum_seedsGiven, leaguePoints_of_unrated hfirst, newcomers_of_unrated hfirst, seedRating_eq,
    if_pos hfirst, hfirst]
  simp

/-- Seeding is the only thing that moves the average of a rated league. -/
theorem leagueAverage_applyMatch [CharZero R] {ratings : TeamMap R} {m : MatchResult}
    (hteams : m.homeKey ≠ m.awayKey) (hrated : 0 < ratedTeams m.competitionId ratings) :
    leagueAverage m.competitionId (applyMatch ratings m).1 =
      leagueAverage m.competitionId ratings -
        ((newcomers ratings m).length : R) * PROMOTED_PENALTY R /
          ((ratedTeams m.competitionId ratings : R) + ((newcomers ratings m).length : R)) := by
  have hn : (ratedTeams m.competitionId ratings : R) ≠ 0 := by
    exact_mod_cast hrated.ne'
  have hnk : (ratedTeams m.competitionId ratings : R) + ((newcomers ratings m).length : R) ≠ 0 := by
    norm_cast
    omega
  rw [leagueAverage, leaguePoints_applyMatch _ hteams, ratedTeams_applyMatch _ hteams,
    sum_seedsGiven, seedRating_eq, if_neg hrated.ne', leagueAverage, Nat.cast_add,
    add_comm ((newcomers ratings m).length : R)]
  field_simp
  ring

theorem leagueAverage_other (ratings : TeamMap R) {m : MatchResult} {c : ℤ}
    (hother : m.competitionId ≠ c) :
    leagueAverage c (applyMatch ratings m).1 = leagueAverage c ratings := by
  rw [leagueAverage, leaguePoints, ratedTeams, applyMatch_leagueOf_other _ hother]
  rfl

/-! ## Along a replay -/

/-- The seeds handed out while a listing is replayed. -/
def seedsAlong : TeamMap R → List MatchResult → List (TeamKey × R)
  | _, [] => []
  | ratings, m :: listing => seedsGiven ratings m ++ seedsAlong (applyMatch ratings m).1 listing

theorem seedsAlong_concat (ratings : TeamMap R) (listing : List MatchResult) (m : MatchResult) :
    seedsAlong ratings (listing ++ [m]) =
      seedsAlong ratings listing ++ seedsGiven (ratingsAfter ratings listing) m := by
  induction listing generalizing ratings with
  | nil => simp [seedsAlong]
  | cons first listing ih =>
      rw [List.cons_append, seedsAlong, ih, seedsAlong, List.append_assoc]
      rfl

theorem mem_applyMatch {ratings : TeamMap R} {m : MatchResult} {key : TeamKey} :
    key ∈ (applyMatch ratings m).1 ↔
      key ∈ ratings ∨ key = m.homeKey ∨ key = m.awayKey := by
  rw [applyMatch_ratings, mem_put, mem_put]
  tauto

/-- A team is rated once it has played. -/
theorem mem_ratingsAfter {listing : List MatchResult} {key : TeamKey} :
    key ∈ ratingsAfter (∅ : TeamMap R) listing ↔
      ∃ m ∈ listing, key = m.homeKey ∨ key = m.awayKey := by
  induction listing using List.reverseRecOn with
  | nil => simp
  | append_singleton listing m ih =>
      rw [ratingsAfter_concat, mem_applyMatch, ih]
      constructor
      · rintro (⟨m', hm', hside⟩ | hside)
        · exact ⟨m', List.mem_append_left _ hm', hside⟩
        · exact ⟨m, by simp, hside⟩
      · rintro ⟨m', hm', hside⟩
        rcases List.mem_append.mp hm' with hm' | hm'
        · exact Or.inl ⟨m', hm', hside⟩
        · rw [List.mem_singleton.mp hm'] at hside
          exact Or.inr hside

/-- Every rated team was seeded, and only once. -/
theorem seedsAlong_keys {listing : List MatchResult}
    (hteams : ∀ m ∈ listing, m.homeKey ≠ m.awayKey) :
    ((seedsAlong (∅ : TeamMap R) listing).map Prod.fst).Nodup ∧
      ∀ key, key ∈ (seedsAlong (∅ : TeamMap R) listing).map Prod.fst ↔
        key ∈ ratingsAfter (∅ : TeamMap R) listing := by
  induction listing using List.reverseRecOn with
  | nil => simp [seedsAlong]
  | append_singleton listing m ih =>
      obtain ⟨hnodup, hkeys⟩ := ih fun m' hm' => hteams m' (List.mem_append_left _ hm')
      have hgiven : (seedsGiven (ratingsAfter (∅ : TeamMap R) listing) m).map Prod.fst =
          newcomers (ratingsAfter (∅ : TeamMap R) listing) m := by
        simp [seedsGiven, Function.comp_def]
      rw [seedsAlong_concat, List.map_append, hgiven]
      constructor
      · rw [List.nodup_append]
        refine ⟨hnodup, newcomers_nodup _ (hteams m (by simp)), ?_⟩
        rintro key hold _ hnew rfl
        exact (mem_newcomers.mp hnew).2 ((hkeys key).mp hold)
      · intro key
        rw [List.mem_append, hkeys, mem_newcomers, ratingsAfter_concat, mem_applyMatch]
        tauto

/-- **Conservation**: a league holds the points its teams were seeded with. -/
theorem leaguePoints_ratingsAfter {listing : List MatchResult}
    (hteams : ∀ m ∈ listing, m.homeKey ≠ m.awayKey) (c : ℤ) :
    leaguePoints c (ratingsAfter (∅ : TeamMap R) listing) =
      (((seedsAlong (∅ : TeamMap R) listing).filter fun e => ofLeague c e.1).map Prod.snd).sum := by
  induction listing using List.reverseRecOn with
  | nil =>
      rw [ratingsAfter, finalState_nil, leaguePoints, leagueOf_empty]
      rfl
  | append_singleton listing m ih =>
      have ih := ih fun m' hm' => hteams m' (List.mem_append_left _ hm')
      have hside : ∀ e ∈ seedsGiven (ratingsAfter (∅ : TeamMap R) listing) m,
          e.1.2 = m.competitionId := by
        intro e he
        obtain ⟨key, hkey, rfl⟩ := List.mem_map.mp he
        rcases (mem_newcomers.mp hkey).1 with rfl | rfl
        · rfl
        · rfl
      rw [ratingsAfter_concat, seedsAlong_concat, List.filter_append, List.map_append,
        List.sum_append, ← ih]
      by_cases hm : m.competitionId = c
      · subst hm
        rw [leaguePoints_applyMatch _ (hteams m (by simp)), List.filter_eq_self.mpr, add_comm]
        intro e he
        exact decide_eq_true (hside e he)
      · rw [leaguePoints, applyMatch_leagueOf_other _ hm, List.filter_eq_nil_iff.mpr]
        · simp [leaguePoints]
        · intro e he hc
          exact hm ((hside e he).symm.trans (of_decide_eq_true hc))

variable [LinearOrder R] [IsStrictOrderedRing R]

omit [PyMath R] in
theorem promotedPenalty_pos : 0 < PROMOTED_PENALTY R := by
  unfold PROMOTED_PENALTY
  norm_num

/-- A match lowers the average of a rated league when it seeds somebody, and
only then. -/
theorem leagueAverage_falls {ratings : TeamMap R} {m : MatchResult}
    (hteams : m.homeKey ≠ m.awayKey) (hrated : 0 < ratedTeams m.competitionId ratings) :
    leagueAverage m.competitionId (applyMatch ratings m).1 ≤
        leagueAverage m.competitionId ratings ∧
      (leagueAverage m.competitionId (applyMatch ratings m).1 =
        leagueAverage m.competitionId ratings ↔ newcomers ratings m = []) := by
  have hpenalty := promotedPenalty_pos (R := R)
  rw [leagueAverage_applyMatch hteams hrated]
  constructor
  · apply sub_le_self
    positivity
  · have hcount :
        (ratedTeams m.competitionId ratings : R) + ((newcomers ratings m).length : R) ≠ 0 := by
      positivity
    rw [sub_eq_self, div_eq_zero_iff, mul_eq_zero, or_iff_left hcount, or_iff_left hpenalty.ne',
      Nat.cast_eq_zero, List.length_eq_zero_iff]

/-- The average of a league never exceeds the default. -/
theorem leagueAverage_le {listing : List MatchResult}
    (hteams : ∀ m ∈ listing, m.homeKey ≠ m.awayKey) (c : ℤ)
    (hrated : 0 < ratedTeams c (ratingsAfter (∅ : TeamMap R) listing)) :
    leagueAverage c (ratingsAfter (∅ : TeamMap R) listing) ≤ DEFAULT_RATING R := by
  induction listing using List.reverseRecOn with
  | nil =>
      rw [ratingsAfter, finalState_nil, ratedTeams, leagueOf_empty] at hrated
      exact absurd hrated (by simp)
  | append_singleton listing m ih =>
      have ih := ih fun m' hm' => hteams m' (List.mem_append_left _ hm')
      have hm := hteams m (by simp)
      rw [ratingsAfter_concat] at hrated ⊢
      by_cases hleague : m.competitionId = c
      · subst hleague
        rcases Nat.eq_zero_or_pos
          (ratedTeams m.competitionId (ratingsAfter (∅ : TeamMap R) listing)) with
          hfirst | hlater
        · exact (leagueAverage_first hm hfirst).le
        · exact (leagueAverage_falls hm hlater).1.trans (ih hlater)
      · rw [leagueAverage_other _ hleague]
        apply ih
        rw [ratedTeams, applyMatch_leagueOf_other _ hleague] at hrated
        exact hrated

/-- While a rated league is replayed its average only falls, and it stands as
long as everyone who plays is rated already. -/
theorem leagueAverage_replay {c : ℤ} {listing : List MatchResult}
    (hteams : ∀ m ∈ listing, m.homeKey ≠ m.awayKey) (hleague : ∀ m ∈ listing, m.competitionId = c)
    (ratings : TeamMap R) (hrated : 0 < ratedTeams c ratings) :
    0 < ratedTeams c (ratingsAfter ratings listing) ∧
      leagueAverage c (ratingsAfter ratings listing) ≤ leagueAverage c ratings ∧
      (leagueAverage c (ratingsAfter ratings listing) = leagueAverage c ratings ↔
        ∀ m ∈ listing, m.homeKey ∈ ratings ∧ m.awayKey ∈ ratings) := by
  induction listing generalizing ratings with
  | nil => simpa using hrated
  | cons m listing ih =>
      have hm := hteams m List.mem_cons_self
      obtain rfl := hleague m List.mem_cons_self
      have hcount := ratedTeams_applyMatch ratings hm
      obtain ⟨hfalls, hstands⟩ := leagueAverage_falls hm hrated
      obtain ⟨hpos, hle, heq⟩ := ih (fun p hp => hteams p (List.mem_cons_of_mem _ hp))
        (fun p hp => hleague p (List.mem_cons_of_mem _ hp)) (applyMatch ratings m).1 (by omega)
      rw [ratingsAfter, finalState_cons]
      refine ⟨hpos, hle.trans hfalls, ?_⟩
      rw [newcomers_eq_nil_iff] at hstands
      by_cases hknown : m.homeKey ∈ ratings ∧ m.awayKey ∈ ratings
      · have hsame : ∀ key, key ∈ (applyMatch ratings m).1 ↔ key ∈ ratings := by
          intro key
          rw [mem_applyMatch, or_iff_left_iff_imp]
          rintro (rfl | rfl)
          · exact hknown.1
          · exact hknown.2
        rw [hstands.mpr hknown] at heq
        refine heq.trans ?_
        simp only [hsame, List.forall_mem_cons, hknown, and_self, true_and]
      · -- who is seeded now pulls the average down for good
        have hdrop := lt_of_le_of_ne hfalls (mt hstands.mp hknown)
        constructor
        · intro habs
          exact absurd habs (hle.trans_lt hdrop).ne
        · intro hall
          exact absurd (hall m List.mem_cons_self) hknown

/-- A seed stays what it was exactly while nobody is seeded. -/
theorem seedRating_replay {c : ℤ} {listing : List MatchResult}
    (hteams : ∀ m ∈ listing, m.homeKey ≠ m.awayKey) (hleague : ∀ m ∈ listing, m.competitionId = c)
    (ratings : TeamMap R) :
    seedRating (ratingsAfter ratings listing) c ≤ seedRating ratings c ∧
      (seedRating (ratingsAfter ratings listing) c = seedRating ratings c ↔
        ∀ m ∈ listing, m.homeKey ∈ ratings ∧ m.awayKey ∈ ratings) := by
  rcases Nat.eq_zero_or_pos (ratedTeams c ratings) with hnobody | hrated
  · cases listing with
    | nil => simp
    | cons m listing =>
        -- The first match of the league seeds; every seed after it is below the default.
        have hm := hteams m List.mem_cons_self
        obtain rfl := hleague m List.mem_cons_self
        have hcount := ratedTeams_applyMatch ratings hm
        rw [newcomers_of_unrated hnobody, hnobody] at hcount
        obtain ⟨hpos, hle, -⟩ := leagueAverage_replay
          (fun p hp => hteams p (List.mem_cons_of_mem _ hp))
          (fun p hp => hleague p (List.mem_cons_of_mem _ hp)) (applyMatch ratings m).1
          (by rw [hcount]; exact Nat.succ_pos _)
        rw [leagueAverage_first hm hnobody] at hle
        have hpenalty := promotedPenalty_pos (R := R)
        have hlt : seedRating (ratingsAfter ratings (m :: listing)) m.competitionId <
            seedRating ratings m.competitionId := by
          rw [seedRating_eq, seedRating_eq, if_pos hnobody, ratingsAfter, finalState_cons,
            if_neg hpos.ne']
          linarith
        refine ⟨hlt.le, ?_⟩
        constructor
        · intro habs
          exact absurd habs hlt.ne
        · intro hknown
          have hnone := newcomers_eq_nil_iff.mpr (hknown m List.mem_cons_self)
          rw [newcomers_of_unrated hnobody] at hnone
          cases hnone
  · obtain ⟨hpos, hle, heq⟩ := leagueAverage_replay hteams hleague ratings hrated
    rw [seedRating_eq, seedRating_eq, if_neg hpos.ne', if_neg hrated.ne', sub_left_inj]
    exact ⟨by linarith, heq⟩

/-! ## The account of a league -/

variable (R) in
/-- What the ratings of a league say after a prefix of the replay. -/
structure LeagueAccount (c : ℤ) (played : List MatchResult) : Prop where
  conserved : leaguePoints c (ratingsAfter (∅ : TeamMap R) played) =
    (((seedsAlong (∅ : TeamMap R) played).filter fun e => ofLeague c e.1).map Prod.snd).sum
  seeded_once : ((seedsAlong (∅ : TeamMap R) played).map Prod.fst).Nodup
  rated_iff_seeded : ∀ key, key ∈ ratingsAfter (∅ : TeamMap R) played ↔
    key ∈ (seedsAlong (∅ : TeamMap R) played).map Prod.fst
  rated_iff_played : ∀ team, (team, c) ∈ ratingsAfter (∅ : TeamMap R) played ↔
    ∃ m ∈ played, m.competitionId = c ∧ (m.homeTeamId = team ∨ m.awayTeamId = team)
  average_le : 0 < ratedTeams c (ratingsAfter (∅ : TeamMap R) played) →
    leagueAverage c (ratingsAfter (∅ : TeamMap R) played) ≤ DEFAULT_RATING R

/-- What a match does to the average of a league. -/
structure AverageMove (c : ℤ) (ratings : TeamMap R) (m : MatchResult) : Prop where
  first : m.competitionId = c → ratedTeams c ratings = 0 →
    leagueAverage c (applyMatch ratings m).1 = DEFAULT_RATING R
  seeding : m.competitionId = c → 0 < ratedTeams c ratings →
    leagueAverage c (applyMatch ratings m).1 = leagueAverage c ratings -
      ((newcomers ratings m).length : R) * PROMOTED_PENALTY R /
        ((ratedTeams c ratings : R) + ((newcomers ratings m).length : R))
  unmoved : m.competitionId ≠ c ∨ newcomers ratings m = [] →
    leagueAverage c (applyMatch ratings m).1 = leagueAverage c ratings

omit [LinearOrder R] [IsStrictOrderedRing R] in
/-- The map has an entry for every team of the league that has played, and no other. -/
theorem rated_iff_played (played : List MatchResult) (c team : ℤ) :
    (team, c) ∈ ratingsAfter (∅ : TeamMap R) played ↔
      ∃ m ∈ played, m.competitionId = c ∧ (m.homeTeamId = team ∨ m.awayTeamId = team) := by
  rw [mem_ratingsAfter]
  simp only [MatchResult.homeKey, MatchResult.awayKey, Prod.mk.injEq]
  constructor
  · rintro ⟨m, hm, ⟨hteam, hleague⟩ | ⟨hteam, hleague⟩⟩
    · exact ⟨m, hm, hleague.symm, Or.inl hteam.symm⟩
    · exact ⟨m, hm, hleague.symm, Or.inr hteam.symm⟩
  · rintro ⟨m, hm, hleague, hteam | hteam⟩
    · exact ⟨m, hm, Or.inl ⟨hteam.symm, hleague.symm⟩⟩
    · exact ⟨m, hm, Or.inr ⟨hteam.symm, hleague.symm⟩⟩

theorem leagueAccount {played : List MatchResult} (hteams : ∀ m ∈ played, m.homeKey ≠ m.awayKey)
    (c : ℤ) : LeagueAccount R c played where
  conserved := leaguePoints_ratingsAfter hteams c
  seeded_once := (seedsAlong_keys hteams).1
  rated_iff_seeded := fun key => ((seedsAlong_keys hteams).2 key).symm
  rated_iff_played := rated_iff_played played c
  average_le := leagueAverage_le hteams c

/-- Between known teams an average does not move. -/
theorem leagueAverage_known {ratings : TeamMap R} {m : MatchResult}
    (hteams : m.homeKey ≠ m.awayKey) (hnone : newcomers ratings m = []) :
    leagueAverage m.competitionId (applyMatch ratings m).1 =
      leagueAverage m.competitionId ratings := by
  have hrated : 0 < ratedTeams m.competitionId ratings := by
    rw [Nat.pos_iff_ne_zero]
    intro hzero
    rw [newcomers_of_unrated hzero] at hnone
    cases hnone
  exact (leagueAverage_falls hteams hrated).2.mpr hnone

theorem averageMove {ratings : TeamMap R} {m : MatchResult} (hteams : m.homeKey ≠ m.awayKey)
    (c : ℤ) : AverageMove c ratings m where
  first := by
    rintro rfl hfirst
    exact leagueAverage_first hteams hfirst
  seeding := by
    rintro rfl hrated
    exact leagueAverage_applyMatch hteams hrated
  unmoved := by
    intro hcase
    by_cases hleague : m.competitionId = c
    · subst hleague
      exact leagueAverage_known hteams (hcase.resolve_left (not_not.mpr rfl))
    · exact leagueAverage_other _ hleague

/-- **Points are conserved, and only seeding moves an average**, after every
prefix of every replay. -/
theorem points_conserved (l : List MatchResult)
    (hteams : ∀ m ∈ l, m.homeTeamId ≠ m.awayTeamId) (c : ℤ) (played rest : List MatchResult)
    (hplayed : chronological l = played ++ rest) :
    LeagueAccount R c played ∧
      ∀ m ∈ rest.head?, AverageMove c (ratingsAfter (∅ : TeamMap R) played) m := by
  have hkeys : ∀ m ∈ played ++ rest, m.homeKey ≠ m.awayKey := by
    intro m hm
    rw [← hplayed] at hm
    exact keys_ne (hteams m ((chronological_perm l).subset hm))
  constructor
  · apply leagueAccount
    exact fun m hm => hkeys m (List.mem_append_left _ hm)
  · intro m hm
    apply averageMove
    exact hkeys m (List.mem_append_right _ (List.mem_of_mem_head? hm))

/-- A third team entering after one match pulls the average of the two down by a
third of the penalty. -/
theorem late_arrival_lowers_average :
    leagueAverage 2021 (ratingsAfter (∅ : TeamMap ℝ)
      [⟨1, 2021, 0, 1, 2, 2, 0⟩, ⟨2, 2021, 1, 1, 3, 1, 0⟩]) =
      DEFAULT_RATING ℝ - PROMOTED_PENALTY ℝ / 3 := by
  let first : MatchResult := ⟨1, 2021, 0, 1, 2, 2, 0⟩
  let late : MatchResult := ⟨2, 2021, 1, 1, 3, 1, 0⟩
  have hteams : ∀ m ∈ [first, late], m.homeTeamId ≠ m.awayTeamId := by decide
  have hsorted : chronological [first, late] = [first, late] :=
    List.mergeSort_of_pairwise (by decide)
  have hempty : ratedTeams 2021 (∅ : TeamMap ℝ) = 0 := by
    rw [ratedTeams, leagueOf_empty]
    rfl
  have hopening := ((points_conserved (R := ℝ) [first, late] hteams 2021 [] [first, late]
    hsorted).2 first rfl).first rfl hempty
  have hrated : ratedTeams 2021 (ratingsAfter (∅ : TeamMap ℝ) [first]) = 2 := by
    have hcount := ratedTeams_applyMatch (∅ : TeamMap ℝ) (m := first) (by decide)
    rw [newcomers_of_unrated hempty, hempty] at hcount
    exact hcount
  have hnew : newcomers (ratingsAfter (∅ : TeamMap ℝ) [first]) late = [late.awayKey] := by
    have hhome : late.homeKey ∈ ratingsAfter (∅ : TeamMap ℝ) [first] :=
      mem_ratingsAfter.mpr ⟨first, by simp, Or.inl rfl⟩
    have haway : late.awayKey ∉ ratingsAfter (∅ : TeamMap ℝ) [first] := by
      rw [mem_ratingsAfter]
      decide
    rw [newcomers, List.filter_cons_of_neg, List.filter_cons_of_pos, List.filter_nil]
    · exact decide_eq_true haway
    · rw [decide_eq_true_eq, not_not]
      exact hhome
  have hlate := ((points_conserved (R := ℝ) [first, late] hteams 2021 [first] [late]
    hsorted).2 late rfl).seeding rfl (by rw [hrated]; decide)
  have hbefore : leagueAverage 2021 (ratingsAfter (∅ : TeamMap ℝ) [first]) = DEFAULT_RATING ℝ :=
    hopening
  rw [hnew, hrated, hbefore] at hlate
  refine Eq.trans hlate ?_
  norm_num

end AGame.Engine.Elo

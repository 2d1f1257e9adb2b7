import AGame.Base.Ranking
import AGame.Engine.Shares

/-!
# The most likely scorelines

The cells of the matrix are produced in lexicographic order and sorted stably by
probability, so the listed scorelines are the first of the matrix by probability
and, among equally likely ones, by home and then away goals (`IsTopThree`).

A side's goal probabilities rise while the next goal count is below its rate and
do not rise from there on. The likeliest scoreline therefore takes for each side
the last goal count below its rate, as far as the matrix reaches
(`mostLikelyScores_top`).
-/

namespace AGame.Engine.Poisson

open Base

/-! ## The order of the cells -/

/-- Fewer home goals, then fewer away goals. -/
def fewerGoals (x y : ℕ × ℕ) : Prop := x.1 < y.1 ∨ x.1 = y.1 ∧ x.2 < y.2

theorem fewerGoals_asymm (x y : ℕ × ℕ) (h : fewerGoals x y) : ¬ fewerGoals y x := by
  unfold fewerGoals at *
  omega

/-- The scorelines of the matrix. -/
def inMatrix (x : ℕ × ℕ) : Prop := x.1 ≤ MAX_GOALS ∧ x.2 ≤ MAX_GOALS

/-- The scoreline of a cell. -/
def Cell.goals {R : Type} (c : Cell R) : ℕ × ℕ := (c.homeGoals, c.awayGoals)

section Matrix

variable {R : Type} [LinearOrder R]

theorem byProbability_eq_ranked (cells : List (Cell R)) :
    byProbability cells = ranked Cell.probability cells := rfl

theorem byProbability_perm (cells : List (Cell R)) : (byProbability cells).Perm cells :=
  ranked_perm Cell.probability cells

variable [Field R] [PyMath R] {a b : R}

/-- The probability of a scoreline in the matrix, before the division. -/
def likelihood (a b : R) (x : ℕ × ℕ) : R := pmf a x.1 * pmf b x.2

omit [LinearOrder R] in
theorem mem_scoreMatrix_iff {c : Cell R} :
    c ∈ scoreMatrix a b ↔ inMatrix c.goals ∧ c.probability = likelihood a b c.goals := by
  rw [mem_scoreMatrix]
  constructor
  · rintro ⟨home, away, hhome, haway, rfl⟩
    exact ⟨⟨hhome, haway⟩, rfl⟩
  · rcases c with ⟨home, away, probability⟩
    rintro ⟨⟨hhome, haway⟩, hprobability⟩
    exact ⟨home, away, hhome, haway, congrArg (Cell.mk home away) hprobability⟩

omit [LinearOrder R] in
/-- The loops visit the scorelines in lexicographic order. -/
theorem scoreMatrix_pairwise (a b : R) :
    (scoreMatrix a b).Pairwise fun c d => fewerGoals c.goals d.goals := by
  unfold scoreMatrix
  rw [List.pairwise_flatMap]
  constructor
  · intro home _
    rw [List.pairwise_map]
    exact List.pairwise_lt_range.imp fun haway => Or.inr ⟨rfl, haway⟩
  · apply List.pairwise_lt_range.imp
    intro home home' hhome c hc d hd
    obtain ⟨away, -, rfl⟩ := List.mem_map.mp hc
    obtain ⟨away', -, rfl⟩ := List.mem_map.mp hd
    exact Or.inl hhome

/-- Which of two scorelines comes first: the likelier one, and of equally likely
ones that with fewer goals. -/
def comesFirst (a b : R) : ℕ × ℕ → ℕ × ℕ → Prop := RanksBefore (likelihood a b) fewerGoals

theorem comesFirst_asymm (x y : ℕ × ℕ) (h : comesFirst a b x y) : ¬ comesFirst a b y x :=
  h.asymm fewerGoals_asymm

/-- The scorelines of the matrix, the most likely first. -/
def rankedScores (a b : R) : List (ℕ × ℕ) := (byProbability (scoreMatrix a b)).map Cell.goals

theorem mem_rankedScores {x : ℕ × ℕ} : x ∈ rankedScores a b ↔ inMatrix x := by
  rw [rankedScores, List.mem_map]
  constructor
  · rintro ⟨c, hc, rfl⟩
    exact (mem_scoreMatrix_iff.mp ((byProbability_perm _).mem_iff.mp hc)).1
  · intro hx
    refine ⟨⟨x.1, x.2, likelihood a b x⟩, ?_, rfl⟩
    exact (byProbability_perm _).mem_iff.mpr (mem_scoreMatrix_iff.mpr ⟨hx, rfl⟩)

theorem rankedScores_pairwise (a b : R) : (rankedScores a b).Pairwise (comesFirst a b) := by
  rw [rankedScores, List.pairwise_map, byProbability_eq_ranked]
  have hranked := ranked_pairwise Cell.probability (scoreMatrix_pairwise a b)
  apply hranked.imp_of_mem
  intro c d hc hd hbefore
  have hcell : ∀ e ∈ ranked Cell.probability (scoreMatrix a b),
      e.probability = likelihood a b e.goals := by
    intro e he
    exact (mem_scoreMatrix_iff.mp ((byProbability_perm _).mem_iff.mp he)).2
  rw [RanksBefore, hcell c hc, hcell d hd] at hbefore
  exact hbefore

theorem rankedScores_nodup (a b : R) : (rankedScores a b).Nodup := by
  apply (rankedScores_pairwise a b).imp
  rintro x y h rfl
  exact comesFirst_asymm x x h h

theorem length_rankedScores (a b : R) : (rankedScores a b).length = 121 := by
  rw [rankedScores, List.length_map, (byProbability_perm _).length_eq]
  rfl

end Matrix

/-! ## The listed scorelines -/

/-- The scoreline of a listed entry. -/
def listedGoals (s : Scoreline) : ℕ × ℕ := (s.home, s.away)

/-- The top three scorelines of the matrix, the probability of each as it is
reported. -/
structure IsTopThree (a b : ℝ) (listed : List Scoreline) : Prop where
  three : listed.length = 3
  distinct : (listed.map listedGoals).Nodup
  in_matrix : ∀ s ∈ listed, inMatrix (listedGoals s)
  prob : ∀ s ∈ listed, s.prob = roundDecimal 4 (likelihood a b (listedGoals s) / total a b)
  likelier_first : listed.Pairwise fun s t =>
    t.prob ≤ s.prob ∧ likelihood a b (listedGoals t) ≤ likelihood a b (listedGoals s)
  none_likelier : ∀ s ∈ listed, ∀ x, inMatrix x → x ∉ listed.map listedGoals →
    likelihood a b x ≤ likelihood a b (listedGoals s)
  ties : listed.Pairwise fun s t =>
    likelihood a b (listedGoals t) = likelihood a b (listedGoals s) →
      fewerGoals (listedGoals s) (listedGoals t)
  ties_unlisted : ∀ s ∈ listed, ∀ x, inMatrix x → x ∉ listed.map listedGoals →
    likelihood a b x = likelihood a b (listedGoals s) → fewerGoals (listedGoals s) x

section Listed

variable (a b : ℝ)

/-- A listed entry. -/
noncomputable def entry (x : ℕ × ℕ) : Scoreline :=
  ⟨x.1, x.2, roundDecimal 4 (likelihood a b x / total a b)⟩

theorem mostLikelyScores_eq :
    (scoreProbabilities a b).mostLikelyScores = ((rankedScores a b).take 3).map (entry a b) := by
  rw [rankedScores, ← List.map_take, List.map_map]
  apply List.map_congr_left
  intro c hc
  have hcell := (byProbability_perm _).mem_iff.mp (List.mem_of_mem_take hc)
  simp only [Function.comp_apply, entry, ← (mem_scoreMatrix_iff.mp hcell).2]
  rfl

theorem map_listedGoals :
    (scoreProbabilities a b).mostLikelyScores.map listedGoals = (rankedScores a b).take 3 := by
  rw [mostLikelyScores_eq, List.map_map]
  exact List.map_id _

theorem mostLikelyScores_pairwise :
    (scoreProbabilities a b).mostLikelyScores.Pairwise fun s t =>
      comesFirst a b (listedGoals s) (listedGoals t) := by
  have htop := (rankedScores_pairwise a b).sublist (List.take_sublist 3 _)
  rwa [← map_listedGoals, List.pairwise_map] at htop

/-- A listed scoreline comes before every other of the matrix. -/
theorem listed_comesFirst {s : Scoreline} (hs : s ∈ (scoreProbabilities a b).mostLikelyScores)
    {x : ℕ × ℕ} (hx : inMatrix x)
    (hrest : x ∉ (scoreProbabilities a b).mostLikelyScores.map listedGoals) :
    comesFirst a b (listedGoals s) x := by
  have htop := List.mem_map_of_mem (f := listedGoals) hs
  rw [map_listedGoals] at htop hrest
  exact top_before_rest (rankedScores_pairwise a b) htop (mem_rankedScores.mpr hx) hrest

end Listed

theorem isTopThree {a b : ℝ} (ha : 0 ≤ a) (hb : 0 ≤ b) :
    IsTopThree a b (scoreProbabilities a b).mostLikelyScores := by
  have htotal : 0 < total a b := by
    rw [total_eq_mass]
    exact scoreMatrix_mass_pos ha hb
  have hprob : ∀ s ∈ (scoreProbabilities a b).mostLikelyScores,
      s.prob = roundDecimal 4 (likelihood a b (listedGoals s) / total a b) := by
    intro s hs
    rw [mostLikelyScores_eq] at hs
    obtain ⟨x, -, rfl⟩ := List.mem_map.mp hs
    rfl
  have hpairwise := mostLikelyScores_pairwise a b
  exact {
    three := by
      rw [mostLikelyScores_eq, List.length_map, List.length_take, length_rankedScores]
      rfl
    distinct := by
      rw [map_listedGoals]
      exact (rankedScores_nodup a b).sublist (List.take_sublist 3 _)
    in_matrix := by
      intro s hs
      have htop := List.mem_map_of_mem (f := listedGoals) hs
      rw [map_listedGoals] at htop
      exact mem_rankedScores.mp (List.mem_of_mem_take htop)
    prob := hprob
    likelier_first := by
      apply hpairwise.imp_of_mem
      intro s t hs ht hfirst
      refine ⟨?_, hfirst.le⟩
      rw [hprob s hs, hprob t ht]
      apply roundDecimal_mono
      exact div_le_div_of_nonneg_right hfirst.le htotal.le
    none_likelier := fun s hs x hx hrest => (listed_comesFirst a b hs hx hrest).le
    ties := hpairwise.imp fun hfirst => hfirst.of_eq
    ties_unlisted := fun s hs x hx hrest => (listed_comesFirst a b hs hx hrest).of_eq }

/-! ## The likeliest goal count of a side -/

section Mode

variable {rate : ℝ}

theorem pmf_succ (rate : ℝ) (goals : ℕ) :
    pmf rate (goals + 1) = pmf rate goals * (rate / (goals + 1)) := by
  simp only [pmf, pow_succ, Nat.factorial_succ]
  push_cast
  have hfactorial : (goals.factorial : ℝ) ≠ 0 := Nat.cast_ne_zero.mpr goals.factorial_ne_zero
  field_simp

theorem pmf_pos (h : 0 < rate) (goals : ℕ) : 0 < pmf rate goals := by
  unfold pmf
  have hexp : 0 < PyMath.exp (-rate) := Real.exp_pos (-rate)
  positivity

theorem pmf_lt_succ {goals : ℕ} (h : (goals : ℝ) + 1 < rate) :
    pmf rate goals < pmf rate (goals + 1) := by
  have hpositive : (0 : ℝ) < goals + 1 := by positivity
  rw [pmf_succ]
  apply lt_mul_of_one_lt_right (pmf_pos (hpositive.trans h) goals)
  rwa [one_lt_div hpositive]

theorem pmf_succ_le (h0 : 0 ≤ rate) {goals : ℕ} (h : rate ≤ goals + 1) :
    pmf rate (goals + 1) ≤ pmf rate goals := by
  have hpositive : (0 : ℝ) < goals + 1 := by positivity
  rw [pmf_succ]
  apply mul_le_of_le_one_right (pmf_nonneg h0 goals)
  rwa [div_le_one hpositive]

/-- The last goal count below the rate, as far as the matrix reaches. -/
noncomputable def likeliestGoals (rate : ℝ) : ℕ := min MAX_GOALS (⌈rate⌉₊ - 1)

theorem likeliestGoals_eq (h : 0 ≤ rate) :
    (likeliestGoals rate : ℤ) = min (MAX_GOALS : ℤ) (max 0 (⌈rate⌉ - 1)) := by
  have hceil : ((⌈rate⌉₊ : ℕ) : ℤ) = ⌈rate⌉ := Int.natCast_ceil_eq_ceil h
  unfold likeliestGoals
  omega

/-- The goal probabilities rise up to the likeliest count. -/
theorem pmf_strictMonoOn (rate : ℝ) : StrictMonoOn (pmf rate) (Set.Iic (likeliestGoals rate)) := by
  apply strictMonoOn_of_lt_add_one Set.ordConnected_Iic
  intro goals _ _ hnext
  apply pmf_lt_succ
  have hceil : goals + 1 < ⌈rate⌉₊ := by
    rw [Set.mem_Iic, likeliestGoals] at hnext
    omega
  exact_mod_cast Nat.lt_ceil.mp hceil

/-- They do not rise after it. -/
theorem pmf_antitoneOn (h : 0 ≤ rate) :
    AntitoneOn (pmf rate) (Set.Icc (likeliestGoals rate) MAX_GOALS) := by
  apply antitoneOn_of_add_one_le Set.ordConnected_Icc
  intro goals _ hgoals hnext
  apply pmf_succ_le h
  have hceil : ⌈rate⌉₊ ≤ goals + 1 := by
    rw [Set.mem_Icc, likeliestGoals] at hgoals hnext
    omega
  exact_mod_cast Nat.ceil_le.mp hceil

theorem pmf_le_likeliest (h : 0 ≤ rate) {goals : ℕ} (hgoals : goals ≤ MAX_GOALS) :
    pmf rate goals ≤ pmf rate (likeliestGoals rate) := by
  have hmax : likeliestGoals rate ≤ MAX_GOALS := min_le_left _ _
  rcases le_total goals (likeliestGoals rate) with hle | hle
  · exact (pmf_strictMonoOn rate).monotoneOn hle Set.self_mem_Iic hle
  · exact pmf_antitoneOn h ⟨le_rfl, hmax⟩ ⟨hle, hgoals⟩ hle

theorem pmf_lt_likeliest {goals : ℕ} (hgoals : goals < likeliestGoals rate) :
    pmf rate goals < pmf rate (likeliestGoals rate) :=
  pmf_strictMonoOn rate hgoals.le Set.self_mem_Iic hgoals

theorem pmf_likeliest_pos (h : 0 ≤ rate) : 0 < pmf rate (likeliestGoals rate) :=
  (pmf_zero_pos rate).trans_le (pmf_le_likeliest h (Nat.zero_le _))

end Mode

/-! ## The scoreline at the head -/

/-- The likeliest goals of both sides come before every other scoreline. -/
theorem likeliest_comesFirst {a b : ℝ} (ha : 0 ≤ a) (hb : 0 ≤ b) {x : ℕ × ℕ} (hx : inMatrix x)
    (hne : x ≠ (likeliestGoals a, likeliestGoals b)) :
    comesFirst a b (likeliestGoals a, likeliestGoals b) x := by
  obtain ⟨home, away⟩ := x
  obtain ⟨hhome, haway⟩ := hx
  have hle : pmf a home * pmf b away ≤ pmf a (likeliestGoals a) * pmf b (likeliestGoals b) :=
    mul_le_mul (pmf_le_likeliest ha hhome) (pmf_le_likeliest hb haway) (pmf_nonneg hb away)
      (pmf_nonneg ha _)
  rcases lt_trichotomy home (likeliestGoals a) with hfewer | rfl | hmore
  · refine Or.inl ?_
    calc pmf a home * pmf b away
        ≤ pmf a home * pmf b (likeliestGoals b) :=
          mul_le_mul_of_nonneg_left (pmf_le_likeliest hb haway) (pmf_nonneg ha home)
      _ < pmf a (likeliestGoals a) * pmf b (likeliestGoals b) :=
          mul_lt_mul_of_pos_right (pmf_lt_likeliest hfewer) (pmf_likeliest_pos hb)
  · rcases lt_trichotomy away (likeliestGoals b) with hfewer | rfl | hmore
    · refine Or.inl ?_
      exact mul_lt_mul_of_pos_left (pmf_lt_likeliest hfewer) (pmf_likeliest_pos ha)
    · exact absurd rfl hne
    · exact RanksBefore.of_le hle (Or.inr ⟨rfl, hmore⟩)
  · exact RanksBefore.of_le hle (Or.inl hmore)

/-- **The listed scorelines are the top three of the matrix**, and the first is
the likeliest goal count of each side. -/
theorem mostLikelyScores_top (a b : ℝ) (ha : 0 ≤ a) (hb : 0 ≤ b) :
    IsTopThree a b (scoreProbabilities a b).mostLikelyScores ∧
    ∃ top, (scoreProbabilities a b).mostLikelyScores.head? = some top ∧
      (top.home : ℤ) = min (MAX_GOALS : ℤ) (max 0 (⌈a⌉ - 1)) ∧
      (top.away : ℤ) = min (MAX_GOALS : ℤ) (max 0 (⌈b⌉ - 1)) := by
  refine ⟨isTopThree ha hb, entry a b (likeliestGoals a, likeliestGoals b), ?_,
    likeliestGoals_eq ha, likeliestGoals_eq hb⟩
  have hhead := head_of_before_all (rankedScores_pairwise a b) comesFirst_asymm
    (x := (likeliestGoals a, likeliestGoals b))
    (mem_rankedScores.mpr ⟨min_le_left _ _, min_le_left _ _⟩)
    fun y hy hne => likeliest_comesFirst ha hb (mem_rankedScores.mp hy) hne
  rw [mostLikelyScores_eq, List.head?_map, List.head?_take, if_neg (by decide), hhead]
  rfl

/-- Two and three goals are equally likely at rate three, and no rate reaches
beyond the matrix. -/
theorem top_at_three_and_thousand :
    ∃ top, (scoreProbabilities (3 : ℝ) 1000).mostLikelyScores.head? = some top ∧
      top.home = 2 ∧ top.away = 10 := by
  obtain ⟨-, top, hhead, hhome, haway⟩ := mostLikelyScores_top 3 1000 (by norm_num) (by norm_num)
  refine ⟨top, hhead, ?_, ?_⟩
  · rw [Int.ceil_ofNat] at hhome
    exact Int.ofNat_inj.mp hhome
  · rw [Int.ceil_ofNat] at haway
    exact Int.ofNat_inj.mp haway

end AGame.Engine.Poisson

import Mathlib

/-!
# Asking until there is an answer

A bounded retry calls again after a pause until an answer settles the matter or the
attempts are used up; what it comes to is decided by one answer
(`Policy.retry_eq`). A loop as programs write it has a state, a test at its head and
turns, and may not end at all. It is a bounded retry where each of its turns is
(`Loop.ends_retry`).
-/

namespace Base

/-- What can be seen of a loop from outside. -/
inductive LoopEvent where
  | call
  | sleep (seconds : ℕ)
deriving DecidableEq, Repr

def callCount (trace : List LoopEvent) : ℕ := trace.count .call

@[simp] theorem callCount_call_sleep (seconds : ℕ) (trace : List LoopEvent) :
    callCount (.call :: .sleep seconds :: trace) = callCount trace + 1 := by
  rw [callCount, List.count_cons_self, List.count_cons_of_ne (by simp)]
  rfl

/-- A call, and so many more with a pause before each. -/
def tries (pause : ℕ) : ℕ → List LoopEvent
  | 0 => [.call]
  | n + 1 => .call :: .sleep pause :: tries pause n

@[simp] theorem callCount_tries (pause n : ℕ) : callCount (tries pause n) = n + 1 := by
  induction n with
  | zero => rfl
  | succ n ih => rw [tries, callCount_call_sleep, ih]

/-! ## Bounded retries -/

/-- An answer that settles the matter ends the retries; the last one has to do. -/
structure Policy (ω ρ : Type) where
  settle : ω → Option ρ
  giveUp : ω → ρ
  pause : ℕ

namespace Policy

variable {ω ρ : Type} (p : Policy ω ρ) (answers : ℕ → ω)

/-- What an answer comes to when it is the last one. -/
def verdict (answer : ω) : ρ := (p.settle answer).getD (p.giveUp answer)

/-- At most `n` attempts after the one that is the `i`-th call. -/
def retry : ℕ → ℕ → List LoopEvent × ρ
  | 0, i => ([.call], p.verdict (answers i))
  | n + 1, i =>
      match p.settle (answers i) with
      | some result => ([.call], result)
      | none =>
          let (trace, result) := retry n (i + 1)
          (.call :: .sleep p.pause :: trace, result)

/-- Which call is the last. -/
def lastCall : ℕ → ℕ → ℕ
  | 0, i => i
  | n + 1, i => if (p.settle (answers i)).isSome then i else lastCall n (i + 1)

variable {p answers}

theorem retry_of_some {i : ℕ} {result : ρ} (h : p.settle (answers i) = some result) (n : ℕ) :
    p.retry answers n i = ([.call], result) := by
  cases n with
  | zero => rw [retry, verdict, h, Option.getD_some]
  | succ n => rw [retry, h]

theorem retry_of_none {i : ℕ} (h : p.settle (answers i) = none) (n : ℕ) :
    p.retry answers (n + 1) i =
      (.call :: .sleep p.pause :: (p.retry answers n (i + 1)).1,
        (p.retry answers n (i + 1)).2) := by
  rw [retry, h]

/-- Between two calls there is a pause. -/
theorem retry_ne_call_call (n i : ℕ) (rest : List LoopEvent) :
    (p.retry answers n i).1 ≠ .call :: .call :: rest := by
  intro h
  cases hsettle : p.settle (answers i) with
  | some result =>
      rw [retry_of_some hsettle] at h
      cases h
  | none =>
      cases n with
      | zero => cases h
      | succ n =>
          rw [retry_of_none hsettle] at h
          cases h

theorem lastCall_of_some {i : ℕ} {result : ρ} (h : p.settle (answers i) = some result) (n : ℕ) :
    p.lastCall answers n i = i := by
  cases n with
  | zero => rfl
  | succ n => rw [lastCall, h, Option.isSome_some, if_pos rfl]

theorem lastCall_of_none {i : ℕ} (h : p.settle (answers i) = none) (n : ℕ) :
    p.lastCall answers (n + 1) i = p.lastCall answers n (i + 1) := by
  rw [lastCall, h, Option.isSome_none, if_neg Bool.false_ne_true]

theorem le_lastCall (n i : ℕ) : i ≤ p.lastCall answers n i := by
  induction n generalizing i with
  | zero => exact le_rfl
  | succ n ih =>
      cases h : p.settle (answers i) with
      | some result => rw [lastCall_of_some h]
      | none =>
          rw [lastCall_of_none h]
          exact (Nat.le_succ i).trans (ih (i + 1))

/-- The calls made are those before which nothing was settled. -/
theorem le_lastCall_iff {n i j : ℕ} (hij : i ≤ j) :
    j ≤ p.lastCall answers n i ↔
      j ≤ i + n ∧ ∀ m, i ≤ m → m < j → p.settle (answers m) = none := by
  induction n generalizing i with
  | zero =>
      rw [lastCall]
      constructor
      · intro hj
        exact ⟨hj, fun m him hmj => absurd (him.trans_lt hmj) hj.not_gt⟩
      · exact And.left
  | succ n ih =>
      rcases hij.eq_or_lt with rfl | hij
      · exact iff_of_true (le_lastCall _ _)
          ⟨Nat.le_add_right _ _, fun m him hmi => absurd him hmi.not_ge⟩
      cases h : p.settle (answers i) with
      | some result =>
          rw [lastCall_of_some h]
          refine iff_of_false hij.not_ge ?_
          rintro ⟨-, hnone⟩
          cases h.symm.trans (hnone i le_rfl hij)
      | none =>
          rw [lastCall_of_none h, ih hij, Nat.succ_add_eq_add_succ]
          refine and_congr_right fun _ => ⟨fun hnone m him hmj => ?_, fun hnone m him hmj => ?_⟩
          · rcases him.eq_or_lt with rfl | him
            · exact h
            · exact hnone m him hmj
          · exact hnone m (Nat.le_of_succ_le him) hmj

theorem lastCall_le (n i : ℕ) : p.lastCall answers n i ≤ i + n :=
  ((le_lastCall_iff (le_lastCall n i)).mp le_rfl).1

/-- The last call is the first that settles the matter, else the last there is. -/
theorem lastCall_eq_find (n i : ℕ) :
    p.lastCall answers n i =
      ((List.range' i (n + 1)).find? fun j => (p.settle (answers j)).isSome).getD (i + n) := by
  induction n generalizing i with
  | zero =>
      rw [lastCall, List.range'_one, List.find?_singleton]
      split_ifs <;> rfl
  | succ n ih =>
      rw [List.range'_succ, List.find?_cons]
      cases h : p.settle (answers i) with
      | some result =>
          rw [lastCall_of_some h]
          rfl
      | none =>
          rw [lastCall_of_none h, ih, Nat.succ_add_eq_add_succ]
          rfl

/-- **One answer decides a bounded retry.** -/
theorem retry_eq (n i : ℕ) :
    p.retry answers n i =
      (tries p.pause (p.lastCall answers n i - i),
        p.verdict (answers (p.lastCall answers n i))) := by
  induction n generalizing i with
  | zero =>
      rw [retry, lastCall, Nat.sub_self]
      rfl
  | succ n ih =>
      cases h : p.settle (answers i) with
      | some result =>
          rw [retry_of_some h, lastCall_of_some h, Nat.sub_self, verdict, h]
          rfl
      | none =>
          have hsteps : p.lastCall answers n (i + 1) - i =
              p.lastCall answers n (i + 1) - (i + 1) + 1 := by
            have hlater := @le_lastCall _ _ p answers n (i + 1)
            omega
          rw [retry_of_none h, lastCall_of_none h, ih, hsteps]
          rfl

end Policy

/-! ## Loops -/

/-- What one turn of a loop comes to. -/
inductive Turn (σ ρ : Type) where
  | leave (result : ρ)
  | again (pause : Option ℕ) (state : σ)

/-- A loop that makes one call a turn. -/
structure Loop (σ ω ρ : Type) where
  /-- The test at its head: what it comes to when the loop is over. -/
  test : σ → Option ρ
  turn : σ → ω → Turn σ ρ

namespace Loop

variable {σ ω ρ : Type} (L : Loop σ ω ρ) (answers : ℕ → ω)

/-- A turn that goes on, seen from outside. -/
def turnEvents (pause : Option ℕ) : List LoopEvent :=
  .call :: (pause.map LoopEvent.sleep).toList

@[simp] theorem callCount_turnEvents (pause : Option ℕ) (trace : List LoopEvent) :
    callCount (turnEvents pause ++ trace) = callCount trace + 1 := by
  cases pause with
  | none => exact List.count_cons_self
  | some seconds => exact callCount_call_sleep seconds trace

/-- From a state, with the `i`-th call to make next, the loop ends like this. -/
inductive Ends : σ → ℕ → List LoopEvent → ρ → Prop
  | finished {s : σ} {i : ℕ} {result : ρ} : L.test s = some result → Ends s i [] result
  | leave {s : σ} {i : ℕ} {result : ρ} : L.test s = none →
      L.turn s (answers i) = .leave result → Ends s i [.call] result
  | again {s s' : σ} {i : ℕ} {pause : Option ℕ} {trace : List LoopEvent} {result : ρ} :
      L.test s = none → L.turn s (answers i) = .again pause s' → Ends s' (i + 1) trace result →
      Ends s i (turnEvents pause ++ trace) result

/-- So many turns of the loop, when it ends within them. -/
def run : ℕ → σ → ℕ → Option (List LoopEvent × ρ)
  | 0, _, _ => none
  | fuel + 1, s, i =>
      match L.test s with
      | some result => some ([], result)
      | none =>
          match L.turn s (answers i) with
          | .leave result => some ([.call], result)
          | .again pause s' =>
              (run fuel s' (i + 1)).map fun (trace, result) => (turnEvents pause ++ trace, result)

variable {L answers}

/-- With enough turns a run finds the end there is, and no other. -/
theorem exists_run_iff {s : σ} {i : ℕ} {trace : List LoopEvent} {result : ρ} :
    (∃ fuel, L.run answers fuel s i = some (trace, result)) ↔ L.Ends answers s i trace result := by
  constructor
  · rintro ⟨fuel, h⟩
    induction fuel generalizing s i trace with
    | zero => cases h
    | succ fuel ih =>
        rw [run] at h
        split at h
        case h_1 htest =>
          cases h
          exact .finished htest
        case h_2 htest =>
          split at h
          case h_1 hturn =>
            cases h
            exact .leave htest hturn
          case h_2 hturn =>
            obtain ⟨⟨trace, result⟩, hrest, heq⟩ := Option.map_eq_some_iff.mp h
            cases heq
            exact .again htest hturn (ih hrest)
  · intro h
    induction h with
    | finished htest => exact ⟨1, by rw [run, htest]⟩
    | leave htest hturn => exact ⟨1, by simp only [run, htest, hturn]⟩
    | again htest hturn _ ih =>
        obtain ⟨fuel, hrest⟩ := ih
        exact ⟨fuel + 1, by simp only [run, htest, hturn, hrest, Option.map_some]⟩

/-- A loop has one end at most. -/
theorem Ends.unique {s : σ} {i : ℕ} {trace trace' : List LoopEvent} {result result' : ρ}
    (h : L.Ends answers s i trace result) (h' : L.Ends answers s i trace' result') :
    trace = trace' ∧ result = result' := by
  induction h generalizing trace' with
  | finished htest =>
      cases h' with
      | finished htest' => exact ⟨rfl, Option.some.inj (htest.symm.trans htest')⟩
      | leave htest' _ => cases htest.symm.trans htest'
      | again htest' _ _ => cases htest.symm.trans htest'
  | leave htest hturn =>
      cases h' with
      | finished htest' => cases htest.symm.trans htest'
      | leave _ hturn' =>
          cases hturn.symm.trans hturn'
          exact ⟨rfl, rfl⟩
      | again _ hturn' _ => cases hturn.symm.trans hturn'
  | again htest hturn _ ih =>
      cases h' with
      | finished htest' => cases htest.symm.trans htest'
      | leave _ hturn' => cases hturn.symm.trans hturn'
      | again _ hturn' hrest =>
          cases hturn.symm.trans hturn'
          obtain ⟨rfl, rfl⟩ := ih hrest
          exact ⟨rfl, rfl⟩

/-- After a turn that goes on, the rest is the end of the state it leads to. -/
theorem Ends.of_again {s s' : σ} {i : ℕ} {pause : Option ℕ} {trace : List LoopEvent} {result : ρ}
    (h : L.Ends answers s i trace result) (htest : L.test s = none)
    (hturn : L.turn s (answers i) = .again pause s') :
    ∃ rest, trace = turnEvents pause ++ rest ∧ L.Ends answers s' (i + 1) rest result := by
  cases h with
  | finished htest' => cases htest.symm.trans htest'
  | leave _ hturn' => cases hturn.symm.trans hturn'
  | again _ hturn' hrest =>
      cases hturn.symm.trans hturn'
      exact ⟨_, rfl, hrest⟩

/-- A loop that is not over makes a call before anything else. -/
theorem Ends.starts_with_call {s : σ} {i : ℕ} {trace : List LoopEvent} {result : ρ}
    (h : L.Ends answers s i trace result) (htest : L.test s = none) :
    ∃ rest, trace = .call :: rest := by
  cases h with
  | finished htest' => cases htest.symm.trans htest'
  | leave _ _ => exact ⟨[], rfl⟩
  | again _ _ _ => exact ⟨_, rfl⟩

/-- A loop in which every turn leads to another never ends. -/
theorem not_ends (holds : ℕ → σ → Prop)
    (h : ∀ i s, holds i s → L.test s = none ∧
      ∃ pause s', L.turn s (answers i) = .again pause s' ∧ holds (i + 1) s')
    {s : σ} {i : ℕ} {trace : List LoopEvent} {result : ρ} (hs : holds i s) :
    ¬ L.Ends answers s i trace result := by
  intro hends
  induction hends with
  | finished htest => cases (h _ _ hs).1.symm.trans htest
  | leave _ hturn =>
      obtain ⟨-, pause, s', hagain, -⟩ := h _ _ hs
      cases hturn.symm.trans hagain
  | again _ hturn _ ih =>
      obtain ⟨-, pause, s', hagain, hs'⟩ := h _ _ hs
      cases hturn.symm.trans hagain
      exact ih hs'

/-- On this answer every turn does as the policy says, where a state is known by the
number of attempts left after the next one. -/
structure Follows (L : Loop σ ω ρ) (p : Policy ω ρ) (holds : ℕ → σ → Prop) (answer : ω) : Prop where
  goes_on : ∀ n s, holds n s → L.test s = none
  settles : ∀ n s, holds n s → ∀ result, p.settle answer = some result →
    L.turn s answer = .leave result
  gives_up : ∀ s, holds 0 s → p.settle answer = none → L.turn s answer = .leave (p.giveUp answer)
  tries_again : ∀ n s, holds (n + 1) s → p.settle answer = none →
    ∃ s', L.turn s answer = .again (some p.pause) s' ∧ holds n s'

/-- Another loop follows the policy on an answer on which it does the same. -/
theorem Follows.congr {L' : Loop σ ω ρ} {p : Policy ω ρ} {holds : ℕ → σ → Prop} {answer : ω}
    (h : L.Follows p holds answer) (htest : L'.test = L.test)
    (hturn : ∀ s, L'.turn s answer = L.turn s answer) : L'.Follows p holds answer where
  goes_on n s hs := htest ▸ h.goes_on n s hs
  settles n s hs result hsettle := (hturn s).trans (h.settles n s hs result hsettle)
  gives_up s hs hsettle := (hturn s).trans (h.gives_up s hs hsettle)
  tries_again n s hs hsettle := by
    rw [hturn]
    exact h.tries_again n s hs hsettle

/-- A loop that counts its attempts down and pauses between them follows its policy. -/
theorem Follows.of_count {L : Loop σ ω ρ} {p : Policy ω ρ} {count : σ → ℕ} (next : σ → σ)
    {answer : ω} (htest : ∀ s, 0 < count s → L.test s = none)
    (hsettles : ∀ s result, p.settle answer = some result → L.turn s answer = .leave result)
    (hfails : ∀ s, p.settle answer = none → L.turn s answer =
      if count s - 1 = 0 then .leave (p.giveUp answer) else .again (some p.pause) (next s))
    (hnext : ∀ s, count (next s) = count s - 1) :
    L.Follows p (fun n s => count s = n + 1) answer where
  goes_on n s hs := htest s (hs ▸ Nat.succ_pos n)
  settles _ s _ result hsettle := hsettles s result hsettle
  gives_up s hs hsettle := by rw [hfails s hsettle, hs, if_pos rfl]
  tries_again n s hs hsettle := by
    refine ⟨next s, ?_, ?_⟩
    · rw [hfails s hsettle, hs, Nat.add_sub_cancel, if_neg (Nat.succ_ne_zero n)]
    · rw [hnext, hs]
      rfl

/-- **A loop whose turns follow a policy is its bounded retry.** -/
theorem ends_retry {p : Policy ω ρ} {holds : ℕ → σ → Prop} {n i : ℕ} {s : σ} (hs : holds n s)
    (h : ∀ j, i ≤ j → j ≤ p.lastCall answers n i → L.Follows p holds (answers j)) :
    L.Ends answers s i (p.retry answers n i).1 (p.retry answers n i).2 := by
  induction n generalizing i s with
  | zero =>
      have hnow := h i le_rfl le_rfl
      cases hsettled : p.settle (answers i) with
      | some result =>
          rw [Policy.retry_of_some hsettled]
          exact .leave (hnow.goes_on 0 s hs) (hnow.settles 0 s hs result hsettled)
      | none =>
          have hgive := Ends.leave (hnow.goes_on 0 s hs) (hnow.gives_up s hs hsettled)
          rwa [Policy.retry, Policy.verdict, hsettled]
  | succ n ih =>
      have hnow := h i le_rfl (Policy.le_lastCall _ _)
      cases hsettled : p.settle (answers i) with
      | some result =>
          rw [Policy.retry_of_some hsettled]
          exact .leave (hnow.goes_on _ s hs) (hnow.settles _ s hs result hsettled)
      | none =>
          obtain ⟨s', hturn, hs'⟩ := hnow.tries_again n s hs hsettled
          rw [Policy.lastCall_of_none hsettled] at h
          rw [Policy.retry_of_none hsettled]
          exact .again (hnow.goes_on _ s hs) hturn
            (ih hs' fun j hij hj => h j (Nat.le_of_succ_le hij) hj)

/-- A loop that follows its policy whatever comes back: up to so many more attempts, the last
one being the first that settles the matter. -/
theorem ends_iff_tries {p : Policy ω ρ} {holds : ℕ → σ → Prop} {n i : ℕ} {s : σ}
    (hs : holds n s) (h : ∀ answer, L.Follows p holds answer) (trace : List LoopEvent)
    (result : ρ) : L.Ends answers s i trace result ↔
      trace = tries p.pause (p.lastCall answers n i - i) ∧
        result = p.verdict (answers (p.lastCall answers n i)) := by
  have hends := @ends_retry _ _ _ L answers p holds n i s hs fun j _ _ => h (answers j)
  rw [Policy.retry_eq] at hends
  constructor
  · exact fun hother => hother.unique hends
  · rintro ⟨rfl, rfl⟩
    exact hends

end Loop

end Base

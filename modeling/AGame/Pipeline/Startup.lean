import AGame.Base.Retry

/-!
# Waiting for Postgres (`a-game-brain/app/stores.py`, `a-game-api/app/store.py`)

Both services make their pool in a loop with five tries that counts the exceptions
it catches. The API turns a `None` of `create_pool` into an exception, so its loop is
a bounded retry whatever happens; the brain asks again at once and counts nothing.
-/

namespace AGame.Startup

open Base

/-! ## The two loops -/

/-- What one call of `asyncpg.create_pool` comes to; an exception is one that
`except Exception` catches. -/
inductive CreatePool (π ε : Type) where
  | pool (p : π)
  | none
  | raised (e : ε)
deriving DecidableEq, Repr

/-- What an `except` branch is given. -/
inductive Caught (ε : Type) where
  | raised (e : ε)
  | connectionError (message : String)
deriving DecidableEq, Repr

/-- The `ConnectionError` that leaves `make_pg_pool`, and what it was raised from. -/
structure ConnectionError (ε : Type) where
  message : String
  cause : Option (Caught ε)
deriving DecidableEq, Repr

/-- The variables of the loop. -/
structure PoolState (π : Type) where
  retryCount : ℕ
  pool : Option π
deriving DecidableEq, Repr

def PoolState.start {π : Type} : PoolState π where
  retryCount := 5
  pool := none

section Source

variable {π ε : Type} (str : ε → String)

/-- `str(e)` -/
def Caught.text : Caught ε → String
  | .raised e => str e
  | .connectionError message => message

/-- `raise ConnectionError(f"… after multiple attempts: {e}") from e` -/
def failedError (e : Caught ε) : ConnectionError ε where
  message := "Failed to connect to PostgreSQL after multiple attempts: " ++ e.text str
  cause := some e

/-- What stands after the loop. -/
def afterLoop : Option π → Except (ConnectionError ε) π
  | none => .error ⟨"Failed to connect to PostgreSQL: retries exhausted", none⟩
  | some pool => .ok pool

/-- `while retry_count > 0` -/
def poolTest (s : PoolState π) : Option (Except (ConnectionError ε) π) :=
  if 0 < s.retryCount then none else some (afterLoop s.pool)

/-- The `except` branch, which is the same in both. -/
def exceptBranch (s : PoolState π) (e : Caught ε) :
    Turn (PoolState π) (Except (ConnectionError ε) π) :=
  if s.retryCount - 1 = 0 then .leave (.error (failedError str e))
  else .again (some 5) { s with retryCount := s.retryCount - 1 }

/-- `make_pg_pool` of the brain. -/
def Brain.makePgPool :
    Loop (PoolState π) (CreatePool π ε) (Except (ConnectionError ε) π) where
  test := poolTest
  turn s answer :=
    match answer with
    | .pool p => .leave (afterLoop (some p))
    | .none => .again none { s with pool := none }
    | .raised e => exceptBranch str s (.raised e)

/-- `make_pg_pool` of the API. -/
def Api.makePgPool :
    Loop (PoolState π) (CreatePool π ε) (Except (ConnectionError ε) π) where
  test := poolTest
  turn s answer :=
    match answer with
    | .pool p => .leave (afterLoop (some p))
    | .none =>
        exceptBranch str { s with pool := none }
          (.connectionError "asyncpg.create_pool returned no pool")
    | .raised e => exceptBranch str s (.raised e)

end Source

/-! ## As bounded retries -/

section

variable {π ε : Type} {str : ε → String}

variable (str) in
/-- What both are meant to do: take a pool, and after five failures give up. -/
def poolPolicy : Policy (CreatePool π ε) (Except (ConnectionError ε) π) where
  settle answer :=
    match answer with
    | .pool p => some (.ok p)
    | .none => none
    | .raised _ => none
  giveUp answer :=
    match answer with
    | .pool p => .ok p
    | .none => .error (failedError str (.connectionError "asyncpg.create_pool returned no pool"))
    | .raised e => .error (failedError str (.raised e))
  pause := 5

/-- So many tries are left after the next one. -/
def Left (n : ℕ) (s : PoolState π) : Prop := s.retryCount = n + 1

theorem Left.goes_on {n : ℕ} {s : PoolState π} (h : Left n s) :
    (poolTest s : Option (Except (ConnectionError ε) π)) = none := by
  have hpos : 0 < s.retryCount := by
    rw [h]
    exact Nat.succ_pos n
  exact if_pos hpos

theorem Left.gives_up {s : PoolState π} (h : Left 0 s) (e : Caught ε) :
    exceptBranch str s e = .leave (.error (failedError str e)) := by
  unfold exceptBranch
  rw [if_pos (by rw [h])]

variable (str) in
theorem Left.tries_again {n : ℕ} {s : PoolState π} (h : Left (n + 1) s) (e : Caught ε) :
    ∃ s', exceptBranch str s e = .again (some 5) s' ∧ Left n s' := by
  refine ⟨{ s with retryCount := s.retryCount - 1 }, ?_, ?_⟩
  · unfold exceptBranch
    rw [if_neg (by rw [h]; exact Nat.succ_ne_zero n)]
  · show s.retryCount - 1 = n + 1
    rw [h]
    rfl

variable (str) in
/-- The API follows the policy on every answer. -/
theorem api_follows (answer : CreatePool π ε) :
    (Api.makePgPool str).Follows (poolPolicy str) Left answer := by
  cases answer with
  | pool p => exact {
      goes_on := fun _ _ h => h.goes_on
      settles := by
        rintro n s - result ⟨⟩
        rfl
      gives_up := fun _ _ h => nomatch h
      tries_again := fun _ _ _ h => nomatch h }
  | none => exact {
      goes_on := fun _ _ h => h.goes_on
      settles := fun _ _ _ _ h => nomatch h
      gives_up := fun s h _ => Left.gives_up (s := { s with pool := none }) h _
      tries_again := fun n s h _ => Left.tries_again (s := { s with pool := none }) str h _ }
  | raised e => exact {
      goes_on := fun _ _ h => h.goes_on
      settles := fun _ _ _ _ h => nomatch h
      gives_up := fun _ h _ => h.gives_up _
      tries_again := fun _ _ h _ => h.tries_again str _ }

theorem turn_eq_turn {answer : CreatePool π ε} (hanswer : answer ≠ .none) (s : PoolState π) :
    (Brain.makePgPool str).turn s answer = (Api.makePgPool str).turn s answer := by
  cases answer with
  | pool p => rfl
  | none => exact absurd rfl hanswer
  | raised e => rfl

variable (str) in
/-- The brain follows it on an exception and on a pool. -/
theorem brain_follows {answer : CreatePool π ε} (hanswer : answer ≠ .none) :
    (Brain.makePgPool str).Follows (poolPolicy str) Left answer :=
  (api_follows str answer).congr rfl (turn_eq_turn hanswer)

variable {answers : ℕ → CreatePool π ε}

variable (str answers) in
theorem api_ends : (Api.makePgPool str).Ends answers .start 1
    ((poolPolicy str).retry answers 4 1).1 ((poolPolicy str).retry answers 4 1).2 :=
  Loop.ends_retry rfl fun _ _ _ => api_follows str _

/-- Where no call comes back with `None`, the brain does what the API does. -/
theorem brain_ends (h : ∀ j, 1 ≤ j → j ≤ (poolPolicy str).lastCall answers 4 1 →
    answers j ≠ .none) : (Brain.makePgPool str).Ends answers .start 1
      ((poolPolicy str).retry answers 4 1).1 ((poolPolicy str).retry answers 4 1).2 :=
  Loop.ends_retry rfl fun j hfirst hlast => brain_follows str (h j hfirst hlast)

theorem brain_turn_of_none {answer : CreatePool π ε} (h : answer = .none) (s : PoolState π) :
    (Brain.makePgPool str).turn s answer = .again none { s with pool := none } := by
  rw [h]
  rfl

variable (str) in
theorem brain_turn_of_raised {answer : CreatePool π ε} {e : ε} (h : answer = .raised e) {n : ℕ}
    {s : PoolState π} (hs : Left (n + 1) s) :
    ∃ s', (Brain.makePgPool str).turn s answer = .again (some 5) s' ∧ Left n s' := by
  rw [h]
  exact hs.tries_again str (.raised e)

/-- After a `None` the brain calls again without a pause. -/
theorem brain_calls_twice {n i : ℕ} {s : PoolState π} {trace : List LoopEvent}
    {result : Except (ConnectionError ε) π} (hs : Left n s)
    (h : (Brain.makePgPool str).Ends answers s i trace result) (hnone : answers i = .none) :
    ∃ rest, trace = .call :: .call :: rest := by
  obtain ⟨rest, rfl, hrest⟩ := h.of_again hs.goes_on (brain_turn_of_none hnone s)
  obtain ⟨rest, rfl⟩ := hrest.starts_with_call (Left.goes_on (n := n) hs)
  exact ⟨rest, rfl⟩

theorem ne_none_of_trace {n i : ℕ} {s : PoolState π} {trace : List LoopEvent}
    {result : Except (ConnectionError ε) π} (hs : Left n s)
    (h : (Brain.makePgPool str).Ends answers s i trace result)
    (htrace : trace = ((poolPolicy str).retry answers n i).1) : answers i ≠ .none := by
  intro hnone
  obtain ⟨rest, hrest⟩ := brain_calls_twice hs h hnone
  exact Policy.retry_ne_call_call n i rest (htrace.symm.trans hrest)

/-- So what is seen of the brain is the policy's only where there is no `None`. -/
theorem ne_none_of_brain_ends {n i : ℕ} {s : PoolState π} {trace : List LoopEvent}
    {result : Except (ConnectionError ε) π} (hs : Left n s)
    (h : (Brain.makePgPool str).Ends answers s i trace result)
    (htrace : trace = ((poolPolicy str).retry answers n i).1) :
    ∀ j, i ≤ j → j ≤ (poolPolicy str).lastCall answers n i → answers j ≠ .none := by
  induction n generalizing i s trace with
  | zero =>
      intro j hij hj
      obtain rfl : i = j := le_antisymm hij hj
      exact ne_none_of_trace hs h htrace
  | succ n ih =>
      intro j hij hj
      rcases hij.eq_or_lt with rfl | hij
      · exact ne_none_of_trace hs h htrace
      cases hanswer : answers i with
      | pool p =>
          have hsettle : (poolPolicy str).settle (answers i) = some (.ok p) := by
            rw [hanswer]
            rfl
          rw [Policy.lastCall_of_some hsettle] at hj
          exact absurd hj hij.not_ge
      | none => exact absurd hanswer (ne_none_of_trace hs h htrace)
      | raised e =>
          have hsettle : (poolPolicy str).settle (answers i) = none := by
            rw [hanswer]
            rfl
          obtain ⟨s', hturn, hs'⟩ := brain_turn_of_raised str hanswer hs
          obtain ⟨rest, rfl, hrest⟩ := h.of_again hs.goes_on hturn
          rw [Policy.retry_of_none hsettle] at htrace
          rw [Policy.lastCall_of_none hsettle] at hj
          exact ih hs' hrest (List.cons.inj (List.cons.inj htrace).2).2 j hij hj

/-! ## Where the two agree -/

variable (answers) in
/-- Among the first five calls, none comes back with `None` before there is a pool. -/
def NeverEmptyHanded : Prop :=
  ∀ i, 1 ≤ i → i ≤ 5 → (∀ j, 1 ≤ j → j < i → ∀ p, answers j ≠ .pool p) → answers i ≠ .none

theorem settle_eq_none_iff {answer : CreatePool π ε} :
    (poolPolicy str).settle answer = none ↔ ∀ p, answer ≠ .pool p := by
  cases answer with
  | pool p => exact iff_of_false (fun h => nomatch h) fun h => h p rfl
  | none => exact iff_of_true rfl fun _ h => nomatch h
  | raised e => exact iff_of_true rfl fun _ h => nomatch h

variable (str) in
theorem neverEmptyHanded_iff : NeverEmptyHanded answers ↔
    ∀ j, 1 ≤ j → j ≤ (poolPolicy str).lastCall answers 4 1 → answers j ≠ .none := by
  refine forall_congr' fun j => forall_congr' fun hfirst => ?_
  rw [Policy.le_lastCall_iff hfirst]
  simp only [settle_eq_none_iff, and_imp]

variable (str answers) in
/-- Both end after five calls at most, with a pool or a `ConnectionError`, and in the
same way: the same calls and pauses, the same pool or error. -/
structure BoundedAlike : Prop where
  brain : ∃ trace result, (Brain.makePgPool str).Ends answers .start 1 trace result ∧
    callCount trace ≤ 5
  api : ∃ trace result, (Api.makePgPool str).Ends answers .start 1 trace result ∧
    callCount trace ≤ 5
  alike : ∀ trace result, (Brain.makePgPool str).Ends answers .start 1 trace result ↔
    (Api.makePgPool str).Ends answers .start 1 trace result

variable (str answers) in
theorem callCount_retry_le : callCount ((poolPolicy str).retry answers 4 1).1 ≤ 5 := by
  have hlast : (poolPolicy str).lastCall answers 4 1 ≤ 1 + 4 := Policy.lastCall_le 4 1
  rw [Policy.retry_eq, callCount_tries]
  omega

/-- **The loops agree where no call comes back empty-handed.** -/
theorem pools_bounded_alike_iff (str : ε → String) (answers : ℕ → CreatePool π ε) :
    BoundedAlike str answers ↔ NeverEmptyHanded answers := by
  have hapi := api_ends str answers
  have hcalls := callCount_retry_le str answers
  rw [neverEmptyHanded_iff str]
  constructor
  · intro h
    exact ne_none_of_brain_ends (n := 4) (s := .start) rfl ((h.alike _ _).mpr hapi) rfl
  · intro h
    have hbrain := brain_ends h
    refine ⟨⟨_, _, hbrain, hcalls⟩, ⟨_, _, hapi, hcalls⟩, fun trace result => ⟨?_, ?_⟩⟩
    · intro hends
      obtain ⟨rfl, rfl⟩ := hbrain.unique hends
      exact hapi
    · intro hends
      obtain ⟨rfl, rfl⟩ := hapi.unique hends
      exact hbrain

/-- A pool among the tries left is taken, whatever came before it; with a `None` on the
way, it is only the pauses that tell the brain from the API. -/
theorem brain_takes_pool {n i d : ℕ} {s : PoolState π} {p : π} (hs : Left n s) (hd : d ≤ n)
    (hpool : answers (i + d) = .pool p)
    (hbefore : ∀ j, i ≤ j → j < i + d → ∀ p, answers j ≠ .pool p) :
    ∃ trace, (Brain.makePgPool str).Ends answers s i trace (.ok p) ∧ callCount trace = d + 1 := by
  induction d generalizing n i s with
  | zero =>
      refine ⟨[.call], .leave hs.goes_on ?_, rfl⟩
      rw [← Nat.add_zero i, hpool]
      rfl
  | succ d ih =>
      have hshift : i + 1 + d = i + (d + 1) := by omega
      have hlater : ∀ j, i + 1 ≤ j → j < i + 1 + d → ∀ p, answers j ≠ .pool p :=
        fun j hij hj => hbefore j (Nat.le_of_succ_le hij) (hshift ▸ hj)
      cases hanswer : answers i with
      | pool p' => exact absurd hanswer (hbefore i le_rfl (by omega) p')
      | none =>
          obtain ⟨trace, hends, hcalls⟩ := ih (s := { s with pool := none }) hs
            (Nat.le_of_succ_le hd) (hshift ▸ hpool) hlater
          refine ⟨_, .again hs.goes_on (brain_turn_of_none hanswer s) hends, ?_⟩
          rw [Loop.callCount_turnEvents, hcalls]
      | raised e =>
          obtain ⟨m, rfl⟩ := Nat.exists_eq_add_of_le' (Nat.le_trans (Nat.le_add_left 1 d) hd)
          obtain ⟨s', hagain, hs'⟩ := hs.tries_again str (.raised e)
          obtain ⟨trace, hends, hcalls⟩ :=
            ih hs' (Nat.le_of_succ_le_succ hd) (hshift ▸ hpool) hlater
          have hturn : (Brain.makePgPool str).turn s (answers i) = .again (some 5) s' := by
            rw [hanswer]
            exact hagain
          refine ⟨_, .again hs.goes_on hturn hends, ?_⟩
          rw [Loop.callCount_turnEvents, hcalls]

/-- From a call on that is followed by empty answers only, the brain spins. -/
theorem brain_spins {i : ℕ} {s : PoolState π} (hs : 0 < s.retryCount)
    (h : ∀ j, i ≤ j → answers j = .none) (trace : List LoopEvent)
    (result : Except (ConnectionError ε) π) :
    ¬ (Brain.makePgPool str).Ends answers s i trace result := by
  refine Loop.not_ends (fun j s => i ≤ j ∧ 0 < s.retryCount) ?_ ⟨le_rfl, hs⟩
  rintro j s' ⟨hij, hcount⟩
  exact ⟨if_pos hcount, none, { s' with pool := none }, brain_turn_of_none (h j hij) s',
    Nat.le_succ_of_le hij, hcount⟩

end

/-- The API gives up on empty answers. -/
example : (Api.makePgPool (id : String → String)).run (fun _ => (.none : CreatePool Unit String)) 5
    .start 1 = some (tries 5 4, .error (failedError id
      (.connectionError "asyncpg.create_pool returned no pool"))) := rfl

/-- Five empty answers are five failures to the API and none to the brain. -/
theorem empty_answers_spin_brain :
    ¬ BoundedAlike (π := Unit) (ε := String) id (fun _ => .none) := by
  intro h
  obtain ⟨trace, result, hends, -⟩ := h.brain
  exact brain_spins (by decide) (fun _ _ => rfl) trace result hends

end AGame.Startup

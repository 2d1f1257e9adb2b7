import AGame.Base.Retry
import AGame.Worker.ApiClient

/-!
# The retries of one GET (`_get` in `a-game-worker/app/api_client.py`)

The loop of `_get` once more, with the errors it raises and the pauses it makes.
It is a bounded retry that a permanent status settles as a response does
(`get_eq_retry`); without the errors' own data it is the `get` the endpoints use
(`get_forget`).
-/

namespace AGame.Worker.Http

open Base

/-- The response behind an `httpx.HTTPStatusError`. -/
structure HttpStatusError where
  statusCode : ℕ
  text : String
deriving DecidableEq, Repr

/-- What one request meets with. -/
inductive Exchange (α ε : Type) where
  /-- A response that `raise_for_status` lets pass. -/
  | response (resp : α)
  | httpStatusError (e : HttpStatusError)
  /-- An `httpx.RequestError`. -/
  | requestError (e : ε)
deriving DecidableEq, Repr

/-- What `_get` raises. -/
inductive GetError (ε : Type) where
  | httpStatusError (e : HttpStatusError)
  | requestError (e : ε)
  | assertionError (message : String)
deriving DecidableEq, Repr

section Source

variable {α ε : Type} (answers : ℕ → Exchange α ε) (attempts : ℕ)

/-- The loop of `_get` over the attempts it has left. -/
def getFrom : List ℕ → List LoopEvent × Except (GetError ε) α
  | [] => ([], .error (.assertionError "unreachable"))
  | attempt :: rest =>
      match answers attempt with
      | .response resp => ([.call], .ok resp)
      | .httpStatusError e =>
          if permanent e.statusCode ∨ attempt = attempts then
            ([.call], .error (.httpStatusError e))
          else
            let (trace, result) := getFrom rest
            (.call :: .sleep 3 :: trace, result)
      | .requestError e =>
          if attempt = attempts then ([.call], .error (.requestError e))
          else
            let (trace, result) := getFrom rest
            (.call :: .sleep 3 :: trace, result)

/-- `_get`: the requests and the pauses it makes, and the response or the error. -/
def get : List LoopEvent × Except (GetError ε) α :=
  getFrom answers attempts (List.range' 1 attempts)

end Source

/-! ## As a bounded retry -/

section

variable {α ε : Type}

/-- A success, or a 4xx that is not 429. -/
def Exchange.decisive : Exchange α ε → Bool
  | .response _ => true
  | .httpStatusError e => permanent e.statusCode
  | .requestError _ => false

/-- The response returned or the error raised. -/
def Exchange.result : Exchange α ε → Except (GetError ε) α
  | .response resp => .ok resp
  | .httpStatusError e => .error (.httpStatusError e)
  | .requestError e => .error (.requestError e)

theorem Exchange.result_ne_assertionError (answer : Exchange α ε) (message : String) :
    answer.result ≠ .error (.assertionError message) := by
  cases answer with
  | response resp =>
      intro h
      cases h
  | httpStatusError e =>
      intro h
      cases h
  | requestError e =>
      intro h
      cases h

/-- What `_get` is meant to do with an answer. -/
def getPolicy : Policy (Exchange α ε) (Except (GetError ε) α) where
  settle answer := if answer.decisive then some answer.result else none
  giveUp := Exchange.result
  pause := 3

theorem getPolicy_verdict (answer : Exchange α ε) : getPolicy.verdict answer = answer.result := by
  unfold Policy.verdict getPolicy
  dsimp only
  split_ifs <;> rfl

theorem isSome_settle (answer : Exchange α ε) :
    (getPolicy.settle answer).isSome = answer.decisive := by
  unfold getPolicy
  dsimp only
  split_ifs with h
  · exact h.symm
  · exact (Bool.eq_false_iff.mpr h).symm

variable {answers : ℕ → Exchange α ε} {attempts : ℕ}

/-- One turn: both branches give up in the same two cases. -/
theorem getFrom_cons (attempt : ℕ) (rest : List ℕ) :
    getFrom answers attempts (attempt :: rest) =
      if (answers attempt).decisive ∨ attempt = attempts then
        ([.call], (answers attempt).result)
      else
        (.call :: .sleep 3 :: (getFrom answers attempts rest).1,
          (getFrom answers attempts rest).2) := by
  rw [getFrom]
  cases answers attempt with
  | response resp => rfl
  | httpStatusError e => rfl
  | requestError e =>
      simp only [Exchange.decisive, Bool.false_eq_true, false_or]
      rfl

theorem getFrom_eq_retry {n i : ℕ} (h : i + n = attempts) :
    getFrom answers attempts (List.range' i (n + 1)) = getPolicy.retry answers n i := by
  induction n generalizing i with
  | zero =>
      obtain rfl : i = attempts := h
      rw [List.range'_one, getFrom_cons, if_pos (Or.inr rfl), Policy.retry, getPolicy_verdict]
  | succ n ih =>
      rw [List.range'_succ, getFrom_cons]
      cases hsettle : getPolicy.settle (answers i) with
      | some result =>
          have hdecisive : (answers i).decisive := by
            rw [← isSome_settle, hsettle]
            rfl
          rw [if_pos (Or.inl hdecisive), Policy.retry_of_some hsettle]
          have hverdict := getPolicy_verdict (answers i)
          rw [Policy.verdict, hsettle, Option.getD_some] at hverdict
          rw [hverdict]
      | none =>
          have hopen : ¬ ((answers i).decisive ∨ i = attempts) := by
            rw [← isSome_settle, hsettle]
            rintro (hsome | rfl)
            · cases hsome
            · omega
          rw [if_neg hopen, Policy.retry_of_none hsettle, ih (by omega)]
          rfl

/-- `_get` is a bounded retry of its attempts. -/
theorem get_eq_retry (n : ℕ) : get answers (n + 1) = getPolicy.retry answers n 1 :=
  getFrom_eq_retry (Nat.add_comm 1 n)

/-- Without the errors' own data. -/
def Exchange.forget : Exchange α ε → Outcome α
  | .response resp => .response resp
  | .httpStatusError e => .httpStatusError e.statusCode
  | .requestError _ => .requestError

def GetError.forget : GetError ε → FetchError
  | .httpStatusError e => .httpStatusError e.statusCode
  | .requestError _ => .requestError
  | .assertionError _ => .unreachable

theorem getFrom_forget (rest : List ℕ) :
    Worker.getFrom (fun i => (answers i).forget) attempts rest =
      (callCount (getFrom answers attempts rest).1,
        (getFrom answers attempts rest).2.mapError GetError.forget) := by
  induction rest with
  | nil => rfl
  | cons attempt rest ih =>
      rw [Worker.getFrom, getFrom, ih]
      cases answers attempt with
      | response resp => rfl
      | httpStatusError e =>
          simp only [Exchange.forget]
          split_ifs
          · rfl
          · simp only [callCount_call_sleep]
      | requestError e =>
          simp only [Exchange.forget]
          split_ifs
          · rfl
          · simp only [callCount_call_sleep]

variable (answers attempts) in
/-- The requests of the endpoints are these. -/
theorem get_forget :
    Worker.get (fun i => (answers i).forget) attempts =
      (callCount (get answers attempts).1, (get answers attempts).2.mapError GetError.forget) :=
  getFrom_forget _

/-! ## What `_get` says it does -/

variable (answers attempts) in
/-- The first of the attempts that meets with a success or a permanent status, and
the last one if none does. -/
def lastAttempt : ℕ :=
  ((List.range' 1 attempts).find? fun i => (answers i).decisive).getD attempts

theorem lastAttempt_eq (n : ℕ) : lastAttempt answers (n + 1) = getPolicy.lastCall answers n 1 := by
  rw [Policy.lastCall_eq_find, lastAttempt, Nat.add_comm 1 n]
  simp only [isSome_settle]

/-- **One answer decides a GET**: as many requests as it takes to meet with it, and
its response or its error, whatever the others were. -/
theorem get_settled (answers : ℕ → Exchange α ε) (attempts : ℕ) (h : 1 ≤ attempts) :
    callCount (get answers attempts).1 = lastAttempt answers attempts ∧
      (get answers attempts).2 = (answers (lastAttempt answers attempts)).result ∧
      ∀ message, (get answers attempts).2 ≠ .error (.assertionError message) := by
  obtain ⟨n, rfl⟩ := Nat.exists_eq_add_of_le' h
  have hfirst : 1 ≤ getPolicy.lastCall answers n 1 := Policy.le_lastCall n 1
  rw [get_eq_retry, Policy.retry_eq, lastAttempt_eq, callCount_tries, getPolicy_verdict]
  exact ⟨Nat.sub_add_cancel hfirst, rfl, Exchange.result_ne_assertionError _⟩

end

/-- A server that cannot be reached, then has no such path, then answers. -/
def movedPath : ℕ → Exchange Unit String
  | 1 => .requestError "no route to host"
  | 2 => .httpStatusError ⟨404, "not found"⟩
  | _ => .response ()

theorem get_settled_movedPath : lastAttempt movedPath 3 = 2 ∧
    callCount (get movedPath 3).1 = lastAttempt movedPath 3 ∧
      (get movedPath 3).2 = (movedPath (lastAttempt movedPath 3)).result ∧
      ∀ message, (get movedPath 3).2 ≠ .error (.assertionError message) :=
  ⟨by decide, get_settled movedPath 3 (by decide)⟩

end AGame.Worker.Http

import AGame.Base.Json
import AGame.Brain.Consumer
import AGame.Postgres.Schema
import AGame.Worker.Main

/-!
# A message on the wire

The worker writes a match id as JSON text in UTF-8 and the brain reads it with
`json.loads`. The two agree on every id, so no message of the worker's ends a session, and a
session on what the worker sent is one job for each id, in order.
-/

namespace AGame.Pipeline

open Base Engine Brain

/-- `json.dumps(match_id).encode("utf-8")` -/
def messageBody (matchId : ℤ) : Body :=
  (Json.dumps Json.compact (.int matchId)).flatMap String.utf8EncodeChar

/-- The bodies that `run_producer` gets to the broker. -/
def sentBodies (broker : Worker.Broker) (matchIds : List ℤ) : List Body :=
  (Worker.runProducer broker matchIds).1.map messageBody

/-- Of `json.loads` on bytes: an integer in printable ASCII is read as the grammar of JSON
has it, up to the number of digits that `int` reads. -/
def ReadsAscii (loads : Body → Except PyException PyVal) : Prop :=
  ∀ (text : List Char) (n : ℤ), (∀ c ∈ text, 32 ≤ c.toNat ∧ c.toNat < 127) →
    text.length ≤ 4300 → Json.loads text = some (.int n) →
      loads (text.flatMap String.utf8EncodeChar) = .ok (.int n)

theorem printable_writeInt (n : ℤ) : ∀ c ∈ Json.writeInt n, 32 ≤ c.toNat ∧ c.toNat < 127 := by
  have hdigits : ∀ m : ℕ, ∀ c ∈ Nat.toDigits 10 m, 32 ≤ c.toNat ∧ c.toNat < 127 := by
    intro m c hc
    have hdigit := Nat.isDigit_of_mem_toDigits (by decide) (by decide) hc
    rw [Char.isDigit, Bool.and_eq_true, decide_eq_true_eq, decide_eq_true_eq] at hdigit
    have hlow : 48 ≤ c.toNat := hdigit.1
    have hhigh : c.toNat ≤ 57 := hdigit.2
    omega
  intro c hc
  cases n with
  | ofNat n => exact hdigits n c hc
  | negSucc n =>
      rcases List.mem_cons.mp hc with rfl | hc
      · decide
      · exact hdigits (n + 1) c hc

theorem length_writeInt_bigint {n : ℤ} (h : isBigint n = true) :
    (Json.writeInt n).length ≤ 20 := by
  have hrange : -(2 ^ 63) ≤ n ∧ n < 2 ^ 63 := of_decide_eq_true h
  cases n with
  | ofNat n =>
      have hdigits : (Nat.toDigits 10 n).length ≤ 19 :=
        Nat.toDigits_length 10 n 19 (by decide) (by
          have hbelow : (n : ℤ) < 2 ^ 63 := hrange.2
          omega)
      exact hdigits.trans (by decide)
  | negSucc n =>
      have hdigits : (Nat.toDigits 10 (n + 1)).length ≤ 19 :=
        Nat.toDigits_length 10 (n + 1) 19 (by decide) (by
          have habove : -(2 ^ 63) ≤ Int.negSucc n := hrange.1
          omega)
      exact Nat.succ_le_succ hdigits

/-- **What the worker writes the brain reads.** -/
theorem loads_messageBody {loads : Body → Except PyException PyVal} (h : ReadsAscii loads)
    {matchId : ℤ} (hid : isBigint matchId = true) :
    loads (messageBody matchId) = .ok (.int matchId) := by
  have hread : Json.loads (Json.dumps Json.compact (.int matchId) ++ []) = some (.int matchId) :=
    Json.loads_dumps (.int matchId) Json.compact nofun
  rw [List.append_nil] at hread
  exact h _ matchId (printable_writeInt matchId)
    ((length_writeInt_bigint hid).trans (by decide)) hread

section

variable {R : Type} [Field R] [LinearOrder R] [FloorRing R] [PyMath R]

/-- Where the queue holds ids only, `process_job` is called with them. -/
theorem consume_called {env : ConsumerEnv} {ids : List ℤ} {queue : List Body}
    (h : List.Forall₂ (fun body id => env.loads body = .ok (.int id)) queue ids) (n : ℕ)
    (s : Stores) : (consume R env n s queue).called = ids.map PyVal.int := by
  induction h generalizing n s with
  | nil => rfl
  | cons hbody _ ih =>
      rw [consume_decoded hbody, List.map_cons]
      exact congrArg _ (ih (n + 1) _)

variable (R) in
/-- **A session on the worker's messages** settles each of them with an acknowledgement, in
order, calls `process_job` with the ids that were sent, leaves what the jobs leave one after
the other, and ends with the queue. -/
theorem session_runs_sent_jobs (env : ConsumerEnv) (hloads : ReadsAscii env.loads)
    (broker : Worker.Broker) {matchIds : List ℤ}
    (hids : ∀ matchId ∈ matchIds, isBigint matchId = true) (s : Stores) :
    let sent := (Worker.runProducer broker matchIds).1
    let session := runConsumer R env s (sentBodies broker matchIds)
    sent <+: matchIds ∧
      session.settled = (sentBodies broker matchIds).map (fun body => (body, Settlement.ack)) ∧
      session.called = sent.map PyVal.int ∧
      session.stores = processAll R s (sent.zipIdx.map fun e => (env.jobEnv e.2, e.1)) ∧
      session.ended = .iteratorEnded := by
  intro sent session
  have hleading : sent <+: matchIds := (Worker.runProducer_prefix broker matchIds).1
  have hsent : ∀ matchId ∈ sent, isBigint matchId = true :=
    fun matchId hmem => hids matchId (hleading.subset hmem)
  have hbodies : List.Forall₂ (fun body id => env.loads body = .ok (.int id))
      (sentBodies broker matchIds) sent := by
    rw [sentBodies, List.forall₂_map_left_iff, List.forall₂_same]
    exact fun matchId hmem => loads_messageBody hloads (hsent matchId hmem)
  have hdecoded : ∀ body ∈ sentBodies broker matchIds, Decodes env body := by
    intro body hbody
    obtain ⟨matchId, hmem, rfl⟩ := List.mem_map.mp hbody
    exact ⟨_, loads_messageBody hloads (hsent matchId hmem)⟩
  exact ⟨hleading,
    (consume_all_decoded (R := R) hdecoded 0 s).1, consume_called hbodies 0 s,
    runConsumer_stores hbodies 0 s, (consume_ended_iff env 0 s _).mpr hdecoded⟩

end

/-- Integers in ASCII. -/
def loadsInt (body : Body) : Except PyException PyVal :=
  match Json.loads (body.map fun byte => Char.ofNat byte.toNat) with
  | some (.int n) => .ok (.int n)
  | some _ => .ok (.other true)
  | none => .error .other

theorem decode_ascii {text : List Char} (h : ∀ c ∈ text, 32 ≤ c.toNat ∧ c.toNat < 127) :
    (text.flatMap String.utf8EncodeChar).map (fun byte => Char.ofNat byte.toNat) = text := by
  induction text with
  | nil => rfl
  | cons c text ih =>
      obtain ⟨hc, htext⟩ := List.forall_mem_cons.mp h
      have hsmall : c.val.toNat ≤ 127 := hc.2.le
      have hbyte : String.utf8EncodeChar c = [UInt8.ofNat c.toNat] := if_pos hsmall
      have hback : (UInt8.ofNat c.toNat).toNat = c.toNat := by
        rw [UInt8.toNat_ofNat']
        omega
      rw [List.flatMap_cons, List.map_append, ih htext, hbyte, List.map_singleton, hback,
        Char.ofNat_toNat, List.singleton_append]

theorem readsAscii_loadsInt : ReadsAscii loadsInt := by
  intro text n htext _ hread
  rw [loadsInt, decode_ascii htext, hread]

/-- A batch of which the broker takes the first message only. -/
theorem first_message_runs_one_job :
    (runConsumer ℝ { digitsConsumer with loads := loadsInt } ⟨newLeague, ∅⟩
      (sentBodies ⟨true, fun n => if n = 0 then .confirmed else .raised false, true⟩
        [7, -8])).called = [.int 7] :=
  (session_runs_sent_jobs ℝ { digitsConsumer with loads := loadsInt } readsAscii_loadsInt
    ⟨true, fun n => if n = 0 then .confirmed else .raised false, true⟩ (by decide)
    ⟨newLeague, ∅⟩).2.2.1

end AGame.Pipeline

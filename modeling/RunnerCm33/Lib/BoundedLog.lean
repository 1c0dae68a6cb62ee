import Mathlib.Data.List.Induction
import RunnerCm33.Lib.Runs

/-! A log of bounded size: a record is kept whole while the total stays below the
capacity and dropped otherwise, and the log may be cleared. -/

namespace RunnerCm33.BoundedLog

open RunnerCm33.Runs

universe u
variable {Cell : Type u}

def offer (capacity : ℕ) (log : List (List Cell)) (record : List Cell) : List (List Cell) :=
  if log.flatten.length + record.length < capacity then log ++ [record] else log

inductive Event (Cell : Type u) where
  | offer (record : List Cell)
  | clear

def step (capacity : ℕ) (log : List (List Cell)) : Event Cell → List (List Cell)
  | .offer record => offer capacity log record
  | .clear => []

/-- The records kept since the last time the log was cleared. -/
def kept (capacity : ℕ) (events : List (Event Cell)) : List (List Cell) :=
  run (step capacity) [] events

/-- The records offered since the log was last cleared. -/
def offered (events : List (Event Cell)) : List (List Cell) :=
  events.foldl (fun records event => match event with
    | .offer record => records ++ [record]
    | .clear => []) []

/-- The records accepted one after the other behind `used` cells. -/
def accepted (capacity used : ℕ) : List (List Cell) → List (List Cell)
  | [] => []
  | record :: rest =>
    if used + record.length < capacity then
      record :: accepted capacity (used + record.length) rest
    else accepted capacity used rest

variable {capacity used : ℕ} {log records : List (List Cell)} {record : List Cell} {events : List (Event Cell)}

theorem offer_of_fits (fits : log.flatten.length + record.length < capacity) :
    offer capacity log record = log ++ [record] := if_pos fits

theorem offer_of_full (full : capacity ≤ log.flatten.length + record.length) :
    offer capacity log record = log := if_neg (Nat.not_lt.mpr full)

theorem run_tagged {Writer : Type u} (log : List (List Cell)) (tagged : List (Writer × Event Cell)) :
    run (fun log entry => step capacity log entry.2) log tagged = run (step capacity) log (tagged.map Prod.snd) :=
  List.foldl_map.symm

theorem run_offers (log records : List (List Cell)) :
    run (step capacity) log (records.map .offer) =
      log ++ accepted capacity log.flatten.length records := by
  induction records generalizing log with
  | nil => simp [accepted]
  | cons record rest ih =>
    rw [List.map_cons, run_cons, ih]
    rcases Nat.lt_or_ge (log.flatten.length + record.length) capacity with fits | full
    · simp only [step, offer_of_fits fits, accepted, if_pos fits]
      simp
    · simp only [step, offer_of_full full, accepted, if_neg (Nat.not_lt.mpr full)]

theorem accepted_of_fits (fits : used + records.flatten.length < capacity) :
    accepted capacity used records = records := by
  induction records generalizing used with
  | nil => rfl
  | cons record rest ih =>
    rw [List.flatten_cons, List.length_append] at fits
    rw [accepted, if_pos (by omega), ih (by omega)]

theorem mem_of_mem_accepted (member : record ∈ accepted capacity used records) : record ∈ records := by
  induction records generalizing used with
  | nil => simp [accepted] at member
  | cons first rest ih =>
    unfold accepted at member
    split at member
    · rcases List.mem_cons.mp member with rfl | later
      · simp
      · simp [ih later]
    · simp [ih member]

@[simp] theorem offered_offer : offered (events ++ [.offer record]) = offered events ++ [record] := by
  simp [offered]

@[simp] theorem offered_clear : offered (events ++ [.clear]) = [] := by simp [offered]

theorem offered_append_offers (records : List (List Cell)) :
    offered (events ++ records.map .offer) = offered events ++ records := by
  induction records using List.reverseRecOn with
  | nil => simp
  | append_singleton records record ih =>
    rw [List.map_append, List.map_singleton, ← List.append_assoc, offered_offer, ih, List.append_assoc]

/-- Where everything offered since the last clear fits, all of it is kept. -/
theorem kept_of_fits (fits : (offered events).flatten.length < capacity) :
    kept capacity events = offered events := by
  induction events using List.reverseRecOn with
  | nil => rfl
  | append_singleton events event ih =>
    have last : kept capacity (events ++ [event]) = step capacity (kept capacity events) event := by
      simp [kept]
    cases event with
    | clear => rw [last, offered_clear, step]
    | offer record =>
      rw [offered_offer, List.flatten_append, List.flatten_singleton, List.length_append] at fits
      rw [last, step, ih (by omega), offer_of_fits fits, offered_offer]

theorem mem_of_mem_offered (member : record ∈ offered events) : .offer record ∈ events := by
  induction events using List.reverseRecOn with
  | nil => simp [offered] at member
  | append_singleton events event ih =>
    cases event with
    | clear => simp at member
    | offer last =>
      rw [offered_offer] at member
      rcases List.mem_append.mp member with old | new
      · exact List.mem_append_left _ (ih old)
      · simp [List.mem_singleton.mp new]

end RunnerCm33.BoundedLog

import Mathlib.Algebra.BigOperators.Group.Finset.Piecewise
import Docstore.Proofs.Log.OneTransaction

/-!
# Transactions side by side

The log of a server weaves its transactions together.  `Cursor.applyAll_weave` says
that they do not disturb each other: what comes out of the entries of one transaction
and what it leaves open are what these entries do alone, and so two logs that weave
the same transactions differently have the same effect on each of them, leave the same
transactions open and come to the same counts.

`ofTransaction` picks the entries of one transaction out of a log, and `outgoing` lists
the entries that come out of a run.  The three projections are `held?_run`,
`ofTransaction_outgoing` and, for the counts, `tally_run`: those of a log are the sums
over its transactions.  Each is one induction over the log, carried by `held?_step` and
`effect_step`: an entry of another transaction leaves `held?` as it is.
-/

namespace Docstore

namespace Transactions

def ofTransaction (tid : String) (log : List LogEntry) : List LogEntry :=
  log.filter fun e => decide (e.transaction = tid)

theorem ofTransaction_cons (tid : String) (e : LogEntry) (es : List LogEntry) :
    ofTransaction tid (e :: es) =
      if e.transaction = tid then e :: ofTransaction tid es else ofTransaction tid es := by
  rw [ofTransaction, List.filter_cons]
  simp only [decide_eq_true_eq]
  rfl

theorem transaction_of_mem {tid : String} {log : List LogEntry} {e : LogEntry}
    (h : e ∈ ofTransaction tid log) : e.transaction = tid :=
  of_decide_eq_true (List.mem_filter.mp h).2

/-- The entries that come out of a run, in the order in which they do. -/
def outgoing (pending : Transactions) : List LogEntry → List LogEntry
  | [] => []
  | e :: es => letOut (held? e.transaction pending) e ++ outgoing (step pending e).1 es

theorem events_run_outgoing (pending : Transactions) (log : List LogEntry) :
    (run pending log).2.events = (outgoing pending log).filterMap LogEntry.toEvent? := by
  induction log generalizing pending with
  | nil => rfl
  | cons e es ih =>
    rw [run_cons, Effect.events_append, effect_step, events_effectOf, ih, outgoing,
      List.filterMap_append]

def eventsOf (tid : String) (log : List LogEntry) : List ChangeEvent :=
  (ofTransaction tid (outgoing [] log)).filterMap LogEntry.toEvent?

/-! ### One transaction in a log -/

/-- **What a run leaves open** of a transaction is what its own entries leave. -/
theorem held?_run {tid : String} {pending other : Transactions}
    (h : held? tid pending = held? tid other) (log : List LogEntry) :
    held? tid (run pending log).1 = held? tid (run other (ofTransaction tid log)).1 := by
  induction log generalizing pending other with
  | nil => exact h
  | cons e es ih =>
    rw [run_cons, ofTransaction_cons]
    by_cases he : e.transaction = tid
    · rw [if_pos he, run_cons]
      exact ih (held?_step_congr h e)
    · rw [if_neg he]
      exact ih ((held?_step_of_ne he pending).trans h)

/-- **What comes out of the entries of a transaction** is what they let out alone. -/
theorem ofTransaction_outgoing {tid : String} {pending other : Transactions}
    (hp : KeptApart pending) (h : held? tid pending = held? tid other) (log : List LogEntry) :
    ofTransaction tid (outgoing pending log) = outgoing other (ofTransaction tid log) := by
  induction log generalizing pending other with
  | nil => rfl
  | cons e es ih =>
    have happend : ofTransaction tid (outgoing pending (e :: es)) =
        ofTransaction tid (letOut (held? e.transaction pending) e) ++
          ofTransaction tid (outgoing (step pending e).1 es) := List.filter_append _ _
    rw [happend, ofTransaction_cons]
    -- what comes out belongs to the transaction of `e`: all of it is picked, or nothing
    by_cases he : e.transaction = tid
    · have hall : ofTransaction tid (letOut (held? e.transaction pending) e) =
          letOut (held? e.transaction pending) e :=
        List.filter_eq_self.mpr fun x hx =>
          decide_eq_true ((hp.transaction_of_mem_letOut hx).trans he)
      rw [if_pos he, outgoing, hall, ih (hp.step e) (held?_step_congr h e), he, h]
    · have hnone : ofTransaction tid (letOut (held? e.transaction pending) e) = [] :=
        List.filter_eq_nil_iff.mpr fun x hx hd =>
          he ((hp.transaction_of_mem_letOut hx).symm.trans (of_decide_eq_true hd))
      rw [if_neg he, hnone, List.nil_append,
        ih (hp.step e) ((held?_step_of_ne he pending).trans h)]

/-- The store keeps transactions apart, so that picking after the run is running on
what is picked. -/
theorem eventsOf_eq (tid : String) (log : List LogEntry) :
    eventsOf tid log = (run [] (ofTransaction tid log)).2.events := by
  rw [eventsOf, ofTransaction_outgoing KeptApart.nil rfl, events_run_outgoing]

theorem effect_run_congr {tid : String} {pending other : Transactions}
    (h : held? tid pending = held? tid other) {log : List LogEntry}
    (hlog : ∀ e ∈ log, e.transaction = tid) : (run pending log).2 = (run other log).2 := by
  induction log generalizing pending other with
  | nil => rfl
  | cons e es ih =>
    have he : e.transaction = tid := hlog e List.mem_cons_self
    rw [run_cons, run_cons, effect_step, effect_step, he, h,
      ih (held?_step_congr h e) fun x hx => hlog x (List.mem_cons_of_mem e hx)]

/-! ### All transactions together -/

theorem tally_run_ofTransaction_cons (tid : String) (pending : Transactions) (e : LogEntry)
    (es : List LogEntry) :
    (run pending (ofTransaction tid (e :: es))).2.tally =
      (if e.transaction = tid then (step pending e).2.tally else 0) +
        (run (step pending e).1 (ofTransaction tid es)).2.tally := by
  rw [ofTransaction_cons]
  by_cases he : e.transaction = tid
  · rw [if_pos he, if_pos he, run_cons, Effect.tally_append]
  · rw [if_neg he, if_neg he, zero_add,
      effect_run_congr (held?_step_of_ne he pending).symm fun x hx => transaction_of_mem hx]

/-- **The counts of a log** are the sums of those of its transactions. -/
theorem tally_run (pending : Transactions) {log : List LogEntry} {tids : Finset String}
    (h : ∀ e ∈ log, e.transaction ∈ tids) :
    (run pending log).2.tally =
      ∑ tid ∈ tids, (run pending (ofTransaction tid log)).2.tally := by
  induction log generalizing pending with
  | nil => exact Finset.sum_const_zero.symm
  | cons e es ih =>
    have hes : ∀ x ∈ es, x.transaction ∈ tids := fun x hx => h x (List.mem_cons_of_mem e hx)
    -- `e` counts in one summand; the other summands may as well start after it
    calc (run pending (e :: es)).2.tally
        = (step pending e).2.tally + (run (step pending e).1 es).2.tally := by
          rw [run_cons, Effect.tally_append]
      _ = (∑ tid ∈ tids, if e.transaction = tid then (step pending e).2.tally else 0) +
            ∑ tid ∈ tids, (run (step pending e).1 (ofTransaction tid es)).2.tally := by
          rw [Finset.sum_ite_eq, if_pos (h e List.mem_cons_self), ih (step pending e).1 hes]
      _ = ∑ tid ∈ tids, (run pending (ofTransaction tid (e :: es))).2.tally := by
          rw [← Finset.sum_add_distrib]
          exact Finset.sum_congr rfl fun tid _ =>
            (tally_run_ofTransaction_cons tid pending e es).symm

variable {log log' : List LogEntry}

theorem tally_run_congr (h : ∀ tid, ofTransaction tid log' = ofTransaction tid log)
    (pending : Transactions) : (run pending log').2.tally = (run pending log).2.tally := by
  let tids : Finset String := ((log' ++ log).map LogEntry.transaction).toFinset
  have hmem : ∀ e ∈ log' ++ log, e.transaction ∈ tids := fun e he =>
    List.mem_toFinset.mpr (List.mem_map_of_mem he)
  rw [tally_run pending fun e he => hmem e (List.mem_append_left log he),
    tally_run pending fun e he => hmem e (List.mem_append_right log' he)]
  exact Finset.sum_congr rfl fun tid _ => by rw [h]

theorem transactions_run_perm (h : ∀ tid, ofTransaction tid log' = ofTransaction tid log) :
    (run [] log').1.Perm (run [] log).1 := by
  have hnodup : ∀ l, (Dictionary.keys (run [] l).1).Nodup := nodup_keys_run List.nodup_nil
  have hheld : ∀ tid, held? tid (run [] log').1 = held? tid (run [] log).1 := by
    intro tid
    rw [held?_run rfl log', held?_run rfl log, h]
  exact Dictionary.perm_of_get?_eq (hnodup log') (hnodup log) hheld

end Transactions

open Transactions

/-- **Transactions do not disturb each other.**  Let a cursor without open transactions
take a log, in any batches.  Every event comes from an entry that came out.  The events
from the entries of a transaction, in order, and what is held back for it at the end
are those of a cursor that takes these entries alone.  So a cursor that takes a log
with the same entries for each transaction, woven and cut in any other way, lets out
the same events for each, ends with the same transactions open, with the same entries,
and has the same counts in total. -/
theorem Cursor.applyAll_weave (tick : Nat) (batches : List (Nat × List LogEntry)) :
    let log := batches.flatMap Prod.snd
    let woven := ({ tick } : Cursor).applyAll batches
    woven.2.flatMap Effect.events = (outgoing [] log).filterMap LogEntry.toEvent? ∧
      (∀ tid tick₁ batches₁, batches₁.flatMap Prod.snd = ofTransaction tid log →
        let alone := ({ tick := tick₁ } : Cursor).applyAll batches₁
        alone.2.flatMap Effect.events = eventsOf tid log ∧
          held? tid alone.1.transactions = held? tid woven.1.transactions) ∧
      ∀ tick' batches',
        let log' := batches'.flatMap Prod.snd
        let other := ({ tick := tick' } : Cursor).applyAll batches'
        (∀ tid, ofTransaction tid log' = ofTransaction tid log) →
          (∀ tid, eventsOf tid log' = eventsOf tid log) ∧
            (∀ tid, held? tid other.1.transactions = held? tid woven.1.transactions) ∧
            other.1.transactions.Perm woven.1.transactions ∧
            (other.2.map Effect.tally).sum = (woven.2.map Effect.tally).sum := by
  intro log woven
  refine ⟨?_, fun tid tick₁ batches₁ h₁ => ⟨?_, ?_⟩,
    fun tick' batches' h => ⟨fun tid => ?_, fun tid => ?_, ?_, ?_⟩⟩
  · rw [flatMap_events_applyAll, events_run_outgoing]
  · rw [flatMap_events_applyAll, h₁, eventsOf_eq]
  · rw [transactions_applyAll, h₁, transactions_applyAll]
    exact (held?_run rfl log).symm
  · rw [eventsOf_eq, h, eventsOf_eq]
  · rw [transactions_applyAll, transactions_applyAll, held?_run rfl, h]
    exact (held?_run rfl log).symm
  · rw [transactions_applyAll, transactions_applyAll]
    exact transactions_run_perm h
  · rw [sum_tally_applyAll, sum_tally_applyAll]
    exact tally_run_congr h []

/-- Two weaves of a transaction that commits, one that stays open and a document outside
any transaction, one of them cut in two. -/
theorem Cursor.applyAll_weave_two :
    let document (tid id : String) : LogEntry :=
      { code := 2300, transaction := tid, data := .object [("_id", .string id)] }
    let commit : LogEntry := { code := 2201, transaction := "7" }
    let batches :=
      [(5, [document "7" "a/1", document "8" "b/1"]), (6, [document "0" "c/1", commit])]
    let batches' := [(9, [document "7" "a/1", commit, document "0" "c/1", document "8" "b/1"])]
    let woven := ({ tick := 1 } : Cursor).applyAll batches
    let other := ({ tick := 2 } : Cursor).applyAll batches'
    (∀ tid, ofTransaction tid (batches'.flatMap Prod.snd) =
        ofTransaction tid (batches.flatMap Prod.snd)) ∧
      (woven.2.flatMap Effect.events).map ChangeEvent.collection = ["c", "a"] ∧
      (other.2.flatMap Effect.events).map ChangeEvent.collection = ["a", "c"] ∧
      eventsOf "7" (batches'.flatMap Prod.snd) = eventsOf "7" (batches.flatMap Prod.snd) ∧
      held? "8" other.1.transactions = some [document "8" "b/1"] ∧
      other.1.transactions.Perm woven.1.transactions ∧
      (other.2.map Effect.tally).sum = (woven.2.map Effect.tally).sum := by
  intro document commit batches batches' woven other
  have hsame : ∀ tid, ofTransaction tid (batches'.flatMap Prod.snd) =
      ofTransaction tid (batches.flatMap Prod.snd) := by
    intro tid
    by_cases h7 : "7" = tid
    · subst h7; rfl
    by_cases h8 : "8" = tid
    · subst h8; rfl
    by_cases h0 : "0" = tid
    · subst h0; rfl
    simp [batches, batches', document, commit, ofTransaction, h7, h8, h0]
  obtain ⟨hevents, -, hperm, htally⟩ :=
    (Cursor.applyAll_weave 1 batches).2.2 2 batches' hsame
  exact ⟨hsame, by decide +kernel, by decide +kernel, hevents "7", by decide +kernel, hperm, htally⟩

end Docstore

import Docstore.Proofs.Log.OneTransaction

/-!
# Transactions as one

The entries of a transaction stand somewhere between its start and its end, among those of
others.  Until the end nothing comes out of them (`effect_step_inside`), and the others do
not see them: the store agrees on all other transactions with a store that has only been
given the others (`AgreeBut`).  At the end all documents of the transaction come out
together or not at all.

`run_inside` is the invariant, from the start to just before the end; `run_transaction`
adds the two control entries, and `Cursor.apply_transaction` what stands before and after
them in a batch.
-/

namespace Docstore

namespace Transactions

/-- The entries of all other transactions, in order. -/
def ofOthers (tid : String) (log : List LogEntry) : List LogEntry :=
  log.filter fun e => decide (e.transaction ≠ tid)

def documentsOf (tid : String) (log : List LogEntry) : List LogEntry :=
  log.filter fun e => decide (e.IsDocument ∧ e.transaction = tid)

/-- What the end of a transaction lets out, and how it counts: at a commit all the documents,
at an abort none. -/
def outcome (ending : LogEntry) (documents : List LogEntry) : Effect :=
  if ending.code = 2201 then ⟨[], { committed := 1 }⟩ ++ Effect.ofEntries documents
  else ⟨[], { aborted := 1 }⟩

section

variable {tid : String} {pending other : Transactions} {e : LogEntry} {log : List LogEntry}

theorem ofOthers_cons_self (he : e.transaction = tid) : ofOthers tid (e :: log) = ofOthers tid log :=
  List.filter_cons_of_neg (by simp [he])

theorem ofOthers_cons_of_ne (he : e.transaction ≠ tid) :
    ofOthers tid (e :: log) = e :: ofOthers tid log :=
  List.filter_cons_of_pos (decide_eq_true he)

theorem documentsOf_cons_self (he : e.transaction = tid) :
    documentsOf tid (e :: log) = (if e.IsDocument then [e] else []) ++ documentsOf tid log := by
  rw [documentsOf, List.filter_cons]
  by_cases hd : e.IsDocument
  · rw [if_pos (decide_eq_true ⟨hd, he⟩), if_pos hd]
    rfl
  · rw [if_neg (by simp [hd]), if_neg hd]
    rfl

theorem documentsOf_cons_of_ne (he : e.transaction ≠ tid) :
    documentsOf tid (e :: log) = documentsOf tid log :=
  List.filter_cons_of_neg (by simp [he])

/-! ### Before the end -/

/-- The stores agree on all transactions but one. -/
def AgreeBut (tid : String) (pending other : Transactions) : Prop :=
  ∀ t, t ≠ tid → held? t pending = held? t other

theorem AgreeBut.step_own (h : AgreeBut tid pending other) (he : e.transaction = tid) :
    AgreeBut tid (step pending e).1 other := by
  intro t ht
  rw [held?_step_of_ne (fun heq => ht (heq.symm.trans he)), h t ht]

theorem AgreeBut.step (h : AgreeBut tid pending other) (e : LogEntry) :
    AgreeBut tid (step pending e).1 (step other e).1 :=
  fun t ht => held?_step_congr (h t ht) e

/-- Until its end nothing comes out of a transaction. -/
theorem effect_step_inside (hc : ¬e.IsControl) (hs : e.transaction ≠ standaloneId)
    (pending : Transactions) : (step pending e).2 = {} := by
  by_cases hd : e.IsDocument
  · rw [step_held ⟨hd, hs⟩]
  · rw [step_other hc hd]

theorem held?_step_inside {es : List LogEntry} (hheld : held? tid pending = some es)
    (hc : ¬e.IsControl) (hs : tid ≠ standaloneId) (he : e.transaction = tid) :
    held? tid (step pending e).1 = some (es ++ if e.IsDocument then [e] else []) := by
  by_cases hd : e.IsDocument
  · rw [step_held ⟨hd, he ▸ hs⟩, held?_append, if_pos he, he, hheld, if_pos hd]
    rfl
  · rw [step_other hc hd, hheld, if_neg hd, List.append_nil]

/-- **Before the end** of an open transaction what comes out is what the other entries let
out, the other transactions are as these leave them, and all documents are held back. -/
theorem run_inside (hs : tid ≠ standaloneId) {es : List LogEntry}
    (hheld : held? tid pending = some es) (hagree : AgreeBut tid pending other)
    (hinside : ∀ e ∈ log, e.transaction = tid → ¬e.IsControl) :
    (run pending log).2 = (run other (ofOthers tid log)).2 ∧
      held? tid (run pending log).1 = some (es ++ documentsOf tid log) ∧
      AgreeBut tid (run pending log).1 (run other (ofOthers tid log)).1 := by
  induction log generalizing pending other es with
  | nil => exact ⟨rfl, hheld.trans (congrArg some (List.append_nil es).symm), hagree⟩
  | cons e log ih =>
    obtain ⟨he, hlog⟩ := List.forall_mem_cons.mp hinside
    by_cases hown : e.transaction = tid
    · obtain ⟨heffect, hdocuments, hothers⟩ :=
        ih (held?_step_inside hheld (he hown) hs hown) (hagree.step_own hown) hlog
      rw [ofOthers_cons_self hown, documentsOf_cons_self hown, run_cons,
        effect_step_inside (he hown) (hown ▸ hs), Effect.nil_append, ← List.append_assoc]
      exact ⟨heffect, hdocuments, hothers⟩
    · obtain ⟨heffect, hdocuments, hothers⟩ :=
        ih ((held?_step_of_ne hown pending).trans hheld) (hagree.step e) hlog
      have hsame : (step pending e).2 = (step other e).2 := by
        rw [effect_step, effect_step, hagree e.transaction hown]
      rw [ofOthers_cons_of_ne hown, documentsOf_cons_of_ne hown, run_cons, run_cons, hsame]
      exact ⟨congrArg ((step other e).2 ++ ·) heffect, hdocuments, hothers⟩

/-! ### From the start to the end -/

theorem step_ending {es : List LogEntry} (hheld : held? e.transaction pending = some es)
    (hcode : e.code = 2201 ∨ e.code = 2202) :
    step pending e = (close e.transaction pending, outcome e es) := by
  rcases hcode with hcode | hcode
  · rw [step_commit_some hcode hheld, outcome, if_pos hcode]
  · rw [step_abort_some hcode hheld, outcome, if_neg (by omega)]

/-- The entries of a log from the start of a transaction to its end, with those of others in
between. -/
structure IsTransaction (tid : String) (first : LogEntry) (middle : List LogEntry)
    (ending : LogEntry) : Prop where
  start : first.code = 2200
  ofFirst : first.transaction = tid
  inside : ∀ e ∈ middle, e.transaction = tid → ¬e.IsControl
  ends : ending.code = 2201 ∨ ending.code = 2202
  ofEnding : ending.transaction = tid

/-- **A transaction takes effect at its end, and as one.**  From its start to its end comes
out what the other entries let out, and then what the end lets out of its documents.
Afterwards it is not open, and the other transactions are as the other entries leave
them. -/
theorem run_transaction (hs : tid ≠ standaloneId) {first ending : LogEntry}
    (h : IsTransaction tid first log ending) (pending : Transactions) :
    let others := run pending (ofOthers tid log)
    let whole := run pending (first :: (log ++ [ending]))
    whole.2 = others.2 ++ outcome ending (documentsOf tid log) ∧
      held? tid whole.1 = none ∧ AgreeBut tid whole.1 others.1 := by
  intro others whole
  have hopen : held? tid (step pending first).1 = some [] := by
    rw [step_start h.start, held?_start, if_pos h.ofFirst]
  have hagree : AgreeBut tid (step pending first).1 pending :=
    AgreeBut.step_own (fun _ _ => rfl) h.ofFirst
  obtain ⟨heffect, hheld, hothers⟩ := run_inside hs hopen hagree h.inside
  rw [List.nil_append, ← h.ofEnding] at hheld
  have hlast := step_ending hheld h.ends
  have hwhole : whole = ((step (run (step pending first).1 log).1 ending).1,
      (step pending first).2 ++
        ((run (step pending first).1 log).2 ++
          ((step (run (step pending first).1 log).1 ending).2 ++ {}))) := by
    refine Prod.ext ?_ ?_
    · exact transactions_run_append _ log [ending]
    · exact congrArg ((step pending first).2 ++ ·) (effect_run_append _ log [ending])
  have hquiet : (step pending first).2 = {} := by rw [step_start h.start]
  rw [hwhole, hquiet, Effect.nil_append, Effect.append_nil, heffect]
  refine ⟨?_, ?_, hothers.step_own h.ofEnding⟩
  · rw [hlast, h.ofEnding]
  · rw [hlast, held?_close, if_pos h.ofEnding]

end

end Transactions

open Transactions

/-- **A batch that holds a whole transaction** does what its other entries do, and at the end of
the transaction all of it or nothing. -/
theorem Cursor.apply_transaction (c : Cursor) (last : Nat) {tid : String}
    (hs : tid ≠ standaloneId) {first ending : LogEntry} {middle : List LogEntry}
    (h : IsTransaction tid first middle ending) (before after : List LogEntry) :
    let opening := c.transactions.run before
    let others := opening.1.run (ofOthers tid middle)
    let applied := c.apply last (before ++ (first :: (middle ++ [ending])) ++ after)
    ∃ closed, held? tid closed = none ∧ AgreeBut tid closed others.1 ∧
      applied.1.transactions = (run closed after).1 ∧
      applied.2 = opening.2 ++
        (others.2 ++ outcome ending (documentsOf tid middle) ++ (run closed after).2) := by
  intro opening others applied
  obtain ⟨heffect, hclosed, hothers⟩ := run_transaction hs h opening.1
  refine ⟨_, hclosed, hothers, ?_, ?_⟩
  · rw [transactions_apply, transactions_run_append, transactions_run_append]
  · rw [effect_apply, effect_run_append, effect_run_append, transactions_run_append, heffect,
      Effect.append_assoc]

end Docstore

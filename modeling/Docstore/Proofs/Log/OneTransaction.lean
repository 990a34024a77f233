import Docstore.Proofs.Log.Batches

/-!
# One transaction at a time

The store holds many transactions, but an entry sees one of them.  For a single
transaction, which is open with some entries or not open (`none`), `heldAfter` says
what an entry of it leaves, `letOut` which entries come out, and `effectOf` with what
effect.  `held?_step` and `effect_step` say that a step on the store is such a step on
the transaction of the entry and leaves the others alone; whatever is proved of all
transactions at once comes down to these two equations.

The store never mixes transactions up: `KeptApart`, the entries held back for a
transaction are its own, is preserved by every step.
-/

namespace Docstore

namespace Transactions

def heldAfter (held : Option (List LogEntry)) (e : LogEntry) : Option (List LogEntry) :=
  match e.kind with
  | .transactionStart => some []
  | .transactionCommit | .transactionAbort => none
  | .documentUpsert | .documentRemove =>
      if e.isStandalone then held else some (held.getD [] ++ [e])
  | .other _ => held

/-- The entries that come out while an entry is processed. -/
def letOut (held : Option (List LogEntry)) (e : LogEntry) : List LogEntry :=
  match e.kind with
  | .transactionCommit => held.getD []
  | .documentUpsert | .documentRemove => if e.isStandalone then [e] else []
  | .transactionStart | .transactionAbort | .other _ => []

def ended (held : Option (List LogEntry)) (e : LogEntry) : Tally :=
  match e.kind, held with
  | .transactionCommit, some _ => { committed := 1 }
  | .transactionAbort, some _ => { aborted := 1 }
  | _, _ => {}

def effectOf (held : Option (List LogEntry)) (e : LogEntry) : Effect :=
  ⟨[], ended held e⟩ ++ Effect.ofEntries (letOut held e)

theorem events_effectOf (held : Option (List LogEntry)) (e : LogEntry) :
    (effectOf held e).events = (letOut held e).filterMap LogEntry.toEvent? := rfl

/-! ### A step on the store -/

/-- **What a step leaves held back**: a change for the transaction of the entry, and
none for the others. -/
theorem held?_step (pending : Transactions) (e : LogEntry) (tid : String) :
    held? tid (step pending e).1 =
      if e.transaction = tid then heldAfter (held? tid pending) e else held? tid pending := by
  -- closing an id that is not open changes nothing, and nothing was held back for it
  have hunknown : held? e.transaction pending = none →
      held? tid pending = if e.transaction = tid then none else held? tid pending := by
    intro hh
    split
    · next ht => rw [← ht, hh]
    · rfl
  have hdocument :
      held? tid (if e.isStandalone then (pending, Effect.ofEntries [e])
          else (append e pending, {})).1 =
        if e.transaction = tid then
          if e.isStandalone then held? tid pending else some ((held? tid pending).getD [] ++ [e])
        else held? tid pending := by
    by_cases hs : e.isStandalone = true
    · rw [if_pos hs, if_pos hs, ite_self]
    · rw [if_neg hs, if_neg hs, held?_append]
      split
      · next ht => rw [ht]
      · rfl
  rw [step, heldAfter]
  cases e.kind with
  | transactionStart => exact held?_start e.transaction tid pending
  | transactionCommit =>
    cases hh : held? e.transaction pending with
    | some es => exact held?_close e.transaction tid pending
    | none => exact hunknown hh
  | transactionAbort =>
    cases hh : held? e.transaction pending with
    | some es => exact held?_close e.transaction tid pending
    | none => exact hunknown hh
  | documentUpsert => exact hdocument
  | documentRemove => exact hdocument
  | other code => exact (ite_self _).symm

theorem held?_step_of_ne {e : LogEntry} {tid : String} (h : e.transaction ≠ tid)
    (pending : Transactions) : held? tid (step pending e).1 = held? tid pending := by
  rw [held?_step, if_neg h]

theorem held?_step_congr {tid : String} {pending other : Transactions}
    (h : held? tid pending = held? tid other) (e : LogEntry) :
    held? tid (step pending e).1 = held? tid (step other e).1 := by
  rw [held?_step, held?_step, h]

/-- **What comes out of a step** depends on the transaction of the entry only. -/
theorem effect_step (pending : Transactions) (e : LogEntry) :
    (step pending e).2 = effectOf (held? e.transaction pending) e := by
  -- letting nothing out is the same effect, written as `effectOf` has it
  have hnothing : ({} : Effect) = ⟨[], {}⟩ ++ Effect.ofEntries [] := rfl
  have hdocument :
      (if e.isStandalone then (pending, Effect.ofEntries [e]) else (append e pending, {})).2 =
        (⟨[], {}⟩ : Effect) ++ Effect.ofEntries (if e.isStandalone then [e] else []) := by
    by_cases hs : e.isStandalone = true
    · rw [if_pos hs, if_pos hs]
      exact (Effect.nil_append _).symm
    · rw [if_neg hs, if_neg hs]
      exact hnothing
  rw [step, effectOf, ended.eq_def, letOut]
  cases e.kind with
  | transactionStart => exact hnothing
  | transactionCommit =>
    cases held? e.transaction pending with
    | some es => rfl
    | none => exact hnothing
  | transactionAbort =>
    cases held? e.transaction pending with
    | some es => rfl
    | none => exact hnothing
  | documentUpsert => exact hdocument
  | documentRemove => exact hdocument
  | other code => exact hnothing

/-! ### Every entry with its own transaction -/

/-- What is held back for a transaction belongs to it. -/
def KeptApart (pending : Transactions) : Prop :=
  ∀ tid, ∀ x ∈ heldOf tid pending, x.transaction = tid

theorem KeptApart.nil : KeptApart [] := by
  intro tid x hx
  rw [heldOf_nil] at hx
  exact absurd hx List.not_mem_nil

theorem KeptApart.step {pending : Transactions} (h : KeptApart pending) (e : LogEntry) :
    KeptApart (pending.step e).1 := by
  intro tid x hx
  rw [heldOf_step] at hx
  split at hx
  · exact absurd hx List.not_mem_nil
  rcases List.mem_append.mp hx with hx | hx
  · exact h tid x hx
  · split at hx
    · next he => rw [List.mem_singleton.mp hx, he.2]
    · exact absurd hx List.not_mem_nil

theorem KeptApart.transaction_of_mem_letOut {pending : Transactions} (h : KeptApart pending)
    {e x : LogEntry} (hx : x ∈ letOut (held? e.transaction pending) e) :
    x.transaction = e.transaction := by
  have hself : x ∈ (if e.isStandalone then [e] else []) → x.transaction = e.transaction := by
    intro hx
    split at hx
    · rw [List.mem_singleton.mp hx]
    · exact absurd hx List.not_mem_nil
  rw [letOut] at hx
  split at hx
  · exact h e.transaction x hx
  · exact hself hx
  · exact hself hx
  · exact absurd hx List.not_mem_nil
  · exact absurd hx List.not_mem_nil
  · exact absurd hx List.not_mem_nil

/-! ### No transaction twice -/

theorem nodup_keys_step {pending : Transactions} (h : (Dictionary.keys pending).Nodup)
    (e : LogEntry) : (Dictionary.keys (step pending e).1).Nodup := by
  have hdocument :
      (Dictionary.keys (if e.isStandalone then (pending, Effect.ofEntries [e])
        else (append e pending, {})).1).Nodup := by
    by_cases hs : e.isStandalone = true
    · rw [if_pos hs]; exact h
    · rw [if_neg hs]; exact Dictionary.nodup_keys_put h e.transaction _
  rw [step]
  cases e.kind with
  | transactionStart => exact Dictionary.nodup_keys_put h e.transaction []
  | transactionCommit =>
    cases held? e.transaction pending with
    | some es => exact Dictionary.nodup_keys_erase h e.transaction
    | none => exact h
  | transactionAbort =>
    cases held? e.transaction pending with
    | some es => exact Dictionary.nodup_keys_erase h e.transaction
    | none => exact h
  | documentUpsert => exact hdocument
  | documentRemove => exact hdocument
  | other code => exact h

theorem nodup_keys_run {pending : Transactions} (h : (Dictionary.keys pending).Nodup)
    (log : List LogEntry) : (Dictionary.keys (run pending log).1).Nodup := by
  induction log generalizing pending with
  | nil => exact h
  | cons e es ih => exact ih (nodup_keys_step h e)

end Transactions

end Docstore

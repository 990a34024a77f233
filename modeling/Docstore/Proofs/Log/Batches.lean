import Mathlib.Algebra.Group.Defs
import Docstore.Log.Cursor

/-!
# Entries and batches one after another

`Transactions.step` says what one entry does; this file says what follows for a
list of entries and for a list of batches, which is all that later files use.

* `heldOf_step`: what an entry does to what is held back for a transaction;
  `events_step`: what comes out of it.
* `Transactions.emissions`: what comes out while each entry is processed.  The
  events of a batch are its emissions laid end to end (`events_run`).
* `Cursor.applyAll`: several batches, each applied where the one before left
  the cursor.  Its transactions are those of all the entries in one list
  (`transactions_applyAll`), and its emissions too (`flatten_emissions`), so
  the cuts between batches play no part in what comes out.
-/

namespace Docstore

/-! ### The codes of entries -/

namespace LogEntry

def IsDocument (e : LogEntry) : Prop := e.code = 2300 ∨ e.code = 2302

instance (e : LogEntry) : Decidable e.IsDocument := inferInstanceAs (Decidable (_ ∨ _))

def IsControl (e : LogEntry) : Prop := e.code = 2200 ∨ e.code = 2201 ∨ e.code = 2202

instance (e : LogEntry) : Decidable e.IsControl := inferInstanceAs (Decidable (_ ∨ _))

/-- The entry has to wait for the fate of its transaction. -/
def IsHeld (e : LogEntry) : Prop := e.IsDocument ∧ e.transaction ≠ standaloneId

instance (e : LogEntry) : Decidable e.IsHeld := inferInstanceAs (Decidable (_ ∧ _))

theorem IsControl.not_isDocument {e : LogEntry} (h : e.IsControl) : ¬e.IsDocument := by
  rintro (hd | hd) <;> rcases h with h | h | h <;> omega

theorem isStandalone_iff {e : LogEntry} : e.isStandalone = true ↔ e.transaction = standaloneId := by
  simp [isStandalone]

theorem kind_start {e : LogEntry} (h : e.code = 2200) : e.kind = .transactionStart := by
  rw [kind, h]; rfl

theorem kind_commit {e : LogEntry} (h : e.code = 2201) : e.kind = .transactionCommit := by
  rw [kind, h]; rfl

theorem kind_abort {e : LogEntry} (h : e.code = 2202) : e.kind = .transactionAbort := by
  rw [kind, h]; rfl

theorem kind_document {e : LogEntry} (h : e.IsDocument) :
    e.kind = .documentUpsert ∨ e.kind = .documentRemove := by
  rcases h with h | h
  · exact Or.inl (by rw [kind, h]; rfl)
  · exact Or.inr (by rw [kind, h]; rfl)

theorem kind_other {e : LogEntry} (hc : ¬e.IsControl) (hd : ¬e.IsDocument) :
    e.kind = .other e.code := by
  simp only [IsControl, IsDocument, not_or] at hc hd
  simp [kind, EntryKind.ofCode, hc, hd]

theorem change?_eq_none {e : LogEntry} (hd : ¬e.IsDocument) : e.change? = none := by
  by_cases hc : e.IsControl
  · rcases hc with hc | hc | hc
    · rw [change?, kind_start hc]
    · rw [change?, kind_commit hc]
    · rw [change?, kind_abort hc]
  · rw [change?, kind_other hc hd]

theorem change?_eq_some_iff {e : LogEntry} {kind : ChangeKind} :
    e.change? = some kind ↔
      (e.code = 2300 ∧ kind = .createOrUpdate) ∨ (e.code = 2302 ∧ kind = .delete) := by
  by_cases hstore : e.code = 2300
  · have hkind : e.change? = some .createOrUpdate := by rw [change?, LogEntry.kind, hstore]; rfl
    simp [hkind, hstore, eq_comm]
  by_cases hremove : e.code = 2302
  · have hkind : e.change? = some .delete := by rw [change?, LogEntry.kind, hremove]; rfl
    simp [hkind, hremove, eq_comm]
  · simp [change?_eq_none (not_or.mpr ⟨hstore, hremove⟩), hstore, hremove]

theorem change?_isSome_iff (e : LogEntry) : e.change?.isSome = true ↔ e.IsDocument := by
  simp only [Option.isSome_iff_exists, change?_eq_some_iff, exists_or, exists_and_left,
    exists_eq, and_true]
  rfl

end LogEntry

/-! ### One entry -/

namespace Transactions

theorem held?_start (tid other : String) (pending : Transactions) :
    held? other (start tid pending) = if tid = other then some [] else held? other pending :=
  Dictionary.get?_put pending tid other []

theorem held?_append (e : LogEntry) (other : String) (pending : Transactions) :
    held? other (append e pending) =
      if e.transaction = other then some ((held? e.transaction pending).getD [] ++ [e])
      else held? other pending :=
  Dictionary.get?_put pending e.transaction other _

theorem held?_close (tid other : String) (pending : Transactions) :
    held? other (close tid pending) = if tid = other then none else held? other pending :=
  Dictionary.get?_erase pending tid other

theorem step_start {e : LogEntry} (h : e.code = 2200) (pending : Transactions) :
    step pending e = (start e.transaction pending, {}) := by
  rw [step, LogEntry.kind_start h]

theorem step_commit_some {e : LogEntry} (h : e.code = 2201) {pending : Transactions}
    {es : List LogEntry} (hh : held? e.transaction pending = some es) :
    step pending e =
      (close e.transaction pending, ⟨[], { committed := 1 }⟩ ++ Effect.ofEntries es) := by
  simp only [step, LogEntry.kind_commit h, hh]

theorem step_commit_none {e : LogEntry} (h : e.code = 2201) {pending : Transactions}
    (hh : held? e.transaction pending = none) : step pending e = (pending, {}) := by
  simp only [step, LogEntry.kind_commit h, hh]

theorem step_abort_some {e : LogEntry} (h : e.code = 2202) {pending : Transactions}
    {es : List LogEntry} (hh : held? e.transaction pending = some es) :
    step pending e = (close e.transaction pending, ⟨[], { aborted := 1 }⟩) := by
  simp only [step, LogEntry.kind_abort h, hh]

theorem step_abort_none {e : LogEntry} (h : e.code = 2202) {pending : Transactions}
    (hh : held? e.transaction pending = none) : step pending e = (pending, {}) := by
  simp only [step, LogEntry.kind_abort h, hh]

theorem step_held {e : LogEntry} (h : e.IsHeld) (pending : Transactions) :
    step pending e = (append e pending, {}) := by
  have hs : ¬(e.isStandalone = true) := fun hs => h.2 (LogEntry.isStandalone_iff.mp hs)
  rcases LogEntry.kind_document h.1 with hk | hk
  · rw [step, hk]; exact if_neg hs
  · rw [step, hk]; exact if_neg hs

theorem step_standalone {e : LogEntry} (h : e.IsDocument) (hs : e.transaction = standaloneId)
    (pending : Transactions) : step pending e = (pending, Effect.ofEntries [e]) := by
  rcases LogEntry.kind_document h with hk | hk
  · rw [step, hk]; exact if_pos (LogEntry.isStandalone_iff.mpr hs)
  · rw [step, hk]; exact if_pos (LogEntry.isStandalone_iff.mpr hs)

theorem step_other {e : LogEntry} (hc : ¬e.IsControl) (hd : ¬e.IsDocument)
    (pending : Transactions) : step pending e = (pending, {}) := by
  rw [step, LogEntry.kind_other hc hd]

/-- The entries held back for a transaction; none when it is not open. -/
def heldOf (tid : String) (pending : Transactions) : List LogEntry := (held? tid pending).getD []

@[simp] theorem heldOf_nil (tid : String) : heldOf tid [] = [] := rfl

/-- **A control entry leaves nothing held back** for its transaction, whether it
starts, commits or aborts it, and whether or not it was open. -/
theorem heldOf_step_control {e : LogEntry} (h : e.IsControl) (tid : String)
    (pending : Transactions) :
    heldOf tid (step pending e).1 = if e.transaction = tid then [] else heldOf tid pending := by
  have hclosed : ∀ o : Option (List LogEntry),
      (if e.transaction = tid then none else o).getD [] =
        if e.transaction = tid then [] else o.getD [] := by
    intro o
    split <;> rfl
  -- closing an id that is not open changes nothing, and nothing was held back for it
  have hunknown : held? e.transaction pending = none →
      heldOf tid pending = if e.transaction = tid then [] else heldOf tid pending := by
    intro hh
    split
    · next ht => rw [heldOf, ← ht, hh]; rfl
    · rfl
  rcases h with h | h | h
  · rw [step_start h, heldOf, held?_start]
    split <;> rfl
  · cases hh : held? e.transaction pending with
    | some es => rw [step_commit_some h hh, heldOf, held?_close, hclosed]; rfl
    | none => rw [step_commit_none h hh]; exact hunknown hh
  · cases hh : held? e.transaction pending with
    | some es => rw [step_abort_some h hh, heldOf, held?_close, hclosed]; rfl
    | none => rw [step_abort_none h hh]; exact hunknown hh

theorem heldOf_step_held {e : LogEntry} (h : e.IsHeld) (tid : String) (pending : Transactions) :
    heldOf tid (step pending e).1 =
      heldOf tid pending ++ if e.transaction = tid then [e] else [] := by
  rw [step_held h, heldOf, held?_append]
  split
  · next ht => rw [← ht]; rfl
  · rw [List.append_nil]; rfl

/-- An entry that is neither a control entry nor held back changes no transaction. -/
theorem step_of_free {e : LogEntry} (hc : ¬e.IsControl) (hh : ¬e.IsHeld)
    (pending : Transactions) : (step pending e).1 = pending := by
  by_cases hd : e.IsDocument
  · by_cases hs : e.transaction = standaloneId
    · rw [step_standalone hd hs]
    · exact absurd ⟨hd, hs⟩ hh
  · rw [step_other hc hd]

/-- **What an entry does to what is held back** for a transaction: a control
entry of it empties that list, a document of it is added at the end. -/
theorem heldOf_step (e : LogEntry) (tid : String) (pending : Transactions) :
    heldOf tid (step pending e).1 =
      if e.IsControl ∧ e.transaction = tid then []
      else heldOf tid pending ++ if e.IsHeld ∧ e.transaction = tid then [e] else [] := by
  by_cases hc : e.IsControl
  · have hh : ¬e.IsHeld := fun hh => hc.not_isDocument hh.1
    rw [heldOf_step_control hc]
    simp only [hc, hh, true_and, false_and, if_false, List.append_nil]
  · by_cases hh : e.IsHeld
    · rw [heldOf_step_held hh]
      simp only [hc, hh, true_and, false_and, if_false]
    · rw [step_of_free hc hh]
      simp only [hc, hh, false_and, if_false, List.append_nil]

/-- **What comes out of one entry**: for a commit what was held back, for a
document outside any transaction its own event, for everything else nothing. -/
theorem events_step (pending : Transactions) (e : LogEntry) :
    (step pending e).2.events =
      if e.code = 2201 then (heldOf e.transaction pending).filterMap LogEntry.toEvent?
      else if e.IsDocument ∧ e.transaction = standaloneId then [e].filterMap LogEntry.toEvent?
      else [] := by
  by_cases hcommit : e.code = 2201
  · rw [if_pos hcommit, heldOf]
    cases hh : held? e.transaction pending with
    | some es => rw [step_commit_some hcommit hh]; rfl
    | none => rw [step_commit_none hcommit hh]; rfl
  rw [if_neg hcommit]
  by_cases hd : e.IsDocument
  · by_cases hs : e.transaction = standaloneId
    · rw [if_pos ⟨hd, hs⟩, step_standalone hd hs]; rfl
    · rw [if_neg (fun h => hs h.2), step_held ⟨hd, hs⟩]
  · rw [if_neg (fun h => hd h.1)]
    by_cases hc : e.IsControl
    · rcases hc with h | h | h
      · rw [step_start h]
      · exact absurd h hcommit
      · cases hh : held? e.transaction pending with
        | some es => rw [step_abort_some h hh]
        | none => rw [step_abort_none h hh]
    · rw [step_other hc hd]

end Transactions

/-! ### Effects one after another -/

namespace Tally

theorem add_def (a b : Tally) :
    a + b = ⟨a.emitted + b.emitted, a.dropped + b.dropped, a.committed + b.committed,
      a.aborted + b.aborted⟩ := rfl

instance : Zero Tally := ⟨{}⟩

instance : AddCommMonoid Tally where
  add_assoc a b c := by simp only [add_def, Nat.add_assoc]
  add_comm a b := by simp only [add_def, Nat.add_comm]
  zero_add a := by
    show ({} : Tally) + a = a
    simp only [add_def, Nat.zero_add]
  add_zero a := by
    show a + ({} : Tally) = a
    simp only [add_def, Nat.add_zero]
  nsmul := nsmulRec

end Tally

namespace Effect

theorem append_def (a b : Effect) : a ++ b = ⟨a.events ++ b.events, a.tally + b.tally⟩ := rfl

@[simp] theorem events_append (a b : Effect) : (a ++ b).events = a.events ++ b.events := rfl

@[simp] theorem tally_append (a b : Effect) : (a ++ b).tally = a.tally + b.tally := rfl

theorem nil_append (a : Effect) : ({} : Effect) ++ a = a := by
  show (⟨[] ++ a.events, 0 + a.tally⟩ : Effect) = a
  rw [List.nil_append, zero_add]

theorem append_nil (a : Effect) : a ++ ({} : Effect) = a := by
  show (⟨a.events ++ [], a.tally + 0⟩ : Effect) = a
  rw [List.append_nil, add_zero]

theorem append_assoc (a b c : Effect) : a ++ b ++ c = a ++ (b ++ c) := by
  simp only [append_def, List.append_assoc, add_assoc]

def total (effects : List Effect) : Effect := ⟨effects.flatMap events, (effects.map tally).sum⟩

theorem total_cons (a : Effect) (rest : List Effect) : total (a :: rest) = a ++ total rest := by
  rw [total, List.flatMap_cons, List.map_cons, List.sum_cons]
  rfl

end Effect

/-! ### Entries one after another -/

namespace Transactions

theorem run_cons (pending : Transactions) (e : LogEntry) (es : List LogEntry) :
    run pending (e :: es) =
      ((run (step pending e).1 es).1, (step pending e).2 ++ (run (step pending e).1 es).2) := rfl

theorem transactions_run_append (pending : Transactions) (as bs : List LogEntry) :
    (run pending (as ++ bs)).1 = (run (run pending as).1 bs).1 := by
  induction as generalizing pending with
  | nil => rfl
  | cons e es ih => rw [List.cons_append, run_cons, run_cons, ih]

theorem effect_run_append (pending : Transactions) (as bs : List LogEntry) :
    (run pending (as ++ bs)).2 = (run pending as).2 ++ (run (run pending as).1 bs).2 := by
  induction as generalizing pending with
  | nil => exact (Effect.nil_append _).symm
  | cons e es ih => rw [List.cons_append, run_cons, ih, run_cons, Effect.append_assoc]

/-- What comes out while each of the entries is processed, one list for each. -/
def emissions (pending : Transactions) : List LogEntry → List (List ChangeEvent)
  | [] => []
  | e :: es => (step pending e).2.events :: emissions (step pending e).1 es

theorem events_run (pending : Transactions) (es : List LogEntry) :
    (run pending es).2.events = (emissions pending es).flatten := by
  induction es generalizing pending with
  | nil => rfl
  | cons e es ih =>
    rw [run_cons, emissions, List.flatten_cons, ← ih]
    rfl

theorem emitted_step (pending : Transactions) (e : LogEntry) :
    (step pending e).2.tally.emitted = (step pending e).2.events.length := by
  rw [step]
  split
  · rfl
  · split
    · exact Nat.zero_add _
    · rfl
  · split <;> rfl
  · split <;> rfl
  · split <;> rfl
  · rfl

/-- Every event is counted. -/
theorem emitted_run (pending : Transactions) (es : List LogEntry) :
    (run pending es).2.tally.emitted = (run pending es).2.events.length := by
  induction es generalizing pending with
  | nil => rfl
  | cons e es ih =>
    rw [run_cons, Effect.tally_append, Effect.events_append, List.length_append, ← ih,
      ← emitted_step]
    rfl

theorem length_emissions (pending : Transactions) (es : List LogEntry) :
    (emissions pending es).length = es.length := by
  induction es generalizing pending with
  | nil => rfl
  | cons e es ih => rw [emissions, List.length_cons, ih, List.length_cons]

theorem emissions_append (pending : Transactions) (as bs : List LogEntry) :
    emissions pending (as ++ bs) = emissions pending as ++ emissions (run pending as).1 bs := by
  induction as generalizing pending with
  | nil => rfl
  | cons e es ih => rw [List.cons_append, emissions, emissions, ih, run_cons, List.cons_append]

/-- What the entry at a position lets out depends on the entries before it only. -/
theorem getElem?_emissions (pending : Transactions) (es : List LogEntry) (i : Nat) :
    (emissions pending es)[i]? =
      es[i]?.map fun e => (step (run pending (es.take i)).1 e).2.events := by
  induction es generalizing pending i with
  | nil => rfl
  | cons e es ih =>
    cases i with
    | zero => rfl
    | succ i =>
      rw [emissions, List.getElem?_cons_succ, List.getElem?_cons_succ, ih, List.take_succ_cons,
        run_cons]

end Transactions

/-! ### Batches one after another -/

namespace Cursor

@[simp] theorem transactions_advance (c : Cursor) (tick : Nat) :
    (c.advance tick).transactions = c.transactions := by
  rw [advance]
  split <;> rfl

/-- Applying a batch never moves a cursor back. -/
theorem tick_apply (c : Cursor) (last : Nat) (es : List LogEntry) :
    (c.apply last es).1.tick = max c.tick last := by
  show (advance { c with transactions := _ } last).tick = _
  rw [advance]
  split
  · next h => exact (Nat.max_eq_right (Nat.le_of_lt h)).symm
  · next h => exact (Nat.max_eq_left (Nat.le_of_not_lt h)).symm

theorem effect_apply (c : Cursor) (last : Nat) (es : List LogEntry) :
    (c.apply last es).2 = (c.transactions.run es).2 := rfl

theorem transactions_apply (c : Cursor) (last : Nat) (es : List LogEntry) :
    (c.apply last es).1.transactions = (c.transactions.run es).1 :=
  transactions_advance _ _

theorem events_apply (c : Cursor) (last : Nat) (es : List LogEntry) :
    (c.apply last es).2.events = (c.transactions.emissions es).flatten :=
  Transactions.events_run c.transactions es

/-- Applies batches, given by the position where each ends and its entries, one
after the other; the effects come in the same order. -/
def applyAll (c : Cursor) : List (Nat × List LogEntry) → Cursor × List Effect
  | [] => (c, [])
  | (last, es) :: rest =>
      let (next, effect) := c.apply last es
      let (final, effects) := next.applyAll rest
      (final, effect :: effects)

/-- What comes out while each entry of each batch is processed. -/
def emissions (c : Cursor) : List (Nat × List LogEntry) → List (List (List ChangeEvent))
  | [] => []
  | (last, es) :: rest => c.transactions.emissions es :: (c.apply last es).1.emissions rest

theorem applyAll_cons (c : Cursor) (last : Nat) (es : List LogEntry)
    (rest : List (Nat × List LogEntry)) :
    c.applyAll ((last, es) :: rest) =
      (((c.apply last es).1.applyAll rest).1,
        (c.apply last es).2 :: ((c.apply last es).1.applyAll rest).2) := rfl

theorem applyAll_append (c : Cursor) (as bs : List (Nat × List LogEntry)) :
    c.applyAll (as ++ bs) =
      (((c.applyAll as).1.applyAll bs).1,
        (c.applyAll as).2 ++ ((c.applyAll as).1.applyAll bs).2) := by
  induction as generalizing c with
  | nil => rfl
  | cons b as ih =>
    obtain ⟨last, es⟩ := b
    rw [List.cons_append, applyAll_cons, applyAll_cons, ih]
    rfl

theorem transactions_applyAll (c : Cursor) (batches : List (Nat × List LogEntry)) :
    (c.applyAll batches).1.transactions = (c.transactions.run (batches.flatMap Prod.snd)).1 := by
  induction batches generalizing c with
  | nil => rfl
  | cons b rest ih =>
    obtain ⟨last, es⟩ := b
    rw [applyAll_cons, ih, transactions_apply, List.flatMap_cons,
      Transactions.transactions_run_append]

/-- The effects of the batches, one after the other, are that of all the entries in one list. -/
theorem total_applyAll (c : Cursor) (batches : List (Nat × List LogEntry)) :
    Effect.total (c.applyAll batches).2 = (c.transactions.run (batches.flatMap Prod.snd)).2 := by
  induction batches generalizing c with
  | nil => rfl
  | cons b rest ih =>
    obtain ⟨last, es⟩ := b
    rw [applyAll_cons, Effect.total_cons, ih, transactions_apply, effect_apply, List.flatMap_cons,
      Transactions.effect_run_append]

theorem flatMap_events_applyAll (c : Cursor) (batches : List (Nat × List LogEntry)) :
    (c.applyAll batches).2.flatMap Effect.events =
      (c.transactions.run (batches.flatMap Prod.snd)).2.events :=
  congrArg Effect.events (total_applyAll c batches)

theorem sum_tally_applyAll (c : Cursor) (batches : List (Nat × List LogEntry)) :
    ((c.applyAll batches).2.map Effect.tally).sum =
      (c.transactions.run (batches.flatMap Prod.snd)).2.tally :=
  congrArg Effect.tally (total_applyAll c batches)

/-- The events of the batches are their emissions, laid end to end in each batch. -/
theorem events_applyAll (c : Cursor) (batches : List (Nat × List LogEntry)) :
    (c.applyAll batches).2.map Effect.events = (c.emissions batches).map List.flatten := by
  induction batches generalizing c with
  | nil => rfl
  | cons b rest ih =>
    obtain ⟨last, es⟩ := b
    rw [applyAll_cons, emissions, List.map_cons, List.map_cons, events_apply, ih]

theorem length_emissions (c : Cursor) (batches : List (Nat × List LogEntry)) :
    (c.emissions batches).map List.length = batches.map (fun b => b.2.length) := by
  induction batches generalizing c with
  | nil => rfl
  | cons b rest ih =>
    obtain ⟨last, es⟩ := b
    rw [emissions, List.map_cons, List.map_cons, Transactions.length_emissions, ih]

/-- **Where the batches are cut plays no part**: the emissions are those of all
the entries in one list. -/
theorem flatten_emissions (c : Cursor) (batches : List (Nat × List LogEntry)) :
    (c.emissions batches).flatten = c.transactions.emissions (batches.flatMap Prod.snd) := by
  induction batches generalizing c with
  | nil => rfl
  | cons b rest ih =>
    obtain ⟨last, es⟩ := b
    rw [emissions, List.flatten_cons, ih, transactions_apply, List.flatMap_cons,
      Transactions.emissions_append]

end Cursor

end Docstore

import Mathlib.Control.Monad.Basic
import Docstore.Log.Entry
import Docstore.Proofs.Failure
import Docstore.Proofs.Log.Batches

/-!
# Batches cut in two

A server may cut its log between any two lines.  `Cursor.apply_readBatch_append` says
that a cut is not seen: a body of two parts with a line break between them can be read
exactly when both parts can, and applying it at once does what applying its parts one
after the other does, to the position, the open transactions, the events and the
counts.

There are two reasons.  Cutting a text at line breaks takes the parts apart where they
were put together (`batchLines_append`), and trimming looks at one line at a time.
And a run over entries goes on where it stopped (`transactions_run_append`,
`effect_run_append`).
-/

namespace Docstore

/-! ### The text -/

theorem batchLines_append (a b : String) :
    batchLines (a ++ "\n" ++ b) = batchLines a ++ batchLines b := by
  have hcut : Text.cutAtAll '\n' (a ++ "\n" ++ b) =
      Text.cutAtAll '\n' a ++ Text.cutAtAll '\n' b := Text.cutAtAll_append '\n' a b
  rw [batchLines, hcut, List.map_append, List.filter_append]
  rfl

/-- **The entries of a body in two parts** are those of its parts; a fault of the first
part is found first. -/
theorem readBatch_append (a b : String) :
    readBatch (a ++ "\n" ++ b) =
      (do
        let es ← readBatch a
        let fs ← readBatch b
        .ok (es ++ fs)) := by
  rw [readBatch, batchLines_append, List.mapM_append]
  rfl

/-- A body in two parts is refused exactly when one of its parts is. -/
theorem exists_readBatch_append_eq_error_iff {a b : String} :
    (∃ f, readBatch (a ++ "\n" ++ b) = .error f) ↔
      (∃ f, readBatch a = .error f) ∨ ∃ f, readBatch b = .error f := by
  rw [readBatch_append]
  -- the second part is looked at only when the first one is in order
  cases readBatch a with
  | error f => simp [bind, Except.bind]
  | ok es =>
    cases readBatch b with
    | error f => simp [bind, Except.bind]
    | ok fs => simp [bind, Except.bind]

/-! ### The cursor -/

namespace Cursor

variable (c : Cursor) (es fs : List LogEntry)

theorem transactions_apply_append (t₁ t₂ : Nat) :
    (c.apply t₂ (es ++ fs)).1.transactions =
      ((c.apply t₁ es).1.apply t₂ fs).1.transactions := by
  rw [transactions_apply, Transactions.transactions_run_append, transactions_apply,
    transactions_apply]

theorem effect_apply_append (t₁ t₂ : Nat) :
    (c.apply t₂ (es ++ fs)).2 = (c.apply t₁ es).2 ++ ((c.apply t₁ es).1.apply t₂ fs).2 := by
  rw [effect_apply, Transactions.effect_run_append, effect_apply, effect_apply, transactions_apply]

/-- The position in between leaves no trace if it is not behind the last one. -/
theorem tick_apply_append {t₁ t₂ : Nat} (h : t₁ ≤ t₂) :
    (c.apply t₂ (es ++ fs)).1.tick = ((c.apply t₁ es).1.apply t₂ fs).1.tick := by
  rw [tick_apply, tick_apply, tick_apply, Nat.max_assoc, Nat.max_eq_right h]

end Cursor

/-- **Where a body is cut plays no part.**  A body of two parts with a line break between
them is refused exactly when one of its parts is.  Otherwise, applied at once it leaves
the cursor at the same position and with the same open transactions as its parts do,
applied one after the other; the events are those of the parts, laid end to end, and the
counts are their sums. -/
theorem Cursor.apply_readBatch_append (c : Cursor) (a b : String) {t₁ t₂ : Nat} (h : t₁ ≤ t₂) :
    ((∃ f, readBatch (a ++ "\n" ++ b) = .error f) ↔
        (∃ f, readBatch a = .error f) ∨ ∃ f, readBatch b = .error f) ∧
      ∀ es fs, readBatch a = .ok es → readBatch b = .ok fs →
        ∃ entries, readBatch (a ++ "\n" ++ b) = .ok entries ∧
          let joined := c.apply t₂ entries
          let first := c.apply t₁ es
          let second := first.1.apply t₂ fs
          joined.2.events = first.2.events ++ second.2.events ∧
            joined.1.tick = second.1.tick ∧
            joined.1.transactions = second.1.transactions ∧
            joined.2.tally = {
              emitted := first.2.tally.emitted + second.2.tally.emitted
              dropped := first.2.tally.dropped + second.2.tally.dropped
              committed := first.2.tally.committed + second.2.tally.committed
              aborted := first.2.tally.aborted + second.2.tally.aborted } := by
  refine ⟨exists_readBatch_append_eq_error_iff, fun es fs ha hb => ?_⟩
  have hjoined : readBatch (a ++ "\n" ++ b) = .ok (es ++ fs) := by
    rw [readBatch_append, ha, hb]
    rfl
  refine ⟨es ++ fs, hjoined, ?_, ?_, ?_, ?_⟩
  · rw [c.effect_apply_append es fs t₁ t₂, Effect.events_append]
  · exact c.tick_apply_append es fs h
  · exact c.transactions_apply_append es fs t₁ t₂
  · rw [c.effect_apply_append es fs t₁ t₂, Effect.tally_append, Tally.add_def]

/-- A cut in the midst of a transaction, behind a line that ends in a carriage return. -/
theorem Cursor.apply_readBatch_append_inside :
    let a := "\x7b\"type\":2300,\"tid\":7,\"data\":\x7b\"_id\":\"a/1\"\x7d\x7d\r"
    let b := "\n\x7b\"type\":2201,\"tid\":\"7\"\x7d"
    let document : LogEntry :=
      { code := 2300, transaction := "7", data := .object [("_id", .string "a/1")] }
    let commit : LogEntry := { code := 2201, transaction := "7" }
    let c : Cursor := { tick := 1 }
    readBatch a = .ok [document] ∧ readBatch b = .ok [commit] ∧ 5 ≤ 6 ∧
      ∃ entries, readBatch (a ++ "\n" ++ b) = .ok entries ∧
        let joined := c.apply 6 entries
        let first := c.apply 5 [document]
        let second := first.1.apply 6 [commit]
        first.2.events = [] ∧ second.2.events.length = 1 ∧
          joined.2.events = first.2.events ++ second.2.events ∧
          joined.1.tick = second.1.tick ∧ joined.1.transactions = second.1.transactions := by
  intro a b document commit c
  have ha : readBatch a = .ok [document] := by decide +kernel
  have hb : readBatch b = .ok [commit] := by decide +kernel
  obtain ⟨entries, hentries, hevents, htick, htransactions, -⟩ :=
    (Cursor.apply_readBatch_append c a b (show 5 ≤ 6 by decide)).2 _ _ ha hb
  exact ⟨ha, hb, by decide, entries, hentries, rfl, rfl, hevents, htick, htransactions⟩

end Docstore

import Mathlib.Data.Finset.Card
import Docstore.Log.History
import Docstore.Proofs.Log.Accounts

/-!
# What a history leaves open

A transaction is opened by a start, and by an entry that comes when it is not open.  It
is closed by a commit or an abort.  `Opens history tid i` says that the call at `i` opens
the transaction, by looking at the calls before it; it knows nothing of what is stored.

`answers_of_history` says that the store answers by its history alone: a transaction is
open when it was opened since its last end, and what is held back for it are the entries
that came for it since it was last opened.  No call can be seen in another transaction,
and none gives back what was given back before.

* `held?_act`: a call changes its own transaction only.
* `isOpen_after_take` and `held?_after_take` carry this through a history, position by
  position; `IsCurrent` is the opening that counts.
* `count_returned_add_le`: whatever is given back is no longer in the store.
* `transactions_run_eq_after`: a log is such a history, so all this holds of a cursor.
-/

namespace Docstore

namespace Transactions

/-! ### What a history says -/

def Call.Brings (c : Call) (tid : String) : Prop := ∃ e, c = .append e ∧ e.transaction = tid

def Call.Ends (c : Call) (tid : String) : Prop := c = .commit tid ∨ c = .abort tid

/-- When `n` calls have been made, the transaction has been started, or given an entry, since
its last end. -/
def IsOpenAt (history : List Call) (n : Nat) (tid : String) : Prop :=
  ∃ j < n, ∃ c ∈ history[j]?, (c = .start tid ∨ c.Brings tid) ∧
    ∀ k < n, j < k → ∀ d ∈ history[k]?, ¬d.Ends tid

/-- The call at a position opens the transaction: it starts it, or brings an entry for it while
it is not open. -/
def Opens (history : List Call) (tid : String) (i : Nat) : Prop :=
  ∃ c ∈ history[i]?, c = .start tid ∨ c.Brings tid ∧ ¬IsOpenAt history i tid

def IsLastOpening (history : List Call) (tid : String) (i : Nat) : Prop :=
  Opens history tid i ∧ ∀ k, i < k → ¬Opens history tid k

def entriesOf (tid : String) (calls : List Call) : List LogEntry :=
  (calls.filterMap Call.entry?).filter fun e => decide (e.transaction = tid)

/-! ### One call -/

theorem isOpen_eq_isSome (tid : String) (pending : Transactions) :
    isOpen tid pending = (held? tid pending).isSome := rfl

def heldBy (held : Option (List LogEntry)) : Call → Option (List LogEntry)
  | .start _ => some []
  | .append e => some (held.getD [] ++ [e])
  | .commit _ | .abort _ => none

/-- **A call changes its own transaction only.** -/
theorem held?_act (pending : Transactions) (c : Call) (tid : String) :
    held? tid (act pending c) =
      if c.transaction = tid then heldBy (held? tid pending) c else held? tid pending := by
  cases c with
  | start other => exact held?_start other tid pending
  | append e =>
    rw [act, held?_append, Call.transaction]
    by_cases he : e.transaction = tid
    · rw [if_pos he, if_pos he, he]
      rfl
    · rw [if_neg he, if_neg he]
  | commit other => exact held?_close other tid pending
  | abort other => exact held?_close other tid pending

theorem held?_act_of_ne {c : Call} {tid : String} (h : c.transaction ≠ tid)
    (pending : Transactions) : held? tid (act pending c) = held? tid pending := by
  rw [held?_act, if_neg h]

/-- After a call its transaction is open if the call started it or brought an entry, or if it was
open before and the call did not end it. -/
theorem isOpen_act (pending : Transactions) (c : Call) (tid : String) :
    isOpen tid (act pending c) = true ↔
      (c = .start tid ∨ c.Brings tid) ∨ isOpen tid pending = true ∧ ¬c.Ends tid := by
  rw [isOpen_eq_isSome, isOpen_eq_isSome, held?_act]
  by_cases ht : c.transaction = tid
  · subst ht
    cases c <;> simp [Call.transaction, heldBy, Call.Brings, Call.Ends]
  · have hstart : c ≠ .start tid := fun h => ht (by rw [h]; rfl)
    have hbrings : ¬c.Brings tid := by
      rintro ⟨e, rfl, he⟩
      exact ht he
    have hends : ¬c.Ends tid := by
      rintro (rfl | rfl) <;> exact ht rfl
    simp [ht, hstart, hbrings, hends]

theorem held?_after_congr {tid : String} {pending other : Transactions}
    (h : held? tid pending = held? tid other) (calls : List Call) :
    held? tid (after pending calls) = held? tid (after other calls) := by
  induction calls generalizing pending other with
  | nil => exact h
  | cons c calls ih => exact ih (by rw [held?_act, held?_act, h])

theorem view_congr {tid : String} {pending other : Transactions}
    (h : held? tid pending = held? tid other) : view tid pending = view tid other := by
  rw [view, view, isOpen_eq_isSome, isOpen_eq_isSome, commit, commit, abort, abort, h]

theorem nodup_keys_act {pending : Transactions} (h : (Dictionary.keys pending).Nodup) (c : Call) :
    (Dictionary.keys (act pending c)).Nodup := by
  cases c with
  | start tid => exact Dictionary.nodup_keys_put h tid []
  | append e => exact Dictionary.nodup_keys_put h e.transaction _
  | commit tid => exact Dictionary.nodup_keys_erase h tid
  | abort tid => exact Dictionary.nodup_keys_erase h tid

theorem nodup_keys_after {pending : Transactions} (h : (Dictionary.keys pending).Nodup)
    (history : List Call) : (Dictionary.keys (after pending history)).Nodup := by
  induction history generalizing pending with
  | nil => exact h
  | cons c calls ih => exact ih (nodup_keys_act h c)

/-! ### The opening that counts -/

section

variable {history : List Call} {n i : Nat} {c : Call} {tid : String}

theorem not_ends_of_brings (h : c.Brings tid) : ¬c.Ends tid := by
  obtain ⟨e, rfl, -⟩ := h
  simp [Call.Ends]

theorem isOpenAt_succ (hc : history[n]? = some c) :
    IsOpenAt history (n + 1) tid ↔
      (c = .start tid ∨ c.Brings tid) ∨ IsOpenAt history n tid ∧ ¬c.Ends tid := by
  constructor
  · rintro ⟨j, hj, b, hb, hfills, hlater⟩
    rcases Nat.lt_succ_iff_lt_or_eq.mp hj with hlt | rfl
    · exact Or.inr ⟨⟨j, hlt, b, hb, hfills, fun k hk => hlater k (by omega)⟩,
        hlater n (Nat.lt_succ_self n) hlt c hc⟩
    · obtain rfl : c = b := Option.mem_unique hc hb
      exact Or.inl hfills
  · rintro (hfills | ⟨⟨j, hj, b, hb, hfills, hlater⟩, hend⟩)
    · exact ⟨n, Nat.lt_succ_self n, c, hc, hfills, fun k hk hnk => absurd hk (by omega)⟩
    · refine ⟨j, by omega, b, hb, hfills, fun k hk hjk d hd => ?_⟩
      rcases Nat.lt_succ_iff_lt_or_eq.mp hk with hlt | rfl
      · exact hlater k hlt hjk d hd
      · obtain rfl : c = d := Option.mem_unique hc hd
        exact hend

/-- The opening at `i` is the last one among `n` calls, and no end has come since. -/
structure IsCurrent (history : List Call) (n : Nat) (tid : String) (i : Nat) : Prop where
  lt : i < n
  opens : Opens history tid i
  last : ∀ k < n, i < k → ¬Opens history tid k
  unended : ∀ k < n, i < k → ∀ d ∈ history[k]?, ¬d.Ends tid

theorem Opens.isCurrent (h : Opens history tid n) : IsCurrent history (n + 1) tid n :=
  ⟨Nat.lt_succ_self n, h, fun k hk hnk => absurd hk (by omega),
    fun k hk hnk => absurd hk (by omega)⟩

theorem IsCurrent.succ (h : IsCurrent history n tid i) (hc : history[n]? = some c)
    (hopens : ¬Opens history tid n) (hends : ¬c.Ends tid) :
    IsCurrent history (n + 1) tid i := by
  refine ⟨Nat.lt_succ_of_lt h.lt, h.opens, fun k hk hik => ?_, fun k hk hik d hd => ?_⟩
  · rcases Nat.lt_succ_iff_lt_or_eq.mp hk with hlt | rfl
    · exact h.last k hlt hik
    · exact hopens
  · rcases Nat.lt_succ_iff_lt_or_eq.mp hk with hlt | rfl
    · exact h.unended k hlt hik d hd
    · obtain rfl : c = d := Option.mem_unique hc hd
      exact hends

theorem IsCurrent.of_succ (h : IsCurrent history (n + 1) tid i) (hi : i < n) :
    IsCurrent history n tid i :=
  ⟨hi, h.opens, fun k hk => h.last k (by omega), fun k hk => h.unended k (by omega)⟩

theorem Opens.lt_length (h : Opens history tid i) : i < history.length := by
  obtain ⟨c, hc, -⟩ := h
  exact (List.getElem?_eq_some_iff.mp hc).1

theorem Opens.isOpenAt (h : Opens history tid i) (hi : i < n)
    (hunended : ∀ k < n, i < k → ∀ d ∈ history[k]?, ¬d.Ends tid) : IsOpenAt history n tid := by
  obtain ⟨c, hc, hopens⟩ := h
  exact ⟨i, hi, c, hc, hopens.imp_right And.left, hunended⟩

/-- **What is open was opened**: there is an opening that counts. -/
theorem exists_isCurrent (hn : n ≤ history.length) (h : IsOpenAt history n tid) :
    ∃ i, IsCurrent history n tid i := by
  induction n with
  | zero =>
    obtain ⟨j, hj, -⟩ := h
    exact absurd hj (Nat.not_lt_zero j)
  | succ n ih =>
    have hc : history[n]? = some history[n] := List.getElem?_eq_getElem hn
    by_cases hopens : Opens history tid n
    · exact ⟨n, hopens.isCurrent⟩
    -- the call opens nothing, so the transaction was open before it, and it is no end
    have hkept : IsOpenAt history n tid ∧ ¬history[n].Ends tid := by
      rcases (isOpenAt_succ hc).mp h with (hstart | hbrings) | hkept
      · exact absurd ⟨_, hc, Or.inl hstart⟩ hopens
      · refine ⟨?_, not_ends_of_brings hbrings⟩
        by_contra hclosed
        exact hopens ⟨_, hc, Or.inr ⟨hbrings, hclosed⟩⟩
      · exact hkept
    obtain ⟨i, hi⟩ := ih (Nat.le_of_succ_le hn) hkept.1
    exact ⟨i, hi.succ hc hopens hkept.2⟩

/-! ### The store, position by position -/

theorem after_take_succ (hn : n < history.length) :
    after [] (history.take (n + 1)) = act (after [] (history.take n)) history[n] := by
  rw [← List.take_append_getElem hn, after_append]
  rfl

/-- **The store knows what is open.** -/
theorem isOpen_after_take (hn : n ≤ history.length) :
    isOpen tid (after [] (history.take n)) = true ↔ IsOpenAt history n tid := by
  induction n with
  | zero =>
    constructor
    · intro h
      exact absurd h Bool.false_ne_true
    · rintro ⟨j, hj, -⟩
      exact absurd hj (Nat.not_lt_zero j)
  | succ n ih =>
    rw [after_take_succ hn, isOpen_act, ih (Nat.le_of_succ_le hn),
      isOpenAt_succ (List.getElem?_eq_getElem hn)]

theorem entriesOf_append (tid : String) (as bs : List Call) :
    entriesOf tid (as ++ bs) = entriesOf tid as ++ entriesOf tid bs := by
  rw [entriesOf, List.filterMap_append, List.filter_append]
  rfl

theorem held?_act_of_not_opens {pending : Transactions} {es : List LogEntry}
    (hheld : held? tid pending = some es) (hstart : c ≠ .start tid) (hends : ¬c.Ends tid) :
    held? tid (act pending c) = some (es ++ entriesOf tid [c]) := by
  rw [held?_act]
  split
  · next ht =>
    subst ht
    cases c with
    | start other => exact absurd rfl hstart
    | append e => rw [hheld]; simp [heldBy, entriesOf, Call.entry?, Call.transaction]
    | commit other => exact absurd (Or.inl rfl) hends
    | abort other => exact absurd (Or.inr rfl) hends
  · next ht =>
    have hnone : entriesOf tid [c] = [] := by
      cases c with
      | append e => simpa [entriesOf, Call.entry?, Call.transaction] using ht
      | _ => rfl
    rw [hheld, hnone, List.append_nil]

/-- **What is held back** for a transaction are the entries since the opening that counts. -/
theorem held?_after_take (hn : n ≤ history.length) (h : IsCurrent history n tid i) :
    held? tid (after [] (history.take n)) =
      some (entriesOf tid ((history.take n).drop i)) := by
  induction n with
  | zero => exact absurd h.lt (Nat.not_lt_zero i)
  | succ n ih =>
    have hc : history[n]? = some history[n] := List.getElem?_eq_getElem hn
    have hbefore := Nat.le_of_succ_le hn
    have hlength : (history.take n).length = n := List.length_take_of_le hbefore
    have hdrop : (history.take (n + 1)).drop i = (history.take n).drop i ++ [history[n]] := by
      rw [← List.take_append_getElem hn, List.drop_append_of_le_length]
      rw [hlength]
      exact Nat.le_of_lt_succ h.lt
    rw [after_take_succ hn, hdrop, entriesOf_append]
    rcases Nat.lt_succ_iff_lt_or_eq.mp h.lt with hlt | rfl
    · refine held?_act_of_not_opens (ih hbefore (h.of_succ hlt)) (fun hstart => ?_) ?_
      · exact h.last n (Nat.lt_succ_self n) hlt ⟨_, hc, Or.inl hstart⟩
      · exact h.unended n (Nat.lt_succ_self n) hlt _ hc
    · rw [List.drop_of_length_le hlength.le]
      obtain ⟨d, hd, hopens⟩ := h.opens
      obtain rfl : history[i] = d := Option.mem_unique hc hd
      rcases hopens with hstart | ⟨⟨e, happend, he⟩, hclosed⟩
      · rw [hstart, held?_act]
        simp [Call.transaction, heldBy, entriesOf, Call.entry?]
      · have hnone : held? tid (after [] (history.take i)) = none := by
          rw [← isOpen_after_take hbefore, isOpen_eq_isSome] at hclosed
          exact Option.not_isSome_iff_eq_none.mp hclosed
        rw [happend, held?_act, hnone]
        simp [Call.transaction, heldBy, entriesOf, Call.entry?, he]

end

/-! ### What is given back -/

/-- What calls or entries make one after the other is what the first makes and then the rest. -/
theorem filterMap_cons_toList {α β : Type} (f : α → Option β) (x : α) (xs : List α) :
    (x :: xs).filterMap f = (f x).toList ++ xs.filterMap f := by
  rw [List.filterMap_eq_flatMap_toList, List.filterMap_eq_flatMap_toList, List.flatMap_cons]

section

variable {pending : Transactions} (h : (Dictionary.keys pending).Nodup) (e : LogEntry)

include h

/-- What a call gives back was there before, and is not there afterwards. -/
theorem count_givenBack_add_le (c : Call) :
    (givenBack pending c).count e + Dictionary.total (List.count e) (act pending c) ≤
      Dictionary.total (List.count e) pending + c.entry?.toList.count e := by
  have hempty : List.count e [] = 0 := List.count_nil
  cases c with
  | start tid =>
    have hput := Dictionary.total_put (List.count e) pending tid []
    rw [weight_heldOf hempty, hempty] at hput
    simp only [givenBack, act, start, Call.entry?, Option.toList_none, hempty]
    omega
  | append x =>
    have hput := Dictionary.total_put (List.count e) pending x.transaction
      (heldOf x.transaction pending ++ [x])
    rw [weight_heldOf hempty, List.count_append] at hput
    simp only [givenBack, act, Call.entry?, Option.toList_some, hempty]
    show 0 + Dictionary.total (List.count e)
      (Dictionary.put x.transaction (heldOf x.transaction pending ++ [x]) pending) ≤ _
    omega
  | commit tid =>
    have herase := Dictionary.total_erase (List.count e) h tid
    rw [weight_heldOf hempty] at herase
    simp only [act, commit, close, Call.entry?, Option.toList_none, hempty]
    show (heldOf tid pending).count e + _ ≤ _
    omega
  | abort tid =>
    have herase := Dictionary.total_erase (List.count e) h tid
    simp only [givenBack, act, abort, close, Call.entry?, Option.toList_none, hempty]
    omega

/-- **What is given back is no longer there**: along a history, no entry is given back more often
than it came in. -/
theorem count_returned_add_le (history : List Call) :
    (returned pending history).count e + Dictionary.total (List.count e) (after pending history) ≤
      Dictionary.total (List.count e) pending + (history.filterMap Call.entry?).count e := by
  induction history generalizing pending with
  | nil => rw [returned, List.count_nil, Nat.zero_add]; exact Nat.le_add_right _ _
  | cons c calls ih =>
    have hcall := count_givenBack_add_le h e c
    have hcalls := ih (nodup_keys_act h c)
    have hafter : after pending (c :: calls) = after (act pending c) calls := rfl
    rw [returned, List.count_append, filterMap_cons_toList, List.count_append, hafter]
    omega

end

/-! ### The answers -/

section

variable {history : List Call} {tid : String}

theorem exists_isCurrent_of_isOpen (h : isOpen tid (after [] history) = true) :
    ∃ i, IsCurrent history history.length tid i := by
  rw [← List.take_length (l := history), isOpen_after_take le_rfl] at h
  exact exists_isCurrent le_rfl h

theorem isOpen_after_iff :
    isOpen tid (after [] history) = true ↔
      ∃ i, Opens history tid i ∧ ∀ k, i < k → ∀ d ∈ history[k]?, ¬d.Ends tid := by
  constructor
  · intro h
    obtain ⟨i, hi⟩ := exists_isCurrent_of_isOpen h
    refine ⟨i, hi.opens, fun k hik d hd => ?_⟩
    exact hi.unended k (List.getElem?_eq_some_iff.mp hd).1 hik d hd
  · rintro ⟨i, hopens, hunended⟩
    rw [← List.take_length (l := history), isOpen_after_take le_rfl]
    exact hopens.isOpenAt hopens.lt_length fun k _ => hunended k

/-- What is held back for an open transaction came for it since it was last opened. -/
theorem exists_held?_after (h : isOpen tid (after [] history) = true) :
    ∃ i, IsLastOpening history tid i ∧
      held? tid (after [] history) = some (entriesOf tid (history.drop i)) := by
  obtain ⟨i, hi⟩ := exists_isCurrent_of_isOpen h
  have hheld := held?_after_take le_rfl hi
  rw [List.take_length] at hheld
  exact ⟨i, ⟨hi.opens, fun k hik hk => hi.last k hk.lt_length hik hk⟩, hheld⟩

end

theorem not_isOpen_close (tid : String) (pending : Transactions) :
    isOpen tid (close tid pending) = false := by
  rw [isOpen_eq_isSome, held?_close, if_pos rfl]
  rfl

theorem held?_of_not_isOpen {tid : String} {pending : Transactions}
    (h : isOpen tid pending = false) : held? tid pending = none := by
  rw [isOpen_eq_isSome] at h
  exact Option.isNone_iff_eq_none.mp (by rw [← Option.not_isSome, h]; rfl)

theorem exists_finset_isOpen {pending : Transactions} (h : (Dictionary.keys pending).Nodup) :
    ∃ tids : Finset String,
      (∀ tid, tid ∈ tids ↔ isOpen tid pending = true) ∧ count pending = tids.card := by
  refine ⟨(Dictionary.keys pending).toFinset, fun tid => ?_, ?_⟩
  · rw [List.mem_toFinset]
    exact (Dictionary.get?_isSome_iff pending tid).symm
  · rw [List.toFinset_card_of_nodup h, Dictionary.keys, List.length_map]
    rfl

/-- **The store answers by its history.**  After any calls a transaction is open exactly when
it was opened, by a start or by an entry that came while it was not open, and no commit or
abort of it has come since.  Its commit then gives back the entries that came for it since
it was last opened, in order, and its abort their number; when it is not open, neither gives
anything.  After either it is not open, and along the whole history no entry is given back
more often than it came in.  The store counts the open transactions, and a call for one
transaction can never be seen in another. -/
theorem answers_of_history (history : List Call) :
    let pending := after [] history
    (∀ tid, isOpen tid pending = true ↔
        ∃ i, Opens history tid i ∧ ∀ k, i < k → ∀ d ∈ history[k]?, ¬d.Ends tid) ∧
      (∀ tid, isOpen tid pending = true → ∃ i, IsLastOpening history tid i ∧
        (commit tid pending).2 = some (entriesOf tid (history.drop i)) ∧
        (abort tid pending).2 = some (entriesOf tid (history.drop i)).length) ∧
      (∀ tid, isOpen tid pending = false →
        (commit tid pending).2 = none ∧ (abort tid pending).2 = none) ∧
      (∀ tid, isOpen tid (commit tid pending).1 = false ∧
        isOpen tid (abort tid pending).1 = false) ∧
      (∀ e, (returned [] history).count e ≤ (history.filterMap Call.entry?).count e) ∧
      (∃ tids : Finset String,
        (∀ tid, tid ∈ tids ↔ isOpen tid pending = true) ∧ count pending = tids.card) ∧
      ∀ c tid, c.transaction ≠ tid → ∀ more,
        view tid (after pending (c :: more)) = view tid (after pending more) := by
  intro pending
  have hempty : (Dictionary.keys ([] : Transactions)).Nodup := List.nodup_nil
  refine ⟨fun tid => isOpen_after_iff, fun tid h => ?_, fun tid h => ?_,
    fun tid => ⟨not_isOpen_close tid pending, not_isOpen_close tid pending⟩, fun e => ?_,
    exists_finset_isOpen (nodup_keys_after hempty history), fun c tid hc more => ?_⟩
  · obtain ⟨i, hi, hheld⟩ := exists_held?_after h
    exact ⟨i, hi, hheld, congrArg (Option.map List.length) hheld⟩
  · have hheld := held?_of_not_isOpen h
    exact ⟨hheld, congrArg (Option.map List.length) hheld⟩
  · have hcount := count_returned_add_le hempty e history
    rw [Dictionary.total, Nat.zero_add] at hcount
    exact Nat.le_of_add_right_le hcount
  · exact view_congr (held?_after_congr (held?_act_of_ne hc pending) more)

/-- Entries come for a transaction before and after its start, another is aborted and then opened
by an entry, and an unknown one is committed. -/
theorem answers_of_history_reopened :
    let entry (tid id : String) : LogEntry :=
      { code := 2300, transaction := tid, data := .string id }
    let history : List Call :=
      [.append (entry "7" "a"), .start "7", .append (entry "7" "b"), .append (entry "8" "c"),
        .append (entry "7" "d"), .commit "9", .abort "8", .append (entry "8" "e")]
    let pending := after [] history
    isOpen "7" pending = true ∧ isOpen "9" pending = false ∧
      (∃ i, IsLastOpening history "7" i ∧
        some [entry "7" "b", entry "7" "d"] = some (entriesOf "7" (history.drop i))) ∧
      (commit "7" pending).2 = some [entry "7" "b", entry "7" "d"] ∧
      (abort "8" pending).2 = some 1 ∧ (commit "9" pending).2 = none ∧
      isOpen "7" (commit "7" pending).1 = false ∧
      view "7" (after pending [.start "8", .abort "7"]) = view "7" (after pending [.abort "7"]) ∧
      count pending = 2 := by
  intro entry history pending
  have hopen : isOpen "7" pending = true := by decide +kernel
  have hunknown : isOpen "9" pending = false := by decide +kernel
  have hcommit : (commit "7" pending).2 = some [entry "7" "b", entry "7" "d"] := by
    decide +kernel
  obtain ⟨-, hanswers, hnone, hclosed, -, -, hothers⟩ := answers_of_history history
  obtain ⟨i, hi, hgiven, -⟩ := hanswers "7" hopen
  exact ⟨hopen, hunknown, ⟨i, hi, hcommit.symm.trans hgiven⟩, hcommit, by decide +kernel,
    (hnone "9" hunknown).1, (hclosed "7").1, hothers (.start "8") "7" (by decide) [.abort "7"],
    by decide +kernel⟩

/-! ### Logs as histories -/

theorem close_of_held?_eq_none {tid : String} {pending : Transactions}
    (h : held? tid pending = none) : close tid pending = pending :=
  Dictionary.erase_of_not_mem ((Dictionary.get?_eq_none_iff pending tid).mp h)

theorem step_eq_after (pending : Transactions) (e : LogEntry) :
    (step pending e).1 = after pending e.call?.toList := by
  rw [step, LogEntry.call?]
  cases e.kind with
  | transactionStart => rfl
  | transactionCommit =>
    cases hheld : held? e.transaction pending with
    | some es => rfl
    | none => exact (close_of_held?_eq_none hheld).symm
  | transactionAbort =>
    cases hheld : held? e.transaction pending with
    | some es => rfl
    | none => exact (close_of_held?_eq_none hheld).symm
  | documentUpsert => cases e.isStandalone <;> rfl
  | documentRemove => cases e.isStandalone <;> rfl
  | other code => rfl

/-- **A log is a history** of the calls that its entries make. -/
theorem transactions_run_eq_after (pending : Transactions) (log : List LogEntry) :
    (run pending log).1 = after pending (log.filterMap LogEntry.call?) := by
  induction log generalizing pending with
  | nil => rfl
  | cons e es ih =>
    rw [run_cons, filterMap_cons_toList, after_append, ← step_eq_after]
    exact ih (step pending e).1

end Transactions

end Docstore
